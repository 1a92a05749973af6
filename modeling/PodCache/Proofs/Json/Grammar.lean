import PodCache.Json.Tree
import PodCache.Proofs.Json.Tokens

/-!
# The grammar of JSON texts

The octets of JSON values of any depth, by the rules of the grammar (`Piece.Spelled`).  Reading a
text gives a tree exactly when the text is spelled so (`read?_eq_some_iff`).  One direction follows
the rules: each piece takes the machine from one state to another (`Piece.Read`).  The other follows
the machine: a state tells what has been spent on the open containers (`Spent`), and each token
keeps to it.
-/

namespace PodCache.Json

open Ascii

/-- A part of a JSON text. -/
inductive Piece where
  | value (t : Tree)
  /-- A value with white space around it. -/
  | element (t : Tree)
  /-- One element or more. -/
  | elements (ts : List Tree)
  /-- A name and an element. -/
  | member (m : Bytes × Tree)
  /-- One member or more. -/
  | members (ms : List (Bytes × Tree))

/-- The octets of a part of a JSON text. -/
inductive Piece.Spelled : Bytes → Piece → Prop
  | leaf {bytes : Bytes} {t : Token} {leaf : Tree} (ht : t.Spelled bytes)
      (hl : Tree.leaf? t = some leaf) : Spelled bytes (.value leaf)
  | emptyArray {w : Bytes} (hw : Blank w) :
      Spelled (openBracket :: (w ++ [closeBracket])) (.value (.array []))
  | array {bytes : Bytes} {ts : List Tree} (h : Spelled bytes (.elements ts)) :
      Spelled (openBracket :: (bytes ++ [closeBracket])) (.value (.array ts))
  | emptyObject {w : Bytes} (hw : Blank w) :
      Spelled (openBrace :: (w ++ [closeBrace])) (.value (.object []))
  | object {bytes : Bytes} {ms : List (Bytes × Tree)} (h : Spelled bytes (.members ms)) :
      Spelled (openBrace :: (bytes ++ [closeBrace])) (.value (.object ms))
  | element {before bytes after : Bytes} {t : Tree} (hb : Blank before)
      (h : Spelled bytes (.value t)) (ha : Blank after) :
      Spelled (before ++ (bytes ++ after)) (.element t)
  | first {bytes : Bytes} {t : Tree} (h : Spelled bytes (.element t)) :
      Spelled bytes (.elements [t])
  | next {front bytes : Bytes} {ts : List Tree} {t : Tree} (hs : Spelled front (.elements ts))
      (h : Spelled bytes (.element t)) :
      Spelled (front ++ comma :: bytes) (.elements (ts ++ [t]))
  | member {before taken after bytes name : Bytes} {t : Tree} (hb : Blank before)
      (hn : (Token.string name).Spelled taken) (ha : Blank after)
      (h : Spelled bytes (.element t)) :
      Spelled (before ++ (taken ++ (after ++ colon :: bytes))) (.member (name, t))
  | firstMember {bytes : Bytes} {m : Bytes × Tree} (h : Spelled bytes (.member m)) :
      Spelled bytes (.members [m])
  | nextMember {front bytes : Bytes} {ms : List (Bytes × Tree)} {m : Bytes × Tree}
      (hs : Spelled front (.members ms)) (h : Spelled bytes (.member m)) :
      Spelled (front ++ comma :: bytes) (.members (ms ++ [m]))

/-- The octets of a value with white space around it. -/
def Tree.Spelled (t : Tree) (raw : Bytes) : Prop := Piece.Spelled raw (.element t)

namespace Tree

variable {s s' s'' : State} {stack : List Frame} {t : Token} {a b w : Bytes}
  {ok ok' : Bytes → Prop}

/-! ## From the grammar to the machine -/

/-- Octets take the machine from one state to another, if what follows them is `ok`. -/
def Runs (ok : Bytes → Prop) (s : State) (bytes : Bytes) (s' : State) : Prop :=
  ∃ tokens : List Token,
    (∀ rest, ok rest → Token.scan (bytes ++ rest) = (Token.scan rest).map (tokens ++ ·)) ∧
    tokens.foldlM step? s = some s'

theorem Runs.mono (h : Runs ok s a s') (hok : ∀ rest, ok' rest → ok rest) : Runs ok' s a s' := by
  obtain ⟨tokens, hscan, hfold⟩ := h
  exact ⟨tokens, fun rest hr => hscan rest (hok rest hr), hfold⟩

theorem Runs.blank (s : State) (hw : Blank w) : Runs ok s w s :=
  ⟨[], fun rest _ => by simp [scan_blank hw], rfl⟩

theorem Runs.token (ht : t.Spelled a) (hs : step? s t = some s')
    (hok : ∀ n, t = .number n → ∀ rest, ok rest → Halts rest) : Runs ok s a s' :=
  ⟨[t], fun rest hr => scan_token ht fun n hn => hok n hn rest hr, by simp [hs]⟩

theorem Runs.append (h : Runs ok s a s') (h' : Runs ok' s' b s'')
    (hb : ∀ rest, ok' rest → ok (b ++ rest)) : Runs ok' s (a ++ b) s'' := by
  obtain ⟨tokens, hscan, hfold⟩ := h
  obtain ⟨tokens', hscan', hfold'⟩ := h'
  refine ⟨tokens ++ tokens', fun rest hr => ?_, ?_⟩
  · rw [List.append_assoc, hscan _ (hb rest hr), hscan' rest hr, Option.map_map]
    congr 1
    funext ts
    exact (List.append_assoc ..).symm
  · rw [List.foldlM_append, hfold]
    exact hfold'

theorem Runs.blank_append (hw : Blank w) (h : Runs ok s a s') : Runs ok s (w ++ a) s' := by
  obtain ⟨tokens, hscan, hfold⟩ := h
  exact ⟨tokens, fun rest hr => by rw [List.append_assoc, scan_blank hw, hscan rest hr], hfold⟩

/-- A token that is no number may be followed by anything. -/
theorem Runs.cons (ht : t.Spelled a) (hn : ∀ n, t ≠ .number n) (hs : step? s t = some s')
    (h : Runs ok s' b s'') : Runs ok s (a ++ b) s'' := by
  obtain ⟨tokens, hscan, hfold⟩ := h
  refine ⟨t :: tokens, fun rest hr => ?_, by rw [List.foldlM_cons, hs]; exact hfold⟩
  rw [List.append_assoc, scan_token ht fun n h => absurd h (hn n), hscan rest hr, Option.map_map]
  rfl

/-- An array that is not empty begins like the value of its first element. -/
theorem Runs.item {u : Tree} {outer : List Frame}
    (h : Runs ok (.value (.array [] :: stack)) a (.after u outer)) :
    Runs ok (.item stack) a (.after u outer) := by
  obtain ⟨tokens, hscan, hfold⟩ := h
  refine ⟨tokens, hscan, ?_⟩
  cases tokens with
  | nil => cases hfold
  | cons t tokens =>
    cases t with
    | closeArray => cases hfold
    | _ => exact hfold

/-- An object that is not empty begins like one whose next member is due. -/
theorem Runs.member {u : Tree} {outer : List Frame}
    (h : Runs ok (.name [] stack) a (.after u outer)) :
    Runs ok (.member stack) a (.after u outer) := by
  obtain ⟨tokens, hscan, hfold⟩ := h
  refine ⟨tokens, hscan, ?_⟩
  cases tokens with
  | nil => cases hfold
  | cons t tokens =>
    cases t with
    | string raw => exact hfold
    | _ => cases hfold

/-- What may follow the octets of a value: only a number needs an end. -/
def Follows : Tree → Bytes → Prop
  | .number _, rest => Halts rest
  | _, _ => True

theorem Follows.of_halts {u : Tree} {rest : Bytes} (h : Halts rest) : Follows u rest := by
  cases u with
  | number n => exact h
  | _ => trivial

theorem Follows.blank_append {u : Tree} {rest : Bytes} (hw : Blank w) (h : Follows u rest) :
    Follows u (w ++ rest) := by
  cases u with
  | number n => exact Halts.blank_append hw h
  | _ => trivial

theorem Runs.leaf {leaf : Tree} (ht : t.Spelled a) (hl : leaf? t = some leaf) (stack : List Frame) :
    Runs (Follows leaf) (.value stack) a (.after leaf stack) := by
  refine Runs.token ht ?_ ?_
  · cases t <;> first | (cases hl; rfl) | cases hl
  · rintro n rfl rest hr
    cases hl
    exact hr

end Tree

open PodCache.Json.Tree

/-- What a part of a text does to the machine. -/
def Piece.Read : Piece → Bytes → Prop
  | .value t, bytes => ∀ stack, Runs (Follows t) (.value stack) bytes (.after t stack)
  | .element t, bytes => ∀ stack, Runs (Follows t) (.value stack) bytes (.after t stack)
  | .elements ts, bytes => ∀ stack, ∃ done last, ts = (last :: done).reverse ∧
    Runs Halts (.value (.array [] :: stack)) bytes (.after last (.array done :: stack))
  | .member m, bytes => ∀ done stack,
    Runs Halts (.name done stack) bytes (.after m.2 (.object done m.1 :: stack))
  | .members ms, bytes => ∀ stack, ∃ done last, ms = (last :: done).reverse ∧
    Runs Halts (.name [] stack) bytes (.after last.2 (.object done last.1 :: stack))

/-- Each part of a text does what it should, on any stack. -/
theorem Piece.Spelled.read {bytes : Bytes} {p : Piece} (h : p.Spelled bytes) : p.Read bytes := by
  -- What stands before punctuation is never followed by an octet of a number.
  have halts : ∀ {ok : Bytes → Prop} {b : UInt8} (tail : Bytes),
      isDigit b = false ∧ b ≠ point ∧ b ≠ lowerE ∧ b ≠ upperE →
      ∀ rest, ok rest → Halts (b :: tail ++ rest) := fun _ h _ _ => halts_cons h
  induction h with
  | leaf ht hl => exact Runs.leaf ht hl
  | emptyArray hw =>
    exact fun stack => Runs.cons .openArray nofun rfl
      (Runs.blank_append hw (Runs.token .closeArray rfl nofun))
  | emptyObject hw =>
    exact fun stack => Runs.cons .openObject nofun rfl
      (Runs.blank_append hw (Runs.token .closeObject rfl nofun))
  | array _ ih =>
    intro stack
    obtain ⟨done, last, rfl, hrun⟩ := ih stack
    exact Runs.cons .openArray nofun rfl
      (hrun.item.append (Runs.token .closeArray rfl nofun) (halts [] (by decide)))
  | object _ ih =>
    intro stack
    obtain ⟨done, last, rfl, hrun⟩ := ih stack
    exact Runs.cons .openObject nofun rfl
      (hrun.member.append (Runs.token .closeObject rfl nofun) (halts [] (by decide)))
  | element hb _ ha ih =>
    exact fun stack => Runs.blank_append hb
      ((ih stack).append (Runs.blank _ ha) fun _ => Follows.blank_append ha)
  | first _ ih => exact fun stack => ⟨[], _, rfl, (ih _).mono fun _ => Follows.of_halts⟩
  | next _ _ ihs ih =>
    intro stack
    obtain ⟨done, last, rfl, hrun⟩ := ihs stack
    have helement := (ih (.array (last :: done) :: stack)).mono fun _ => Follows.of_halts
    exact ⟨last :: done, _, by simp, hrun.append (Runs.cons .comma nofun rfl helement)
      (halts _ (by decide))⟩
  | member hb hn ha _ ih =>
    exact fun done stack => Runs.blank_append hb (Runs.cons hn nofun rfl
      (Runs.blank_append ha (Runs.cons .colon nofun rfl ((ih _).mono fun _ => Follows.of_halts))))
  | firstMember _ ih => exact fun stack => ⟨[], _, rfl, ih [] stack⟩
  | nextMember _ _ ihs ih =>
    intro stack
    obtain ⟨done, last, rfl, hrun⟩ := ihs stack
    exact ⟨last :: done, _, by simp, hrun.append (Runs.cons .comma nofun rfl (ih _ stack))
      (halts _ (by decide))⟩

/-! ## From the machine to the grammar -/

/-- What an open container holds, up to the place of its next part. -/
def Lead {α : Type} (parts : List α → Piece) (done : List α) (bytes : Bytes) : Prop :=
  done = [] ∧ bytes = [] ∨ ∃ front, bytes = front ++ [comma] ∧ (parts done.reverse).Spelled front

theorem Lead.elements {done : List Tree} {front bytes : Bytes} {t : Tree}
    (h : Lead .elements done front) (ht : t.Spelled bytes) :
    (Piece.elements (t :: done).reverse).Spelled (front ++ bytes) := by
  rcases h with ⟨rfl, rfl⟩ | ⟨front, rfl, h⟩
  · exact .first ht
  · simpa using Piece.Spelled.next h ht

theorem Lead.members {done : List (Bytes × Tree)} {front bytes : Bytes} {m : Bytes × Tree}
    (h : Lead .members done front) (hm : (Piece.member m).Spelled bytes) :
    (Piece.members (m :: done).reverse).Spelled (front ++ bytes) := by
  rcases h with ⟨rfl, rfl⟩ | ⟨front, rfl, h⟩
  · exact .firstMember hm
  · simpa using Piece.Spelled.nextMember h hm

/-- A name with white space around it. -/
def Header (name bytes : Bytes) : Prop :=
  ∃ before taken after, bytes = before ++ (taken ++ after) ∧ Blank before ∧
    (Token.string name).Spelled taken ∧ Blank after

theorem Header.member {name header bytes : Bytes} {t : Tree} (h : Header name header)
    (ht : t.Spelled bytes) :
    (Piece.member (name, t)).Spelled (header ++ colon :: bytes) := by
  obtain ⟨before, taken, after, rfl, hb, hn, ha⟩ := h
  simpa using Piece.Spelled.member hb hn ha ht

/-- What has been spent on open containers, up to the place of a value. -/
inductive Opened : List Frame → Bytes → Prop
  | root : Opened [] []
  | array {stack : List Frame} {done : List Tree} {front w lead : Bytes} (h : Opened stack front)
      (hw : Blank w) (hl : Lead .elements done lead) :
      Opened (.array done :: stack) (front ++ (w ++ openBracket :: lead))
  | object {stack : List Frame} {done : List (Bytes × Tree)} {name front w lead header : Bytes}
      (h : Opened stack front) (hw : Blank w) (hl : Lead .members done lead)
      (hn : Header name header) :
      Opened (.object done name :: stack)
        (front ++ (w ++ openBrace :: (lead ++ (header ++ [colon]))))

/-- What has been spent when the machine is in a state. -/
inductive Spent : State → Bytes → Prop
  | value {stack : List Frame} {front w : Bytes} (h : Opened stack front) (hw : Blank w) :
      Spent (.value stack) (front ++ w)
  | item {stack : List Frame} {front w w' : Bytes} (h : Opened stack front) (hw : Blank w)
      (hw' : Blank w') : Spent (.item stack) (front ++ (w ++ openBracket :: w'))
  | member {stack : List Frame} {front w w' : Bytes} (h : Opened stack front) (hw : Blank w)
      (hw' : Blank w') : Spent (.member stack) (front ++ (w ++ openBrace :: w'))
  | name {stack : List Frame} {done : List (Bytes × Tree)} {front w lead w' : Bytes}
      (h : Opened stack front) (hw : Blank w) (hl : Lead .members done lead) (hw' : Blank w') :
      Spent (.name done stack) (front ++ (w ++ openBrace :: (lead ++ w')))
  | colon {stack : List Frame} {done : List (Bytes × Tree)} {name front w lead header : Bytes}
      (h : Opened stack front) (hw : Blank w) (hl : Lead .members done lead)
      (hn : Header name header) :
      Spent (.colon done name stack) (front ++ (w ++ openBrace :: (lead ++ header)))
  | after {stack : List Frame} {front bytes : Bytes} {t : Tree} (h : Opened stack front)
      (ht : t.Spelled bytes) : Spent (.after t stack) (front ++ bytes)

theorem Blank.append {w w' : Bytes} (h : Blank w) (h' : Blank w') : Blank (w ++ w') :=
  List.forall_mem_append.2 ⟨h, h'⟩

theorem Tree.Spelled.append_blank {t : Tree} {bytes w : Bytes} (h : t.Spelled bytes)
    (hw : Blank w) : t.Spelled (bytes ++ w) := by
  cases h with
  | element hb h ha => simpa [Tree.Spelled] using Piece.Spelled.element hb h (ha.append hw)

theorem Header.append_blank {name bytes w : Bytes} (h : Header name bytes) (hw : Blank w) :
    Header name (bytes ++ w) := by
  obtain ⟨before, taken, after, rfl, hb, hn, ha⟩ := h
  exact ⟨before, taken, after ++ w, by simp, hb, hn, ha.append hw⟩

theorem Spent.blank {s : State} {bytes w : Bytes} (h : Spent s bytes) (hw : Blank w) :
    Spent s (bytes ++ w) := by
  cases h with
  | value h hv => simpa using Spent.value h (hv.append hw)
  | item h hv hv' => simpa using Spent.item h hv (hv'.append hw)
  | member h hv hv' => simpa using Spent.member h hv (hv'.append hw)
  | name h hv hl hv' => simpa using Spent.name h hv hl (hv'.append hw)
  | colon h hv hl hn => simpa using Spent.colon h hv hl (hn.append_blank hw)
  | after h ht => simpa using Spent.after h (ht.append_blank hw)

/-- The first token of a value. -/
theorem Spent.begin {stack : List Frame} {front w taken : Bytes} {t : Token} {s : State}
    (h : Opened stack front) (hw : Blank w) (ht : t.Spelled taken)
    (hs : begin? stack t = some s) : Spent s (front ++ (w ++ taken)) := by
  unfold begin? at hs
  split at hs
  · obtain rfl := Option.some.inj hs
    cases ht
    exact .item h hw blank_nil
  · obtain rfl := Option.some.inj hs
    cases ht
    exact .member h hw blank_nil
  · obtain ⟨leaf, hl, rfl⟩ := Option.map_eq_some_iff.1 hs
    simpa using Spent.after h (.element hw (.leaf ht hl) blank_nil)

/-- Each token keeps to what has been spent. -/
theorem Spent.step {s s' : State} {bytes taken : Bytes} {t : Token} (h : Spent s bytes)
    (ht : t.Spelled taken) (hs : step? s t = some s') : Spent s' (bytes ++ taken) := by
  unfold step? at hs
  split at hs
  · -- A value begins.
    cases h with
    | value h hw => simpa using Spent.begin h hw ht hs
  · -- An array without elements ends.
    obtain rfl := Option.some.inj hs
    cases ht
    cases h with
    | item h hw hw' => simpa using Spent.after h (.element hw (.emptyArray hw') blank_nil)
  · -- The first element of an array begins.
    cases h with
    | item h hw hw' =>
      simpa using Spent.begin (.array h hw (.inl ⟨rfl, rfl⟩)) hw' ht hs
  · -- An object without members ends.
    obtain rfl := Option.some.inj hs
    cases ht
    cases h with
    | member h hw hw' => simpa using Spent.after h (.element hw (.emptyObject hw') blank_nil)
  · -- The first name of an object.
    obtain rfl := Option.some.inj hs
    cases h with
    | member h hw hw' =>
      simpa using Spent.colon h hw (.inl ⟨rfl, rfl⟩) ⟨_, _, _, rfl, hw', ht, blank_nil⟩
  · -- The next name of an object.
    obtain rfl := Option.some.inj hs
    cases h with
    | name h hw hl hw' =>
      simpa using Spent.colon h hw hl ⟨_, _, _, rfl, hw', ht, blank_nil⟩
  · -- The colon of a member.
    obtain rfl := Option.some.inj hs
    cases ht
    cases h with
    | colon h hw hl hn => simpa using Spent.value (.object h hw hl hn) blank_nil
  · -- A comma between elements.
    obtain rfl := Option.some.inj hs
    cases ht
    cases h with
    | after h hv =>
      cases h with
      | array h hw hl =>
        simpa using Spent.value (.array h hw (.inr ⟨_, rfl, hl.elements hv⟩)) blank_nil
  · -- An array ends.
    obtain rfl := Option.some.inj hs
    cases ht
    cases h with
    | after h hv =>
      cases h with
      | array h hw hl =>
        simpa using Spent.after h (.element hw (.array (hl.elements hv)) blank_nil)
  · -- A comma between members.
    obtain rfl := Option.some.inj hs
    cases ht
    cases h with
    | after h hv =>
      cases h with
      | object h hw hl hn =>
        simpa using Spent.name h hw (.inr ⟨_, rfl, hl.members (hn.member hv)⟩) blank_nil
  · -- An object ends.
    obtain rfl := Option.some.inj hs
    cases ht
    cases h with
    | after h hv =>
      cases h with
      | object h hw hl hn =>
        simpa using Spent.after h (.element hw (.object (hl.members (hn.member hv))) blank_nil)
  · cases hs

theorem Spent.run {s s' : State} {bytes rest : Bytes} {tokens : List Token} (h : Spent s bytes)
    (hr : Scanned rest tokens) (hs : tokens.foldlM step? s = some s') :
    Spent s' (bytes ++ rest) := by
  induction hr generalizing s bytes with
  | nil hw =>
    obtain rfl := Option.some.inj hs
    exact h.blank hw
  | cons hw ht _ ih =>
    rw [List.foldlM_cons] at hs
    obtain ⟨s₁, hs₁, hs⟩ := Option.bind_eq_some_iff.1 hs
    simpa using ih ((h.blank hw).step ht hs₁) hs

/-! ## Reading -/

/-- Reading a text gives the value that it spells, and nothing if it spells none. -/
theorem read?_eq_some_iff {raw : Bytes} {t : Tree} : Tree.read? raw = some t ↔ t.Spelled raw := by
  constructor
  · intro h
    obtain ⟨tokens, hscan, htree⟩ := Option.bind_eq_some_iff.1 h
    unfold ofTokens? at htree
    split at htree
    · rename_i t' hfold
      obtain rfl := Option.some.inj htree
      -- In the end no container is open, so all that is spent is the value.
      have hspent := (Spent.value .root blank_nil).run (scanned_of_scan hscan) hfold
      cases hspent with
      | after hroot ht =>
        cases hroot
        exact ht
    · cases htree
  · intro h
    obtain ⟨tokens, hscan, hfold⟩ := h.read []
    have hall := hscan [] (Follows.of_halts halts_nil)
    rw [List.append_nil, Token.scan, Option.map_some, List.append_nil] at hall
    rw [Tree.read?, hall, Option.bind_some, ofTokens?, hfold]

theorem spelled_unique {raw : Bytes} {t u : Tree} (h : t.Spelled raw) (h' : u.Spelled raw) :
    t = u :=
  Option.some.inj ((read?_eq_some_iff.2 h).symm.trans (read?_eq_some_iff.2 h'))

/-- Nothing but white space may follow a value.  The digits of a number may go on, though. -/
theorem blank_of_read?_append {raw extra : Bytes} {t u : Tree} (h : t.Spelled raw)
    (hn : ∀ n, t ≠ .number n) (hu : Tree.read? (raw ++ extra) = some u) : Blank extra := by
  obtain ⟨tokens, hscan, hfold⟩ := h.read []
  obtain ⟨all, hall, hu⟩ := Option.bind_eq_some_iff.1 hu
  have hfollows : Follows t extra := by
    cases t with
    | number n => exact absurd rfl (hn n)
    | _ => trivial
  rw [hscan extra hfollows] at hall
  obtain ⟨more, hmore, rfl⟩ := Option.map_eq_some_iff.1 hall
  cases more with
  | nil =>
    cases scanned_of_scan hmore with
    | nil hw => exact hw
  | cons t' more =>
    -- After a whole value outside containers the machine takes no token.
    have hstop : (tokens ++ t' :: more).foldlM step? (.value []) = none := by
      rw [List.foldlM_append, hfold]
      rfl
    rw [ofTokens?, hstop] at hu
    cases hu

end PodCache.Json
