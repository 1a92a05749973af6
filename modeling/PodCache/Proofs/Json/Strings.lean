import PodCache.Proofs.Json.Literal

/-!
# The grammar of JSON strings

What may stand between two quotes (`StringBody`), and which characters it stands for (`Denotes`).
The scanner accepts exactly the former (`scanString_eq_some_iff`), and reading gives exactly the
latter (`unquote?_eq_some_iff`).
-/

namespace PodCache.Json

open Ascii Text

/-- Octets that may stand between the quotes of a string.  Controls are refused, and escapes are
complete; nothing is asked of the other octets. -/
inductive StringBody : Bytes → Prop
  | nil : StringBody []
  | plain {b : UInt8} {rest : Bytes} (hq : b ≠ Ascii.quote) (hb : b ≠ backslash)
      (hs : ¬ b < space) (h : StringBody rest) : StringBody (b :: rest)
  | short {e : UInt8} {rest : Bytes} (he : isShortEscape e = true) (h : StringBody rest) :
      StringBody (backslash :: e :: rest)
  | unicode {a b c d : UInt8} {rest : Bytes} (ha : isHexDigit a = true) (hb : isHexDigit b = true)
      (hc : isHexDigit c = true) (hd : isHexDigit d = true) (h : StringBody rest) :
      StringBody (backslash :: lowerU :: a :: b :: c :: d :: rest)

/-- The characters that octets between quotes stand for.  Characters stand as UTF-8 in its shortest
form or as escapes, and surrogates come in pairs. -/
inductive Denotes : Bytes → List Char → Prop
  | nil : Denotes [] []
  | plain {c : Char} {rest : Bytes} {cs : List Char} (hc : c ≠ '\\') (h : Denotes rest cs) :
      Denotes (Utf8.encodeChar c ++ rest) (c :: cs)
  | short {e : UInt8} {c : Char} {rest : Bytes} {cs : List Char} (he : shortEscape? e = some c)
      (h : Denotes rest cs) : Denotes (backslash :: e :: rest) (c :: cs)
  | unicode {a b c d : UInt8} {n : Nat} {rest : Bytes} {cs : List Char}
      (hn : hexQuad? a b c d = some n) (hv : n < 0xD800 ∨ 0xDFFF < n) (h : Denotes rest cs) :
      Denotes (backslash :: lowerU :: a :: b :: c :: d :: rest) (Char.ofNat n :: cs)
  | surrogates {a b c d e f g h : UInt8} {n m : Nat} {rest : Bytes} {cs : List Char}
      (hn : hexQuad? a b c d = some n) (hm : hexQuad? e f g h = some m)
      (hhigh : 0xD800 ≤ n ∧ n ≤ 0xDBFF) (hlow : 0xDC00 ≤ m ∧ m ≤ 0xDFFF) (hr : Denotes rest cs) :
      Denotes (backslash :: lowerU :: a :: b :: c :: d ::
          backslash :: lowerU :: e :: f :: g :: h :: rest)
        (Char.ofNat (0x10000 + (n - 0xD800) * 1024 + (m - 0xDC00)) :: cs)

/-! ## Scanning -/

theorem scanString_of_stringBody {raw : Bytes} (h : StringBody raw) (rest : Bytes) :
    Token.scanString (raw ++ Ascii.quote :: rest) = some (raw, rest) := by
  induction h with
  | nil => exact Token.scanString.eq_2 rest
  | plain hq hb hs _ ih =>
    rw [List.cons_append, scanString_plain hq hb hs, ih]
    rfl
  | short he _ ih =>
    rw [List.cons_append, List.cons_append, scanString_shortEscape he, ih]
    rfl
  | unicode ha hb hc hd _ ih =>
    simp only [List.cons_append]
    rw [scanString_unicodeEscape ha hb hc hd, ih]
    rfl

theorem map_fst_eq_some_iff {α β γ : Type} {x : Option (α × γ)} {f : α → β} {b : β} {c : γ} :
    (x.map fun r => (f r.1, r.2)) = some (b, c) ↔ ∃ a, x = some (a, c) ∧ f a = b := by
  rcases x with _ | ⟨a, c'⟩
  · simp
  · simp only [Option.map_some, Option.some.injEq, Prod.mk.injEq]
    constructor
    · rintro ⟨h, rfl⟩
      exact ⟨a, ⟨rfl, rfl⟩, h⟩
    · rintro ⟨_, ⟨rfl, rfl⟩, h⟩
      exact ⟨h, rfl⟩

theorem stringBody_of_scanString {bytes raw rest : Bytes}
    (h : Token.scanString bytes = some (raw, rest)) :
    StringBody raw ∧ bytes = raw ++ Ascii.quote :: rest := by
  fun_induction Token.scanString bytes generalizing raw rest with
  | case1 => cases h
  | case2 tail =>
    obtain ⟨rfl, rfl⟩ := Prod.mk.inj (Option.some.inj h)
    exact ⟨.nil, rfl⟩
  | case3 a b c d tail hex ih =>
    obtain ⟨raw', hr, rfl⟩ :=
      (map_fst_eq_some_iff (f := (backslash :: lowerU :: a :: b :: c :: d :: ·))).1 h
    obtain ⟨hbody, rfl⟩ := ih hr
    simp only [Bool.and_eq_true] at hex
    obtain ⟨⟨⟨ha, hb⟩, hc⟩, hd⟩ := hex
    exact ⟨.unicode ha hb hc hd hbody, rfl⟩
  | case4 => cases h
  | case5 e tail _ hs ih =>
    obtain ⟨raw', hr, rfl⟩ := (map_fst_eq_some_iff (f := (backslash :: e :: ·))).1 h
    obtain ⟨hbody, rfl⟩ := ih hr
    exact ⟨.short hs hbody, rfl⟩
  | case6 => cases h
  | case7 => cases h
  | case8 b tail hq _ _ hb ih =>
    obtain ⟨raw', hr, rfl⟩ := map_fst_eq_some_iff.1 h
    obtain ⟨hbody, rfl⟩ := ih hr
    simp only [Bool.or_eq_true, beq_iff_eq, decide_eq_true_eq, not_or] at hb
    exact ⟨.plain hq hb.1 hb.2 hbody, rfl⟩

/-- The scanner takes what may stand between quotes, up to the closing quote. -/
theorem scanString_eq_some_iff {bytes raw rest : Bytes} :
    Token.scanString bytes = some (raw, rest) ↔
      StringBody raw ∧ bytes = raw ++ Ascii.quote :: rest := by
  constructor
  · exact stringBody_of_scanString
  · rintro ⟨h, rfl⟩
    exact scanString_of_stringBody h rest

/-! ## Reading -/

theorem readEscape?_surrogates {a b c d e f g h : UInt8} {n m : Nat}
    (hn : hexQuad? a b c d = some n) (hm : hexQuad? e f g h = some m)
    (hhigh : 0xD800 ≤ n ∧ n ≤ 0xDBFF) (hlow : 0xDC00 ≤ m ∧ m ≤ 0xDFFF) (t : Bytes) :
    readEscape? (lowerU :: a :: b :: c :: d :: backslash :: lowerU :: e :: f :: g :: h :: t) =
      some (Char.ofNat (0x10000 + (n - 0xD800) * 1024 + (m - 0xDC00)), t) := by
  show (hexQuad? a b c d).bind _ = _
  rw [hn, Option.bind_some, if_neg (by omega), if_pos (by omega)]
  show (hexQuad? e f g h).bind _ = _
  rw [hm, Option.bind_some, if_pos hlow]
  rfl

theorem unquoteChars?_of_denotes {raw : Bytes} {cs : List Char} (h : Denotes raw cs) :
    unquoteChars? raw = some cs := by
  have escaped : ∀ {tail rest : Bytes} {c : Char} {cs : List Char},
      readEscape? tail = some (c, rest) → unquoteChars? rest = some cs →
      unquoteChars? (backslash :: tail) = some (c :: cs) := by
    intro tail rest c cs hr hcs
    rw [unquoteChars?_cons (by rw [readChar?, if_pos rfl, hr]), hcs]
    rfl
  induction h with
  | nil => rw [unquoteChars?]
  | @plain c rest cs hc _ ih =>
    obtain ⟨b, tail, hb, hr⟩ := Utf8.readChar_encodeChar c rest
    have hne : b ≠ backslash := by
      rintro rfl
      obtain ⟨hc', -⟩ := Prod.mk.inj hr
      exact hc (Option.some.inj hc').symm
    rw [hb, List.cons_append, unquoteChars?_cons (c := c) (by rw [readChar?, if_neg hne, hr]), ih]
    rfl
  | short he _ ih => exact escaped (readEscape?_short he _) ih
  | unicode hn hv _ ih => exact escaped (readEscape?_unicode hn hv _) ih
  | surrogates hn hm hhigh hlow _ ih => exact escaped (readEscape?_surrogates hn hm hhigh hlow _) ih

theorem denotes_cons_of_readEscape? {bytes rest : Bytes} {c : Char} {cs : List Char}
    (h : readEscape? bytes = some (c, rest)) (hr : Denotes rest cs) :
    Denotes (backslash :: bytes) (c :: cs) := by
  unfold readEscape? at h
  split at h
  · obtain ⟨n, hn, h⟩ := Option.bind_eq_some_iff.1 h
    split_ifs at h with hv hhigh
    · obtain ⟨rfl, rfl⟩ := Prod.mk.inj (Option.some.inj h)
      exact .unicode hn hv hr
    · split at h
      · obtain ⟨m, hm, h⟩ := Option.bind_eq_some_iff.1 h
        split_ifs at h with hlow
        obtain ⟨rfl, rfl⟩ := Prod.mk.inj (Option.some.inj h)
        exact .surrogates hn hm (by omega) hlow hr
      · cases h
  · obtain ⟨c', he, h⟩ := Option.map_eq_some_iff.1 h
    obtain ⟨rfl, rfl⟩ := Prod.mk.inj h
    exact .short he hr
  · cases h

theorem denotes_cons_of_readChar? {b : UInt8} {bytes rest : Bytes} {c : Char} {cs : List Char}
    (h : readChar? b bytes = some (c, rest)) (hr : Denotes rest cs) :
    Denotes (b :: bytes) (c :: cs) := by
  unfold readChar? at h
  split_ifs at h with hb
  · exact hb ▸ denotes_cons_of_readEscape? h hr
  · split at h
    · rename_i c' rest' heq
      obtain ⟨rfl, rfl⟩ := Prod.mk.inj (Option.some.inj h)
      have hbytes := Utf8.eq_append_of_readChar heq
      rw [hbytes]
      refine .plain ?_ hr
      rintro rfl
      exact hb (List.cons.inj hbytes).1
    · cases h

theorem denotes_of_unquoteChars? {raw : Bytes} {cs : List Char}
    (h : unquoteChars? raw = some cs) : Denotes raw cs := by
  fun_induction unquoteChars? raw generalizing cs with
  | case1 =>
    obtain rfl := Option.some.inj h
    exact .nil
  | case2 => cases h
  | case3 b rest c rest' hc _ ih =>
    obtain ⟨cs', hcs, rfl⟩ := Option.map_eq_some_iff.1 h
    exact denotes_cons_of_readChar? hc (ih hcs)

/-- Reading the octets between two quotes gives the text that they stand for. -/
theorem unquote?_eq_some_iff {raw : Bytes} {s : String} :
    unquote? raw = some s ↔ Denotes raw s.toList := by
  rw [unquote?, Option.map_eq_some_iff]
  constructor
  · rintro ⟨cs, hcs, rfl⟩
    rw [String.toList_ofList]
    exact denotes_of_unquoteChars? hcs
  · exact fun h => ⟨_, unquoteChars?_of_denotes h, String.ofList_toList⟩

theorem denotes_unique {raw : Bytes} {s s' : String} (h : Denotes raw s.toList)
    (h' : Denotes raw s'.toList) : s = s' :=
  Option.some.inj ((unquote?_eq_some_iff.2 h).symm.trans (unquote?_eq_some_iff.2 h'))

end PodCache.Json
