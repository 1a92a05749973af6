import Mathlib
import PodCache.Proofs.Url.Host
import PodCache.Proofs.Url.Path
import PodCache.Url.Basic

/-!
# Reading back URLs

A URL with a host is written as it was read (`written_of_parse`): no part holds a character that
ends it.  So its text is read as the same URL again (`Written.parse_render`), if domain names are
read back.
-/

namespace PodCache.Url

open Percent Text

variable {limits : Limits} {scheme text rest : List Char} {c : Char} {last : Bool} {a : Authority}
  {u : Url}

/-! ## Written URLs -/

/-- A scheme in small letters. -/
structure IsScheme (scheme : List Char) : Prop where
  head : scheme.head?.any Char.isAlpha = true
  char : ∀ c ∈ scheme, isSchemeChar c = true
  lower : scheme.map Char.toLower = scheme

/-- An authority as it is written. -/
structure Authority.Written (limits : Limits) (scheme : List Char) (a : Authority) : Prop where
  username : ∀ c ∈ a.username, userinfoSet c = false
  password : ∀ c ∈ a.password, userinfoSet c = false
  host : a.host.Written limits (isSpecial scheme)
  port : ∀ port ∈ a.port, port ≤ 65535 ∧ defaultPort? scheme ≠ some port

/-- A path as it is written after an authority; only a special scheme always has one. -/
def PathWritten (scheme path : List Char) : Prop :=
  Path.Written (isSpecial scheme) path ∨ isSpecial scheme = false ∧ path = []

/-- A URL with a host as it is written. -/
structure Written (limits : Limits) (u : Url) (a : Authority) : Prop where
  authority : u.authority = some a
  notFile : isFile u.scheme = false
  notEmpty : a.host.isEmpty = false
  scheme : IsScheme u.scheme
  named : a.Written limits u.scheme
  path : PathWritten u.scheme u.path
  query : ∀ q ∈ u.query, ∀ c ∈ q, querySet (isSpecial u.scheme) c = false
  fragment : ∀ f ∈ u.fragment, ∀ c ∈ f, fragmentSet c = false

/-! ## What is read -/

theorem isSchemeChar_toLower (h : isSchemeChar c = true) : isSchemeChar c.toLower = true := by
  by_cases hupper : c.isUpper = true
  · have halpha : c.toLower.isAlpha = true := by
      rw [Char.isAlpha_toLower_eq_isAlpha]
      change (c.isUpper || c.isLower) = true
      rw [hupper, Bool.true_or]
    simp [isSchemeChar, Char.isAlphanum, halpha]
  · rw [Char.toLower_eq_of_not_isUpper hupper]
    exact h

theorem isScheme_of_cutScheme? (h : cutScheme? text = some (scheme, rest)) : IsScheme scheme := by
  unfold cutScheme? at h
  split at h
  · dsimp only at h
    split_ifs at h with hscheme
    obtain ⟨rfl, rfl⟩ := Prod.mk.inj (Option.some.inj h)
    obtain ⟨hhead, hchars⟩ := hscheme
    rw [List.all_eq_true] at hchars
    refine ⟨?_, fun c hc => ?_, ?_⟩
    · rw [List.head?_map]
      revert hhead hchars
      cases Path.plain _ with
      | nil => exact fun h _ => h
      | cons d ds =>
        intro hhead hchars
        simpa using hhead
    · obtain ⟨d, hd, rfl⟩ := List.mem_map.1 hc
      exact isSchemeChar_toLower (hchars d hd)
    · rw [List.map_map]
      exact List.map_congr_left fun d _ => Char.toLower_toLower_eq_toLower d
  · cases h

theorem port_of_cutPort {port : Option Nat} (h : cutPort scheme text = .ok (port, rest)) :
    ∀ n ∈ port, n ≤ 65535 ∧ defaultPort? scheme ≠ some n := by
  unfold cutPort at h
  dsimp only at h
  split_ifs at h with hlarge hrest hport
  · obtain ⟨rfl, rfl⟩ := Prod.mk.inj (Except.ok.inj h)
    nofun
  · obtain ⟨rfl, rfl⟩ := Prod.mk.inj (Except.ok.inj h)
    rintro n ⟨⟩
    exact ⟨by omega, fun hdefault => hport (.inr hdefault)⟩

theorem written_of_parseAuthority (h : parseAuthority limits scheme last text = .ok (a, rest)) :
    a.Written limits scheme := by
  unfold parseAuthority at h
  simp only [bind, Except.bind, throw, throwThe, MonadExceptOf.throw, pure, Except.pure] at h
  split_ifs at h
  split at h
  · cases h
  rename_i hhost
  split_ifs at h
  · split at h <;> cases h
  split at h
  · cases h
  rename_i hport
  obtain ⟨rfl, rfl⟩ := Prod.mk.inj (Except.ok.inj h)
  exact ⟨fun c => proper_userinfoSet.encode, fun c => proper_userinfoSet.encode,
    Host.written_of_parse hhost, port_of_cutPort hport⟩

theorem written_of_parseHierarchy {path : List Char} {authority : Option Authority}
    (h : parseHierarchy limits scheme last text = .ok (authority, path)) (ha : authority = some a) :
    a.Written limits scheme ∧ PathWritten scheme path := by
  unfold parseHierarchy at h
  simp only [bind, Except.bind, pure, Except.pure] at h
  split at h
  · cases h
  rename_i hauthority
  obtain ⟨rfl, rfl⟩ := Prod.mk.inj (Except.ok.inj h)
  obtain rfl := Option.some.inj ha
  refine ⟨written_of_parseAuthority hauthority, ?_⟩
  split_ifs with hempty
  · exact .inr ⟨hempty.2, rfl⟩
  · exact .inl (Path.written_read _ _)

theorem written_of_parseBody {path : List Char} {authority : Option Authority}
    (h : parseBody limits scheme last text = .ok (authority, path)) (hf : isFile scheme = false)
    (ha : authority = some a) : a.Written limits scheme ∧ PathWritten scheme path := by
  unfold parseBody at h
  dsimp only at h
  rw [hf, if_neg Bool.false_ne_true] at h
  split_ifs at h
  · exact written_of_parseHierarchy h ha
  · split at h
    · exact written_of_parseHierarchy h ha
    · obtain ⟨rfl, rfl⟩ := Prod.mk.inj (Except.ok.inj h)
      cases ha
    · obtain ⟨rfl, rfl⟩ := Prod.mk.inj (Except.ok.inj h)
      cases ha

theorem written_of_parse (h : parse limits text = .ok u) (ha : u.authority = some a)
    (hf : isFile u.scheme = false) (hne : a.host.isEmpty = false) : Written limits u a := by
  unfold parse at h
  split at h
  · cases h
  rename_i hscheme
  simp only [bind, Except.bind, pure, Except.pure] at h
  split at h
  · cases h
  rename_i hbody
  obtain rfl := Except.ok.inj h
  obtain ⟨hnamed, hpath⟩ := written_of_parseBody hbody hf ha
  refine ⟨ha, hf, hne, isScheme_of_cutScheme? hscheme, hnamed, hpath, ?_, ?_⟩
  · intro q hq c hc
    obtain ⟨raw, -, rfl⟩ := Option.map_eq_some_iff.1 hq
    exact (proper_querySet _).encode hc
  · intro f hf c hc
    obtain ⟨raw, -, rfl⟩ := Option.map_eq_some_iff.1 hf
    exact proper_fragmentSet.encode hc

/-! ## Characters of the parts -/

/-- A character that ends an authority, or that stands for nothing. -/
def isMark (c : Char) : Bool := ['#', '?', '/', '\\'].contains c || c.toNat ≤ 0x20

theorem isMark_eq_false (hs : c ≠ '#' ∧ c ≠ '?' ∧ c ≠ '/' ∧ c ≠ '\\') (hgt : 0x20 < c.toNat) :
    isMark c = false := by
  obtain ⟨h₁, h₂, h₃, h₄⟩ := hs
  simp [isMark, h₁, h₂, h₃, h₄, hgt]

/-- A character outside a set that holds the controls and the space. -/
theorem gt_of_set {set : Char → Bool} (hall : ∀ n < 0x21, set (Char.ofNat n) = true)
    (h : set c = false) : 0x20 < c.toNat := by
  by_contra hle
  rw [← Char.ofNat_toNat c, hall c.toNat (by omega)] at h
  cases h

theorem gt_of_fragmentSet (h : fragmentSet c = false) : 0x20 < c.toNat :=
  gt_of_set (by decide) h

theorem gt_of_querySet {special : Bool} (h : querySet special c = false) : 0x20 < c.toNat :=
  gt_of_set (by cases special <;> decide) h

theorem ne_of_set {set : Char → Bool} {d : Char} (h : set c = false) (hd : set d = true) :
    c ≠ d := by
  rintro rfl
  rw [hd] at h
  cases h

theorem gt_of_pathSet (h : pathSet c = false) : 0x20 < c.toNat := by
  simp only [pathSet, Bool.or_eq_false_iff] at h
  exact gt_of_fragmentSet h.1

theorem isMark_of_userinfoSet (h : userinfoSet c = false) : isMark c = false := by
  have hpath : pathSet c = false := by
    simp only [userinfoSet, Bool.or_eq_false_iff] at h
    exact h.1
  exact isMark_eq_false ⟨ne_of_set h rfl, ne_of_set h rfl, ne_of_set h rfl, ne_of_set h rfl⟩
    (gt_of_pathSet hpath)

theorem isMark_of_forbidden (h : Host.forbidden c = false) (hge : 0x20 ≤ c.toNat) :
    isMark c = false := by
  refine isMark_eq_false ⟨ne_of_set h rfl, ne_of_set h rfl, ne_of_set h rfl, ne_of_set h rfl⟩ ?_
  have hspace : c.toNat ≠ 0x20 := by
    intro he
    rw [← Char.ofNat_toNat c, he] at h
    cases h
  omega

theorem ge_of_forbiddenInDomain (h : Host.forbiddenInDomain c = false) : 0x20 ≤ c.toNat := by
  simp only [Host.forbiddenInDomain, Bool.or_eq_false_iff, decide_eq_false_iff_not] at h
  omega

/-- Nothing in a host ends it. -/
theorem isMark_of_host {special : Bool} {host : Host} (h : host.Written limits special) :
    ∀ c ∈ host.render, isMark c = false ∧ c ≠ '@' := by
  intro c hc
  cases h with
  | name hf he =>
    have hge : 0x20 ≤ c.toNat := by
      have hcontrols := he c hc
      simp only [controls, Bool.or_eq_false_iff, decide_eq_false_iff_not] at hcontrols
      omega
    exact ⟨isMark_of_forbidden (hf c hc) hge, ne_of_set (hf c hc) rfl⟩
  | domain _ hf _ _ =>
    have hforbidden := Host.forbidden_of_forbiddenInDomain (hf c hc)
    exact ⟨isMark_of_forbidden hforbidden (ge_of_forbiddenInDomain (hf c hc)),
      ne_of_set hforbidden rfl⟩
  | ipv4 _ =>
    have hallowed := (Host.allowed_ipv4 _ c hc).1
    have hforbidden := Host.forbidden_of_forbiddenInDomain hallowed
    exact ⟨isMark_of_forbidden hforbidden (ge_of_forbiddenInDomain hallowed),
      ne_of_set hforbidden rfl⟩
  | ipv6 _ =>
    have hall : ∀ d < 16, isMark (Nat.digitChar d) = false ∧ Nat.digitChar d ≠ '@' := by decide
    simp only [Host.render, List.mem_append, List.mem_cons, List.not_mem_nil, or_false] at hc
    rcases hc with (rfl | hc) | rfl
    · decide
    · rcases Ipv6.mem_render hc with rfl | ⟨d, hd, rfl⟩
      · decide
      · exact hall d hd
    · decide

/-! ## Reading back authorities -/

theorem cutHost_append {inside : Bool}
    (h : ∀ c ∈ text, (inside = false → c ≠ ':') ∧ c ≠ '[' ∧ c ≠ ']') (rest : List Char) :
    cutHost inside (text ++ rest) =
      (text ++ (cutHost inside rest).1, (cutHost inside rest).2) := by
  induction text with
  | nil => rfl
  | cons c text ih =>
    obtain ⟨⟨hcolon, hopen, hclose⟩, htext⟩ := List.forall_mem_cons.1 h
    rw [List.cons_append, cutHost, if_neg fun hc => hcolon hc.2 hc.1, if_neg hopen, if_neg hclose,
      ih htext]
    rfl

theorem cutHost_of_name (h : ∀ c ∈ text, Host.forbidden c = false)
    (hrest : cutHost false rest = ([], rest)) : cutHost false (text ++ rest) = (text, rest) := by
  rw [cutHost_append fun c hc => ⟨fun _ => ne_of_set (h c hc) rfl, ne_of_set (h c hc) rfl,
    ne_of_set (h c hc) rfl⟩, hrest, List.append_nil]

theorem cutHost_render {special : Bool} {host : Host} (h : host.Written limits special)
    (hrest : cutHost false rest = ([], rest)) :
    cutHost false (host.render ++ rest) = (host.render, rest) := by
  cases h with
  | name hf _ => exact cutHost_of_name hf hrest
  | domain _ hf _ _ =>
    exact cutHost_of_name (fun c hc => Host.forbidden_of_forbiddenInDomain (hf c hc)) hrest
  | ipv4 _ =>
    exact cutHost_of_name
      (fun c hc => Host.forbidden_of_forbiddenInDomain (Host.allowed_ipv4 _ c hc).1) hrest
  | @ipv6 _ groups _ =>
    have hall : ∀ d < 16, Nat.digitChar d ≠ '[' ∧ Nat.digitChar d ≠ ']' := by decide
    have hinside : ∀ c ∈ Ipv6.render groups, (true = false → c ≠ ':') ∧ c ≠ '[' ∧ c ≠ ']' := by
      intro c hc
      refine ⟨nofun, ?_⟩
      rcases Ipv6.mem_render hc with rfl | ⟨d, hd, rfl⟩
      · decide
      · exact hall d hd
    have hopen : ∀ cs, cutHost false ('[' :: cs) =
        ('[' :: (cutHost true cs).1, (cutHost true cs).2) := fun _ => rfl
    have hclose : ∀ cs, cutHost true (']' :: cs) =
        (']' :: (cutHost false cs).1, (cutHost false cs).2) := fun _ => rfl
    rw [Host.render, List.append_assoc, List.cons_append, hopen, cutHost_append hinside,
      List.singleton_append, hclose, hrest]
    rfl

/-- The port with its colon. -/
def portText (port : Option Nat) : List Char := (port.map fun n => ':' :: Nat.toDigits 10 n).getD []

theorem cutHost_portText (port : Option Nat) :
    cutHost false (portText port) = ([], portText port) := by
  cases port <;> rfl

theorem cutPort_portText {port : Option Nat}
    (h : ∀ n ∈ port, n ≤ 65535 ∧ defaultPort? scheme ≠ some n) :
    cutPort scheme ((portText port).drop 1) = .ok (port, []) := by
  cases port with
  | none => rfl
  | some n =>
    obtain ⟨hle, hdefault⟩ := h n rfl
    have hdigits : ∀ c ∈ Nat.toDigits 10 n, c.isDigit = true := fun c hc =>
      Char.isDigit_iff_toNat.2 (digit_of_mem_toDigits hc)
    have hnumber : (Nat.toDigits 10 n).foldl (fun n c => 10 * n + (c.toNat - 48)) 0 = n :=
      Nat.ofDigitChars_ten_toDigits
    have htake : (Nat.toDigits 10 n).takeWhile Char.isDigit = Nat.toDigits 10 n :=
      List.takeWhile_eq_self_iff.2 hdigits
    have hdrop : (Nat.toDigits 10 n).dropWhile Char.isDigit = [] :=
      List.dropWhile_eq_nil_iff.2 hdigits
    change cutPort scheme (Nat.toDigits 10 n) = _
    rw [cutPort, htake, hdrop]
    dsimp only
    rw [hnumber, if_neg (by omega), if_neg (by simp), if_neg]
    simp [Nat.toDigits_ne_nil, hdefault]

theorem render_eq (a : Authority) :
    a.render = a.renderUserinfo ++ (a.host.render ++ portText a.port) := by
  rw [Authority.render, List.append_assoc, portText]
  cases a.port <;> rfl

theorem isMark_of_portText {port : Option Nat} :
    ∀ c ∈ portText port, isMark c = false ∧ c ≠ '@' := by
  have hall : ∀ n < 58, 48 ≤ n → isMark (Char.ofNat n) = false ∧ Char.ofNat n ≠ '@' := by decide
  intro c hc
  cases port with
  | none => cases hc
  | some n =>
    rcases List.mem_cons.1 hc with rfl | hc
    · decide
    · have hdigit := digit_of_mem_toDigits hc
      rw [← Char.ofNat_toNat c]
      exact hall c.toNat (by omega) hdigit.1

theorem at_notMem (h : a.Written limits scheme) : '@' ∉ a.host.render ++ portText a.port := by
  rw [List.mem_append, not_or]
  exact ⟨fun hc => (isMark_of_host h.host _ hc).2 rfl, fun hc => (isMark_of_portText _ hc).2 rfl⟩

theorem userinfo_render (h : a.Written limits scheme) :
    userinfo (a.username ++ if a.password = [] then [] else ':' :: a.password) =
      (a.username, a.password) := by
  have hcolon : ':' ∉ a.username := fun hc => absurd (h.username _ hc) (by decide)
  rw [userinfo]
  split_ifs with hpassword
  · rw [List.append_nil, cutFirst_of_not_mem hcolon]
    dsimp only
    rw [encode_of_forall h.username, hpassword]
    rfl
  · rw [cutFirst_append hcolon]
    dsimp only
    rw [encode_of_forall h.username, Option.getD_some, encode_of_forall h.password]

theorem cutLast_render (h : a.Written limits scheme) :
    ∃ info, cutLast '@' a.render = (info, a.host.render ++ portText a.port) ∧
      userinfo (info.getD []) = (a.username, a.password) := by
  rw [render_eq, Authority.renderUserinfo]
  split_ifs with hnone
  · refine ⟨none, by rw [List.nil_append, cutLast_of_not_mem (at_notMem h)], ?_⟩
    rw [hnone.1, hnone.2]
    rfl
  all_goals
    refine ⟨some _, ?_, userinfo_render h⟩
    rw [List.append_assoc, List.singleton_append, cutLast_append _ (at_notMem h)]
    simp [*]

theorem parseAuthority_render (h : a.Written limits scheme) (hne : a.host.isEmpty = false)
    (hreads : Domain.ReadsBack limits) (last : Bool) :
    parseAuthority limits scheme last a.render = .ok (a, []) := by
  obtain ⟨info, hcut, hinfo⟩ := cutLast_render h
  unfold parseAuthority
  simp only [bind, Except.bind, throw, throwThe, MonadExceptOf.throw, pure, Except.pure, hcut,
    hinfo, cutHost_render h.host (cutHost_portText a.port), h.host.parse_render hreads, hne,
    cutPort_portText h.port]
  simp [Host.render_ne_nil hne]

/-! ## Reading back URLs -/

theorem isMark_of_render (h : a.Written limits scheme) : ∀ c ∈ a.render, isMark c = false := by
  have hcolon : isMark ':' = false ∧ isMark '@' = false := by decide
  intro c hc
  rw [render_eq, List.mem_append, List.mem_append] at hc
  rcases hc with hc | hc | hc
  · have hinfo : c ∈ a.username ∨ c ∈ a.password ∨ c = ':' ∨ c = '@' := by
      rw [Authority.renderUserinfo] at hc
      split_ifs at hc
      · cases hc
      all_goals
        simp only [List.mem_append, List.mem_cons, List.not_mem_nil, or_false] at hc
        tauto
    rcases hinfo with hc | hc | rfl | rfl
    · exact isMark_of_userinfoSet (h.username c hc)
    · exact isMark_of_userinfoSet (h.password c hc)
    · exact hcolon.1
    · exact hcolon.2
  · exact (isMark_of_host h.host c hc).1
  · exact (isMark_of_portText c hc).1

theorem isSeparator_of_isMark {special : Bool} (h : isMark c = false) :
    Path.isSeparator special c = false := by
  have hslash : c ≠ '/' := ne_of_set h rfl
  have hback : c ≠ '\\' := ne_of_set h rfl
  simp [Path.isSeparator, hslash, hback]

theorem gt_of_isMark (h : isMark c = false) : 0x20 < c.toNat := by
  simp only [isMark, Bool.or_eq_false_iff, decide_eq_false_iff_not] at h
  omega

variable {path : List Char}

theorem PathWritten.eq_nil_or_cons (h : PathWritten scheme path) :
    path = [] ∨ ∃ tail, path = '/' :: tail := by
  rcases h with h | h
  · exact .inr h.exists_cons
  · exact .inl h.2

theorem PathWritten.encoded (h : PathWritten scheme path) : ∀ c ∈ path, pathSet c = false := by
  rcases h with h | ⟨-, rfl⟩
  · exact h.encoded
  · nofun

theorem parseHierarchy_render (h : a.Written limits scheme) (hne : a.host.isEmpty = false)
    (hreads : Domain.ReadsBack limits) (hpath : PathWritten scheme path) (last : Bool) :
    parseHierarchy limits scheme last (a.render ++ path) = .ok (some a, path) := by
  have hsep : ∀ c ∈ a.render, (!Path.isSeparator (isSpecial scheme) c) = true := fun c hc => by
    rw [isSeparator_of_isMark (isMark_of_render h c hc)]
    rfl
  have htake : path.takeWhile (!Path.isSeparator (isSpecial scheme) ·) = [] := by
    rcases hpath.eq_nil_or_cons with rfl | ⟨tail, rfl⟩
    · rfl
    · exact List.takeWhile_cons_of_neg (by simp [Path.isSeparator])
  have hdrop : path.dropWhile (!Path.isSeparator (isSpecial scheme) ·) = path := by
    rcases hpath.eq_nil_or_cons with rfl | ⟨tail, rfl⟩
    · rfl
    · exact List.dropWhile_cons_of_neg (by simp [Path.isSeparator])
  have hread : (if path.isEmpty = true ∧ isSpecial scheme = false then [] else
      Path.read (isSpecial scheme) path) = path := by
    rcases hpath with hpath | ⟨hspecial, rfl⟩
    · obtain ⟨tail, htail⟩ := hpath.exists_cons
      rw [if_neg (by simp [htail]), hpath.read_eq]
    · rw [if_pos ⟨rfl, hspecial⟩]
  unfold parseHierarchy
  simp only [bind, Except.bind, pure, Except.pure]
  rw [List.takeWhile_append_of_pos hsep, List.dropWhile_append_of_pos hsep, htake, hdrop,
    List.append_nil, parseAuthority_render h hne hreads]
  dsimp only
  rw [List.nil_append, hread]

/-- What stands between the scheme and the query. -/
def bodyText (a : Authority) (path : List Char) : List Char := '/' :: '/' :: (a.render ++ path)

theorem mem_bodyText (h : a.Written limits scheme) (hpath : PathWritten scheme path) :
    ∀ c ∈ bodyText a path, c ≠ '#' ∧ c ≠ '?' ∧ 0x20 < c.toNat := by
  have hslash : '/' ≠ '#' ∧ '/' ≠ '?' ∧ 0x20 < '/'.toNat := by decide
  intro c hc
  simp only [bodyText, List.mem_cons, List.mem_append] at hc
  rcases hc with rfl | rfl | hc | hc
  · exact hslash
  · exact hslash
  · have hmark := isMark_of_render h c hc
    exact ⟨ne_of_set hmark rfl, ne_of_set hmark rfl, gt_of_isMark hmark⟩
  · have hset := hpath.encoded c hc
    exact ⟨ne_of_set hset rfl, ne_of_set hset rfl, gt_of_pathSet hset⟩

theorem plain_of_gt (h : ∀ c ∈ text, 0x20 < c.toNat) : Path.plain text = text := by
  rw [Path.plain, List.filter_eq_self]
  intro c hc
  have hgt := h c hc
  have hbreak : c ≠ '\t' ∧ c ≠ '\n' ∧ c ≠ '\r' := by
    refine ⟨?_, ?_, ?_⟩ <;> (rintro rfl; exact absurd hgt (by decide))
  simp [Path.isBreak, hbreak]

theorem render_ne_nil (h : a.host.isEmpty = false) : a.render ≠ [] := by
  rw [render_eq]
  simp [Host.render_ne_nil h]

theorem parseBody_render (h : a.Written limits scheme) (hf : isFile scheme = false)
    (hne : a.host.isEmpty = false) (hreads : Domain.ReadsBack limits)
    (hpath : PathWritten scheme path) (last : Bool) :
    parseBody limits scheme last (bodyText a path) = .ok (some a, path) := by
  have hplain : Path.plain (bodyText a path) = bodyText a path :=
    plain_of_gt fun c hc => (mem_bodyText h hpath c hc).2.2
  have hdrop : (bodyText a path).dropWhile (Path.isSeparator true) = a.render ++ path := by
    obtain ⟨c, tail, hc⟩ := List.exists_cons_of_ne_nil (render_ne_nil hne)
    have hsep : Path.isSeparator true c = false :=
      isSeparator_of_isMark (isMark_of_render h c (hc ▸ List.mem_cons_self))
    rw [bodyText, List.dropWhile_cons_of_pos rfl, List.dropWhile_cons_of_pos rfl, hc,
      List.cons_append, List.dropWhile_cons_of_neg (by simp [hsep])]
  unfold parseBody
  rw [hplain]
  dsimp only
  rw [hdrop, hf, if_neg Bool.false_ne_true]
  split_ifs <;> exact parseHierarchy_render h hne hreads hpath last

theorem render_eq_bodyText (h : u.authority = some a) :
    u.render = u.scheme ++ ':' :: (bodyText a u.path ++ (u.query.map ('?' :: ·)).getD [] ++
      (u.fragment.map ('#' :: ·)).getD []) := by
  rw [Url.render, h, bodyText]
  simp

theorem char_of_isSchemeChar (h : isSchemeChar c = true) : c ≠ ':' ∧ 0x20 < c.toNat := by
  have hall : ∀ n < 0x21, isSchemeChar (Char.ofNat n) = false := by decide
  refine ⟨by rintro rfl; exact absurd h (by decide), ?_⟩
  by_contra hle
  rw [← Char.ofNat_toNat c, hall c.toNat (by omega)] at h
  cases h

theorem cutScheme?_append (h : IsScheme scheme) (rest : List Char) :
    cutScheme? (scheme ++ ':' :: rest) = some (scheme, rest) := by
  have hcolon : ':' ∉ scheme := fun hc => (char_of_isSchemeChar (h.char _ hc)).1 rfl
  have hplain : Path.plain scheme = scheme :=
    plain_of_gt fun c hc => (char_of_isSchemeChar (h.char c hc)).2
  rw [cutScheme?, cutFirst_append hcolon]
  dsimp only
  rw [hplain, if_pos ⟨h.head, List.all_eq_true.2 h.char⟩, h.lower]

theorem Written.gt (h : Written limits u a) : ∀ c ∈ u.render, 0x20 < c.toNat := by
  have hmark : 0x20 < ':'.toNat ∧ 0x20 < '?'.toNat ∧ 0x20 < '#'.toNat := by decide
  intro c hc
  simp only [render_eq_bodyText h.authority, List.mem_append, List.mem_cons] at hc
  rcases hc with hc | rfl | (hc | hc) | hc
  · exact (char_of_isSchemeChar (h.scheme.char c hc)).2
  · exact hmark.1
  · exact (mem_bodyText h.named h.path c hc).2.2
  · rcases mem_getD hc with rfl | ⟨q, hq, hc⟩
    · exact hmark.2.1
    · exact gt_of_querySet (h.query q hq c hc)
  · rcases mem_getD hc with rfl | ⟨f, hf, hc⟩
    · exact hmark.2.2
    · exact gt_of_fragmentSet (h.fragment f hf c hc)

theorem map_encode_plain {set : Char → Bool} {part : Option (List Char)}
    (hgt : ∀ t ∈ part, ∀ c ∈ t, 0x20 < c.toNat) (hset : ∀ t ∈ part, ∀ c ∈ t, set c = false) :
    part.map (fun t => encode set (Path.plain t)) = part := by
  cases part with
  | none => rfl
  | some t => rw [Option.map_some, plain_of_gt (hgt t rfl), encode_of_forall (hset t rfl)]

/-- A URL with a host is read as itself. -/
theorem Written.parse_render (h : Written limits u a) (hreads : Domain.ReadsBack limits) :
    parse limits u.render = .ok u := by
  have htrim : trim (·.toNat ≤ 0x20) u.render = u.render :=
    trim_of_forall fun c hc => by simpa using h.gt c hc
  -- No part holds the mark that begins the next one, so the cuts fall where the parts were joined.
  have hquestion : '?' ∉ bodyText a u.path := fun hc => (mem_bodyText h.named h.path _ hc).2.1 rfl
  have hhash : '#' ∉ bodyText a u.path ++ (u.query.map ('?' :: ·)).getD [] := by
    rw [List.mem_append, not_or]
    refine ⟨fun hc => (mem_bodyText h.named h.path _ hc).1 rfl, fun hc => ?_⟩
    rcases mem_getD hc with hmark | ⟨q, hq, hc⟩
    · exact absurd hmark (by decide)
    · exact ne_of_set (h.query q hq _ hc) (by simp [querySet]) rfl
  have hquery := map_encode_plain (fun q hq c hc => gt_of_querySet (h.query q hq c hc)) h.query
  have hfragment :=
    map_encode_plain (fun f hf c hc => gt_of_fragmentSet (h.fragment f hf c hc)) h.fragment
  unfold parse
  rw [htrim, render_eq_bodyText h.authority, cutScheme?_append h.scheme]
  simp only [bind, Except.bind, pure, Except.pure]
  rw [cutFirst_append_getD hhash]
  dsimp only
  rw [cutFirst_append_getD hquestion]
  dsimp only
  rw [parseBody_render h.named h.notFile h.notEmpty hreads h.path]
  dsimp only
  rw [hquery, hfragment, ← h.authority]

end PodCache.Url
