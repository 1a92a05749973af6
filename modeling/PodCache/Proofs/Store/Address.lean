import Mathlib.Tactic
import PodCache.Proofs.Text.Digits
import PodCache.Proofs.Url.RoundTrip
import PodCache.Store.Address

/-!
# Completing the address of a store

A password that the settings give a URL stands in it so that decoding gives it back and nothing in
it ends the user information; a password and a path that the URL has are kept
(`StoreConfig.connectionUrl_completed`).  The URL that comes out has all that the settings give, so
it is left as it is when it is completed again by a reader of URLs that reads domain names back.
-/

namespace PodCache

open Text

variable {limits : Url.Limits} {c : StoreConfig} {u : Url} {a : Url.Authority}

namespace Url

open Percent

theorem withPassword_eq (h : u.authority = some a) (password : List Char) :
    u.withPassword password =
      { u with authority := some { a with password := encode userinfoSet (escape password) } } := by
  rw [withPassword, h]
  rfl

theorem withSegment_eq (h : u.authority = some a) (segment : List Char) :
    u.withSegment segment = { u with path := '/' :: segment } := by
  rw [withSegment, isOpaque, h]
  rfl

end Url

namespace StoreConfig

open Url Percent

/-! ## What is given -/

/-- The text of the configured password; empty when there is none. -/
def passwordText (c : StoreConfig) : List Char := (c.password.getD "").toList

/-- The text of the database. -/
def databaseText (c : StoreConfig) : List Char := (toString c.database.toInt).toList

/-- The authority with the configured password, unless it has one. -/
def completeAuthority (c : StoreConfig) (a : Authority) : Authority :=
  if a.password = [] then { a with password := encode userinfoSet (escape c.passwordText) } else a

/-- The path with the configured database, unless it names something. -/
def completePath (c : StoreConfig) (path : List Char) : List Char :=
  if c.database ≠ 0 ∧ (path = [] ∨ path = ['/']) then '/' :: c.databaseText else path

/-- The URL with what the settings give. -/
def complete (c : StoreConfig) (u : Url) (a : Authority) : Url :=
  { u with authority := some (c.completeAuthority a), path := c.completePath u.path }

theorem completeAuthority_eq_self (h : c.passwordText = [] ∨ a.password ≠ []) :
    c.completeAuthority a = a := by
  rw [completeAuthority]
  split_ifs with hnone
  · have htext : encode userinfoSet (escape c.passwordText) = a.password := by
      rw [hnone, encode_eq_nil_iff, escape_eq_nil_iff]
      exact h.resolve_right fun hsome => hsome hnone
    rw [htext]
  · rfl

theorem completePath_eq_self {path : List Char} (h : c.database = 0 ∨ path ≠ [] ∧ path ≠ ['/']) :
    c.completePath path = path := by
  rw [completePath, if_neg]
  tauto

theorem addPassword_eq (h : Written limits u a) :
    c.addPassword u = .ok { u with authority := some (c.completeAuthority a) } := by
  have hpassword : u.password = a.password := by
    rw [Url.password, h.authority]
    rfl
  have htakes : u.takesPassword = true := by
    rw [takesPassword, h.authority]
    simp [h.notEmpty, h.notFile]
  rw [addPassword, hpassword]
  split_ifs with hkept
  · rw [completeAuthority_eq_self hkept, ← h.authority]
  · rw [not_or, not_not] at hkept
    rw [withPassword_eq h.authority, completeAuthority, if_pos hkept.2]
    rfl

theorem addDatabase_eq (h : u.authority = some a) :
    c.addDatabase u = { u with path := c.completePath u.path } := by
  rw [addDatabase, withSegment_eq h, completePath, hasTrivialPath, databaseText]
  simp only [Bool.or_eq_true, beq_iff_eq]
  split_ifs <;> rfl

theorem connectionUrl_eq (hparse : Url.parse limits c.address.toList = .ok u)
    (h : Written limits u a) :
    c.connectionUrl limits = .ok (String.ofList (c.complete u a).render) := by
  rw [connectionUrl, hparse]
  simp only [addPassword_eq h, bind, Except.bind, pure, Except.pure]
  rw [addDatabase_eq rfl]
  rfl

/-! ## What comes out -/

theorem toList_toString (n : Int) :
    (toString n).toList = (if n < 0 then ['-'] else []) ++ Nat.toDigits 10 n.natAbs := by
  cases n with
  | ofNat m => exact Nat.toList_repr
  | negSucc m =>
    change ("-" ++ (m + 1).repr).toList = _
    simp [Nat.toList_repr]

/-- A number is a segment of a path. -/
theorem isSegment_toString (special : Bool) (n : Int) :
    Path.IsSegment special (toString n).toList := by
  have hall : ∀ n < 58, n = 45 ∨ 48 ≤ n → Path.isSeparator special (Char.ofNat n) = false ∧
      pathSet (Char.ofNat n) = false ∧ (Char.ofNat n).toLower ≠ '.' ∧
      (Char.ofNat n).toLower ≠ '%' := by
    cases special <;> decide
  refine Path.isSegment_of_forall fun ch hch => ?_
  rw [toList_toString, List.mem_append] at hch
  rw [← Char.ofNat_toNat ch]
  rcases hch with hsign | hdigit
  · split_ifs at hsign
    · rw [List.mem_singleton.1 hsign]
      exact hall 45 (by omega) (by omega)
    · cases hsign
  · have hbounds := digit_of_mem_toDigits hdigit
    exact hall ch.toNat (by omega) (by omega)

theorem databaseText_ne_nil (c : StoreConfig) : c.databaseText ≠ [] := by
  rw [databaseText, toList_toString]
  simp [Nat.toDigits_ne_nil]

/-- Two URLs that name a host: what the first lacks, the settings give the second. -/
structure Completed (c : StoreConfig) (u u' : Url) (a a' : Authority) : Prop where
  authority : u'.authority = some a'
  scheme : u'.scheme = u.scheme
  username : a'.username = a.username
  host : a'.host = a.host
  port : a'.port = a.port
  query : u'.query = u.query
  fragment : u'.fragment = u.fragment
  /-- A password that the URL has is kept. -/
  password_kept : a.password ≠ [] ∨ (c.password.getD "") = "" → a'.password = a.password
  /-- Nothing in a given password ends the user information. -/
  password_closed : a.password = [] → ∀ p, c.password = some p → p ≠ "" →
    ∀ ch ∈ a'.password, ch ∉ ['/', '?', '#', '@', ':']
  /-- A given password is what its place in the URL stands for. -/
  password_decoded : a.password = [] → ∀ p, c.password = some p → p ≠ "" →
    Utf8.decodeChars? (Percent.decode a'.password) = some p.toList
  path_database : c.database ≠ 0 → u.path = [] ∨ u.path = ['/'] →
    u'.path = '/' :: (toString c.database.toInt).toList
  path_kept : c.database = 0 ∨ u.path ≠ [] ∧ u.path ≠ ['/'] → u'.path = u.path

theorem written_complete (h : Written limits u a) :
    Written limits (c.complete u a) (c.completeAuthority a) := by
  have hpassword : ∀ ch ∈ (c.completeAuthority a).password, userinfoSet ch = false := by
    rw [completeAuthority]
    split_ifs
    · exact fun ch => proper_userinfoSet.encode
    · exact h.named.password
  have hpath : PathWritten u.scheme (c.completePath u.path) := by
    rw [completePath]
    split_ifs
    · exact .inl (Path.written_segment (isSegment_toString _ _))
    · exact h.path
  have hparts : (c.completeAuthority a).username = a.username ∧
      (c.completeAuthority a).host = a.host ∧ (c.completeAuthority a).port = a.port := by
    rw [completeAuthority]
    split_ifs <;> exact ⟨rfl, rfl, rfl⟩
  obtain ⟨husername, hhost, hport⟩ := hparts
  exact {
    authority := rfl
    notFile := h.notFile
    notEmpty := hhost ▸ h.notEmpty
    scheme := h.scheme
    named := ⟨husername ▸ h.named.username, hpassword, hhost ▸ h.named.host, hport ▸ h.named.port⟩
    path := hpath
    query := h.query
    fragment := h.fragment }

theorem passwordText_of_some {p : String} (h : c.password = some p) :
    c.passwordText = p.toList := by
  rw [passwordText, h]
  rfl

theorem completed_complete (c : StoreConfig) (u : Url) (a : Authority) :
    c.Completed u (c.complete u a) a (c.completeAuthority a) := by
  have hgiven : a.password = [] → (c.completeAuthority a).password =
      encode userinfoSet (escape c.passwordText) := fun hnone => by
    rw [completeAuthority, if_pos hnone]
  have hparts : (c.completeAuthority a).username = a.username ∧
      (c.completeAuthority a).host = a.host ∧ (c.completeAuthority a).port = a.port := by
    rw [completeAuthority]
    split_ifs <;> exact ⟨rfl, rfl, rfl⟩
  refine ⟨rfl, rfl, hparts.1, hparts.2.1, hparts.2.2, rfl, rfl, fun hkept => ?_, ?_, ?_,
    fun hdatabase htrivial => if_pos ⟨hdatabase, htrivial⟩, completePath_eq_self⟩
  · have hself : c.passwordText = [] ∨ a.password ≠ [] :=
      hkept.symm.imp (fun hempty => by rw [passwordText, hempty]; rfl) id
    rw [completeAuthority_eq_self hself]
  · intro hnone p _ _ ch hch hmem
    have hset : ∀ ch ∈ ['/', '?', '#', '@', ':'], userinfoSet ch = true := by
      simp [userinfoSet, pathSet]
    rw [hgiven hnone] at hch
    exact ne_of_set (proper_userinfoSet.encode hch) (hset ch hmem) rfl
  · intro hnone p hp _
    rw [hgiven hnone, decode_encode_escape proper_userinfoSet, Utf8.decodeChars?_encodeChars,
      passwordText_of_some hp]

/-- Nothing is left to give. -/
theorem complete_complete (c : StoreConfig) (u : Url) (a : Authority) :
    c.complete (c.complete u a) (c.completeAuthority a) = c.complete u a := by
  have hauthority : c.completeAuthority (c.completeAuthority a) = c.completeAuthority a := by
    refine completeAuthority_eq_self ?_
    rw [or_iff_not_imp_left]
    intro hgiven
    rw [completeAuthority]
    split_ifs with hnone
    · rw [Ne, encode_eq_nil_iff, escape_eq_nil_iff]
      exact hgiven
    · exact hnone
  have hpath : c.completePath (c.completePath u.path) = c.completePath u.path := by
    refine completePath_eq_self ?_
    rw [completePath]
    split_ifs with hgiven
    · exact .inr ⟨List.cons_ne_nil _ _, by simp [databaseText_ne_nil]⟩
    · tauto
  rw [complete, complete]
  dsimp only
  rw [hauthority, hpath]

/-- The settings complete an address that names a host, for a reader of URLs that reads domain names
back.  The URL that comes out is read as what was written, and nothing is left to give it. -/
theorem connectionUrl_completed (hreads : Domain.ReadsBack limits)
    (hparse : Url.parse limits c.address.toList = .ok u) (ha : u.authority = some a)
    (hhost : a.host.isEmpty = false) (hfile : isFile u.scheme = false) :
    ∃ u' a' url, c.connectionUrl limits = .ok url ∧ Url.parse limits url.toList = .ok u' ∧
      c.Completed u u' a a' ∧ { c with address := url }.connectionUrl limits = .ok url := by
  have hwritten := written_of_parse hparse ha hfile hhost
  -- What was given is encoded as its place demands, so the completed URL is one as it is written.
  have hread : Url.parse limits (c.complete u a).render = .ok (c.complete u a) :=
    (written_complete hwritten).parse_render hreads
  refine ⟨_, _, _, connectionUrl_eq hparse hwritten, by rw [String.toList_ofList, hread],
    completed_complete c u a, ?_⟩
  let again : StoreConfig := { c with address := String.ofList (c.complete u a).render }
  have hagain : Url.parse limits again.address.toList = .ok (c.complete u a) := by
    rw [String.toList_ofList, hread]
  have hsame : again.complete (c.complete u a) (c.completeAuthority a) = c.complete u a :=
    complete_complete c u a
  rw [connectionUrl_eq hagain (written_complete hwritten), hsame]

/-- A redis address with a user, a password of reserved characters and a database, and a reader
without limits. -/
theorem connectionUrl_completed_of_user :
    let c : StoreConfig :=
      { address := "redis://me@h:6380", password := some "a%2Fb", database := 3 }
    let a : Authority := { username := ['m', 'e'], host := .name ['h'], port := some 6380 }
    let u : Url := ⟨"redis".toList, some a, [], none, none⟩
    (Domain.ReadsBack {} ∧ Url.parse {} c.address.toList = .ok u ∧ a.host.isEmpty = false ∧
      isFile u.scheme = false) ∧
    ∃ u' a' url, c.connectionUrl {} = .ok url ∧ Url.parse {} url.toList = .ok u' ∧
      c.Completed u u' a a' ∧ { c with address := url }.connectionUrl {} = .ok url := by
  intro c a u
  have hreads : Domain.ReadsBack {} := Domain.readsBack rfl rfl
  have hparse : Url.parse {} c.address.toList = .ok u := by decide +kernel
  have hfile : isFile u.scheme = false := by decide
  exact ⟨⟨hreads, hparse, rfl, hfile⟩, connectionUrl_completed hreads hparse rfl rfl hfile⟩

end StoreConfig

end PodCache
