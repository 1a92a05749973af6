import Mathlib.Tactic
import PodCache.Proofs.Url.Domain
import PodCache.Proofs.Url.Ipv4
import PodCache.Proofs.Url.Ipv6
import PodCache.Proofs.Url.Percent
import PodCache.Url.Host

/-!
# Reading back hosts

A host that was read holds no character that ends a host (`written_of_parse`).  It is read as itself
(`Written.parse_render`), if domain names are read back.
-/

namespace PodCache.Url.Host

open Percent Text

variable {limits : Limits} {special : Bool} {c : Char} {text : List Char} {host : Host}

/-- A host as it is written. -/
inductive Written (limits : Limits) : Bool → Host → Prop
  | name {text : List Char} (hf : ∀ c ∈ text, forbidden c = false)
      (he : ∀ c ∈ text, controls c = false) : Written limits false (.name text)
  | domain {name text : List Char} (ha : Domain.ascii? limits name = some text)
      (hf : ∀ c ∈ text, forbiddenInDomain c = false) (hne : text ≠ [])
      (hn : Ipv4.endsInNumber text = false) : Written limits true (.name text)
  | ipv4 {address : Nat} (h : address < 2 ^ 32) : Written limits true (.ipv4 address)
  | ipv6 {special : Bool} {groups : List Nat} (h : Ipv6.IsAddress groups) :
      Written limits special (.ipv6 groups)

theorem proper_forbidden : Proper forbidden := ⟨by decide, by decide⟩

/-! ## What is read -/

theorem written_of_bracketed (h : bracketed text = .ok host) : Written limits special host := by
  unfold bracketed at h
  split_ifs at h
  split at h
  · obtain rfl := Except.ok.inj h
    exact .ipv6 (Ipv6.isAddress_of_parse? ‹_›)
  · cases h

theorem written_of_parseOpaque (h : parseOpaque text = .ok host) : Written limits false host := by
  unfold parseOpaque at h
  split_ifs at h with hbracket hforbidden
  · exact written_of_bracketed h
  · obtain rfl := Except.ok.inj h
    refine .name (fun c hc => ?_) fun c hc => proper_controls.encode hc
    rcases mem_encode hc with hc | ⟨b, hb⟩
    · simpa using fun hf => hforbidden (List.any_eq_true.2 ⟨c, hc, hf⟩)
    · exact proper_forbidden.octet b hb

theorem written_of_parseDomain (h : parseDomain limits text = .ok host) :
    Written limits true host := by
  unfold parseDomain at h
  split_ifs at h with hbracket
  · exact written_of_bracketed h
  · cases hread : (Utf8.decodeChars? (decode text)).bind (Domain.ascii? limits) with
    | none =>
      rw [hread] at h
      cases h
    | some ascii =>
      rw [hread] at h
      dsimp only at h
      obtain ⟨name, -, hascii⟩ := Option.bind_eq_some_iff.1 hread
      split_ifs at h with hforbidden hempty hnumber
      · split at h
        · obtain rfl := Except.ok.inj h
          exact .ipv4 (Ipv4.lt_of_parse? ‹_›)
        · cases h
      · obtain rfl := Except.ok.inj h
        refine .domain hascii (fun c hc => ?_) (by simpa using hempty) (by simpa using hnumber)
        simpa using fun hf => hforbidden (List.any_eq_true.2 ⟨c, hc, hf⟩)

theorem written_of_parse (h : parse limits special text = .ok host) :
    Written limits special host := by
  unfold parse at h
  cases special with
  | false => exact written_of_parseOpaque h
  | true => exact written_of_parseDomain h

/-! ## Reading back -/

theorem bracketed_render {groups : List Nat} (h : Ipv6.IsAddress groups) :
    bracketed (render (.ipv6 groups)) = .ok (.ipv6 groups) := by
  rw [bracketed, render, if_pos List.getLast?_concat]
  simp [Ipv6.parse?_render h]

theorem forbidden_of_forbiddenInDomain (h : forbiddenInDomain c = false) : forbidden c = false := by
  simp only [forbiddenInDomain, Bool.or_eq_false_iff] at h
  exact h.1.1.1

theorem head?_ne_bracket (h : ∀ c ∈ text, forbidden c = false) : text.head? ≠ some '[' := by
  intro hhead
  exact absurd (h '[' (List.mem_of_mem_head? hhead)) (by decide)

/-- What is left to decide on a domain name in its ASCII form. -/
theorem parseDomain_eq (h : ∀ c ∈ text, forbiddenInDomain c = false)
    (hascii : Domain.ascii? limits text = some text) (hne : text ≠ [])
    {outcome : Except ParseError Host}
    (ho : Ipv4.endsInNumber text = true → ∃ address, Ipv4.parse? text = some address ∧
      outcome = .ok (.ipv4 address))
    (hn : Ipv4.endsInNumber text = false → outcome = .ok (.name text)) :
    parseDomain limits text = outcome := by
  have hpercent : '%' ∉ text := fun hmem => absurd (h '%' hmem) (by decide)
  have hread : (Utf8.decodeChars? (decode text)).bind (Domain.ascii? limits) = some text := by
    rw [decode_of_not_mem hpercent, Utf8.decodeChars?_encodeChars]
    exact hascii
  have hallowed : text.any forbiddenInDomain = false := by
    rw [List.any_eq_false]
    exact fun c hc => by simp [h c hc]
  rw [parseDomain, if_neg (head?_ne_bracket fun c hc => forbidden_of_forbiddenInDomain (h c hc)),
    hread]
  dsimp only
  rw [hallowed, if_neg Bool.false_ne_true, if_neg (by simpa using hne)]
  split_ifs with hends
  · obtain ⟨address, hparse, rfl⟩ := ho hends
    rw [hparse]
  · exact (hn (by simpa using hends)).symm

theorem allowed_ipv4 (address : Nat) :
    ∀ c ∈ Ipv4.render address, forbiddenInDomain c = false ∧ c.toNat < 128 ∧ c.toLower = c := by
  have hall : ∀ n < 58, n = 46 ∨ 48 ≤ n → forbiddenInDomain (Char.ofNat n) = false ∧
      (Char.ofNat n).toNat < 128 ∧ (Char.ofNat n).toLower = Char.ofNat n := by decide
  intro c hc
  rw [← Char.ofNat_toNat c]
  rcases Ipv4.mem_render hc with rfl | hdigit
  · exact hall 46 (by omega) (by omega)
  · exact hall c.toNat (by omega) (by omega)

theorem isPlain_ipv4 (address : Nat) : Domain.IsPlain (Ipv4.render address) where
  ascii c hc := (allowed_ipv4 address c hc).2.1
  lower c hc := (allowed_ipv4 address c hc).2.2
  labels label hlabel := by
    rw [Bool.eq_false_iff]
    intro hmark
    have hx : 'x' ∈ label := (List.isPrefixOf_iff_prefix.1 hmark).subset (by decide)
    rcases Ipv4.mem_render (mem_of_mem_splitAll hlabel hx).1 with hdot | hdigit
    · exact absurd hdot (by decide)
    · exact absurd hdigit (by decide)

theorem render_ne_nil (h : host.isEmpty = false) : host.render ≠ [] := by
  cases host with
  | name text =>
    rintro hnil
    obtain rfl : text = [] := hnil
    cases h
  | ipv4 address =>
    intro hnil
    have hends := Ipv4.endsInNumber_render address
    rw [show Ipv4.render address = [] from hnil] at hends
    cases hends
  | ipv6 groups => nofun

theorem parse_ipv4 {address : Nat} (h : address < 2 ^ 32) :
    parse limits true (render (.ipv4 address)) = .ok (.ipv4 address) := by
  refine parseDomain_eq (fun c hc => (allowed_ipv4 address c hc).1)
    (Domain.ascii?_of_isPlain limits (isPlain_ipv4 address))
    (show (Host.ipv4 address).render ≠ [] from render_ne_nil rfl)
    (fun _ => ⟨address, Ipv4.parse?_render h, rfl⟩) fun hn => ?_
  rw [Ipv4.endsInNumber_render] at hn
  cases hn

/-- A host as it is written is read as itself. -/
theorem Written.parse_render (h : Written limits special host) (hreads : Domain.ReadsBack limits) :
    parse limits special host.render = .ok host := by
  cases h with
  | @name text hf he =>
    change parseOpaque text = _
    have hallowed : text.any forbidden = false := by
      rw [List.any_eq_false]
      exact fun c hc => by simp [hf c hc]
    rw [parseOpaque, if_neg (head?_ne_bracket hf), hallowed, if_neg Bool.false_ne_true,
      encode_of_forall he]
  | @domain name text ha hf hne hn =>
    have hascii := hreads _ _ ha
    refine parseDomain_eq hf hascii hne (fun hends => ?_) fun _ => rfl
    rw [hn] at hends
    cases hends
  | ipv4 h => exact parse_ipv4 h
  | @ipv6 _ groups h =>
    have hbracket : (render (.ipv6 groups)).head? = some '[' := rfl
    cases special with
    | false =>
      change parseOpaque (render (.ipv6 groups)) = _
      rw [parseOpaque, if_pos hbracket, bracketed_render h]
    | true =>
      change parseDomain limits (render (.ipv6 groups)) = _
      rw [parseDomain, if_pos hbracket, bracketed_render h]

end PodCache.Url.Host
