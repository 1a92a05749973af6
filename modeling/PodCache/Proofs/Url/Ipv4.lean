import Mathlib.Tactic
import PodCache.Proofs.Text.Digits
import PodCache.Proofs.Text.Split
import PodCache.Url.Ipv4

/-!
# Reading back IPv4 addresses

An address is a number of 32 bits (`lt_of_parse?`), and its four octets are read as it again
(`parse?_render`).
-/

namespace PodCache.Url.Ipv4

open Text

variable {address n count : Nat} {host : List Char} {c : Char}

/-! ## Parts -/

theorem number?_toDigits {base : Nat} (h : 1 < base) (hle : base ≤ 16) (n : Nat) :
    number? base (Nat.toDigits base n) = some n := by
  refine foldlM_toDigits h (fun n d hd => ?_) n
  rw [hexValue?_digitChar d (by omega)]
  exact if_pos hd

theorem part?_toDigits (n : Nat) : part? (Nat.toDigits 10 n) = some n := by
  have hnumber : number? 10 (Nat.toDigits 10 n) = some n := number?_toDigits (by omega) (by omega) n
  rcases eq_or_ne n 0 with rfl | hn
  · exact hnumber
  · rw [← hnumber]
    have hhead := head?_toDigits_ne hn
    obtain ⟨c, cs, hc⟩ := List.exists_cons_of_ne_nil (Nat.toDigits_ne_nil (n := n) (b := 10))
    rw [hc] at hhead ⊢
    have hzero : ∀ {tail : List Char}, c :: cs ≠ '0' :: tail := fun he =>
      hhead (by rw [he, List.head?_cons])
    unfold part?
    split
    · exact absurd ‹c :: cs = []› (List.cons_ne_nil c cs)
    · exact absurd ‹c :: cs = _› hzero
    · exact absurd ‹c :: cs = _› hzero
    · exact absurd ‹c :: cs = _› hzero
    · rfl

/-! ## Four octets -/

/-- The four octets of an address. -/
def octets (address : Nat) : List Nat :=
  [address / 16777216 % 256, address / 65536 % 256, address / 256 % 256, address % 256]

theorem labels_render (address : Nat) :
    labels (render address) = (octets address).map (Nat.toDigits 10) := by
  have hplain : ∀ piece ∈ (octets address).map (Nat.toDigits 10), ∀ c ∈ piece,
      (c == '.') = false := by
    intro piece hpiece c hc
    obtain ⟨n, -, rfl⟩ := List.mem_map.1 hpiece
    have hdigit := digit_of_mem_toDigits hc
    rw [beq_eq_false_iff_ne]
    rintro rfl
    exact absurd hdigit (by decide)
  have hsplit : splitAll (· == '.') (render address) = (octets address).map (Nat.toDigits 10) :=
    splitAll_intercalate (p := (· == '.')) rfl nofun hplain
  rw [labels, hsplit, if_neg]
  simp [octets, Nat.toDigits_ne_nil]

theorem endsInNumber_render (address : Nat) : endsInNumber (render address) = true := by
  have hall : (Nat.toDigits 10 (address % 256)).all Char.isDigit = true := by
    rw [List.all_eq_true]
    exact fun c hc => Char.isDigit_iff_toNat.2 (digit_of_mem_toDigits hc)
  rw [endsInNumber, labels_render]
  simp [octets, hall, Nat.toDigits_ne_nil]

theorem parse?_render (h : address < 2 ^ 32) : parse? (render address) = some address := by
  have hparts : ((octets address).map (Nat.toDigits 10)).mapM part? = some (octets address) := by
    simp [octets, part?_toDigits]
  rw [parse?, labels_render, hparts]
  simp only [Option.bind_eq_bind, Option.bind_some, octets, List.length_cons, List.length_nil]
  rw [if_pos (by omega)]
  have hsum : address / 16777216 % 256 * 16777216 + (address / 65536 % 256 * 65536 +
      (address / 256 % 256 * 256 + address % 256)) = address := by omega
  have hbyte (m : Nat) : m % 256 < 256 := Nat.mod_lt m (by omega)
  simp [assemble?, hbyte, hsum]

theorem lt_of_assemble? {parts : List Nat} (hcount : count + parts.length ≤ 4)
    (h : assemble? parts count = some n) : n < 256 ^ (4 - count) := by
  induction parts generalizing count n with
  | nil => cases h
  | cons part parts ih =>
    cases parts with
    | nil =>
      rw [assemble?] at h
      split_ifs at h with hlt
      obtain rfl := Option.some.inj h
      exact hlt
    | cons next parts =>
      rw [assemble?, Option.bind_eq_bind] at h
      · obtain ⟨tail, htail, h⟩ := Option.bind_eq_some_iff.1 h
        split_ifs at h with hpart
        obtain rfl := Option.some.inj h
        have hlt := ih (by simp only [List.length_cons] at hcount ⊢; omega) htail
        simp only [List.length_cons] at hcount
        have hpow : 256 ^ (4 - count) = 256 * 256 ^ (3 - count) := by
          rw [← pow_succ', show 4 - count = 3 - count + 1 by omega]
        rw [show 4 - (count + 1) = 3 - count by omega] at hlt
        calc part * 256 ^ (3 - count) + tail
            < part * 256 ^ (3 - count) + 256 ^ (3 - count) := by omega
          _ = (part + 1) * 256 ^ (3 - count) := by ring
          _ ≤ 256 * 256 ^ (3 - count) := Nat.mul_le_mul_right _ hpart
          _ = 256 ^ (4 - count) := hpow.symm
      · nofun

theorem lt_of_parse? (h : parse? host = some address) : address < 2 ^ 32 := by
  obtain ⟨parts, -, h⟩ := Option.bind_eq_some_iff.1 h
  split_ifs at h with hlength
  have hlt := lt_of_assemble? (by omega) h
  simpa using hlt

theorem mem_render (h : c ∈ render address) : c = '.' ∨ 48 ≤ c.toNat ∧ c.toNat ≤ 57 := by
  rcases mem_intercalate h with rfl | ⟨piece, hpiece, hc⟩
  · exact .inl rfl
  · obtain ⟨n, -, rfl⟩ := List.mem_map.1 hpiece
    exact .inr (digit_of_mem_toDigits hc)

end PodCache.Url.Ipv4
