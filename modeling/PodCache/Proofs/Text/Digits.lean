import Mathlib.Tactic
import PodCache.Bytes

/-!
# Digits of numbers

What is common to the readers of numbers: they take the digits of a number one by one.
-/

namespace PodCache.Text

variable {base n : Nat} {c : Char}

theorem digit_of_mem_toDigits (h : c ∈ Nat.toDigits 10 n) : 48 ≤ c.toNat ∧ c.toNat ≤ 57 :=
  Char.isDigit_iff_toNat.1 (Nat.isDigit_of_mem_toDigits (by omega) le_rfl h)

/-- Only zero begins with a zero. -/
theorem head?_toDigits_ne (h : n ≠ 0) : (Nat.toDigits 10 n).head? ≠ some '0' := by
  induction n using Nat.strong_induction_on with
  | _ n ih =>
    rw [Nat.toDigits_eq_if (by omega)]
    split_ifs with hn
    · interval_cases n <;> first | exact absurd rfl h | decide
    · rw [List.head?_append_of_ne_nil _ Nat.toDigits_ne_nil]
      exact ih (n / 10) (by omega) (by omega)

/-- A reader that takes every digit as it should takes the digits of a number to the number. -/
theorem foldlM_toDigits {step : Nat → Char → Option Nat} (hbase : 1 < base)
    (hstep : ∀ n d, d < base → step n d.digitChar = some (base * n + d)) (n : Nat) :
    (Nat.toDigits base n).foldlM step 0 = some n := by
  induction n using Nat.strong_induction_on with
  | _ n ih =>
    rw [Nat.toDigits_eq_if hbase]
    split_ifs with hn
    · rw [List.foldlM_cons, hstep 0 n hn]
      simp
    · rw [List.foldlM_append, ih (n / base) (Nat.div_lt_self (by omega) hbase)]
      simp only [Option.bind_eq_bind, Option.bind_some, List.foldlM_cons, List.foldlM_nil,
        hstep _ _ (Nat.mod_lt n (by omega)), Nat.div_add_mod, Option.pure_def]

theorem hexValue?_digitChar : ∀ d < 16, Bytes.hexValue? d.digitChar = some d := by decide

theorem digitChar_of_mem_toDigits (hbase : 1 < base) (h : c ∈ Nat.toDigits base n) :
    ∃ d < base, c = d.digitChar := by
  induction n using Nat.strong_induction_on with
  | _ n ih =>
    rw [Nat.toDigits_eq_if hbase] at h
    split_ifs at h with hn
    · exact ⟨n, hn, List.mem_singleton.1 h⟩
    · rcases List.mem_append.1 h with h | h
      · exact ih (n / base) (Nat.div_lt_self (by omega) hbase) h
      · exact ⟨n % base, Nat.mod_lt n (by omega), List.mem_singleton.1 h⟩

end PodCache.Text
