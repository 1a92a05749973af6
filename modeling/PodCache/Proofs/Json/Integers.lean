import Mathlib.Tactic
import PodCache.Json.Numeral
import PodCache.Proofs.Json.Tokens
import PodCache.Proofs.Text.Digits

/-!
# Reading back integers

The decimal text of an integer is a number of the grammar (`spelled_int`), whose value is the
integer again if it fits a 64-bit word (`int?_numeral`).
-/

namespace PodCache.Json

open Ascii Text

/-! ## Decimal digits -/

/-- The values of the decimal digits of a number. -/
def decimals (n : Nat) : List Nat := (Nat.toDigits 10 n).map fun c => c.toNat - 48

theorem ofText_repr (n : Nat) :
    Bytes.ofText n.repr = (Nat.toDigits 10 n).map fun c => UInt8.ofNat c.toNat := by
  rw [Bytes.ofText, Utf8.encode, Utf8.encodeChars, Nat.toList_repr, List.map_eq_flatMap]
  refine List.flatMap_congr fun c hc => ?_
  have hdigit := digit_of_mem_toDigits hc
  rw [Utf8.encodeChar, if_pos (by omega)]

theorem digits_ofText_repr (n : Nat) : Digits (Bytes.ofText n.repr) (decimals n) where
  ne_nil := by
    rw [ofText_repr, Ne, List.map_eq_nil_iff]
    exact Nat.toDigits_ne_nil
  digit b hb := by
    rw [ofText_repr] at hb
    obtain ⟨c, hc, rfl⟩ := List.mem_map.1 hb
    have hdigit := digit_of_mem_toDigits hc
    rw [isDigit, Utf8.toNat_ofNat_of_lt (by omega)]
    simpa using hdigit
  values := by
    rw [ofText_repr, List.map_map, decimals]
    refine List.map_congr_left fun c hc => ?_
    have hdigit := digit_of_mem_toDigits hc
    rw [Function.comp_apply, Utf8.toNat_ofNat_of_lt (by omega)]

theorem whole_ofText_repr (n : Nat) : Whole (Bytes.ofText n.repr) (decimals n) := by
  rcases eq_or_ne n 0 with rfl | hn
  · exact .zero
  · refine .digits (digits_ofText_repr n) fun hzero => head?_toDigits_ne hn ?_
    rw [ofText_repr, List.head?_map, Option.map_eq_some_iff] at hzero
    obtain ⟨c, hc, hzero⟩ := hzero
    have hdigit := digit_of_mem_toDigits (List.mem_of_head? hc)
    have hvalue := congrArg UInt8.toNat hzero
    rw [Utf8.toNat_ofNat_of_lt (by omega)] at hvalue
    rw [hc, ← Char.ofNat_toNat c, hvalue]
    rfl

/-! ## Words -/

theorem le_foldl_decimal (m : Nat) (digits : List Nat) :
    m ≤ digits.foldl (fun n d => n * 10 + d) m := by
  induction digits generalizing m with
  | nil => exact le_rfl
  | cons d digits ih => exact le_trans (by omega) (ih (m * 10 + d))

theorem takeWord_eq {m : Nat} {digits : List Nat}
    (h : digits.foldl (fun n d => n * 10 + d) m < UInt64.size) :
    Numeral.takeWord m digits = (digits.foldl (fun n d => n * 10 + d) m, []) := by
  induction digits generalizing m with
  | nil => rfl
  | cons d digits ih =>
    rw [Numeral.takeWord, if_pos (lt_of_le_of_lt (le_foldl_decimal _ digits) h)]
    exact ih h

theorem foldl_decimals (n : Nat) : (decimals n).foldl (fun n d => n * 10 + d) 0 = n := by
  rw [decimals, List.foldl_map]
  simp only [Nat.mul_comm _ 10]
  exact Nat.ofDigitChars_ten_toDigits

/-! ## Integers -/

/-- The spelling of an integer. -/
def numeral (n : Int) : Numeral := ⟨decide (n < 0), decimals n.natAbs, [], none⟩

theorem magnitude_numeral (n : Int) : Magnitude (Bytes.ofText n.natAbs.repr) (numeral n) :=
  ⟨_, [], [], by simp, whole_ofText_repr n.natAbs, .none, .none⟩

theorem spelled_int (n : Int) : (numeral n).Spelled (Bytes.ofText (Number.text (.int n))) := by
  have hmagnitude := magnitude_numeral n
  cases n with
  | ofNat m => exact .positive (by simp [numeral]) hmagnitude
  | negSucc m =>
    have htext : Bytes.ofText (Number.text (.int (Int.negSucc m))) =
        minus :: Bytes.ofText (m + 1).repr := by
      change Bytes.ofText ("-" ++ (m + 1).repr) = _
      rw [Bytes.ofText, Utf8.encode, String.toList_append]
      rfl
    rw [htext]
    exact .negative (by simp [numeral]) hmagnitude

theorem int?_numeral {n : Int} (hlow : -0x8000000000000000 ≤ n) (hhigh : n < 0x10000000000000000) :
    (numeral n).int? = some n := by
  have hsize : n.natAbs < UInt64.size := by
    rw [UInt64.size]
    omega
  have hword : Numeral.takeWord 0 (decimals n.natAbs) = (n.natAbs, []) := by
    rw [takeWord_eq (by rwa [foldl_decimals]), foldl_decimals]
  have hfits : decide (n < 0) = true → 0 < n.natAbs ∧ n.natAbs ≤ 0x8000000000000000 := by
    rw [decide_eq_true_eq]
    omega
  rw [Numeral.int?, Numeral.value?, numeral]
  dsimp only
  rw [hword]
  dsimp only
  rw [if_pos ⟨rfl, rfl, rfl, hfits⟩]
  dsimp only
  congr 1
  split_ifs with hneg <;> rw [decide_eq_true_eq] at hneg <;> omega

end PodCache.Json
