import Mathlib.Algebra.Order.Round
import Mathlib.Data.Int.Log
import Mathlib.Data.Rat.Floor
import Mathlib.Tactic.Linarith
import Mathlib.Tactic.Positivity
import Mathlib.Tactic.Ring
import WatashiMap.Library.Quantize
import WatashiMap.Model.Numbers

namespace WatashiMap

/-- Digits stand for less than the power of their number. -/
theorem ofDigitChars_lt {cs : List Char} (h : ∀ c ∈ cs, c.isDigit = true) :
    Nat.ofDigitChars 10 cs 0 < 10 ^ cs.length := by
  induction cs with
  | nil => decide
  | cons c cs ih =>
    have hdigit := Char.isDigit_iff_toNat.mp (h c List.mem_cons_self)
    have hrest := ih fun d hd => h d (List.mem_cons_of_mem c hd)
    have hc : c.toNat - '0'.toNat ≤ 9 := by
      have hnine : '9'.toNat = '0'.toNat + 9 := rfl
      omega
    have hscaled : 10 ^ cs.length * (c.toNat - '0'.toNat) ≤ 10 ^ cs.length * 9 :=
      Nat.mul_le_mul_left _ hc
    rw [Nat.ofDigitChars_cons, Nat.ofDigitChars_eq_ofDigitChars_zero, Nat.mul_zero, Nat.zero_add,
      List.length_cons, Nat.pow_succ]
    omega

namespace SevenDecimals

theorem fraction_length {n : Nat} (hn : n < 10 ^ 7) : (fraction n).length = 7 := by
  have hle : (Nat.toDigits 10 (10 ^ 7 + n)).length ≤ 8 :=
    (Nat.length_toDigits_le_iff (by decide) (by decide)).mpr (by omega)
  have hge : ¬ (Nat.toDigits 10 (10 ^ 7 + n)).length ≤ 7 := by
    rw [Nat.length_toDigits_le_iff (by decide) (by decide)]
    omega
  rw [fraction, List.length_tail]
  omega

theorem ofDigitChars_fraction {n : Nat} (hn : n < 10 ^ 7) :
    Nat.ofDigitChars 10 (fraction n) 0 = n := by
  have hlength := fraction_length hn
  have hvalue : Nat.ofDigitChars 10 (Nat.toDigits 10 (10 ^ 7 + n)) 0 = 10 ^ 7 + n :=
    Nat.ofDigitChars_ten_toDigits
  have hdigits : ∀ c ∈ fraction n, c.isDigit = true := fun c hc =>
    Nat.isDigit_of_mem_toDigits (by decide) (by decide) (List.mem_of_mem_tail hc)
  have hlt := ofDigitChars_lt hdigits
  rw [hlength] at hlt
  cases htext : Nat.toDigits 10 (10 ^ 7 + n) with
  | nil => exact absurd htext Nat.toDigits_ne_nil
  | cons c cs =>
    have hcs : fraction n = cs := by rw [fraction, htext, List.tail_cons]
    rw [htext, Nat.ofDigitChars_cons, Nat.ofDigitChars_eq_ofDigitChars_zero, ← hcs, hlength]
      at hvalue
    omega

theorem point_not_mem_toDigits {n : Nat} : ∀ c ∈ Nat.toDigits 10 n, decide (c ≠ '.') = true := by
  intro c hc
  have hdigit := Nat.isDigit_of_mem_toDigits (by decide) (by decide) hc
  by_contra hpoint
  have hc : c = '.' := by simpa using hpoint
  rw [hc] at hdigit
  exact absurd hdigit (by decide)

/-- The text of a multiple of `10^-7` reads back as it. -/
theorem floatValue_format7 (x : SevenDecimals) :
    SwiftCGFloat.floatValue (SwiftCGFloat.format7 x) = x := by
  obtain ⟨n⟩ := x
  have hn : n % 10 ^ 7 < 10 ^ 7 := Nat.mod_lt n (by decide)
  have htake : (fraction (n % 10 ^ 7) ++ List.replicate 7 '0').take 7 = fraction (n % 10 ^ 7) :=
    List.take_left' (fraction_length hn)
  have hwhole : (Nat.toDigits 10 (n / 10 ^ 7) ++ '.' :: fraction (n % 10 ^ 7)).takeWhile
      (fun c => c ≠ '.') = Nat.toDigits 10 (n / 10 ^ 7) := by
    rw [List.takeWhile_append_of_pos point_not_mem_toDigits]
    exact List.append_nil _
  have hpoint : (Nat.toDigits 10 (n / 10 ^ 7) ++ '.' :: fraction (n % 10 ^ 7)).dropWhile
      (fun c => c ≠ '.') = '.' :: fraction (n % 10 ^ 7) := by
    rw [List.dropWhile_append_of_pos point_not_mem_toDigits]
    rfl
  simp only [SwiftCGFloat.floatValue, SwiftCGFloat.format7, String.toList_ofList]
  rw [hwhole, hpoint, List.tail_cons, htake, Nat.ofDigitChars_ten_toDigits,
    ofDigitChars_fraction hn, Nat.div_add_mod' n (10 ^ 7)]

end SevenDecimals

/-- The text of `k` times `10^-7`. -/
def decimal7 (k : ℤ) : String :=
  (if k < 0 then "-" else "") ++ SwiftCGFloat.format7 (⟨k.natAbs⟩ : SevenDecimals)

theorem decimal7_of_nonneg {k : ℤ} (h : 0 ≤ k) :
    decimal7 k = SwiftCGFloat.format7 (⟨k.natAbs⟩ : SevenDecimals) := by
  rw [decimal7, if_neg (not_lt.mpr h)]
  exact String.empty_append

/-- The unit in the last place of a significand of 24 bits. -/
def ulp (x : ℚ) : ℚ := 2 ^ (Int.log 2 |x| - 23)

/-- The number of single precision nearest to `x`. No number with seven decimals lies half way
between two of them, so the rule for ties does not matter here. -/
def single (x : ℚ) : ℚ := round (x / ulp x) * ulp x

theorem ulp_pos (x : ℚ) : 0 < ulp x := zpow_pos two_pos _

theorem single_error (x : ℚ) : |single x - x| ≤ ulp x / 2 := by
  have hround : |x / ulp x - round (x / ulp x)| ≤ 1 / 2 := abs_sub_round (x / ulp x)
  have hscale : single x - x = -(x / ulp x - round (x / ulp x)) * ulp x := by
    rw [neg_mul, sub_mul, div_mul_cancel₀ x (ulp_pos x).ne', neg_sub, single]
  rw [hscale, abs_mul, abs_neg, abs_of_pos (ulp_pos x)]
  calc |x / ulp x - round (x / ulp x)| * ulp x ≤ 1 / 2 * ulp x :=
        mul_le_mul_of_nonneg_right hround (ulp_pos x).le
    _ = ulp x / 2 := by ring

/-- Below 1 the unit is at most `2^-24`; 0 and 1 are numbers of single precision. -/
theorem single_close {x : ℚ} (h0 : 0 ≤ x) (h1 : x ≤ 1) : |single x - x| ≤ 1 / 2 ^ 25 := by
  rcases h0.eq_or_lt with rfl | hpos
  · have hzero : single 0 = 0 := by rw [single, zero_div, round_zero, Int.cast_zero, zero_mul]
    rw [hzero, sub_self, abs_zero]
    positivity
  rcases h1.eq_or_lt with rfl | hlt
  · have hunits : (1 : ℚ) / ulp 1 = ((2 ^ 23 : ℤ) : ℚ) := by
      rw [ulp, abs_one, Int.log_one_right]
      norm_num
    have hone : single 1 = 1 := by
      rw [single, hunits, round_intCast, ← hunits, div_mul_cancel₀ _ (ulp_pos 1).ne']
    rw [hone, sub_self, abs_zero]
    positivity
  · have hlog : Int.log 2 |x| < 0 := by
      rw [abs_of_pos hpos, ← Int.lt_zpow_iff_log_lt (by decide) hpos, zpow_zero]
      exact hlt
    have hulp : ulp x ≤ 2 ^ (-24 : ℤ) := zpow_le_zpow_right₀ one_le_two (by omega)
    calc |single x - x| ≤ ulp x / 2 := single_error x
      _ ≤ 2 ^ (-24 : ℤ) / 2 := div_le_div_of_nonneg_right hulp two_pos.le
      _ = 1 / 2 ^ 25 := by norm_num

/-- Rationals printed as the nearest multiple of `10^-7` and read back in single precision. -/
@[reducible] def singleDecimals : SwiftCGFloat ℚ where
  ratio n m := n / m
  format7 x := decimal7 (round (x * 10 ^ 7))
  floatValue s := single ((SwiftCGFloat.floatValue s : SevenDecimals).units / 10 ^ 7)

/-- "%.7f" prints a nearest multiple of `10^-7`, and `floatValue` reads the text of one between
0 and 1 up to `2^-25`. -/
def DecimalConversions (conversions : SwiftCGFloat ℚ) : Prop :=
  Quantize.Codec (1 / 10 ^ 7) (1 / 2 ^ 25) (10 ^ 7) decimal7 conversions.format7
    conversions.floatValue

theorem nearest_round (x : ℚ) : Quantize.Nearest (1 / 10 ^ 7) x (round (x * 10 ^ 7)) := by
  have hround := abs_sub_round (x * 10 ^ 7)
  have hscale : x - round (x * 10 ^ 7) * (1 / 10 ^ 7) =
      (x * 10 ^ 7 - round (x * 10 ^ 7)) * (1 / 10 ^ 7) := by ring
  rw [Quantize.Nearest, hscale, abs_mul, abs_of_pos (by norm_num : (0 : ℚ) < 1 / 10 ^ 7)]
  linarith

theorem singleDecimals_decimal7 {k : ℤ} (h : 0 ≤ k) :
    singleDecimals.floatValue (decimal7 k) = single (k * (1 / 10 ^ 7)) := by
  have hread (s : String) : singleDecimals.floatValue s =
      single ((SwiftCGFloat.floatValue s : SevenDecimals).units / 10 ^ 7) := rfl
  have hcast : ((k.natAbs : ℕ) : ℚ) = k := by rw [Nat.cast_natAbs, abs_of_nonneg h]
  rw [decimal7_of_nonneg h, hread, SevenDecimals.floatValue_format7, hcast, div_eq_mul_one_div]

theorem singleDecimals_conversions : DecimalConversions singleDecimals where
  nearest x := ⟨round (x * 10 ^ 7), rfl, nearest_round x⟩
  close k h0 hk := by
    have hnonneg : (0 : ℚ) ≤ k := by exact_mod_cast h0
    have hbound : (k : ℚ) ≤ 10 ^ 7 := by exact_mod_cast hk
    rw [singleDecimals_decimal7 h0]
    exact single_close (by positivity) (by linarith)

end WatashiMap
