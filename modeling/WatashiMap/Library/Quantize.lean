import Mathlib.Algebra.Order.Field.Basic
import Mathlib.Tactic.Linarith
import Mathlib.Tactic.Ring

namespace Quantize

variable {K C : Type*} [Field K] [LinearOrder K]

/-- `k` steps are at least as near to `x` as any other number of steps. -/
def Nearest (step x : K) (k : ℤ) : Prop := |x - k * step| ≤ step / 2

/-- Values are printed as a nearest multiple of `step`, and the first `n` multiples are read
back up to `δ`. -/
structure Codec (step δ : K) (n : ℤ) (print : ℤ → C) (encode : K → C) (decode : C → K) :
    Prop where
  nearest : ∀ x, ∃ k, encode x = print k ∧ Nearest step x k
  close : ∀ k, 0 ≤ k → k ≤ n → |decode (print k) - k * step| ≤ δ

variable [IsStrictOrderedRing K]

theorem step_le_of_ne {step : K} (hstep : 0 < step) {j k : ℤ} (h : j ≠ k) :
    step ≤ |(j : K) * step - k * step| := by
  have hone : (1 : K) ≤ |((j - k : ℤ) : K)| := by
    rw [← Int.cast_abs]
    exact_mod_cast Int.one_le_abs (sub_ne_zero.mpr h)
  calc step = 1 * step := (one_mul step).symm
    _ ≤ |((j - k : ℤ) : K)| * step := mul_le_mul_of_nonneg_right hone hstep.le
    _ = |((j - k : ℤ) : K) * step| := by rw [abs_mul, abs_of_pos hstep]
    _ = |(j : K) * step - k * step| := by rw [Int.cast_sub, sub_mul]

/-- Strictly inside half a step there is only one nearest number of steps. -/
theorem Nearest.eq_of_lt {step x : K} (hstep : 0 < step) {j k : ℤ} (hj : Nearest step x j)
    (hk : |x - k * step| < step / 2) : j = k := by
  by_contra hne
  have hgap : step ≤ |(j : K) * step - k * step| := step_le_of_ne hstep hne
  have htriangle : |(j : K) * step - k * step| ≤ |x - k * step| + |x - j * step| := by
    have hsplit : (j : K) * step - k * step = (x - k * step) - (x - j * step) := by ring
    rw [hsplit]
    exact abs_sub _ _
  have hnear : |x - j * step| ≤ step / 2 := hj
  linarith

/-- A value between `0` and `n` steps is nearest to one of these. -/
theorem Nearest.mem_range {step x : K} (hstep : 0 < step) {n k : ℤ} (h : Nearest step x k)
    (h0 : 0 ≤ x) (hn : x ≤ n * step) : 0 ≤ k ∧ k ≤ n := by
  obtain ⟨hlower, hupper⟩ := abs_le.mp h
  constructor
  · by_contra hneg
    have hk : (k : K) ≤ -1 := by exact_mod_cast Int.le_sub_one_of_lt (not_le.mp hneg)
    have hsteps : (k : K) * step ≤ -1 * step := mul_le_mul_of_nonneg_right hk hstep.le
    linarith
  · by_contra hlarge
    have hk : (n : K) + 1 ≤ k := by exact_mod_cast Int.add_one_le_of_lt (not_le.mp hlarge)
    have hsteps : ((n : K) + 1) * step ≤ k * step := mul_le_mul_of_nonneg_right hk hstep.le
    rw [add_mul] at hsteps
    linarith

namespace Codec

variable {step δ : K} {n : ℤ} {print : ℤ → C} {encode : K → C} {decode : C → K} {x : K}

/-- What is read back is a number of steps off by at most `δ`. -/
theorem exists_steps (h : Codec step δ n print encode decode) (hstep : 0 < step) (h0 : 0 ≤ x)
    (hn : x ≤ n * step) : ∃ k, encode x = print k ∧ Nearest step x k ∧
      |decode (encode x) - k * step| ≤ δ := by
  obtain ⟨k, hprint, hnearest⟩ := h.nearest x
  obtain ⟨hk0, hkn⟩ := hnearest.mem_range hstep h0 hn
  refine ⟨k, hprint, hnearest, ?_⟩
  rw [hprint]
  exact h.close k hk0 hkn

theorem decode_close (h : Codec step δ n print encode decode) (hstep : 0 < step) (h0 : 0 ≤ x)
    (hn : x ≤ n * step) : |decode (encode x) - x| ≤ step / 2 + δ := by
  obtain ⟨k, _, hnearest, hclose⟩ := h.exists_steps hstep h0 hn
  have hsplit : decode (encode x) - x = (decode (encode x) - k * step) - (x - k * step) := by ring
  calc |decode (encode x) - x| ≤ |decode (encode x) - k * step| + |x - k * step| := by
        rw [hsplit]
        exact abs_sub _ _
    _ ≤ δ + step / 2 := add_le_add hclose hnearest
    _ = step / 2 + δ := add_comm _ _

/-- Reading back with an error below half a step prints the same again. -/
theorem encode_decode (h : Codec step δ n print encode decode) (hstep : 0 < step)
    (hδ : δ < step / 2) (h0 : 0 ≤ x) (hn : x ≤ n * step) :
    encode (decode (encode x)) = encode x := by
  obtain ⟨k, hprint, _, hclose⟩ := h.exists_steps hstep h0 hn
  obtain ⟨j, hagain, hj⟩ := h.nearest (decode (encode x))
  have hsame : j = k := hj.eq_of_lt hstep (lt_of_le_of_lt hclose hδ)
  rw [hagain, hprint, hsame]

end Codec

end Quantize
