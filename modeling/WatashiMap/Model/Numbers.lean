import Mathlib.Data.Nat.Notation
import Mathlib.Data.List.Basic
import WatashiMap.Model.Objects

namespace WatashiMap

/-- The doubles that are whole numbers of degrees, printed as Swift prints them: "35.0". -/
structure WholeDegrees where
  degrees : Int
  deriving DecidableEq

namespace WholeDegrees

def chars (d : WholeDegrees) : List Char :=
  (if d.degrees < 0 then ['-'] else []) ++ (Nat.toDigits 10 d.degrees.natAbs ++ ['.', '0'])

def magnitude (cs : List Char) : Int := Nat.ofDigitChars 10 (cs.take (cs.length - 2)) 0

def value (cs : List Char) : WholeDegrees :=
  if cs.head? = some '-' then ⟨-magnitude cs.tail⟩ else ⟨magnitude cs⟩

theorem magnitude_digits (n : Nat) : magnitude (Nat.toDigits 10 n ++ ['.', '0']) = n := by
  have hlength : (Nat.toDigits 10 n ++ ['.', '0']).length - 2 = (Nat.toDigits 10 n).length := by
    rw [List.length_append, List.length_cons, List.length_singleton, Nat.add_sub_cancel]
  rw [magnitude, hlength, List.take_left, Nat.ofDigitChars_ten_toDigits]

theorem value_chars (d : WholeDegrees) : value d.chars = d := by
  obtain ⟨n⟩ := d
  by_cases hn : n < 0
  · have hc : chars ⟨n⟩ = '-' :: (Nat.toDigits 10 n.natAbs ++ ['.', '0']) := by
      simp [chars, hn]
    rw [value, hc, List.head?_cons, if_pos rfl, List.tail_cons, magnitude_digits]
    congr 1
    omega
  · have hc : chars ⟨n⟩ = Nat.toDigits 10 n.natAbs ++ ['.', '0'] := by simp [chars, hn]
    have hhead : (chars ⟨n⟩).head? ≠ some '-' := by
      intro h
      rw [hc] at h
      cases hd : Nat.toDigits 10 n.natAbs with
      | nil => simp [hd] at h
      | cons c cs =>
        have hdigit : c.isDigit = true :=
          Nat.isDigit_of_mem_toDigits (by decide) (by decide)
            (hd ▸ List.mem_cons_self : c ∈ Nat.toDigits 10 n.natAbs)
        have hminus : c = '-' := by simpa [hd] using h
        rw [hminus] at hdigit
        exact absurd hdigit (by decide)
    rw [value, if_neg hhead, hc, magnitude_digits]
    congr 1
    omega

instance : SwiftDouble WholeDegrees where
  zero := ⟨0⟩
  description d := String.ofList d.chars
  ofString s := if String.ofList (value s.toList).chars = s then some (value s.toList) else none
  ofString_description d := by simp [value_chars]

end WholeDegrees

/-- The non-negative multiples of `10^-7`, on which "%.7f" is exact. -/
structure SevenDecimals where
  units : Nat
  deriving DecidableEq

namespace SevenDecimals

/-- Seven digits, zeros included. -/
def fraction (n : Nat) : List Char := (Nat.toDigits 10 (10 ^ 7 + n)).tail

instance : SwiftCGFloat SevenDecimals where
  ratio n m := ⟨(n * 10 ^ 7 + m / 2) / m⟩
  format7 x :=
    String.ofList (Nat.toDigits 10 (x.units / 10 ^ 7) ++ '.' :: fraction (x.units % 10 ^ 7))
  floatValue s :=
    let whole := s.toList.takeWhile fun c => c ≠ '.'
    let decimals := (s.toList.dropWhile fun c => c ≠ '.').tail ++ List.replicate 7 '0'
    ⟨Nat.ofDigitChars 10 whole 0 * 10 ^ 7 + Nat.ofDigitChars 10 (decimals.take 7) 0⟩

example : SwiftCGFloat.format7 (⟨5000000⟩ : SevenDecimals) = "0.5000000" := by decide

example : (SwiftCGFloat.floatValue "0.5000000" : SevenDecimals) = ⟨5000000⟩ := by decide

end SevenDecimals

end WatashiMap
