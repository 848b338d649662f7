import Mathlib

/-! Rationals rounded to so many decimal places, and written out with them. -/
namespace Decimals

/-- The nearest integer, the even one of two. -/
def halfEven (q : ℚ) : ℤ :=
  let rest := q - ⌊q⌋
  if rest < 1 / 2 then ⌊q⌋
  else if 1 / 2 < rest then ⌊q⌋ + 1
  else if ⌊q⌋ % 2 = 0 then ⌊q⌋ else ⌊q⌋ + 1

theorem halfEven_bounds (q : ℚ) : ⌊q⌋ ≤ halfEven q ∧ halfEven q ≤ ⌊q⌋ + 1 := by
  unfold halfEven
  dsimp only
  split_ifs <;> omega

theorem halfEven_mono : Monotone halfEven := by
  intro p q h
  have hfloor : ⌊p⌋ ≤ ⌊q⌋ := Int.floor_mono h
  by_cases hsame : ⌊p⌋ = ⌊q⌋
  · have hrest : p - ⌊q⌋ ≤ q - ⌊q⌋ := sub_le_sub_right h _
    unfold halfEven
    rw [hsame]
    dsimp only
    split_ifs <;> first | omega | (exfalso; linarith)
  · have hp := (halfEven_bounds p).2
    have hq := (halfEven_bounds q).1
    omega

/-- `round(q, digits)` -/
def roundTo (digits : ℕ) (q : ℚ) : ℚ := halfEven (q * 10 ^ digits) / 10 ^ digits

theorem roundTo_mono (digits : ℕ) : Monotone (roundTo digits) := by
  intro p q h
  have hpos : (0 : ℚ) < 10 ^ digits := pow_pos (by norm_num) digits
  have hscaled : p * 10 ^ digits ≤ q * 10 ^ digits := mul_le_mul_of_nonneg_right h hpos.le
  exact div_le_div_of_nonneg_right (Int.cast_le.mpr (halfEven_mono hscaled)) hpos.le

theorem halfEven_dist (q : ℚ) : |(halfEven q : ℚ) - q| ≤ 1 / 2 := by
  have hlow := Int.floor_le q
  have hhigh := Int.lt_floor_add_one q
  unfold halfEven
  dsimp only
  split_ifs with hsmall hlarge heven
  · rw [abs_le]
    constructor <;> linarith
  · push_cast
    rw [abs_le]
    constructor <;> linarith
  · rw [abs_le]
    constructor <;> linarith
  · push_cast
    rw [abs_le]
    constructor <;> linarith

theorem roundTo_dist (digits : ℕ) (q : ℚ) : |roundTo digits q - q| ≤ 1 / 2 / 10 ^ digits := by
  have hpos : (0 : ℚ) < 10 ^ digits := pow_pos (by norm_num) digits
  have hscaled : roundTo digits q - q = (halfEven (q * 10 ^ digits) - q * 10 ^ digits) / 10 ^ digits := by
    rw [roundTo, sub_div, mul_div_cancel_right₀ q hpos.ne']
  rw [hscaled, abs_div, abs_of_pos hpos]
  exact div_le_div_of_nonneg_right (halfEven_dist _) hpos.le

/-- A way to round to so many places. -/
structure Rounding where
  round : ℕ → ℚ → ℚ
  mono : ∀ digits, Monotone (round digits)

def nearest : Rounding := ⟨roundTo, roundTo_mono⟩

/-! Texts. -/

/-- So many digits, with zeros in front. -/
def digitsOf (width n : ℕ) : List Char :=
  let digits := Nat.toDigits 10 n
  List.replicate (width - digits.length) '0' ++ digits

/-- The number `n / 10 ^ places`, with all its places. -/
def pointed (places n : ℕ) : List Char :=
  let digits := digitsOf (places + 1) n
  let whole := digits.take (digits.length - places)
  if places = 0 then whole else whole ++ '.' :: digits.drop (digits.length - places)

def signed (q : ℚ) (text : List Char) : String := String.ofList (if q < 0 then '-' :: text else text)

/-- `f"{q:.{places}f}"` -/
def fixed (places : ℕ) (q : ℚ) : String := signed q (pointed places (halfEven (|q| * 10 ^ places)).toNat)

/-- `f"{q:.{places}%}"` -/
def percent (places : ℕ) (q : ℚ) : String := fixed places (100 * q) ++ "%"

/-- The power of ten at which a positive number begins. -/
def exponent (q : ℚ) : ℤ :=
  if 1 ≤ q then (Nat.toDigits 10 ⌊q⌋.toNat).length - 1 else -(Nat.toDigits 10 (⌈1 / q⌉.toNat - 1)).length

/-- Without zeros behind the point. -/
def stripped (text : List Char) : List Char :=
  if '.' ∈ text then ((text.reverse.dropWhile (· = '0')).dropWhile (· = '.')).reverse else text

/-- `f"{q:.{precision}g}"`, for a positive precision -/
def general (precision : ℕ) (q : ℚ) : String :=
  if q = 0 then "0"
  else
    let guess := exponent |q|
    let digits := (halfEven (|q| * 10 ^ ((precision : ℤ) - 1 - guess))).toNat
    let (digits, power) := if digits = 10 ^ precision then (digits / 10, guess + 1) else (digits, guess)
    if -4 ≤ power ∧ power < precision then
      signed q (stripped (pointed ((precision : ℤ) - 1 - power).toNat digits))
    else
      signed q (stripped (pointed (precision - 1) digits) ++ 'e' :: (if power < 0 then '-' else '+') ::
        digitsOf 2 power.natAbs)

example : [general 6 (-123456789), general 6 (1 / 20), general 6 1000000, general 6 (999999.6), general 6 0.00001234] =
    ["-1.23457e+08", "0.05", "1e+06", "1e+06", "1.234e-05"] := by decide +kernel

end Decimals
