import Mathlib.Algebra.Order.Round
import Mathlib.Data.Int.Log
import Mathlib.Data.Rat.Floor
import Mathlib.Algebra.Ring.Int.Parity
import Mathlib.Tactic.FieldSimp
import Mathlib.Tactic.Linarith
import Mathlib.Tactic.Positivity
import Mathlib.Tactic.Ring

/-!
# Rounding to a significand of some digits

A floating-point number is an integer of so many binary digits, times a power of two.
`round digits x` is the one that is nearest to `x`, and of two equally near ones the one whose
integer is even.  The distance to it is less than one part in `2 ^ digits`
(`abs_sub_round_lt`).

`double` is the format that has 53 digits and ends below `2 ^ 1024`.  Its least exponent is left
out: below `2 ^ (-1022)` it has fewer digits.
-/

namespace EveBuild.Significand

section Round

variable {K : Type*} [Field K] [LinearOrder K] [IsStrictOrderedRing K] [FloorRing K]

/-- The nearest integer, and of two the even one. -/
def nearestInt (x : K) : ℤ :=
  if Int.fract x < 1 / 2 ∨ Int.fract x = 1 / 2 ∧ Even ⌊x⌋ then ⌊x⌋ else ⌊x⌋ + 1

/-- The unit in the last place: what one step of the integer is worth. -/
def ulp (digits : ℕ) (x : K) : K := 2 ^ (Int.log 2 |x| + 1 - digits)

/-- The nearest number with a significand of so many digits. -/
def round (digits : ℕ) (x : K) : K := nearestInt (x / ulp digits x) * ulp digits x

/-! ## How far a number is from the rounded one -/

theorem abs_sub_nearestInt_le (x : K) : |x - nearestInt x| ≤ 1 / 2 := by
  have hfloor := Int.floor_add_fract x
  have hnonneg := Int.fract_nonneg x
  have hlt := Int.fract_lt_one x
  unfold nearestInt
  split
  · rename_i hdown
    have hle : Int.fract x ≤ 1 / 2 := by
      rcases hdown with hless | ⟨heq, _⟩
      · exact hless.le
      · exact heq.le
    rw [abs_le]
    constructor <;> linarith
  · rename_i hup
    have hge : 1 / 2 ≤ Int.fract x := not_lt.mp fun hless => hup (Or.inl hless)
    rw [Int.cast_add, Int.cast_one, abs_le]
    constructor <;> linarith

@[simp] theorem nearestInt_intCast (n : ℤ) : nearestInt (n : K) = n := by
  simp [nearestInt]

theorem ulp_pos (digits : ℕ) (x : K) : 0 < ulp digits x := zpow_pos two_pos _

theorem ulp_eq (digits : ℕ) (x : K) : ulp digits x / 2 = 2 ^ Int.log 2 |x| / 2 ^ digits := by
  have htwo : (2 : K) ≠ 0 := two_pos.ne'
  rw [ulp, zpow_sub₀ htwo, zpow_add_one₀ htwo, zpow_natCast]
  ring

theorem abs_sub_round_le (digits : ℕ) (x : K) : |x - round digits x| ≤ ulp digits x / 2 := by
  have hulp := ulp_pos digits x
  have hscaled : x - round digits x =
      (x / ulp digits x - nearestInt (x / ulp digits x)) * ulp digits x := by
    rw [round, sub_mul, div_mul_cancel₀ _ hulp.ne']
  calc |x - round digits x|
      = |x / ulp digits x - nearestInt (x / ulp digits x)| * ulp digits x := by
        rw [hscaled, abs_mul, abs_of_pos hulp]
    _ ≤ 1 / 2 * ulp digits x :=
        mul_le_mul_of_nonneg_right (abs_sub_nearestInt_le _) hulp.le
    _ = ulp digits x / 2 := by ring

/-- A number that is an integer number of units is its own rounding. -/
theorem round_of_eq_mul {digits : ℕ} {x : K} {n : ℤ} (hx : x = n * ulp digits x) :
    round digits x = x := by
  have hquotient : x / ulp digits x = n := by
    rw [div_eq_iff (ulp_pos digits x).ne']
    exact hx
  rw [round, hquotient, nearestInt_intCast]
  exact hx.symm

/-- A power of two has a significand of one digit. -/
theorem round_of_abs_eq {digits : ℕ} (hdigits : 1 ≤ digits) {x : K}
    (hx : |x| = 2 ^ Int.log 2 |x|) : round digits x = x := by
  have hunits : |x| = 2 ^ (digits - 1) * ulp digits x := by
    rw [ulp, ← zpow_natCast, ← zpow_add₀ two_ne_zero, Nat.cast_sub hdigits]
    exact hx.trans (congrArg _ (by push_cast; ring))
  rcases abs_choice x with habs | habs
  · apply round_of_eq_mul (n := 2 ^ (digits - 1))
    rw [← habs, Int.cast_pow, Int.cast_ofNat]
    simpa [habs] using hunits
  · apply round_of_eq_mul (n := -2 ^ (digits - 1))
    rw [Int.cast_neg, Int.cast_pow, Int.cast_ofNat, neg_mul, ← hunits, habs, neg_neg]

/-- **The relative error.** -/
theorem abs_sub_round_lt {digits : ℕ} (hdigits : 1 ≤ digits) {x : K} (hx : x ≠ 0) :
    |x - round digits x| < |x| / 2 ^ digits := by
  have hpos : 0 < |x| := abs_pos.mpr hx
  have hlog : (2 : K) ^ Int.log 2 |x| ≤ |x| := by
    exact_mod_cast Int.zpow_log_le_self (R := K) one_lt_two hpos
  rcases hlog.eq_or_lt with heq | hlt
  · -- a power of two is not rounded
    rw [round_of_abs_eq hdigits heq.symm, sub_self, abs_zero]
    positivity
  · calc |x - round digits x| ≤ ulp digits x / 2 := abs_sub_round_le digits x
      _ = 2 ^ Int.log 2 |x| / 2 ^ digits := ulp_eq digits x
      _ < |x| / 2 ^ digits := div_lt_div_of_pos_right hlt (by positivity)

/-- Rounding does not double a number. -/
theorem abs_round_le {digits : ℕ} (hdigits : 1 ≤ digits) (x : K) :
    |round digits x| ≤ 2 * |x| := by
  rcases eq_or_ne x 0 with rfl | hx
  · simp [round, nearestInt]
  · have herror := abs_sub_round_lt hdigits hx
    have hpart : |x| / 2 ^ digits ≤ |x| :=
      div_le_self (abs_nonneg x) (one_le_pow₀ one_le_two)
    calc |round digits x| = |x - (x - round digits x)| := by rw [sub_sub_cancel]
      _ ≤ |x| + |x - round digits x| := abs_sub _ _
      _ ≤ |x| + |x| := by linarith
      _ = 2 * |x| := (two_mul _).symm

/-! ## Some roundings -/

theorem round_two_pow {digits : ℕ} (hdigits : 1 ≤ digits) (n : ℕ) :
    round digits ((2 : K) ^ n) = 2 ^ n := by
  apply round_of_abs_eq hdigits
  have hlog : Int.log 2 ((2 : K) ^ n) = n := by
    exact_mod_cast Int.log_zpow (R := K) one_lt_two (n : ℤ)
  rw [abs_of_pos (by positivity), hlog, zpow_natCast]

/-- Integers of so many digits are not rounded. -/
theorem round_natCast {digits : ℕ} (hdigits : 1 ≤ digits) {n : ℕ} (hn : n ≤ 2 ^ digits) :
    round digits (n : K) = n := by
  rcases hn.eq_or_lt with rfl | hlt
  · rw [Nat.cast_pow, Nat.cast_ofNat]
    exact round_two_pow hdigits digits
  rcases n.eq_zero_or_pos with rfl | hpos
  · simp [round, nearestInt]
  -- the last place is worth `2 ^ (log + 1 - digits)`, which divides every integer
  have hlog : Nat.log 2 n < digits := Nat.log_lt_of_lt_pow hpos.ne' hlt
  obtain ⟨rest, hrest⟩ := Nat.exists_eq_add_of_lt hlog
  have hulp : ulp digits (n : K) * 2 ^ rest = 1 := by
    rw [ulp, abs_of_pos (by exact_mod_cast hpos), Int.log_natCast, hrest, ← zpow_natCast,
      ← zpow_add₀ two_ne_zero, ← zpow_zero (2 : K)]
    congr 1
    push_cast
    ring
  refine round_of_eq_mul (n := (n : ℤ) * 2 ^ rest) ?_
  push_cast
  rw [mul_assoc, mul_comm ((2 : K) ^ rest), hulp, mul_one]

/-- The first integer that has too many digits. -/
theorem round_two_pow_add_one {digits : ℕ} (hdigits : 2 ≤ digits) :
    round digits ((2 : K) ^ digits + 1) = 2 ^ digits := by
  obtain ⟨rest, rfl⟩ := Nat.exists_eq_add_of_le' hdigits
  have hlog : Int.log 2 |(2 : K) ^ (rest + 2) + 1| = (rest + 2 : ℕ) := by
    rw [abs_of_pos (by positivity), show (2 : K) ^ (rest + 2) + 1 = (2 ^ (rest + 2) + 1 : ℕ) by
      push_cast; rfl, Int.log_natCast]
    refine congrArg _ (Nat.log_eq_of_pow_le_of_lt_pow (Nat.le_succ _) ?_)
    have := Nat.one_lt_two_pow (n := rest + 2) (by omega)
    rw [pow_succ 2 (rest + 2)]
    omega
  have hulp : ulp (rest + 2) ((2 : K) ^ (rest + 2) + 1) = 2 := by
    rw [ulp, hlog, add_sub_cancel_left, zpow_one]
  have hquotient : ((2 : K) ^ (rest + 2) + 1) / 2 = (2 ^ (rest + 1) : ℤ) + 1 / 2 := by
    push_cast
    ring
  have hfloor : ⌊((2 ^ (rest + 1) : ℤ) : K) + 1 / 2⌋ = 2 ^ (rest + 1) := by
    rw [Int.floor_intCast_add, Int.floor_eq_zero_iff.mpr ⟨by norm_num, by norm_num⟩, add_zero]
  have hfract : Int.fract (((2 ^ (rest + 1) : ℤ) : K) + 1 / 2) = 1 / 2 := by
    rw [Int.fract, hfloor, add_sub_cancel_left]
  have heven : Even ((2 : ℤ) ^ (rest + 1)) := (even_two).pow_of_ne_zero (Nat.succ_ne_zero rest)
  rw [round, hulp, hquotient, nearestInt, hfloor, if_pos (Or.inr ⟨hfract, heven⟩)]
  push_cast
  ring

end Round

/-! ## Double precision -/

/-- The number of double precision that is nearest, unless it is too large. -/
def double (x : ℚ) : Option ℚ :=
  if 2 ^ 1024 ≤ |round 53 x| then none else some (round 53 x)

theorem double_two_pow (n : ℕ) : double (2 ^ n) = if n < 1024 then some (2 ^ n) else none := by
  rw [double, round_two_pow (by norm_num), abs_of_pos (by positivity)]
  by_cases hn : n < 1024
  · rw [if_neg (not_le.mpr (pow_lt_pow_right₀ one_lt_two hn)), if_pos hn]
  · rw [if_pos (pow_le_pow_right₀ one_le_two (not_lt.mp hn)), if_neg hn]

end EveBuild.Significand
