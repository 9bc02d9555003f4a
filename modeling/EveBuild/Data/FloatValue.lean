import EveBuild.Data.Dynamic
import EveBuild.Data.Significand

/-!
# The values of floats

A float is a rational number of double precision, infinite or not a number; the two zeros are one
value here.  A sum is the exact sum, rounded to the nearest double, or infinite if that is too
large.  Doubles below the least exponent have fewer digits, but a sum of two doubles is a multiple
of the least one, and is exact down there.
-/

namespace EveBuild

open Significand

inductive FloatValue
  | finite (value : ℚ)
  | infinite (negative : Bool)
  | nan
deriving DecidableEq

namespace FloatValue

/-- The nearest float. -/
def nearest (value : ℚ) : FloatValue :=
  match double value with
  | some value => finite value
  | none => infinite (value < 0)

/-- `float(value)`, unless the integer is too large. -/
def ofInt? (value : ℤ) : Option FloatValue := (double value).map finite

def ofBits (bits : UInt64) : FloatValue :=
  match (Number.float bits).rational? with
  | some value => finite value
  | none => if (Number.float bits).isNaN then nan else infinite (2 ^ 63 ≤ bits.toNat)

/-- `a + b`. -/
def add : FloatValue → FloatValue → FloatValue
  | finite a, finite b => nearest (a + b)
  | infinite a, infinite b => if a = b then infinite a else nan
  | infinite a, finite _ | finite _, infinite a => infinite a
  | nan, _ | _, nan => nan

/-- `bool(x)`. -/
def isTrue : FloatValue → Bool
  | finite value => value ≠ 0
  | _ => true

def IsPositive : FloatValue → Prop
  | finite value => 0 < value
  | infinite negative => negative = false
  | nan => False

theorem IsPositive.isTrue {x : FloatValue} (hpositive : x.IsPositive) : x.isTrue = true := by
  cases x with
  | finite value => exact decide_eq_true (ne_of_gt hpositive)
  | _ => rfl

/-- A positive number is not rounded to zero. -/
theorem round_pos {x : ℚ} (hpositive : 0 < x) : 0 < round 53 x := by
  have herror := abs_sub_round_lt (by norm_num : 1 ≤ 53) hpositive.ne'
  rw [abs_of_pos hpositive] at herror
  have hsmaller : x / 2 ^ 53 ≤ x := div_le_self hpositive.le (by norm_num)
  have habove := (abs_lt.mp herror).2
  linarith

theorem isPositive_nearest {x : ℚ} (hpositive : 0 < x) : (nearest x).IsPositive := by
  unfold nearest double
  split_ifs
  · exact decide_eq_false (not_lt.mpr hpositive.le)
  · exact round_pos hpositive

theorem isPositive_of_ofInt? {value : ℤ} (hpositive : 0 < value) {x : FloatValue}
    (hx : ofInt? value = some x) : x.IsPositive := by
  unfold ofInt? double at hx
  split_ifs at hx
  · cases hx
  rw [Option.map_some] at hx
  obtain rfl := Option.some_inj.mp hx
  have hcast : (0 : ℚ) < value := by exact_mod_cast hpositive
  exact round_pos hcast

/-- Adding something positive to nothing or to something positive gives something positive. -/
theorem IsPositive.add {x y : FloatValue} (hx : x = finite 0 ∨ x.IsPositive) (hy : y.IsPositive) :
    (x.add y).IsPositive := by
  cases y with
  | nan => cases hy
  | infinite negative =>
      obtain rfl : negative = false := hy
      rcases hx with rfl | hx
      · rfl
      · cases x with
        | nan => cases hx
        | infinite negative =>
            obtain rfl : negative = false := hx
            rfl
        | finite value => rfl
  | finite value =>
      have hvalue : 0 < value := hy
      rcases hx with rfl | hx
      · exact isPositive_nearest (by rwa [zero_add])
      · cases x with
        | nan => cases hx
        | infinite negative => exact hx
        | finite other => exact isPositive_nearest (add_pos hx hvalue)

end FloatValue

end EveBuild
