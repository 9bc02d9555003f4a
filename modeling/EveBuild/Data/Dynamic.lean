import Mathlib.Data.Rat.Lemmas
import Mathlib.Algebra.Order.Ring.Rat
import Mathlib.Data.List.Sort
import EveBuild.Data.Value

/-!
# Values that are used whatever they are

A Python program that reads a JSON text may use the values in it without looking at their types.
Most uses are defined for some types only, and the others raise one of three errors (`Misuse`).
Equality is defined for all values, and two of them can be equal without being the same: `True`,
`1` and `1.0` are, and so are two objects with the same members in another order.  Equal values
have one normal form.  The members of an object have different names, as those of a `dict` have.
-/

namespace EveBuild

namespace Number

/-- The value of a number that is finite. -/
def rational? : Number → Option ℚ
  | int value => some value
  | float bits =>
      let exponent : ℕ := bits.toNat / 2 ^ 52 % 2 ^ 11
      let fraction : ℕ := bits.toNat % 2 ^ 52
      let magnitude : ℚ :=
        if exponent = 0 then (fraction : ℚ) / 2 ^ 1074
        else ((2 ^ 52 + fraction : ℕ) : ℚ) * 2 ^ exponent / 2 ^ 1075
      if exponent = 2047 then none
      else some (if 2 ^ 63 ≤ bits.toNat then -magnitude else magnitude)

def isNaN : Number → Bool
  | int _ => false
  | float bits => bits.toNat / 2 ^ 52 % 2 ^ 11 = 2047 ∧ bits.toNat % 2 ^ 52 ≠ 0

/-- A float that is a whole number is equal to the integer. -/
def normal (number : Number) : Number :=
  match number.rational? with
  | some value => if value.den = 1 then int value.num else number
  | none => number

end Number

namespace Value

/-- What the use of a value of the wrong type raises. -/
inductive Misuse
  | keyError
  | typeError
  | attributeError
deriving DecidableEq

/-! ## Equality -/

/-- What `dict` and `set` tell a value apart by; a list or a `dict` has no hash.  NaN is a constant
of the module `json`, and in one run of the program it is the same as itself. -/
def key? : Value → Option Value
  | bool value => some (int (if value then 1 else 0))
  | number value => some (number value.normal)
  | array _ => none
  | object _ => none
  | value => some value

mutual

/-- The normal form of a value in which there is no NaN. -/
def normal? : Value → Option Value
  | number value => if value.isNaN then none else some (number value.normal)
  | array items => (normalItems? items).map array
  | object members => (normalMembers? members).map fun members =>
      object (members.insertionSort fun first second => first.1 ≤ second.1)
  | value => value.key?

def normalItems? : List Value → Option (List Value)
  | [] => some []
  | item :: items => do
      let item ← normal? item
      let items ← normalItems? items
      return item :: items

def normalMembers? : List (String × Value) → Option (List (String × Value))
  | [] => some []
  | (name, value) :: members => do
      let value ← normal? value
      let members ← normalMembers? members
      return (name, value) :: members

end

/-- `first == second`, where the two have been read at different times. -/
def Equals (first second : Value) : Prop :=
  first.normal?.isSome ∧ first.normal? = second.normal?

instance (first second : Value) : Decidable (first.Equals second) :=
  inferInstanceAs (Decidable (_ ∧ _))

/-- What is equal to the same value is equal to each other. -/
theorem Equals.euclidean {value first second : Value} (hfirst : value.Equals first)
    (hsecond : value.Equals second) : first.Equals second :=
  ⟨hfirst.2 ▸ hfirst.1, hfirst.2.symm.trans hsecond.2⟩

theorem lookup_normalMembers? {members normals : List (String × Value)}
    (hnormals : normalMembers? members = some normals) :
    normals.map Prod.fst = members.map Prod.fst ∧
      ∀ name, normals.lookup name = (members.lookup name).bind normal? := by
  induction members generalizing normals with
  | nil =>
      cases hnormals
      simp
  | cons member members ih =>
      obtain ⟨first, value⟩ := member
      rw [normalMembers?] at hnormals
      obtain ⟨normal, hnormal, hrest⟩ := Option.bind_eq_some_iff.mp hnormals
      obtain ⟨others, hothers, hcons⟩ := Option.bind_eq_some_iff.mp hrest
      obtain rfl := Option.some_inj.mp hcons
      obtain ⟨hnames, hlookup⟩ := ih hothers
      refine ⟨by simp [hnames], fun name => ?_⟩
      rw [List.lookup_cons, List.lookup_cons, hlookup]
      cases hname : name == first with
      | true => exact hnormal.symm
      | false => rfl

/-- Equal objects have equal members. -/
theorem Equals.lookup {members others : List (String × Value)}
    (hequals : (object members).Equals (object others)) (hnodup : (members.map Prod.fst).Nodup)
    (name : String) :
    (members.lookup name).bind normal? = (others.lookup name).bind normal? := by
  obtain ⟨hsome, hsame⟩ := hequals
  rw [normal?, normal?] at hsame
  rw [normal?, Option.isSome_map] at hsome
  obtain ⟨normals, hnormals⟩ := Option.isSome_iff_exists.mp hsome
  rw [hnormals, Option.map_some] at hsame
  obtain ⟨otherNormals, hotherNormals, hsorted⟩ := Option.map_eq_some_iff.mp hsame.symm
  have hperm : normals.Perm otherNormals :=
    (List.perm_insertionSort _ normals).symm.trans
      ((Value.object.inj hsorted) ▸ List.perm_insertionSort _ otherNormals)
  obtain ⟨hnames, hlookup⟩ := lookup_normalMembers? hnormals
  obtain ⟨-, hotherLookup⟩ := lookup_normalMembers? hotherNormals
  rw [← hlookup, ← hotherLookup]
  exact Dict.lookup_eq_of_perm hperm (hnames ▸ hnodup) name

/-! ## Uses -/

/-- `bool(value)`. -/
def truthy : Value → Bool
  | null => false
  | bool value => value
  | number value => value.normal ≠ .int 0
  | string value => value ≠ ""
  | date _ => true
  | array items => items ≠ []
  | object members => members ≠ []

/-- `value[name]`. -/
def subscript (name : String) : Value → Except Misuse Value
  | object members => (members.lookup name).elim (.error .keyError) .ok
  | _ => .error .typeError

/-- `value.get(name)`. -/
def getOrNone (name : String) : Value → Except Misuse Value
  | object members => .ok ((members.lookup name).getD .null)
  | _ => .error .attributeError

/-- What `for item in value` goes over. -/
def iterate : Value → Except Misuse (List Value)
  | array items => .ok items
  | object members => .ok (members.map fun member => .string member.1)
  | string value => .ok (value.toList.map fun c => .string c.toString)
  | _ => .error .typeError

end Value

end EveBuild
