import EveBuild.Data.Dict

/-!
# Values of JSON texts and database documents

A `Value` is what `json.loads` returns, or the value of a field of a database
document, which may also be a date.  A `Document` is a dictionary of values; a
field that it does not have reads as `null`, as in a database query or an index.
-/

namespace EveBuild

/-- An integer, or the bits of a floating-point number. -/
inductive Number
  | int (value : ℤ)
  | float (bits : UInt64)
deriving DecidableEq

inductive Value
  | null
  | bool (value : Bool)
  | number (value : Number)
  | string (value : String)
  | date (milliseconds : ℤ)
  | array (items : List Value)
  | object (members : List (String × Value))

namespace Value

/-- Which constructor a value has. -/
def kind : Value → ℕ
  | null => 0
  | bool _ => 1
  | number _ => 2
  | string _ => 3
  | date _ => 4
  | array _ => 5
  | object _ => 6

theorem ne_of_kind {first second : Value} (hkind : first.kind ≠ second.kind) : first ≠ second :=
  fun heq => hkind (congrArg kind heq)

-- `deriving DecidableEq` does not reach through the nested lists.
mutual

def decEq : (first second : Value) → Decidable (first = second)
  | null, null => isTrue rfl
  | bool a, bool b => decidable_of_iff (a = b) (by simp)
  | number a, number b => decidable_of_iff (a = b) (by simp)
  | string a, string b => decidable_of_iff (a = b) (by simp)
  | date a, date b => decidable_of_iff (a = b) (by simp)
  | array a, array b => @decidable_of_iff _ (a = b) (by simp) (decEqItems a b)
  | object a, object b => @decidable_of_iff _ (a = b) (by simp) (decEqMembers a b)
  | null, bool _ | null, number _ | null, string _ | null, date _ | null, array _
  | null, object _ | bool _, null | bool _, number _ | bool _, string _ | bool _, date _
  | bool _, array _ | bool _, object _ | number _, null | number _, bool _
  | number _, string _ | number _, date _ | number _, array _ | number _, object _
  | string _, null | string _, bool _ | string _, number _ | string _, date _
  | string _, array _ | string _, object _ | date _, null | date _, bool _
  | date _, number _ | date _, string _ | date _, array _ | date _, object _
  | array _, null | array _, bool _ | array _, number _ | array _, string _
  | array _, date _ | array _, object _ | object _, null | object _, bool _
  | object _, number _ | object _, string _ | object _, date _ | object _, array _ =>
      isFalse (ne_of_kind (by simp [kind]))

def decEqItems : (first second : List Value) → Decidable (first = second)
  | [], [] => isTrue rfl
  | [], _ :: _ | _ :: _, [] => isFalse (by simp)
  | a :: as, b :: bs => @decidable_of_iff _ (a = b ∧ as = bs) (by simp)
      (@instDecidableAnd _ _ (decEq a b) (decEqItems as bs))

def decEqMembers : (first second : List (String × Value)) → Decidable (first = second)
  | [], [] => isTrue rfl
  | [], _ :: _ | _ :: _, [] => isFalse (by simp)
  | (k, a) :: as, (l, b) :: bs =>
      @decidable_of_iff _ (k = l ∧ a = b ∧ as = bs) (by simp [and_assoc])
        (@instDecidableAnd _ _ _ (@instDecidableAnd _ _ (decEq a b) (decEqMembers as bs)))

end

instance : DecidableEq Value := decEq

/-- A JSON integer. -/
abbrev int (value : ℤ) : Value := number (.int value)

end Value

/-- A dictionary of values. -/
abbrev Document := Dict String Value

namespace Document

/-- The value of a field, `null` if the document does not have it. -/
def field (document : Document) (name : String) : Value := document.getD name .null

/-- The document as a value. -/
def toValue (document : Document) : Value := .object document.entries

/-- The document that a value is, if it is one. -/
def ofValue? : Value → Option Document
  | .object members =>
      if hnodup : (members.map Prod.fst).Nodup then some ⟨members, hnodup⟩ else none
  | _ => none

@[simp] theorem ofValue?_toValue (document : Document) :
    ofValue? document.toValue = some document := by
  rw [toValue, ofValue?, dif_pos document.nodup_keys]

end Document

end EveBuild
