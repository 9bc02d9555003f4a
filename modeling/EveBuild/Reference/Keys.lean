import EveBuild.Cache.Keys

/-!
# Keys of reference data

The documents of the SDE and what ESI says of locations, planets and systems are kept in the
same Redis as the lists of characters and corporations.  `app/services/sde.py` and
`app/services/locations.py` give them keys that start with one of seven prefixes.

Different data have different keys (`key_injective`).
-/

namespace EveBuild.Reference

/-- What is kept under the identifiers of the game. -/
inductive Kind
  | sdeType
  | sdeBlueprint
  | sdeCategory
  | locationDetails
  | systemSecurity
  | planetName
  | systemName
deriving DecidableEq

def Kind.keyPrefix : Kind → String
  | sdeType => "sde_type"
  | sdeBlueprint => "sde_blueprint"
  | sdeCategory => "sde_category"
  | locationDetails => "location_details"
  | systemSecurity => "system_security"
  | planetName => "planet_name"
  | systemName => "system_name"

/-- `sde.cache_key`. -/
def cacheKey (keyPrefix : String) (value : ℤ) : String := keyPrefix ++ ":" ++ toString value

def Kind.key (kind : Kind) (value : ℤ) : String := cacheKey kind.keyPrefix value

theorem Kind.colon_notMem (kind : Kind) : ':' ∉ kind.keyPrefix.toList := by
  cases kind <;> decide

theorem Kind.keyPrefix_injective : Function.Injective Kind.keyPrefix := by
  intro kind other
  cases kind <;> cases other <;> decide

/-- **Different data have different keys.** -/
theorem key_injective {kind other : Kind} {value otherValue : ℤ}
    (heq : kind.key value = other.key otherValue) : kind = other ∧ value = otherValue := by
  have htext : Cache.cacheKey kind.keyPrefix (some value) =
      Cache.cacheKey other.keyPrefix (some otherValue) := heq
  obtain ⟨hinit, hvalue⟩ := Cache.cacheKey_inj kind.colon_notMem other.colon_notMem htext
  exact ⟨Kind.keyPrefix_injective hinit, Option.some_inj.mp hvalue⟩

end EveBuild.Reference
