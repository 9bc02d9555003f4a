import EveBuild.Data.Value

/-!
# Entries of cached lists

The entries of a list that is read from ESI are instances of a dataclass.  An
`EntryType` is such a class: its fields in their order, and which of them an entry of
ESI must have.  An instance is the dictionary that `asdict` makes of it.

A cached list is a JSON array of these dictionaries.  `EntryType.decode` is
`[entry_type(**entry) for entry in cached]`, which raises a `TypeError` if the cached
value is anything else, or was made when the class had other fields.
-/

namespace EveBuild.Cache

/-- Every item has a result. -/
theorem mapM_eq_some {α β : Type} {f : α → Option β} (g : α → β) {items : List α}
    (hitems : ∀ item ∈ items, f item = some (g item)) : items.mapM f = some (items.map g) := by
  induction items with
  | nil => rfl
  | cons item items ih =>
      obtain ⟨hitem, hitems⟩ := List.forall_mem_cons.mp hitems
      rw [List.mapM_cons, hitem, ih hitems]
      rfl

/-- What a list comprehension that cannot fail has made its items of. -/
theorem exists_of_mem_mapM {α β : Type} {f : α → Option β} {items : List α} {results : List β}
    (hmap : items.mapM f = some results) {result : β} (hresult : result ∈ results) :
    ∃ item ∈ items, f item = some result := by
  induction items generalizing results with
  | nil =>
      cases hmap
      cases hresult
  | cons item items ih =>
      rw [List.mapM_cons] at hmap
      obtain ⟨first, hfirst, hrest⟩ := Option.bind_eq_some_iff.mp hmap
      obtain ⟨others, hothers, hpure⟩ := Option.bind_eq_some_iff.mp hrest
      cases hpure
      rcases List.mem_cons.mp hresult with rfl | hresult
      · exact ⟨item, List.mem_cons_self .., hfirst⟩
      · obtain ⟨other, hother, hf⟩ := ih hothers hresult
        exact ⟨other, List.mem_cons_of_mem _ hother, hf⟩

/-- A dataclass, with the fields that `entry["…"]` reads from ESI marked; the others are
read by `entry.get("…")`. -/
structure EntryType where
  fields : List (String × Bool)
  nodup_names : (fields.map Prod.fst).Nodup

namespace EntryType

variable (entryType : EntryType)

def names : List String := entryType.fields.map Prod.fst

/-- The instance whose fields have these values. -/
def build (value : String → Value) : Document where
  entries := entryType.names.map fun name => (name, value name)
  nodup_keys := by
    rw [List.map_map]
    exact (List.map_id _).symm ▸ entryType.nodup_names

/-- The instance that is made of an entry of ESI; `none` is a `KeyError`. -/
def ofRaw (raw : Document) : Option Document :=
  if ∀ entry ∈ entryType.fields, entry.2 = true → entry.1 ∈ raw.keys then
    some (entryType.build raw.field)
  else none

/-- `entry_type(**entry)`; `none` is a `TypeError`. -/
def construct (entry : Document) : Option Document :=
  if (∀ name ∈ entry.keys, name ∈ entryType.names) ∧
      ∀ name ∈ entryType.names, name ∈ entry.keys then
    some (entryType.build entry.field)
  else none

/-- `entry_type(**entry)` of any value. -/
def constructValue (value : Value) : Option Document :=
  (Document.ofValue? value).bind entryType.construct

/-- `[entry_type(**entry) for entry in cached]`; `none` is a `TypeError`.  Only a list, an
empty string or an empty dictionary can be gone through without one. -/
def decode : Value → Option (List Document)
  | .array items => items.mapM entryType.constructValue
  | .string text => if text = "" then some [] else none
  | .object members => if members = [] then some [] else none
  | _ => none

/-- `[asdict(entry) for entry in entries]`. -/
def encode (entries : List Document) : Value := .array (entries.map Document.toValue)

variable {entryType}

@[simp] theorem keys_build (value : String → Value) :
    (entryType.build value).keys = entryType.names := by
  simp [Dict.keys, build, Function.comp_def]

theorem field_build (value : String → Value) {name : String} (hname : name ∈ entryType.names) :
    (entryType.build value).field name = value name := by
  refine Dict.getD_of_get? (Dict.get?_eq_some_iff.mpr ?_) _
  exact List.mem_map.mpr ⟨name, hname, rfl⟩

/-- An instance is one again after it has been cached. -/
theorem construct_build (value : String → Value) :
    entryType.construct (entryType.build value) = some (entryType.build value) := by
  rw [construct, keys_build, if_pos ⟨fun _ hname => hname, fun _ hname => hname⟩]
  refine congrArg some (Dict.ext (List.map_congr_left fun name hname => ?_))
  rw [field_build value hname]

/-- An instance of the class. -/
def IsInstance (entryType : EntryType) (entry : Document) : Prop :=
  ∃ value, entry = entryType.build value

theorem isInstance_of_ofRaw {raw entry : Document} (hraw : entryType.ofRaw raw = some entry) :
    entryType.IsInstance entry := by
  rw [ofRaw] at hraw
  split at hraw
  · exact ⟨raw.field, (Option.some_inj.mp hraw).symm⟩
  · cases hraw

/-- **Round trip** of a list of instances. -/
theorem decode_encode {entries : List Document}
    (hentries : ∀ entry ∈ entries, entryType.IsInstance entry) :
    entryType.decode (encode entries) = some entries := by
  simp only [decode, encode]
  induction entries with
  | nil => rfl
  | cons entry entries ih =>
      obtain ⟨value, rfl⟩ := hentries entry (List.mem_cons_self ..)
      have hentry : entryType.constructValue (entryType.build value).toValue =
          some (entryType.build value) := by
        rw [constructValue, Document.ofValue?_toValue]
        exact construct_build value
      rw [List.map_cons, List.mapM_cons, hentry,
        ih fun other hother => hentries other (List.mem_cons_of_mem _ hother)]
      rfl

end EntryType

end EveBuild.Cache
