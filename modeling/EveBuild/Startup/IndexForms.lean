import EveBuild.Effect.Rendering
import EveBuild.Startup.IndexRepeats

/-!
# Files of the expected form

`syncIndexes` is about files in which a collection and a name are texts, keys are fields with a
direction, and options are those that are passed on, each of its type.  Written down as JSON, such
files are synchronised by the same calls (`sameCalls_syncIndexes`): `Json.syncIndexes` is
`sync_indexes` on all files, and `syncIndexes` on these.
-/

namespace EveBuild.IndexSync

open Effect Value

/-! ## Files as JSON -/

/-- A member that an object can lack. -/
def optional (name : String) (value? : Option Value) : List (String × Value) :=
  (value?.map fun value => (name, value)).toList

def IndexOptions.members (options : IndexOptions) : List (String × Value) :=
  optional "unique" (options.unique.map .bool) ++ optional "sparse" (options.sparse.map .bool) ++
    optional "expireAfterSeconds" (options.expireAfterSeconds.map .int)

def keyPairs (keys : List (String × ℤ)) : List (List Value) :=
  keys.map fun (field, direction) => [.string field, .int direction]

def IndexSpec.members (spec : IndexSpec) : List (String × Value) :=
  optional "name" (spec.name?.map .string) ++
    optional "keys" (spec.keys?.map fun keys => .array ((keyPairs keys).map .array)) ++
      spec.options.members

def IndexSpec.json (spec : IndexSpec) : Value := .object spec.members

/-- An index as it stands in its file. -/
def Index.spec (index : Index) : IndexSpec := ⟨some index.name, some index.keys, index.options⟩

def IndexFile.json (file : IndexFile) : JsonFile where
  path := file.path
  data := .object [("collection", .string file.collection),
    ("indexes", .array (file.indexes.map IndexSpec.json))]

def IndexRecord.json (record : IndexRecord) : Json.Record where
  id := record.id
  collection := .string record.collection
  name := .string record.index.name
  spec := record.index.spec.json

def SyncError.json : SyncError → Json.Error
  | missingNameOrKeys path collection => .load (.missingNameOrKeys path (.string collection))
  | duplicateName path name collection =>
      .load (.duplicateName path (.string name) (.string collection))
  | operationFailure => .operationFailure
  | connection => .other

/-! ## Members -/

theorem lookup_optional (name other : String) (value? : Option Value) :
    (optional name value?).lookup other = if other = name then value? else none := by
  cases value? with
  | none => simp [optional]
  | some value =>
      by_cases hname : other = name
      · simp [optional, hname]
      · simp [optional, List.lookup_cons, hname, beq_false_of_ne hname]

theorem lookup_members (spec : IndexSpec) :
    spec.members.lookup "name" = spec.name?.map .string ∧
    spec.members.lookup "keys" =
      spec.keys?.map (fun keys => .array ((keyPairs keys).map .array)) ∧
    spec.members.lookup "unique" = spec.options.unique.map .bool ∧
    spec.members.lookup "sparse" = spec.options.sparse.map .bool ∧
    spec.members.lookup "expireAfterSeconds" = spec.options.expireAfterSeconds.map .int := by
  simp [IndexSpec.members, IndexOptions.members, List.lookup_append, lookup_optional]

theorem nodup_members (spec : IndexSpec) : (spec.members.map Prod.fst).Nodup := by
  have hoptional : ∀ name value?, ((optional name value?).map Prod.fst).Sublist [name] := by
    intro name value?
    cases value? <;> simp [optional]
  have hnames : (spec.members.map Prod.fst).Sublist
      (["name"] ++ ["keys"] ++ (["unique"] ++ ["sparse"] ++ ["expireAfterSeconds"])) := by
    simp only [IndexSpec.members, IndexOptions.members, List.map_append]
    exact ((hoptional _ _).append (hoptional _ _)).append
      (((hoptional _ _).append (hoptional _ _)).append (hoptional _ _))
  exact hnames.nodup (by decide)

theorem indexOptions_json (spec : IndexSpec) :
    Json.indexOptions spec.json = spec.options.members := by
  obtain ⟨-, -, hunique, hsparse, hexpire⟩ := lookup_members spec
  simp only [IndexSpec.json, Json.indexOptions, List.filterMap_cons, List.filterMap_nil, hunique,
    hsparse, hexpire, IndexOptions.members]
  cases spec.options.unique <;> cases spec.options.sparse <;>
    cases spec.options.expireAfterSeconds <;> rfl

/-! ## Equality -/

theorem normalItems?_eq {items : List Value} (hitems : ∀ item ∈ items, item.normal? = some item) :
    normalItems? items = some items := by
  induction items with
  | nil => rfl
  | cons item items ih =>
      obtain ⟨hitem, hrest⟩ := List.forall_mem_cons.mp hitems
      rw [normalItems?, hitem, ih hrest]
      rfl

/-- The keys of an index are in normal form. -/
theorem normal?_keyPairs (keys : List (String × ℤ)) :
    (Value.array ((keyPairs keys).map .array)).normal? =
      some (.array ((keyPairs keys).map .array)) := by
  have hpairs : ∀ item ∈ (keyPairs keys).map Value.array, item.normal? = some item := by
    intro item hitem
    obtain ⟨pair, hpair, rfl⟩ := List.mem_map.mp hitem
    obtain ⟨⟨field, direction⟩, -, rfl⟩ := List.mem_map.mp hpair
    rfl
  rw [normal?, normalItems?_eq hpairs]
  rfl

theorem keyPairs_injective : Function.Injective keyPairs := by
  refine List.map_injective_iff.mpr ?_
  rintro ⟨field, direction⟩ ⟨otherField, otherDirection⟩ heq
  simpa using heq

/-- Values that the normal form tells apart. -/
structure Distinct {α : Type} (value : α → Value) : Prop where
  isSome : ∀ item, (value item).normal?.isSome
  injective : Function.Injective fun item => (value item).normal?

theorem distinct_string : Distinct Value.string :=
  ⟨fun _ => rfl, fun _ _ heq => Value.string.inj (Option.some_inj.mp heq)⟩

theorem distinct_bool : Distinct Value.bool := by
  refine ⟨fun _ => rfl, fun first second heq => ?_⟩
  cases first <;> cases second
  · rfl
  · cases heq
  · cases heq
  · rfl

theorem distinct_int : Distinct Value.int := by
  refine ⟨fun _ => rfl, fun first second heq => ?_⟩
  exact Number.int.inj (Value.number.inj (Option.some_inj.mp heq))

theorem distinct_keyPairs :
    Distinct fun keys => Value.array ((keyPairs keys).map .array) := by
  refine ⟨fun keys => by rw [normal?_keyPairs]; rfl, fun first second heq => ?_⟩
  simp only [normal?_keyPairs, Option.some.injEq, Value.array.injEq] at heq
  exact keyPairs_injective (List.map_injective_iff.mpr (fun _ _ => Value.array.inj) heq)

theorem Distinct.eq_of_bind {α : Type} {value : α → Value} (hdistinct : Distinct value)
    {first second : Option α}
    (heq : (first.map value).bind normal? = (second.map value).bind normal?) : first = second := by
  have hsome : ∀ item, (value item).normal? ≠ none := fun item =>
    Option.isSome_iff_ne_none.mp (hdistinct.isSome item)
  cases first with
  | none =>
      cases second with
      | none => rfl
      | some item => exact absurd heq.symm (hsome item)
  | some item =>
      cases second with
      | none => exact absurd heq (hsome item)
      | some other => exact congrArg some (hdistinct.injective heq)

theorem isSome_of_mem_optional {α : Type} {value : α → Value} (hdistinct : Distinct value)
    {name : String} {item? : Option α} :
    ∀ member ∈ optional name (item?.map value), member.2.normal?.isSome := by
  intro member hmember
  cases item? with
  | none => cases hmember
  | some item =>
      obtain rfl := List.mem_singleton.mp hmember
      exact hdistinct.isSome item

theorem isSome_normalMembers? {members : List (String × Value)}
    (hmembers : ∀ member ∈ members, member.2.normal?.isSome) :
    (normalMembers? members).isSome := by
  induction members with
  | nil => rfl
  | cons member members ih =>
      obtain ⟨hmember, hrest⟩ := List.forall_mem_cons.mp hmembers
      obtain ⟨normal, hnormal⟩ := Option.isSome_iff_exists.mp hmember
      obtain ⟨normals, hnormals⟩ := Option.isSome_iff_exists.mp (ih hrest)
      rw [normalMembers?, hnormal, hnormals]
      rfl

/-- There is no NaN in an index. -/
theorem isSome_normal?_json (spec : IndexSpec) : spec.json.normal?.isSome := by
  rw [IndexSpec.json, normal?, Option.isSome_map]
  refine isSome_normalMembers? ?_
  simp only [IndexSpec.members, IndexOptions.members, List.forall_mem_append]
  exact ⟨⟨isSome_of_mem_optional distinct_string, isSome_of_mem_optional distinct_keyPairs⟩,
    ⟨isSome_of_mem_optional distinct_bool, isSome_of_mem_optional distinct_bool⟩,
    isSome_of_mem_optional distinct_int⟩

/-- **An index is told apart** from another by its JSON. -/
theorem equals_json_iff {spec other : IndexSpec} : spec.json.Equals other.json ↔ spec = other := by
  constructor
  · intro hequals
    have hlookup := hequals.lookup (nodup_members spec)
    obtain ⟨hname, hkeys, hunique, hsparse, hexpire⟩ := lookup_members spec
    obtain ⟨hname', hkeys', hunique', hsparse', hexpire'⟩ := lookup_members other
    obtain ⟨name?, keys?, unique, sparse, expireAfterSeconds⟩ := spec
    obtain ⟨name?', keys?', unique', sparse', expireAfterSeconds'⟩ := other
    obtain rfl : name? = name?' := distinct_string.eq_of_bind (hname ▸ hname' ▸ hlookup "name")
    obtain rfl : keys? = keys?' := distinct_keyPairs.eq_of_bind (hkeys ▸ hkeys' ▸ hlookup "keys")
    obtain rfl : unique = unique' :=
      distinct_bool.eq_of_bind (hunique ▸ hunique' ▸ hlookup "unique")
    obtain rfl : sparse = sparse' :=
      distinct_bool.eq_of_bind (hsparse ▸ hsparse' ▸ hlookup "sparse")
    obtain rfl : expireAfterSeconds = expireAfterSeconds' :=
      distinct_int.eq_of_bind (hexpire ▸ hexpire' ▸ hlookup "expireAfterSeconds")
    rfl
  · rintro rfl
    exact ⟨isSome_normal?_json spec, rfl⟩

/-! ## Loading -/

section Loading

variable {path collection : String}

theorem checkSpec_json (spec : IndexSpec) (seenNames : List String) :
    checkSpec path (.string collection) (seenNames.map .string) spec.json =
      if spec.name?.getD "" = "" ∨ spec.keys?.getD [] = [] then
        .error (.missingNameOrKeys path (.string collection))
      else if spec.name?.getD "" ∈ seenNames then
        .error (.duplicateName path (.string (spec.name?.getD "")) (.string collection))
      else .ok (.string (spec.name?.getD "")) := by
  obtain ⟨hname, hkeys, -⟩ := lookup_members spec
  have hgetName : spec.json.getOrNone "name" = .ok ((spec.name?.map .string).getD .null) := by
    rw [IndexSpec.json, getOrNone, hname]
  have hgetKeys : spec.json.getOrNone "keys" =
      .ok ((spec.keys?.map fun keys => .array ((keyPairs keys).map .array)).getD .null) := by
    rw [IndexSpec.json, getOrNone, hkeys]
  rw [checkSpec, hgetName, hgetKeys]
  cases spec.name? with
  | none => simp [Except.mapError, bind, Except.bind, truthy]
  | some name =>
      cases spec.keys? with
      | none => simp [Except.mapError, bind, Except.bind, truthy]
      | some keys =>
          simp [Except.mapError, bind, Except.bind, truthy, keyPairs, key?]

/-- What checking the indexes of a file comes to, typed or not. -/
inductive ChecksAs (specs : List IndexSpec) :
    Except SyncError (List Index) → Except LoadError Unit → Prop
  | ok {indexes} (hspecs : specs = indexes.map Index.spec) : ChecksAs specs (.ok indexes) (.ok ())
  | error {error loadError} (herror : .load loadError = error.json) :
      ChecksAs specs (.error error) (.error loadError)

/-- An index with a name and keys is one in the sense of `Index`. -/
theorem spec_eq {spec : IndexSpec} (hmissing : ¬ (spec.name?.getD "" = "" ∨ spec.keys?.getD [] = [])) :
    spec = Index.spec ⟨spec.name?.getD "", spec.keys?.getD [], spec.options⟩ := by
  obtain ⟨name?, keys?, options⟩ := spec
  obtain ⟨hname, hkeys⟩ := not_or.mp hmissing
  cases name? with
  | none => exact absurd rfl hname
  | some name =>
      cases keys? with
      | none => exact absurd rfl hkeys
      | some keys => rfl

theorem checkSpecs_json (specs : List IndexSpec) (seenNames : List String) :
    ChecksAs specs (checkIndexes path collection seenNames specs)
      (checkSpecs path (.string collection) (seenNames.map .string)
        (specs.map IndexSpec.json)) := by
  induction specs generalizing seenNames with
  | nil => exact .ok rfl
  | cons spec specs ih =>
      rw [checkIndexes, List.map_cons, checkSpecs, checkSpec_json]
      split
      · exact .error rfl
      · rename_i hmissing
        split
        · exact .error rfl
        · -- with a name and keys, the object is that of an index
          have hspec : spec = Index.spec
              ⟨spec.name?.getD "", spec.keys?.getD [], spec.options⟩ := spec_eq hmissing
          have hrest := ih (spec.name?.getD "" :: seenNames)
          rw [List.map_cons] at hrest
          change ChecksAs _ _ (checkSpecs path (.string collection)
            (.string (spec.name?.getD "") :: seenNames.map .string) (specs.map IndexSpec.json))
          generalize checkSpecs path (.string collection)
            (.string (spec.name?.getD "") :: seenNames.map .string) (specs.map IndexSpec.json) =
              raw at hrest ⊢
          generalize checkIndexes path collection (spec.name?.getD "" :: seenNames) specs =
            typed at hrest ⊢
          cases hrest with
          | ok hspecs =>
              refine .ok ?_
              rw [List.map_cons, ← hspecs]
              exact congrArg (· :: specs) hspec
          | error herror => exact .error herror

/-- A configuration, and the same as it is kept of files that hold JSON. -/
abbrev Kept : Dict String (List Index) → Configs → Prop :=
  Dict.Written .string fun collection indexes =>
    (.string collection, indexes.map fun index => index.spec.json)

/-- What loading files comes to, typed or not. -/
inductive LoadsAs : Except SyncError (Dict String (List Index)) → Except LoadError Configs → Prop
  | ok {configs json} (hkept : Kept configs json) : LoadsAs (.ok configs) (.ok json)
  | error {error loadError} (herror : .load loadError = error.json) :
      LoadsAs (.error error) (.error loadError)

theorem Kept.extend {configs : Dict String (List Index)} {json : Configs}
    (hkept : Kept configs json) (collection : String) (indexes : List Index) :
    Kept (configs.set collection (configs.getD collection [] ++ indexes))
      (json.extend (.string collection) (.string collection)
        (indexes.map fun index => index.spec.json)) := by
  have hstring : Function.Injective Value.string := fun _ _ => Value.string.inj
  have hset := Dict.Written.set hkept hstring collection (configs.getD collection [] ++ indexes)
  have hget : json.getD (.string collection) (.string collection, []) =
      (.string collection, (configs.getD collection []).map fun index => index.spec.json) := by
    rw [Dict.getD, Dict.Written.get? hkept hstring, Dict.getD]
    cases configs.get? collection <;> rfl
  rw [Configs.extend, hget]
  rw [List.map_append] at hset
  exact hset

/-- **Loading** files of the expected form. -/
theorem loadJson_json {files : List IndexFile} {configs : Dict String (List Index)}
    {json : Configs} (hkept : Kept configs json) :
    LoadsAs (loadIndexConfigs files configs) (loadJson (files.map IndexFile.json) json) := by
  induction files generalizing configs json with
  | nil => exact .ok hkept
  | cons file files ih =>
      have hfile : loadFile file.json json =
          checkSpecs file.path (.string file.collection) [] (file.indexes.map IndexSpec.json) >>=
            fun _ => .ok (json.extend (.string file.collection) (.string file.collection)
              (file.indexes.map IndexSpec.json)) := rfl
      have hchecks : ChecksAs file.indexes (checkIndexes file.path file.collection [] file.indexes)
          (checkSpecs file.path (.string file.collection) [] (file.indexes.map IndexSpec.json)) :=
        checkSpecs_json file.indexes []
      rw [loadIndexConfigs, List.map_cons, loadJson, hfile]
      generalize checkSpecs file.path (.string file.collection) []
        (file.indexes.map IndexSpec.json) = raw at hchecks ⊢
      generalize checkIndexes file.path file.collection [] file.indexes = typed at hchecks ⊢
      cases hchecks with
      | error herror => exact .error herror
      | ok hspecs =>
          rw [hspecs, List.map_map]
          exact ih (hkept.extend file.collection _)

end Loading

/-! ## Calls -/

/-- The calls of `syncIndexes` as those of `Json.syncIndexes`. -/
def rendering : Rendering signature Json.signature SyncError Json.Error where
  op
    | .findRecord id => .findRecord id
    | .dropIndex collection name => .dropIndex (.string collection) (.string name)
    | .createIndex collection index => .createIndex (.string collection) (keyPairs index.keys)
        (.string index.name) index.options.members
    | .replaceRecord record => .replaceRecord record.json
    | .findRecords => .findRecords
    | .deleteRecord id => .deleteRecord id
  value
    | .findRecord _, record? => record?.map IndexRecord.json
    | .dropIndex .., value => value
    | .createIndex .., value => value
    | .replaceRecord _, value => value
    | .findRecords, records => records.map IndexRecord.json
    | .deleteRecord _, value => value
  error := SyncError.json

/-- The second program makes the calls of the first. -/
abbrev SameCalls (program : Code Unit) (rendered : Json.Code Unit) : Prop :=
  Renders rendering (fun _ _ => True) program rendered

section Calls

variable {str : Value → String}

theorem sameCalls_dropIndexIfExists (collection name : String) :
    SameCalls (dropIndexIfExists collection name)
      (Json.dropIndexIfExists (.string collection) (.string name)) := by
  have hdrop : SameCalls (await (.dropIndex collection name))
      (Json.await (.dropIndex (.string collection) (.string name))) :=
    (Renders.perform rendering (.dropIndex collection name)).mono fun _ _ _ => trivial
  refine hdrop.tryCatch fun error => ?_
  cases error with
  | operationFailure => exact .ret trivial
  | missingNameOrKeys path collection =>
      exact .raise (SyncError.missingNameOrKeys path collection)
  | duplicateName path name collection =>
      exact .raise (SyncError.duplicateName path name collection)
  | connection => exact .raise SyncError.connection

/-- A record is found to be that of the index, or not. -/
theorem any_equals_iff (existing : Option IndexRecord) (index : Index) :
    (existing.map IndexRecord.json).any (fun record => record.spec.Equals index.spec.json) = true ↔
      existing.map IndexRecord.index = some index := by
  cases existing with
  | none => simp
  | some record =>
      have hspec : record.index.spec = index.spec ↔ record.index = index := by
        obtain ⟨name, keys, options⟩ := index
        obtain ⟨_, _, name', keys', options'⟩ := record
        simp [Index.spec]
      simp [IndexRecord.json, equals_json_iff, hspec]

theorem mapM_iterate (pairs : List (List Value)) :
    (pairs.map Value.array).mapM iterate = .ok pairs := by
  induction pairs with
  | nil => rfl
  | cons pair pairs ih =>
      rw [List.map_cons, List.mapM_cons, ih]
      rfl

theorem keyPairs_json (index : Index) :
    Json.keyPairs index.spec.json = .ok (keyPairs index.keys) := by
  have hkeys : index.spec.json.subscript "keys" =
      .ok (.array ((keyPairs index.keys).map .array)) := rfl
  rw [Json.keyPairs, hkeys]
  exact mapM_iterate (keyPairs index.keys)

theorem sameCalls_syncIndex (hstr : ∀ text, str (.string text) = text) (collection : String)
    (index : Index) :
    SameCalls (syncIndex collection index)
      (Json.syncIndex str (.string collection) index.spec.json) := by
  have hname : index.spec.json.subscript "name" = .ok (.string index.name) := rfl
  have hid : Json.entryId str (.string collection, index.spec.json) =
      recordId collection index.name := by
    rw [Json.entryId_eq hname, hstr, hstr]
  rw [syncIndex, Json.syncIndex_eq hname, hid]
  refine (Renders.perform rendering (.findRecord (recordId collection index.name))).bind ?_
  intro existing found hfound
  obtain rfl : existing.map IndexRecord.json = found := hfound
  have hany := any_equals_iff existing index
  by_cases hrecorded : existing.map IndexRecord.index = some index
  · rw [if_pos hrecorded, if_pos (hany.mpr hrecorded)]
    exact .ret trivial
  · rw [if_neg hrecorded, if_neg (mt hany.mp hrecorded), Json.createAnew, keyPairs_json,
      indexOptions_json]
    refine (sameCalls_dropIndexIfExists collection index.name).bind fun _ _ _ => ?_
    refine (Renders.perform rendering (.createIndex collection index)).bind fun _ _ _ => ?_
    exact (Renders.perform rendering (.replaceRecord _)).mono fun _ _ _ => trivial

theorem sameCalls_syncCollection (hstr : ∀ text, str (.string text) = text) (collection : String)
    (indexes : List Index) :
    SameCalls (syncCollection collection indexes)
      (Json.syncWanted str (indexes.map fun index => (.string collection, index.spec.json))) := by
  induction indexes with
  | nil => exact .ret trivial
  | cons index indexes ih =>
      exact (sameCalls_syncIndex hstr collection index).bind fun _ _ _ => ih

theorem sameCalls_dropUnmanaged (ids : List String) (records : List IndexRecord) :
    SameCalls (dropUnmanaged ids records)
      (Json.dropUnmanaged ids (records.map IndexRecord.json)) := by
  induction records with
  | nil => exact .ret trivial
  | cons record records ih =>
      rw [dropUnmanaged, List.map_cons, Json.dropUnmanaged]
      by_cases hid : record.id ∈ ids
      · have hjson : ¬ record.json.id ∉ ids := not_not.mpr hid
        rw [if_neg (not_not.mpr hid), if_neg hjson]
        exact ih
      · have hjson : record.json.id ∉ ids := hid
        rw [if_pos hid, if_pos hjson]
        refine (sameCalls_dropIndexIfExists record.collection record.index.name).bind fun _ _ _ => ?_
        refine (Renders.perform rendering (.deleteRecord record.id)).bind fun _ _ _ => ?_
        exact ih

theorem sameCalls_syncCollections (hstr : ∀ text, str (.string text) = text)
    (desired : List (String × List Index)) :
    SameCalls (syncCollections desired) (Json.syncWanted str (desired.flatMap fun entry =>
      entry.2.map fun index => (.string entry.1, index.spec.json))) := by
  induction desired with
  | nil => exact .ret trivial
  | cons entry desired ih =>
      rw [List.flatMap_cons, Json.syncWanted_append]
      exact (sameCalls_syncCollection hstr entry.1 entry.2).bind fun _ _ _ => ih

/-- What is wanted of a configuration is what is wanted of it as it is kept. -/
theorem wanted_of_kept {desired : Dict String (List Index)} {json : Configs}
    (hkept : Kept desired json) :
    Json.wanted json = desired.entries.flatMap fun entry =>
      entry.2.map fun index => (.string entry.1, index.spec.json) := by
  rw [Json.wanted, hkept, List.flatMap_map]
  simp only [List.map_map]
  rfl

theorem desiredIds_of_kept (hstr : ∀ text, str (.string text) = text)
    {desired : Dict String (List Index)} {json : Configs} (hkept : Kept desired json) :
    (Json.wanted json).map (Json.entryId str) = desiredIds desired := by
  have hid : ∀ collection (index : Index),
      Json.entryId str (.string collection, index.spec.json) = recordId collection index.name := by
    intro collection index
    rw [Json.entryId_eq rfl, hstr, hstr]
  rw [wanted_of_kept hkept, List.map_flatMap, desiredIds]
  simp only [List.map_map, Function.comp_def, hid]

/-- **Files of the expected form** are synchronised by the same calls, typed or not. -/
theorem sameCalls_syncIndexes (hstr : ∀ text, str (.string text) = text)
    (files : List IndexFile) :
    SameCalls (syncIndexes files) (Json.syncIndexes str (files.map IndexFile.json)) := by
  have hloads : LoadsAs (loadIndexConfigs files .empty)
      (loadJson (files.map IndexFile.json) .empty) := loadJson_json rfl
  rw [syncIndexes, Json.syncIndexes]
  generalize loadIndexConfigs files .empty = typed at hloads ⊢
  generalize loadJson (files.map IndexFile.json) .empty = raw at hloads ⊢
  cases hloads with
  | @error error loadError herror =>
      change SameCalls (.raise error) (.raise (.load loadError))
      rw [herror]
      exact Renders.raise error
  | @ok desired json hkept =>
      have hwanted := sameCalls_syncCollections hstr desired.entries
      rw [← wanted_of_kept hkept] at hwanted
      refine hwanted.bind fun _ _ _ => ?_
      refine (Renders.perform rendering .findRecords).bind fun records found hfound => ?_
      obtain rfl : records.map IndexRecord.json = found := hfound
      rw [desiredIds_of_kept hstr hkept]
      exact sameCalls_dropUnmanaged _ _

end Calls

end EveBuild.IndexSync
