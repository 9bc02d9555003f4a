import EveBuild.Data.Dynamic
import EveBuild.Data.Loops
import EveBuild.Startup.IndexSync

/-!
# What is in the files

`load_index_configs` of `app/db/index_sync.py` on files that hold any JSON value.  What it checks
are the names and keys of a file's indexes, each file by itself.  It does not check that there is a
collection and a list of objects; a file in which there is not raises something else than a
`ValueError` (`Misused`).

`returnsConsistent_iff` says when what is loaded is consistent: no file is misused that the loop
comes to, and no two files name an index of the same collection alike.
-/

namespace EveBuild.IndexSync

open Value

/-! ## Loading -/

/-- What loading can raise.  The first two are `ValueError`s, with the texts of `SyncError`. -/
inductive LoadError
  | missingNameOrKeys (path : String) (collection : Value)
  | duplicateName (path : String) (name collection : Value)
  | misuse (misuse : Misuse)

/-- The error is a `ValueError`. -/
def LoadError.IsValueError : LoadError → Prop
  | misuse _ => False
  | _ => True

/-- A file of the directory, with what `json.loads` makes of it. -/
structure JsonFile where
  path : String
  data : Value

/-- What is used of a file: its collection, and what the loop over its indexes goes over. -/
def JsonFile.contents (file : JsonFile) : Except Misuse (Value × List Value) := do
  let collection ← file.data.subscript "collection"
  let indexes ← file.data.subscript "indexes"
  let specs ← indexes.iterate
  return (collection, specs)

/-- The body of `for spec in indexes`: what `seen_names` tells the name apart by. -/
def checkSpec (path : String) (collection : Value) (seenNames : List Value) (spec : Value) :
    Except LoadError Value := do
  let name ← (spec.getOrNone "name").mapError .misuse
  let keys ← (spec.getOrNone "keys").mapError .misuse
  if ¬ name.truthy ∨ ¬ keys.truthy then .error (.missingNameOrKeys path collection)
  else
    match name.key? with
    | none => .error (.misuse .typeError)
    | some key =>
        if key ∈ seenNames then .error (.duplicateName path name collection) else .ok key

/-- `for spec in indexes`. -/
def checkSpecs (path : String) (collection : Value) :
    List Value → List Value → Except LoadError Unit
  | _, [] => .ok ()
  | seenNames, spec :: specs => do
      let key ← checkSpec path collection seenNames spec
      checkSpecs path collection (key :: seenNames) specs

/-- `configs`.  A `dict` keeps the collection as it was first written. -/
abbrev Configs := Dict Value (Value × List Value)

/-- `configs.setdefault(collection, []).extend(indexes)`. -/
def Configs.extend (configs : Configs) (collection key : Value) (specs : List Value) : Configs :=
  let (first, earlier) := configs.getD key (collection, [])
  configs.set key (first, earlier ++ specs)

/-- One file. -/
def loadFile (file : JsonFile) (configs : Configs) : Except LoadError Configs := do
  let (collection, specs) ← file.contents.mapError .misuse
  checkSpecs file.path collection [] specs
  match collection.key? with
  | none => .error (.misuse .typeError)
  | some key => .ok (configs.extend collection key specs)

/-- `load_index_configs`, on the files of the directory in the order of their paths. -/
def loadJson : List JsonFile → Configs → Except LoadError Configs
  | [], configs => .ok configs
  | file :: files, configs => do
      let configs ← loadFile file configs
      loadJson files configs

/-! ## What is checked -/

/-- What tells the name of an index apart. -/
def nameKey? (spec : Value) : Option Value :=
  match spec.getOrNone "name" with
  | .ok name => name.key?
  | .error _ => none

/-- The index has a name and keys that are not empty. -/
def HasNameAndKeys (spec : Value) : Prop :=
  ∃ name keys, spec.getOrNone "name" = .ok name ∧ spec.getOrNone "keys" = .ok keys ∧
    name.truthy ∧ keys.truthy

/-- The indexes have names and keys, and different names, none of which has been seen. -/
structure Fresh (seenNames specs : List Value) : Prop where
  each : ∀ spec ∈ specs, HasNameAndKeys spec
  named : ∀ spec ∈ specs, ∃ key, nameKey? spec = some key ∧ key ∉ seenNames
  distinct : (specs.map nameKey?).Nodup

/-- The index is no object, or it has a name and keys, but the name is a list or an object. -/
def SpecMisused (spec : Value) : Prop :=
  (∀ members, spec ≠ .object members) ∨ HasNameAndKeys spec ∧ nameKey? spec = none

/-- The file is accepted. -/
def Accepted (file : JsonFile) : Prop :=
  ∃ collection specs, file.contents = .ok (collection, specs) ∧ Fresh [] specs ∧
    collection.key?.isSome

/-- The file is none of an object with a collection and indexes to go over; or the first of the
indexes that is not accepted is misused; or they are accepted, and the collection is a list or an
object. -/
def Misused (file : JsonFile) : Prop :=
  (∃ misuse, file.contents = .error misuse) ∨
  ∃ collection specs, file.contents = .ok (collection, specs) ∧
    ((∃ before spec after, specs = before ++ spec :: after ∧ Fresh [] before ∧
      SpecMisused spec) ∨ Fresh [] specs ∧ collection.key? = none)

section Checking

variable {path : String} {collection spec : Value} {seenNames specs : List Value}

theorem checkSpec_eq_ok_iff {key : Value} :
    checkSpec path collection seenNames spec = .ok key ↔
      HasNameAndKeys spec ∧ nameKey? spec = some key ∧ key ∉ seenNames := by
  unfold checkSpec HasNameAndKeys nameKey?
  cases hname : spec.getOrNone "name" with
  | error misuse => simp [Except.mapError, bind, Except.bind]
  | ok name =>
      cases hkeys : spec.getOrNone "keys" with
      | error misuse => simp [Except.mapError, bind, Except.bind]
      | ok keys =>
          simp only [Except.mapError, bind, Except.bind, Except.ok.injEq, exists_and_left,
            exists_eq_left']
          by_cases hempty : ¬ name.truthy ∨ ¬ keys.truthy
          · rw [if_pos hempty]
            simp only [reduceCtorEq, false_iff]
            tauto
          · rw [if_neg hempty]
            push Not at hempty
            cases hkey : name.key? with
            | none => simp
            | some other =>
                by_cases hseen : other ∈ seenNames
                · simp only [if_pos hseen, reduceCtorEq, false_iff]
                  rintro ⟨-, hother, hfresh⟩
                  exact hfresh (Option.some_inj.mp hother ▸ hseen)
                · simp only [if_neg hseen, Except.ok.injEq, Option.some.injEq, hempty, true_and,
                    and_self]
                  constructor
                  · rintro rfl
                    exact ⟨rfl, hseen⟩
                  · exact And.left

theorem checkSpec_misused_iff :
    (∃ misuse, checkSpec path collection seenNames spec = .error (.misuse misuse)) ↔
      SpecMisused spec := by
  cases spec with
  | object members =>
      have hname : (Value.object members).getOrNone "name" =
          .ok ((members.lookup "name").getD .null) := rfl
      have hkeys : (Value.object members).getOrNone "keys" =
          .ok ((members.lookup "keys").getD .null) := rfl
      unfold checkSpec SpecMisused HasNameAndKeys nameKey?
      rw [hname, hkeys]
      simp only [Except.mapError, bind, Except.bind, Except.ok.injEq, exists_and_left,
        exists_eq_left']
      by_cases hempty : ¬ ((members.lookup "name").getD .null).truthy ∨
          ¬ ((members.lookup "keys").getD .null).truthy
      · rw [if_pos hempty]
        simp
        tauto
      · rw [if_neg hempty]
        push Not at hempty
        cases hkey : ((members.lookup "name").getD .null).key? with
        | none => simp [hempty]
        | some key =>
            by_cases hseen : key ∈ seenNames
            · simp [hseen]
            · simp [hseen]
  | _ =>
      -- no other value has `get`
      simp [checkSpec, getOrNone, Except.mapError, bind, Except.bind, SpecMisused]

theorem fresh_nil (seenNames : List Value) : Fresh seenNames [] :=
  ⟨List.forall_mem_nil _, List.forall_mem_nil _, List.nodup_nil⟩

theorem fresh_cons_iff {key : Value} (hkey : nameKey? spec = some key) :
    Fresh seenNames (spec :: specs) ↔
      HasNameAndKeys spec ∧ key ∉ seenNames ∧ Fresh (key :: seenNames) specs := by
  constructor
  · rintro ⟨heach, hnamed, hdistinct⟩
    obtain ⟨hspec, hspecs⟩ := List.forall_mem_cons.mp heach
    obtain ⟨⟨other, hother, hfresh⟩, hrest⟩ := List.forall_mem_cons.mp hnamed
    obtain rfl := Option.some_inj.mp (hkey.symm.trans hother)
    rw [List.map_cons, List.nodup_cons, hkey] at hdistinct
    refine ⟨hspec, hfresh, hspecs, fun other hmem => ?_, hdistinct.2⟩
    obtain ⟨otherKey, hotherKey, hunseen⟩ := hrest other hmem
    refine ⟨otherKey, hotherKey, List.not_mem_cons_of_ne_of_not_mem ?_ hunseen⟩
    rintro rfl
    exact hdistinct.1 (List.mem_map.mpr ⟨other, hmem, hotherKey⟩)
  · rintro ⟨hspec, hfresh, heach, hnamed, hdistinct⟩
    refine ⟨List.forall_mem_cons.mpr ⟨hspec, heach⟩, List.forall_mem_cons.mpr
      ⟨⟨key, hkey, hfresh⟩, fun other hmem => ?_⟩, ?_⟩
    · obtain ⟨otherKey, hotherKey, hunseen⟩ := hnamed other hmem
      exact ⟨otherKey, hotherKey, List.not_mem_of_not_mem_cons hunseen⟩
    · rw [List.map_cons, List.nodup_cons, hkey]
      refine ⟨fun hmem => ?_, hdistinct⟩
      obtain ⟨other, hother, hsame⟩ := List.mem_map.mp hmem
      obtain ⟨otherKey, hotherKey, hunseen⟩ := hnamed other hother
      obtain rfl := Option.some_inj.mp (hsame.symm.trans hotherKey)
      exact hunseen (List.mem_cons_self ..)

/-- The loop ends exactly if all indexes are fresh. -/
theorem checkSpecs_eq_ok_iff :
    checkSpecs path collection seenNames specs = .ok () ↔ Fresh seenNames specs := by
  induction specs generalizing seenNames with
  | nil => exact iff_of_true rfl (fresh_nil seenNames)
  | cons spec specs ih =>
      rw [checkSpecs, bind_eq_ok]
      constructor
      · rintro ⟨key, hspec, hrest⟩
        obtain ⟨hhas, hkey, hunseen⟩ := checkSpec_eq_ok_iff.mp hspec
        exact (fresh_cons_iff hkey).mpr ⟨hhas, hunseen, ih.mp hrest⟩
      · intro hfresh
        obtain ⟨key, hkey, -⟩ := hfresh.named spec (List.mem_cons_self ..)
        obtain ⟨hhas, hunseen, hrest⟩ := (fresh_cons_iff hkey).mp hfresh
        exact ⟨key, checkSpec_eq_ok_iff.mpr ⟨hhas, hkey, hunseen⟩, ih.mpr hrest⟩

/-- The loop raises something else than a `ValueError` exactly if it comes to an index that is
misused. -/
theorem checkSpecs_misused_iff :
    (∃ misuse, checkSpecs path collection seenNames specs = .error (.misuse misuse)) ↔
      ∃ before spec after, specs = before ++ spec :: after ∧ Fresh seenNames before ∧
        SpecMisused spec := by
  induction specs generalizing seenNames with
  | nil =>
      refine iff_of_false ?_ ?_
      · rintro ⟨misuse, hraise⟩
        cases hraise
      · rintro ⟨before, spec, after, hsplit, -⟩
        simp at hsplit
  | cons spec specs ih =>
      -- it is this index that is misused, or one after it
      rw [exists_split_cons_iff, checkSpecs]
      have hmisused := @checkSpec_misused_iff path collection spec seenNames
      cases hspec : checkSpec path collection seenNames spec with
      | error error =>
          rw [← hmisused, hspec]
          simp only [fresh_nil, true_and, bind, Except.bind, Except.error.injEq]
          refine (or_iff_left ?_).symm
          rintro ⟨before, other, after, -, hfresh, -⟩
          obtain ⟨key, hkey, -⟩ := hfresh.named spec (List.mem_cons_self ..)
          obtain ⟨hhas, hunseen, -⟩ := (fresh_cons_iff hkey).mp hfresh
          rw [checkSpec_eq_ok_iff.mpr ⟨hhas, hkey, hunseen⟩] at hspec
          cases hspec
      | ok key =>
          obtain ⟨hhas, hkey, hunseen⟩ := checkSpec_eq_ok_iff.mp hspec
          have hfine : ¬ SpecMisused spec := by
            rw [← hmisused, hspec]
            simp
          have hcons : ∀ before, Fresh seenNames (spec :: before) ↔
              Fresh (key :: seenNames) before := fun before =>
            (fresh_cons_iff hkey).trans (by simp [hhas, hunseen])
          simp only [hcons, hfine, and_false, false_or]
          exact ih

/-! ## What is loaded -/

variable {file : JsonFile} {files : List JsonFile} {configs desired : Configs}

theorem loadFile_eq_ok_iff :
    loadFile file configs = .ok desired ↔ ∃ collection specs key,
      file.contents = .ok (collection, specs) ∧ Fresh [] specs ∧ collection.key? = some key ∧
        desired = configs.extend collection key specs := by
  rw [loadFile, bind_eq_ok]
  constructor
  · rintro ⟨⟨collection, specs⟩, hcontents, hrest⟩
    obtain ⟨_, hcheck, hextend⟩ := bind_eq_ok.mp hrest
    cases hkey : collection.key? with
    | none => simp [hkey] at hextend
    | some key =>
        simp only [hkey, Except.ok.injEq] at hextend
        exact ⟨collection, specs, key, mapError_eq_ok.mp hcontents,
          checkSpecs_eq_ok_iff.mp hcheck, hkey, hextend.symm⟩
  · rintro ⟨collection, specs, key, hcontents, hfresh, hkey, rfl⟩
    refine ⟨(collection, specs), mapError_eq_ok.mpr hcontents, ?_⟩
    refine bind_eq_ok.mpr ⟨(), checkSpecs_eq_ok_iff.mpr hfresh, ?_⟩
    simp [hkey]

variable (configs) in
theorem accepted_iff : Accepted file ↔ ∃ later, loadFile file configs = .ok later := by
  simp only [loadFile_eq_ok_iff, Accepted, Option.isSome_iff_exists]
  constructor
  · rintro ⟨collection, specs, hcontents, hfresh, key, hkey⟩
    exact ⟨_, collection, specs, key, hcontents, hfresh, hkey, rfl⟩
  · rintro ⟨_, collection, specs, key, hcontents, hfresh, hkey, -⟩
    exact ⟨collection, specs, hcontents, hfresh, key, hkey⟩

theorem loadFile_misused_iff :
    (∃ misuse, loadFile file configs = .error (.misuse misuse)) ↔ Misused file := by
  unfold loadFile Misused
  cases hcontents : file.contents with
  | error misuse => simp [Except.mapError, bind, Except.bind]
  | ok contents =>
      obtain ⟨collection, specs⟩ := contents
      simp only [Except.mapError, bind, Except.bind, reduceCtorEq, exists_false, false_or,
        Except.ok.injEq, Prod.mk.injEq, and_assoc, exists_and_left, exists_eq_left']
      have hmisused := @checkSpecs_misused_iff file.path collection [] specs
      have hfresh := @checkSpecs_eq_ok_iff file.path collection [] specs
      cases hcheck : checkSpecs file.path collection [] specs with
      | error error =>
          rw [hcheck] at hmisused hfresh
          rw [← hmisused, ← hfresh]
          simp
      | ok _ =>
          rw [hcheck] at hmisused hfresh
          rw [← hmisused, ← hfresh]
          cases collection.key? <;> simp

/-- What is kept under a collection. -/
def Configs.specsAt (configs : Configs) (key : Value) : List Value :=
  (configs.getD key (.null, [])).2

/-- What a file has for a collection. -/
def JsonFile.specsAt (file : JsonFile) (key : Value) : List Value :=
  match file.contents with
  | .ok (collection, specs) => if collection.key? = some key then specs else []
  | .error _ => []

theorem specsAt_extend (configs : Configs) (collection key : Value) (specs : List Value)
    (other : Value) :
    (configs.extend collection key specs).specsAt other =
      configs.specsAt other ++ if key = other then specs else [] := by
  unfold Configs.extend Configs.specsAt
  rw [Dict.getD_set]
  by_cases hother : other = key
  · subst hother
    cases hget : configs.get? other <;> simp [Dict.getD, hget]
  · simp [hother, Ne.symm hother]

/-- The loop over the files ends exactly if all are accepted, and has then collected what they
have. -/
theorem loadJson_eq_ok (hload : loadJson files configs = .ok desired) :
    (∀ file ∈ files, Accepted file) ∧ ∀ key,
      desired.specsAt key = configs.specsAt key ++ files.flatMap fun file => file.specsAt key := by
  induction files generalizing configs with
  | nil =>
      obtain rfl := Except.ok.inj hload
      simp
  | cons file files ih =>
      obtain ⟨middle, hfile, hrest⟩ := bind_eq_ok.mp hload
      obtain ⟨haccepted, hspecs⟩ := ih hrest
      refine ⟨List.forall_mem_cons.mpr ⟨(accepted_iff configs).mpr ⟨middle, hfile⟩, haccepted⟩, ?_⟩
      intro key
      obtain ⟨collection, specs, own, hcontents, -, hown, rfl⟩ := loadFile_eq_ok_iff.mp hfile
      have hspecsAt : file.specsAt key = if own = key then specs else [] := by
        simp [JsonFile.specsAt, hcontents, hown]
      rw [hspecs, specsAt_extend, List.flatMap_cons, hspecsAt, List.append_assoc]

variable (configs) in
theorem exists_loadJson (haccepted : ∀ file ∈ files, Accepted file) :
    ∃ desired, loadJson files configs = .ok desired := by
  induction files generalizing configs with
  | nil => exact ⟨configs, rfl⟩
  | cons file files ih =>
      obtain ⟨hfile, hrest⟩ := List.forall_mem_cons.mp haccepted
      obtain ⟨middle, hmiddle⟩ := (accepted_iff configs).mp hfile
      obtain ⟨desired, hdesired⟩ := ih middle hrest
      exact ⟨desired, bind_eq_ok.mpr ⟨middle, hmiddle, hdesired⟩⟩

/-- The loop over the files raises something else than a `ValueError` exactly if it comes to a
file that is misused. -/
theorem loadJson_misused_iff :
    (∃ misuse, loadJson files configs = .error (.misuse misuse)) ↔
      ∃ before file after, files = before ++ file :: after ∧
        (∀ earlier ∈ before, Accepted earlier) ∧ Misused file := by
  induction files generalizing configs with
  | nil =>
      refine iff_of_false ?_ ?_
      · rintro ⟨misuse, hraise⟩
        cases hraise
      · rintro ⟨before, file, after, hsplit, -⟩
        simp at hsplit
  | cons file files ih =>
      rw [exists_split_cons_iff, loadJson]
      have hmisused := @loadFile_misused_iff file configs
      have haccepted := @accepted_iff file configs
      cases hfile : loadFile file configs with
      | error error =>
          rw [hfile] at hmisused haccepted
          simp only [← hmisused, List.forall_mem_cons, haccepted]
          simp [bind, Except.bind]
      | ok middle =>
          rw [hfile] at hmisused haccepted
          simp only [← hmisused, List.forall_mem_cons, haccepted]
          simpa [bind, Except.bind] using ih

theorem specsAt_of_mem {key : Value} {value : Value × List Value}
    (hentry : (key, value) ∈ configs.entries) : configs.specsAt key = value.2 :=
  congrArg Prod.snd (Dict.getD_of_get? (Dict.get?_eq_some_iff.mpr hentry) _)

theorem specsAt_of_load (hload : loadJson files .empty = .ok configs) (key : Value) :
    configs.specsAt key = files.flatMap fun file => file.specsAt key :=
  (loadJson_eq_ok hload).2 key

theorem mem_specsAt_iff {key spec : Value} :
    spec ∈ file.specsAt key ↔ ∃ own specs, file.contents = .ok (own, specs) ∧
      own.key? = some key ∧ spec ∈ specs := by
  unfold JsonFile.specsAt
  cases file.contents with
  | error misuse => simp
  | ok contents =>
      obtain ⟨own, specs⟩ := contents
      by_cases hkey : own.key? = some key <;> simp [hkey]

theorem mem_specsAt_iff_get? {key spec : Value} :
    spec ∈ configs.specsAt key ↔ ∃ first specs, configs.get? key = some (first, specs) ∧
      spec ∈ specs := by
  rw [Configs.specsAt, Dict.getD]
  cases configs.get? key with
  | none => simp
  | some value =>
      obtain ⟨first, specs⟩ := value
      simp

/-! ## What is configured -/

/-- The collection that a file names. -/
def JsonFile.collection? (file : JsonFile) : Option Value :=
  file.contents.toOption.map Prod.fst

/-- The collection as the first of the files writes it. -/
def firstWritten (files : List JsonFile) (collection : Value) : Value :=
  ((files.filterMap JsonFile.collection?).find? fun other =>
    other.key? = collection.key?).getD collection

/-- The indexes of the files, each with its collection. -/
def configured (files : List JsonFile) : List (Value × Value) :=
  files.flatMap fun file =>
    match file.contents with
    | .ok (collection, specs) => specs.map (firstWritten files collection, ·)
    | .error _ => []

theorem collection_extend (configs : Configs) (collection key : Value) (specs : List Value)
    (other : Value) :
    ((configs.extend collection key specs).get? other).map Prod.fst =
      ((configs.get? other).map Prod.fst).or (if key = other then some collection else none) := by
  unfold Configs.extend
  rw [Dict.get?_set]
  by_cases hother : other = key
  · subst hother
    cases hget : configs.get? other <;> simp [Dict.getD, hget]
  · simp [hother, Ne.symm hother]

/-- A collection is kept as it was there, or else as it is first written. -/
theorem collection_of_loadJson (hload : loadJson files configs = .ok desired) (key : Value) :
    (desired.get? key).map Prod.fst = ((configs.get? key).map Prod.fst).or
      ((files.filterMap JsonFile.collection?).find? fun other => other.key? = some key) := by
  induction files generalizing configs with
  | nil =>
      obtain rfl := Except.ok.inj hload
      simp
  | cons file files ih =>
      obtain ⟨middle, hfile, hrest⟩ := bind_eq_ok.mp hload
      obtain ⟨collection, specs, own, hcontents, -, hown, rfl⟩ := loadFile_eq_ok_iff.mp hfile
      have hcollection : file.collection? = some collection := by
        simp [JsonFile.collection?, hcontents, Except.toOption]
      rw [ih hrest, collection_extend, List.filterMap_cons_some hcollection, Option.or_assoc]
      by_cases hkey : own = key
      · subst hkey
        simp [hown]
      · simp [hown, hkey]

theorem firstWritten_of_load (hload : loadJson files .empty = .ok desired) {key first own : Value}
    {specs : List Value} (hget : desired.get? key = some (first, specs))
    (hown : own.key? = some key) : firstWritten files own = first := by
  have hfirst := collection_of_loadJson hload key
  rw [hget, Dict.get?_empty, Option.map_none, Option.none_or] at hfirst
  rw [firstWritten, hown, ← hfirst]
  rfl

theorem mem_configured_iff {entry : Value × Value} :
    entry ∈ configured files ↔ ∃ file ∈ files, ∃ own specs,
      file.contents = .ok (own, specs) ∧ ∃ spec ∈ specs, (firstWritten files own, spec) = entry := by
  rw [configured, List.mem_flatMap]
  refine exists_congr fun file => and_congr_right fun _ => ?_
  cases hcontents : file.contents with
  | error misuse => simp
  | ok contents =>
      obtain ⟨own, specs⟩ := contents
      simp only [List.mem_map, Except.ok.injEq, Prod.mk.injEq, and_assoc, exists_and_left,
        exists_eq_left']

/-- What is kept are the indexes of the files. -/
theorem mem_configured_of_load (hload : loadJson files .empty = .ok desired)
    {entry : Value × Value} :
    entry ∈ configured files ↔ ∃ key first specs, desired.get? key = some (first, specs) ∧
      ∃ spec ∈ specs, (first, spec) = entry := by
  rw [mem_configured_iff]
  constructor
  · rintro ⟨file, hfile, own, specs, hcontents, spec, hspec, rfl⟩
    obtain ⟨other, others, hother, -, hsome⟩ := (loadJson_eq_ok hload).1 file hfile
    obtain ⟨rfl, rfl⟩ := Prod.ext_iff.mp (Except.ok.inj (hother.symm.trans hcontents))
    obtain ⟨key, hkey⟩ := Option.isSome_iff_exists.mp hsome
    have hkept : spec ∈ desired.specsAt key := by
      rw [specsAt_of_load hload]
      exact List.mem_flatMap.mpr ⟨file, hfile, mem_specsAt_iff.mpr ⟨_, _, hcontents, hkey, hspec⟩⟩
    obtain ⟨first, kept, hget, hmem⟩ := mem_specsAt_iff_get?.mp hkept
    exact ⟨key, first, kept, hget, spec, hmem, by rw [firstWritten_of_load hload hget hkey]⟩
  · rintro ⟨key, first, kept, hget, spec, hmem, rfl⟩
    have hkept : spec ∈ desired.specsAt key := mem_specsAt_iff_get?.mpr ⟨first, kept, hget, hmem⟩
    rw [specsAt_of_load hload] at hkept
    obtain ⟨file, hfile, hspec⟩ := List.mem_flatMap.mp hkept
    obtain ⟨own, specs, hcontents, hown, hspec⟩ := mem_specsAt_iff.mp hspec
    exact ⟨file, hfile, own, specs, hcontents, spec, hspec, by
      rw [firstWritten_of_load hload hget hown]⟩

/-! ## Consistency -/

/-- Every index has a name and keys that are not empty, and no two indexes of a collection have
the same name. -/
def Consistent (configs : Configs) : Prop :=
  ∀ entry ∈ configs.entries, (∀ spec ∈ entry.2.2, HasNameAndKeys spec) ∧
    (entry.2.2.map nameKey?).Nodup

/-- The directory is refused with a `ValueError`, or a consistent configuration is returned. -/
def ReturnsConsistent (files : List JsonFile) : Prop :=
  (∃ error, loadJson files .empty = .error error ∧ error.IsValueError) ∨
    ∃ configs, loadJson files .empty = .ok configs ∧ Consistent configs

/-- Both files have an index of the same name for the same collection. -/
def ShareName (first second : JsonFile) : Prop :=
  ∃ key, ∃ spec ∈ first.specsAt key, ∃ other ∈ second.specsAt key, nameKey? spec = nameKey? other

theorem fresh_specsAt (haccepted : Accepted file) (key : Value) : Fresh [] (file.specsAt key) := by
  obtain ⟨collection, specs, hcontents, hfresh, -⟩ := haccepted
  simp only [JsonFile.specsAt, hcontents]
  split
  · exact hfresh
  · exact fresh_nil []

theorem consistent_iff_forall_specsAt :
    Consistent configs ↔ ∀ key, (∀ spec ∈ configs.specsAt key, HasNameAndKeys spec) ∧
      ((configs.specsAt key).map nameKey?).Nodup := by
  constructor
  · intro hconsistent key
    unfold Configs.specsAt
    cases hget : configs.get? key with
    | none => simp [Dict.getD, hget]
    | some value =>
        rw [Dict.getD_of_get? hget]
        exact hconsistent (key, value) (Dict.get?_eq_some_iff.mp hget)
  · rintro hconsistent ⟨key, value⟩ hentry
    exact specsAt_of_mem hentry ▸ hconsistent key

/-- What has been loaded has names and keys. -/
theorem hasNameAndKeys_of_load (hload : loadJson files .empty = .ok configs) (key : Value) :
    ∀ spec ∈ configs.specsAt key, HasNameAndKeys spec := by
  intro spec hspec
  rw [specsAt_of_load hload] at hspec
  obtain ⟨file, hfile, hspec⟩ := List.mem_flatMap.mp hspec
  exact (fresh_specsAt ((loadJson_eq_ok hload).1 file hfile) key).each spec hspec

/-- What has been loaded is consistent exactly if no two files share a name. -/
theorem consistent_iff (hload : loadJson files .empty = .ok configs) :
    Consistent configs ↔ files.Pairwise fun first second => ¬ ShareName first second := by
  have hnodup : ∀ key, ((configs.specsAt key).map nameKey?).Nodup ↔
      files.Pairwise fun first second => ¬ ∃ spec ∈ first.specsAt key,
        ∃ other ∈ second.specsAt key, nameKey? spec = nameKey? other := by
    intro key
    -- each file has been checked by itself, so only two files can share a name
    have hown : ∀ file ∈ files, ((file.specsAt key).map nameKey?).Nodup :=
      fun file hfile => (fresh_specsAt ((loadJson_eq_ok hload).1 file hfile) key).distinct
    rw [specsAt_of_load hload, List.map_flatMap, List.nodup_flatMap, and_iff_right hown]
    refine List.Pairwise.iff fun first second => ?_
    simp only [List.Disjoint, List.mem_map]
    constructor
    · rintro hdisjoint ⟨spec, hspec, other, hother, hname⟩
      exact hdisjoint ⟨spec, hspec, rfl⟩ ⟨other, hother, hname.symm⟩
    · rintro hnone name ⟨spec, hspec, rfl⟩ ⟨other, hother, hname⟩
      exact hnone ⟨spec, hspec, other, hother, hname.symm⟩
  rw [consistent_iff_forall_specsAt, forall_and, and_iff_right (hasNameAndKeys_of_load hload)]
  simp only [hnodup, List.pairwise_iff_forall_sublist, ShareName, not_exists]
  exact ⟨fun hall _ _ hpair key => hall key hpair, fun hall key _ _ hpair => hall hpair key⟩

/-- **When loading returns consistent configurations.** -/
theorem returnsConsistent_iff (files : List JsonFile) :
    ReturnsConsistent files ↔
      (∀ before file after, files = before ++ file :: after →
        (∀ earlier ∈ before, Accepted earlier) → ¬ Misused file) ∧
      ((∀ file ∈ files, Accepted file) →
        files.Pairwise fun first second => ¬ ShareName first second) := by
  have hmisused : (∃ misuse, loadJson files .empty = .error (.misuse misuse)) ↔ _ :=
    loadJson_misused_iff
  have hreached : (∀ before file after, files = before ++ file :: after →
      (∀ earlier ∈ before, Accepted earlier) → ¬ Misused file) ↔
        ¬ ∃ misuse, loadJson files .empty = .error (.misuse misuse) := by
    rw [hmisused]
    simp only [not_exists, not_and]
  rw [hreached]
  unfold ReturnsConsistent
  cases hload : loadJson files .empty with
  | error error =>
      -- nothing is returned, so that only the kind of the error matters
      have hunaccepted : ¬ ∀ file ∈ files, Accepted file := by
        intro haccepted
        obtain ⟨desired, hdesired⟩ := exists_loadJson .empty haccepted
        rw [hload] at hdesired
        cases hdesired
      simp only [Except.error.injEq, exists_eq_left', reduceCtorEq, false_and, exists_false,
        or_false, hunaccepted, IsEmpty.forall_iff, and_true]
      cases error <;> simp [LoadError.IsValueError]
  | ok configs =>
      rw [forall_prop_of_true (loadJson_eq_ok hload).1, ← consistent_iff hload]
      simp

end Checking

end EveBuild.IndexSync
