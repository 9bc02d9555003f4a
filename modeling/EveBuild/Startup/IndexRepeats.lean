import EveBuild.Effect.Eval
import EveBuild.Startup.IndexFiles

/-!
# Synchronising the indexes again

`sync_indexes` of `app/db/index_sync.py` on files that hold any JSON value, against a server of
which only the collection `_index_config` is described.  What becomes of an index, and whether a
write succeeds at all, is up to the server (`carryOut`).

A call that completes leaves a record for each id that it wants, and no others.  The next call
drops and creates nothing exactly if each of these records is equal to every index that has its
id.  An id is a collection and a name with a dot between them, so that two indexes of one
collection and one name have the same id, and so can two indexes of different collections have
(`quiet_iff`).

On files of the form that `IndexSync` is about, the calls are those of its `syncIndexes`
(`sameCalls_syncIndexes`).
-/

namespace EveBuild.IndexSync.Json

open Effect Value

/-! ## Calls -/

/-- A document of `_index_config`. -/
structure Record where
  id : String
  collection : Value
  name : Value
  spec : Value

inductive Op
  | findRecord (id : String)
  | dropIndex (collection name : Value)
  | createIndex (collection : Value) (keys : List (List Value)) (name : Value)
      (options : List (String × Value))
  | replaceRecord (record : Record)
  | findRecords
  | deleteRecord (id : String)

abbrev Op.Answer : Op → Type
  | findRecord _ => Option Record
  | dropIndex .. => Unit
  | createIndex .. => Unit
  | replaceRecord _ => Unit
  | findRecords => List Record
  | deleteRecord _ => Unit

/-- What can be raised: by loading the files, by the use of a value in them, and by the server or
its driver. -/
inductive Error
  | load (error : LoadError)
  | misuse (misuse : Misuse)
  | operationFailure
  | other

abbrev signature : Signature := ⟨Op, Op.Answer⟩

abbrev Code := Program signature Error

def await (op : Op) : Code op.Answer := Program.perform (S := signature) op

/-! ## `sync_indexes` -/

/-- `_drop_index_if_exists`. -/
def dropIndexIfExists (collection name : Value) : Code Unit :=
  tryCatch (await (.dropIndex collection name)) fun error =>
    match error with
    | .operationFailure => return ()
    | error => throw error

/-- `[tuple(pair) for pair in spec["keys"]]`. -/
def keyPairs (spec : Value) : Except Misuse (List (List Value)) := do
  let keys ← spec.subscript "keys"
  let pairs ← keys.iterate
  pairs.mapM iterate

/-- `_index_options`. -/
def indexOptions : Value → List (String × Value)
  | .object members => ["unique", "sparse", "expireAfterSeconds"].filterMap fun key =>
      (members.lookup key).map (key, ·)
  | _ => []

/-- What follows `continue`. -/
def createAnew (id : String) (collection name spec : Value) : Code Unit := do
  dropIndexIfExists collection name
  let keys ← Program.ofExcept ((keyPairs spec).mapError .misuse)
  await (.createIndex collection keys name (indexOptions spec))
  await (.replaceRecord { id, collection, name, spec })

/-- One index of the files. -/
def syncIndex (str : Value → String) (collection spec : Value) : Code Unit := do
  let name ← Program.ofExcept ((spec.subscript "name").mapError .misuse)
  let id := recordId (str collection) (str name)
  let existingRecord ← await (.findRecord id)
  if existingRecord.any fun record => record.spec.Equals spec then return ()
  createAnew id collection name spec

/-- What `for collection, specs in desired.items()` and `for spec in specs` go over. -/
def wanted (desired : Configs) : List (Value × Value) :=
  desired.entries.flatMap fun (_, collection, specs) => specs.map (collection, ·)

/-- Both loops. -/
def syncWanted (str : Value → String) : List (Value × Value) → Code Unit
  | [] => return ()
  | (collection, spec) :: rest => do
      syncIndex str collection spec
      syncWanted str rest

/-- The id of an index. -/
def entryId (str : Value → String) (entry : Value × Value) : String :=
  recordId (str entry.1) (str ((entry.2.subscript "name").toOption.getD .null))

/-- `async for record in db["_index_config"].find({})`. -/
def dropUnmanaged (desiredIds : List String) : List Record → Code Unit
  | [] => return ()
  | record :: records => do
      if record.id ∉ desiredIds then
        dropIndexIfExists record.collection record.name
        await (.deleteRecord record.id)
      dropUnmanaged desiredIds records

/-- `sync_indexes`. -/
def syncIndexes (str : Value → String) (files : List JsonFile) : Code Unit := do
  let desired ← Program.ofExcept ((loadJson files .empty).mapError .load)
  syncWanted str (wanted desired)
  let records ← await .findRecords
  dropUnmanaged ((wanted desired).map (entryId str)) records

/-! ## MongoDB -/

variable {σ : Type}

/-- The records of `_index_config`, and whatever else the server knows. -/
structure World (σ : Type) where
  server : σ
  records : List Record

/-- What a write that succeeds does to `_index_config`. -/
def Op.onRecords : Op → List Record → List Record
  | replaceRecord record, records => (records.filter fun other => other.id ≠ record.id) ++ [record]
  | deleteRecord id, records => records.filter fun other => other.id ≠ id
  | _, records => records

/-- A call that the server answers as it likes. -/
def write (serve : Op → σ → Except Error Unit × σ) (op : Op) (world : World σ) :
    Except Error Unit × World σ :=
  match serve op world.server with
  | (.ok (), server) => (.ok (), ⟨server, op.onRecords world.records⟩)
  | (.error error, server) => (.error error, ⟨server, world.records⟩)

/-- What the server answers. -/
def carryOut (serve : Op → σ → Except Error Unit × σ) :
    (op : Op) → World σ → Except Error op.Answer × World σ
  | .findRecord id, world => (.ok (world.records.find? fun record => record.id = id), world)
  | .findRecords, world => (.ok world.records, world)
  | .dropIndex collection name, world => write serve (.dropIndex collection name) world
  | .createIndex collection keys name options, world =>
      write serve (.createIndex collection keys name options) world
  | .replaceRecord record, world => write serve (.replaceRecord record) world
  | .deleteRecord id, world => write serve (.deleteRecord id) world

/-- A call of `sync_indexes` that nothing disturbs. -/
def syncOn (serve : Op → σ → Except Error Unit × σ) (str : Value → String)
    (files : List JsonFile) (world : World σ) : Except Error Unit × World σ :=
  (syncIndexes str files).eval (carryOut serve) world

/-- The calls that the next call of `sync_indexes` makes. -/
def issuedAgain (serve : Op → σ → Except Error Unit × σ) (str : Value → String)
    (files : List JsonFile) (world : World σ) : List Op :=
  (syncIndexes str files).issued (carryOut serve) (syncOn serve str files world).2

/-- No index is dropped or created. -/
def Quiet (ops : List Op) : Prop :=
  ∀ op ∈ ops, (∀ collection name, op ≠ .dropIndex collection name) ∧
    ∀ collection keys name options, op ≠ .createIndex collection keys name options

section Running

variable {serve : Op → σ → Except Error Unit × σ} {str : Value → String} {world later : World σ}

theorem write_records {op : Op} (hwrite : write serve op world = (.ok (), later)) :
    later.records = op.onRecords world.records := by
  unfold write at hwrite
  split at hwrite
  · cases hwrite
    rfl
  · cases hwrite

/-! ## One index -/

/-- The record of an index's id is equal to the index. -/
def Settled (str : Value → String) (records : List Record) (entry : Value × Value) : Prop :=
  ∃ record, records.find? (fun record => record.id = entryId str entry) = some record ∧
    record.spec.Equals entry.2

/-- The index has a name, which `entryId` goes by. -/
theorem subscript_name {spec : Value} (hspec : HasNameAndKeys spec) :
    ∃ name, spec.subscript "name" = .ok name := by
  obtain ⟨name, -, hname, -, htruthy, -⟩ := hspec
  cases spec with
  | object members =>
      obtain rfl := Except.ok.inj hname
      cases hlookup : members.lookup "name" with
      | none => simp [hlookup, truthy] at htruthy
      | some name => exact ⟨name, by simp [subscript, hlookup]⟩
  | _ => cases hname

/-- Dropping an index leaves the records as they are. -/
theorem records_of_dropIndexIfExists {collection name : Value}
    (heval : (dropIndexIfExists collection name).eval (carryOut serve) world = (.ok (), later)) :
    later.records = world.records := by
  rw [dropIndexIfExists, Program.eval_tryCatch, await, Program.eval_perform] at heval
  have hsame : (carryOut serve (.dropIndex collection name) world).2.records = world.records := by
    rw [carryOut, write]
    split <;> rfl
  cases hanswer : carryOut serve (.dropIndex collection name) world with
  | mk answer middle =>
      rw [hanswer] at heval hsame
      cases answer with
      | ok value =>
          cases heval
          exact hsame
      | error error =>
          cases error with
          | operationFailure =>
              cases heval
              exact hsame
          | _ => cases heval

variable (serve) in
theorem mem_issued_dropIndexIfExists (collection name : Value) (world : World σ) :
    .dropIndex collection name ∈
      (dropIndexIfExists collection name).issued (carryOut serve) world :=
  List.mem_cons_self ..

/-- An index that can be created anew has the record of its id. -/
theorem records_of_createAnew {id : String} {collection name spec : Value}
    (heval : (createAnew id collection name spec).eval (carryOut serve) world = (.ok (), later)) :
    later.records = (world.records.filter fun other => other.id ≠ id) ++
      [⟨id, collection, name, spec⟩] := by
  rw [createAnew] at heval
  obtain ⟨_, dropped, hdrop, heval⟩ := Program.eval_bind_eq_ok_iff.mp heval
  obtain ⟨keys, read, hkeys, heval⟩ := Program.eval_bind_eq_ok_iff.mp heval
  obtain ⟨_, created, hcreate, hreplace⟩ := Program.eval_bind_eq_ok_iff.mp heval
  have hread : read = dropped := by
    cases hpairs : keyPairs spec <;> rw [hpairs] at hkeys <;> cases hkeys
    rfl
  rw [await, Program.eval_perform] at hcreate hreplace
  have hrecords : created.records = world.records := by
    calc created.records = read.records := write_records hcreate
      _ = dropped.records := by rw [hread]
      _ = world.records := records_of_dropIndexIfExists hdrop
  rw [write_records hreplace, hrecords, Op.onRecords]

section Named

variable {collection name spec : Value}

theorem entryId_eq (hname : spec.subscript "name" = .ok name) :
    entryId str (collection, spec) = recordId (str collection) (str name) := by
  rw [entryId, hname]
  rfl

/-- The index is found to be settled, or it is created anew. -/
theorem syncIndex_eq (hname : spec.subscript "name" = .ok name) :
    syncIndex str collection spec =
      await (.findRecord (entryId str (collection, spec))) >>= fun existingRecord =>
        if existingRecord.any fun record => record.spec.Equals spec then return ()
        else createAnew (entryId str (collection, spec)) collection name spec := by
  rw [syncIndex, hname, entryId_eq hname]
  rfl

theorem settled_iff :
    Settled str world.records (collection, spec) ↔
      (world.records.find? fun record => record.id = entryId str (collection, spec)).any
        (fun record => record.spec.Equals spec) = true := by
  rw [Settled, Option.any_eq_true]
  simp only [decide_eq_true_eq]

theorem findRecord_eq (id : String) :
    (await (.findRecord id)).eval (carryOut serve) world =
      (.ok (world.records.find? fun record => record.id = id), world) :=
  Program.eval_perform _ _

variable (serve) in
/-- An index whose record is equal to it is left alone. -/
theorem syncIndex_of_settled (hname : spec.subscript "name" = .ok name)
    (hsettled : Settled str world.records (collection, spec)) :
    (syncIndex str collection spec).eval (carryOut serve) world = (.ok (), world) ∧
      Quiet ((syncIndex str collection spec).issued (carryOut serve) world) := by
  rw [syncIndex_eq hname, Program.eval_bind_of_ok (findRecord_eq _),
    Program.issued_bind_of_ok (findRecord_eq _), if_pos (settled_iff.mp hsettled), await,
    Program.issued_perform]
  refine ⟨rfl, ?_⟩
  simp [Quiet, Program.issued]

/-- An index whose record is not equal to it is dropped. -/
theorem not_quiet_syncIndex (hname : spec.subscript "name" = .ok name)
    (hunsettled : ¬ Settled str world.records (collection, spec)) :
    ¬ Quiet ((syncIndex str collection spec).issued (carryOut serve) world) := by
  intro hquiet
  refine (hquiet (.dropIndex collection name) ?_).1 collection name rfl
  rw [syncIndex_eq hname, Program.issued_bind_of_ok (findRecord_eq _),
    if_neg fun hany => hunsettled (settled_iff.mpr hany)]
  refine List.mem_append_right _ ?_
  exact Program.mem_issued_bind (mem_issued_dropIndexIfExists serve collection name world)

/-- It is then the record of its id, if the call goes on. -/
theorem records_of_unsettled (hname : spec.subscript "name" = .ok name)
    (hunsettled : ¬ Settled str world.records (collection, spec))
    (heval : (syncIndex str collection spec).eval (carryOut serve) world = (.ok (), later)) :
    later.records = (world.records.filter fun other =>
      other.id ≠ entryId str (collection, spec)) ++
        [⟨entryId str (collection, spec), collection, name, spec⟩] := by
  rw [syncIndex_eq hname, Program.eval_bind_of_ok (findRecord_eq _),
    if_neg fun hany => hunsettled (settled_iff.mpr hany)] at heval
  exact records_of_createAnew heval

end Named

/-! ## All indexes -/

variable {entries done : List (Value × Value)} {ids : List String} {records : List Record}

theorem quiet_append {first second : List Op} :
    Quiet (first ++ second) ↔ Quiet first ∧ Quiet second := List.forall_mem_append

theorem syncWanted_append (first second : List (Value × Value)) :
    syncWanted str (first ++ second) =
      syncWanted str first >>= fun _ => syncWanted str second := by
  induction first with
  | nil => rfl
  | cons entry first ih =>
      rw [List.cons_append, syncWanted, ih, syncWanted, Program.bind_assoc]

/-- A call of which the first part is not quiet is not quiet. -/
theorem Quiet.of_bind {α β : Type} {program : Code α} {next : α → Code β}
    (hquiet : Quiet ((program >>= next).issued (carryOut serve) world)) :
    Quiet (program.issued (carryOut serve) world) :=
  fun op hop => hquiet op (Program.mem_issued_bind hop)

variable (serve) in
theorem syncWanted_of_settled
    (hnamed : ∀ entry ∈ entries, ∃ name, entry.2.subscript "name" = .ok name)
    (hsettled : ∀ entry ∈ entries, Settled str world.records entry) :
    (syncWanted str entries).eval (carryOut serve) world = (.ok (), world) ∧
      Quiet ((syncWanted str entries).issued (carryOut serve) world) := by
  induction entries with
  | nil => exact ⟨rfl, List.forall_mem_nil _⟩
  | cons entry entries ih =>
      obtain ⟨⟨name, hname⟩, hrestNamed⟩ := List.forall_mem_cons.mp hnamed
      obtain ⟨hfirst, hrest⟩ := List.forall_mem_cons.mp hsettled
      obtain ⟨heval, hquiet⟩ := syncIndex_of_settled serve hname hfirst
      obtain ⟨hrestEval, hrestQuiet⟩ := ih hrestNamed hrest
      rw [syncWanted, Program.eval_bind_of_ok heval, Program.issued_bind_of_ok heval]
      exact ⟨hrestEval, quiet_append.mpr ⟨hquiet, hrestQuiet⟩⟩

theorem settled_of_quiet
    (hnamed : ∀ entry ∈ entries, ∃ name, entry.2.subscript "name" = .ok name)
    (hquiet : Quiet ((syncWanted str entries).issued (carryOut serve) world)) :
    ∀ entry ∈ entries, Settled str world.records entry := by
  induction entries with
  | nil => exact List.forall_mem_nil _
  | cons entry entries ih =>
      obtain ⟨⟨name, hname⟩, hrestNamed⟩ := List.forall_mem_cons.mp hnamed
      have hsettled : Settled str world.records entry := by
        by_contra hunsettled
        exact not_quiet_syncIndex hname hunsettled hquiet.of_bind
      obtain ⟨heval, -⟩ := syncIndex_of_settled serve hname hsettled
      rw [syncWanted, Program.issued_bind_of_ok heval] at hquiet
      exact List.forall_mem_cons.mpr ⟨hsettled, ih hrestNamed (quiet_append.mp hquiet).2⟩

/-- An index that is settled stays so when others of its id are equal to it. -/
theorem settled_of_syncIndex {collection spec : Value} {other : Value × Value}
    (hnamed : ∃ name, spec.subscript "name" = .ok name)
    (hsame : entryId str (collection, spec) = entryId str other → spec.Equals other.2)
    (hsettled : Settled str world.records other ∨ other = (collection, spec))
    (heval : (syncIndex str collection spec).eval (carryOut serve) world = (.ok (), later)) :
    Settled str later.records other := by
  obtain ⟨name, hname⟩ := hnamed
  by_cases hfirst : Settled str world.records (collection, spec)
  · -- nothing has been done
    rw [(syncIndex_of_settled serve hname hfirst).1] at heval
    cases heval
    rcases hsettled with hsettled | rfl
    · exact hsettled
    · exact hfirst
  · -- the record of the id has been replaced, which the other index has or has not
    have hrecords := records_of_unsettled hname hfirst heval
    by_cases hid : entryId str (collection, spec) = entryId str other
    · refine ⟨⟨entryId str (collection, spec), collection, name, spec⟩, ?_, hsame hid⟩
      rw [hrecords, ← hid, List.find?_append, List.find?_eq_none.mpr (by simp), Option.none_or,
        List.find?_singleton, if_pos (by simp)]
    · obtain ⟨record, hfind, hequals⟩ : Settled str world.records other :=
        hsettled.resolve_right fun heq => hid (heq ▸ rfl)
      refine ⟨record, ?_, hequals⟩
      rw [hrecords, List.find?_append, List.find?_filter, Option.or_eq_some_iff]
      refine Or.inl (Eq.trans ?_ hfind)
      congr 1
      funext candidate
      by_cases hcandidate : candidate.id = entryId str other
      · simp [hcandidate, Ne.symm hid]
      · simp [hcandidate]

/-- If indexes with the same id are equal, then all are settled once the loop has gone through
them. -/
theorem settled_of_completed
    (hnamed : ∀ entry ∈ entries, ∃ name, entry.2.subscript "name" = .ok name)
    (hsame : ∀ entry ∈ entries, ∀ other ∈ done ++ entries,
      entryId str entry = entryId str other → entry.2.Equals other.2)
    (hdone : ∀ entry ∈ done, Settled str world.records entry)
    (heval : (syncWanted str entries).eval (carryOut serve) world = (.ok (), later)) :
    ∀ entry ∈ done ++ entries, Settled str later.records entry := by
  induction entries generalizing done world with
  | nil =>
      cases heval
      rwa [List.append_nil]
  | cons entry entries ih =>
      obtain ⟨hfirstNamed, hrestNamed⟩ := List.forall_mem_cons.mp hnamed
      obtain ⟨hfirst, hrest⟩ := List.forall_mem_cons.mp hsame
      obtain ⟨_, middle, hsync, heval⟩ := Program.eval_bind_eq_ok_iff.mp heval
      -- the index goes over to those that are done
      rw [← List.singleton_append, ← List.append_assoc] at hfirst hrest ⊢
      refine ih hrestNamed hrest (fun other hother => ?_) heval
      refine settled_of_syncIndex hfirstNamed
        (hfirst other (List.mem_append_left _ hother)) ?_ hsync
      exact (List.mem_append.mp hother).imp (hdone other) List.mem_singleton.mp

/-! ## Indexes that are no longer wanted -/

theorem records_of_dropUnmanaged
    (heval : (dropUnmanaged ids records).eval (carryOut serve) world = (.ok (), later)) :
    later.records = world.records.filter fun record =>
      ¬ ∃ other ∈ records, other.id ∉ ids ∧ other.id = record.id := by
  induction records generalizing world with
  | nil =>
      cases heval
      simp
  | cons record records ih =>
      by_cases hid : record.id ∈ ids
      · rw [dropUnmanaged, if_neg (not_not.mpr hid)] at heval
        rw [ih heval]
        simp [hid]
      · rw [dropUnmanaged, if_pos hid] at heval
        obtain ⟨_, dropped, hdrop, heval⟩ := Program.eval_bind_eq_ok_iff.mp heval
        obtain ⟨_, deleted, hdelete, heval⟩ := Program.eval_bind_eq_ok_iff.mp heval
        rw [await, Program.eval_perform] at hdelete
        rw [ih heval, write_records hdelete, Op.onRecords, records_of_dropIndexIfExists hdrop,
          List.filter_filter]
        refine List.filter_congr fun other _ => ?_
        rw [← Bool.decide_and, decide_eq_decide, List.exists_mem_cons_iff, not_or, and_comm,
          and_iff_right hid, ne_comm]

theorem quiet_dropUnmanaged_iff :
    Quiet ((dropUnmanaged ids records).issued (carryOut serve) world) ↔
      ∀ record ∈ records, record.id ∈ ids := by
  induction records generalizing world with
  | nil => exact iff_of_true (List.forall_mem_nil _) (List.forall_mem_nil _)
  | cons record records ih =>
      rw [List.forall_mem_cons]
      by_cases hid : record.id ∈ ids
      · rw [dropUnmanaged, if_neg (not_not.mpr hid), and_iff_right hid]
        exact ih
      · rw [dropUnmanaged, if_pos hid]
        -- the index of a record that is not wanted is dropped first
        refine iff_of_false (fun hquiet => ?_) fun hall => hid hall.1
        have hdrop := mem_issued_dropIndexIfExists serve record.collection record.name world
        exact (hquiet _ (Program.mem_issued_bind hdrop)).1 record.collection record.name rfl

/-! ## The whole call -/

variable {files : List JsonFile} {desired : Configs}

theorem named_of_load (hload : loadJson files .empty = .ok desired) :
    ∀ entry ∈ wanted desired, ∃ name, entry.2.subscript "name" = .ok name := by
  intro entry hentry
  obtain ⟨⟨key, collection, specs⟩, hmem, hentry⟩ := List.mem_flatMap.mp hentry
  obtain ⟨spec, hspec, rfl⟩ := List.mem_map.mp hentry
  have hspecs : desired.specsAt key = specs := specsAt_of_mem hmem
  exact subscript_name (hasNameAndKeys_of_load hload key spec (hspecs ▸ hspec))

theorem syncIndexes_of_load (hload : loadJson files .empty = .ok desired) :
    syncIndexes str files = syncWanted str (wanted desired) >>= fun _ =>
      await .findRecords >>= fun records =>
        dropUnmanaged ((wanted desired).map (entryId str)) records := by
  rw [syncIndexes, hload]
  rfl

theorem findRecords_eq :
    (await .findRecords).eval (carryOut serve) world = (.ok world.records, world) :=
  Program.eval_perform _ _

/-- A call that completes leaves only records that are wanted, and those of the indexes as they
were when the loop had gone through them. -/
theorem records_of_completed (hload : loadJson files .empty = .ok desired)
    (hcompleted : (syncOn serve str files world).1 = .ok ()) :
    ∃ synced, (syncWanted str (wanted desired)).eval (carryOut serve) world = (.ok (), synced) ∧
      (syncOn serve str files world).2.records = synced.records.filter fun record =>
        record.id ∈ (wanted desired).map (entryId str) := by
  have heval : (syncIndexes str files).eval (carryOut serve) world =
      (.ok (), (syncOn serve str files world).2) := Prod.ext hcompleted rfl
  rw [syncIndexes_of_load hload] at heval
  obtain ⟨_, synced, hsync, heval⟩ := Program.eval_bind_eq_ok_iff.mp heval
  rw [Program.eval_bind_of_ok findRecords_eq] at heval
  refine ⟨synced, hsync, ?_⟩
  rw [records_of_dropUnmanaged heval]
  refine List.filter_congr fun record hrecord => ?_
  rw [decide_eq_decide]
  constructor
  · intro hnone
    by_contra hid
    exact hnone ⟨record, hrecord, hid, rfl⟩
  · rintro hid ⟨other, -, hother, hsame⟩
    exact hother (hsame ▸ hid)

theorem settled_filter_iff {entry : Value × Value} (hid : entryId str entry ∈ ids) :
    Settled str (records.filter fun record => record.id ∈ ids) entry ↔
      Settled str records entry := by
  have hfind : ((records.filter fun record => record.id ∈ ids).find? fun record =>
      record.id = entryId str entry) = records.find? fun record =>
        record.id = entryId str entry := by
    rw [List.find?_filter]
    congr 1
    funext record
    by_cases hrecord : record.id = entryId str entry
    · simp [hrecord, hid]
    · simp [hrecord]
  rw [Settled, hfind, Settled]

/-- A call makes no index calls exactly if all indexes are settled and all records wanted. -/
theorem quiet_syncIndexes_iff (hload : loadJson files .empty = .ok desired) :
    Quiet ((syncIndexes str files).issued (carryOut serve) world) ↔
      (∀ entry ∈ wanted desired, Settled str world.records entry) ∧
        ∀ record ∈ world.records, record.id ∈ (wanted desired).map (entryId str) := by
  rw [syncIndexes_of_load hload]
  have hrest : (∀ entry ∈ wanted desired, Settled str world.records entry) →
      (Quiet ((syncWanted str (wanted desired) >>= fun _ => await .findRecords >>= fun records =>
        dropUnmanaged ((wanted desired).map (entryId str)) records).issued (carryOut serve) world) ↔
        ∀ record ∈ world.records, record.id ∈ (wanted desired).map (entryId str)) := by
    intro hsettled
    obtain ⟨heval, hquiet⟩ :=
      syncWanted_of_settled serve (named_of_load hload) hsettled
    rw [Program.issued_bind_of_ok heval, quiet_append, and_iff_right hquiet,
      Program.issued_bind_of_ok findRecords_eq, quiet_append, quiet_dropUnmanaged_iff, await,
      Program.issued_perform, and_iff_right]
    simp [Quiet]
  constructor
  · intro hquiet
    have hsettled := settled_of_quiet (named_of_load hload) hquiet.of_bind
    exact ⟨hsettled, (hrest hsettled).mp hquiet⟩
  · rintro ⟨hsettled, hwanted⟩
    exact (hrest hsettled).mpr hwanted

/-- The loops go over the indexes of the files. -/
theorem mem_wanted_iff (hload : loadJson files .empty = .ok desired) {entry : Value × Value} :
    entry ∈ wanted desired ↔ entry ∈ configured files := by
  rw [mem_configured_of_load hload, wanted, List.mem_flatMap]
  constructor
  · rintro ⟨⟨key, first, specs⟩, hmem, hentry⟩
    obtain ⟨spec, hspec, rfl⟩ := List.mem_map.mp hentry
    exact ⟨key, first, specs, Dict.get?_eq_some_iff.mpr hmem, spec, hspec, rfl⟩
  · rintro ⟨key, first, specs, hget, spec, hspec, rfl⟩
    refine ⟨(key, first, specs), Dict.get?_eq_some_iff.mp hget, ?_⟩
    exact List.mem_map_of_mem hspec

theorem load_of_completed (hcompleted : (syncOn serve str files world).1 = .ok ()) :
    ∃ desired, loadJson files .empty = .ok desired := by
  cases hload : loadJson files .empty with
  | ok desired => exact ⟨desired, rfl⟩
  | error error =>
      rw [syncOn, syncIndexes, hload] at hcompleted
      cases hcompleted

/-- **When the next call leaves the indexes alone.** -/
theorem quiet_iff (hcompleted : (syncOn serve str files world).1 = .ok ()) :
    Quiet (issuedAgain serve str files world) ↔
      ∀ entry ∈ configured files, ∀ other ∈ configured files,
        entryId str entry = entryId str other → entry.2.Equals other.2 := by
  obtain ⟨desired, hload⟩ := load_of_completed hcompleted
  obtain ⟨synced, hsync, hrecords⟩ := records_of_completed hload hcompleted
  have hsettled : ∀ entry ∈ wanted desired,
      Settled str (syncOn serve str files world).2.records entry ↔
        Settled str synced.records entry := by
    intro entry hentry
    rw [hrecords]
    exact settled_filter_iff (List.mem_map_of_mem hentry)
  have hwanted : ∀ record ∈ (syncOn serve str files world).2.records,
      record.id ∈ (wanted desired).map (entryId str) := by
    intro record hrecord
    rw [hrecords] at hrecord
    exact of_decide_eq_true (List.mem_filter.mp hrecord).2
  simp only [← mem_wanted_iff hload]
  rw [issuedAgain, quiet_syncIndexes_iff hload, and_iff_left hwanted]
  constructor
  · intro hall entry hentry other hother hid
    obtain ⟨record, hfind, hequals⟩ := hall entry hentry
    obtain ⟨record', hfind', hequals'⟩ := hall other hother
    -- both are equal to the one record of their id
    rw [hid, hfind'] at hfind
    obtain rfl := Option.some_inj.mp hfind
    exact hequals.euclidean hequals'
  · intro hsame entry hentry
    refine (hsettled entry hentry).mpr ?_
    exact settled_of_completed (named_of_load hload) hsame (List.forall_mem_nil _) hsync entry hentry

end Running

/-- **When loading returns consistent configurations, and what follows for the next call.**  For
any text that `str` makes of a value, and any server. -/
theorem returnsConsistent_and_quiet_iff (files : List JsonFile) :
    (ReturnsConsistent files ↔
      (∀ before file after, files = before ++ file :: after →
        (∀ earlier ∈ before, Accepted earlier) → ¬ Misused file) ∧
      ((∀ file ∈ files, Accepted file) →
        files.Pairwise fun first second => ¬ ShareName first second)) ∧
    ∀ (str : Value → String) (σ : Type) (serve : Op → σ → Except Error Unit × σ) (world : World σ),
      (syncOn serve str files world).1 = .ok () →
        (Quiet (issuedAgain serve str files world) ↔
          ∀ entry ∈ configured files, ∀ other ∈ configured files,
            entryId str entry = entryId str other → entry.2.Equals other.2) :=
  ⟨returnsConsistent_iff files, fun _ _ _ _ hcompleted => quiet_iff hcompleted⟩

/-! ## Two files for one collection -/

/-- `str` of a string. -/
def textOf : Value → String
  | .string text => text
  | _ => ""

/-- An index of `owner_id` in a direction. -/
def ownerIndex (direction : ℤ) : Value :=
  .object [("name", .string "owner_id"),
    ("keys", .array [.array [.string "owner_id", .int direction]])]

def widgetsFile (path : String) (direction : ℤ) : JsonFile :=
  ⟨path, .object [("collection", .string "widgets"), ("indexes", .array [ownerIndex direction])]⟩

/-- A server that answers every call. -/
def obliging (_ : Op) (server : Unit) : Except Error Unit × Unit := (.ok (), server)

theorem returnsConsistent_and_quiet_oneFile :
    ReturnsConsistent [widgetsFile "widgets.json" 1] ∧
      Quiet (issuedAgain obliging textOf [widgetsFile "widgets.json" 1] ⟨(), []⟩) := by
  obtain ⟨hconsistent, hquiet⟩ := returnsConsistent_and_quiet_iff [widgetsFile "widgets.json" 1]
  refine ⟨hconsistent.mpr ⟨?_, fun _ => List.pairwise_singleton _ _⟩, ?_⟩
  · intro before file after hsplit haccepted hmisused
    have hraise : ∃ misuse, loadJson [widgetsFile "widgets.json" 1] .empty =
        .error (.misuse misuse) :=
      loadJson_misused_iff.mpr ⟨before, file, after, hsplit, haccepted, hmisused⟩
    obtain ⟨_, hraise⟩ := hraise
    cases hraise
  · refine (hquiet textOf Unit obliging ⟨(), []⟩ rfl).mpr ?_
    intro entry hentry other hother _
    obtain rfl := List.mem_singleton.mp hentry
    obtain rfl := List.mem_singleton.mp hother
    exact ⟨rfl, rfl⟩

theorem not_returnsConsistent_twoFiles :
    ¬ ReturnsConsistent [widgetsFile "a.json" 1, widgetsFile "b.json" (-1)] ∧
      (syncOn obliging textOf [widgetsFile "a.json" 1, widgetsFile "b.json" (-1)] ⟨(), []⟩).1 =
        .ok () ∧
      ¬ Quiet (issuedAgain obliging textOf
        [widgetsFile "a.json" 1, widgetsFile "b.json" (-1)] ⟨(), []⟩) := by
  refine ⟨?_, rfl, ?_⟩
  · rintro (⟨error, hload, -⟩ | ⟨configs, hload, hconsistent⟩)
    · cases hload
    · cases hload
      exact (List.nodup_cons.mp (hconsistent _ (List.mem_cons_self ..)).2).1
        (List.mem_cons_self ..)
  · intro hquiet
    refine (hquiet (.dropIndex (.string "widgets") (.string "owner_id")) ?_).1 _ _ rfl
    exact List.mem_cons_of_mem _ (List.mem_cons_self ..)

end EveBuild.IndexSync.Json
