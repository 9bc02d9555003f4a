import EveBuild.Effect.Alone
import EveBuild.Startup.IndexSync

/-!
# Index synchronisation, attempt after attempt

Calls of `sync_indexes` with one configuration after another, each of which can fail or be
killed anywhere.  An index and its record in `_index_config` are changed one after the
other, and a record that agrees with the configuration is taken for an index that is there.
So an attempt that stops between the two can leave a record of an index that is gone, and
going back to an earlier configuration does not bring the index back
(`rollback_misses_index`).

The database is `InStep` when the records say exactly which indexes there are.  An attempt
that starts in step is out of step only between the drop of a recorded index, or the
creation of an index, and its record.  If no attempt stops there (`Regime.timely`), and the
record ids tell the indexes apart (`Unambiguous`), a completed attempt leaves the indexes of
its configuration and no others (`indexes_of_completed`).
-/

namespace EveBuild.IndexSync

open Effect

/-! ## Where an attempt can stop -/

/-- The record that `sync_indexes` writes for an index. -/
def IndexRecord.of (collection : String) (index : Index) : IndexRecord :=
  { id := recordId collection index.name, collection, index }

theorem IndexRecord.of_inj {collection other : String} {index otherIndex : Index}
    (heq : IndexRecord.of collection index = .of other otherIndex) :
    collection = other ∧ index = otherIndex :=
  ⟨congrArg IndexRecord.collection heq, congrArg IndexRecord.index heq⟩

/-- The collection has an index of the name. -/
def Database.Has (database : Database) (collection name : String) : Prop :=
  ∃ index, (collection, index) ∈ database.indexes ∧ index.name = name

/-- There is a record of the id. -/
def Database.Recorded (database : Database) (id : String) : Prop :=
  ∃ record ∈ database.records, record.id = id

/-- What can happen to the attempts: how their calls are answered, and before which calls
they can be killed. -/
structure Regime where
  choice : Database → Op → Choice → Prop
  kill : Database → Op → Prop

/-- Anything. -/
def Regime.free : Regime := ⟨fun _ _ _ => True, fun _ _ => True⟩

/-- Before the call is carried out, an attempt can end without leaving a record that is
wrong.  An index that is to be created has no record, or it has not been dropped; one that
has been created is always waiting for its record; a record that is to be deleted still has
its index. -/
def MayEnd (database : Database) : Op → Prop
  | .createIndex collection index =>
      database.Recorded (recordId collection index.name) → database.Has collection index.name
  | .replaceRecord _ => False
  | .deleteRecord id => ∀ record ∈ database.records, record.id = id →
      database.Has record.collection record.index.name
  | _ => True

/-- A record is deleted only when its index is gone. -/
def MayCarryOut (database : Database) : Op → Prop
  | .deleteRecord id => ∀ record ∈ database.records, record.id = id →
      ¬ database.Has record.collection record.index.name
  | _ => True

/-- Once the call has been carried out, an attempt can end without leaving a record that is
wrong. -/
def MayLose (database : Database) : Op → Prop
  | .dropIndex collection name => ¬ database.Has collection name
  | .createIndex .. => False
  | _ => True

/-- No attempt ends between the drop of a recorded index, or the creation of an index, and
its record, and no record is deleted while its index is there. -/
def Regime.timely : Regime where
  choice database op
    | .done => MayCarryOut database op ∧
        ((∃ error, (carryOut database op).1 = .error error) → MayEnd database op)
    | .refused => MayEnd database op
    | .lost true => MayCarryOut database op ∧ MayLose database op
    | .lost false => MayEnd database op
  kill := MayEnd

/-- How calls are answered. -/
def Regime.Answers (regime : Regime) (op : Op) (database : Database)
    (answer : Except SyncError op.Answer) (later : Database) : Prop :=
  ∃ choice, regime.choice database op choice ∧ respond op choice database = (answer, later)

/-- What any number of attempts, one after the other, with any of the configurations, can
have left. -/
def Attempted (regime : Regime) (configurations : Set (List IndexFile)) :
    Database → Database → Prop :=
  Relation.ReflTransGen fun before after => ∃ files ∈ configurations, ∃ rest,
    Alone.Stops regime.Answers (syncIndexes files) before rest after ∧
    ∀ op next, rest = .call op next → regime.kill after op

/-- A record id belongs to one index: two indexes of the configurations that have the same
id have the same collection and name, and in one configuration they are the same. -/
structure Unambiguous (configurations : Set (List IndexFile)) : Prop where
  ids : ∀ files ∈ configurations, ∀ others ∈ configurations, ∀ collection index other otherIndex,
    Configured files collection index → Configured others other otherIndex →
    recordId collection index.name = recordId other otherIndex.name →
    collection = other ∧ index.name = otherIndex.name
  specs : ∀ files ∈ configurations, ∀ collection index other, Configured files collection index →
    Configured files collection other → index.name = other.name → index = other

/-! ## In step -/

/-- The records say exactly which indexes there are, apart from those that are being worked
on. -/
structure Linked (configurations : Set (List IndexFile)) (apart : String → String → Prop)
    (database : Database) : Prop where
  linked : ∀ collection index, ¬ apart collection index.name →
    ((collection, index) ∈ database.indexes ↔ .of collection index ∈ database.records)
  configured : ∀ record ∈ database.records, record = .of record.collection record.index ∧
    ∃ files ∈ configurations, Configured files record.collection record.index
  distinct : (database.records.map IndexRecord.id).Nodup
  named : ∀ collection index other, (collection, index) ∈ database.indexes →
    (collection, other) ∈ database.indexes → index.name = other.name → index = other

/-- The records say exactly which indexes there are. -/
abbrev InStep (configurations : Set (List IndexFile)) (database : Database) : Prop :=
  Linked configurations (fun _ _ => False) database

/-- The index that is being worked on. -/
def At (collection name : String) (other otherName : String) : Prop :=
  other = collection ∧ otherName = name

section InStep

variable {configurations : Set (List IndexFile)} {database : Database}
  {collection name : String} {index : Index}

theorem inStep_empty : InStep configurations ⟨[], []⟩ :=
  ⟨by simp, by simp, List.nodup_nil, by simp⟩

theorem Linked.wider {apart wider : String → String → Prop}
    (hlinked : Linked configurations apart database)
    (hwider : ∀ collection name, apart collection name → wider collection name) :
    Linked configurations wider database :=
  ⟨fun collection index hnot =>
    hlinked.linked collection index fun hapart => hnot (hwider _ _ hapart),
    hlinked.configured, hlinked.distinct, hlinked.named⟩

/-- The record with the id of an index of the configurations is the record of an index of
this collection and name. -/
theorem Linked.eq_of_id {apart : String → String → Prop} (hplain : Unambiguous configurations)
    (hlinked : Linked configurations apart database) {files : List IndexFile}
    (hfiles : files ∈ configurations) (hindex : Configured files collection index)
    {record : IndexRecord} (hrecord : record ∈ database.records)
    (hid : record.id = recordId collection index.name) :
    record.collection = collection ∧ record.index.name = index.name := by
  obtain ⟨hof, others, hothers, hconfigured⟩ := hlinked.configured record hrecord
  rw [hof] at hid
  exact hplain.ids others hothers files hfiles _ _ _ _ hconfigured hindex hid

/-- A record is found by its id. -/
theorem Linked.find?_of_mem {apart : String → String → Prop}
    (hlinked : Linked configurations apart database) {record : IndexRecord}
    (hrecord : record ∈ database.records) :
    database.records.find? (fun other => other.id = record.id) = some record := by
  cases hfind : database.records.find? fun other => other.id = record.id with
  | none => simpa using List.find?_eq_none.mp hfind record hrecord
  | some other =>
      have hid : other.id = record.id := by simpa using List.find?_some hfind
      rw [List.inj_on_of_nodup_map hlinked.distinct (List.mem_of_find?_eq_some hfind) hrecord hid]

/-- Without a record there is no index. -/
theorem Linked.inStep (hlinked : Linked configurations (At collection name) database)
    (hgone : ¬ database.Has collection name)
    (hunrecorded : ¬ database.Recorded (recordId collection name)) :
    InStep configurations database where
  linked := by
    intro other index _
    by_cases hat : At collection name other index.name
    · obtain ⟨rfl, rfl⟩ := hat
      constructor
      · exact fun hmem => absurd ⟨index, hmem, rfl⟩ hgone
      · exact fun hmem => absurd ⟨_, hmem, rfl⟩ hunrecorded
    · exact hlinked.linked other index hat
  configured := hlinked.configured
  distinct := hlinked.distinct
  named := hlinked.named

/-- **Dropping** an index puts its record out of step. -/
theorem Linked.drop (hlinked : InStep configurations database) (collection name : String) :
    Linked configurations (At collection name) { database with
      indexes := database.indexes.filter fun entry =>
        ¬ (entry.1 = collection ∧ entry.2.name = name) } where
  linked := by
    intro other index hnot
    rw [← hlinked.linked other index id, List.mem_filter]
    exact ⟨And.left, fun hmem => ⟨hmem, decide_eq_true hnot⟩⟩
  configured := hlinked.configured
  distinct := hlinked.distinct
  named := fun _ _ _ hindex hother =>
    hlinked.named _ _ _ (List.mem_of_mem_filter hindex) (List.mem_of_mem_filter hother)

/-- **Creating** an index of a name that is free. -/
theorem Linked.create (hlinked : Linked configurations (At collection index.name) database)
    (hgone : ¬ database.Has collection index.name) :
    Linked configurations (At collection index.name)
      { database with indexes := database.indexes ++ [(collection, index)] } where
  linked := by
    intro other otherIndex hnot
    rw [← hlinked.linked other otherIndex hnot, List.mem_append, List.mem_singleton]
    refine ⟨fun hmem => hmem.resolve_right ?_, Or.inl⟩
    rintro ⟨⟩
    exact hnot ⟨rfl, rfl⟩
  configured := hlinked.configured
  distinct := hlinked.distinct
  named := by
    intro other first second hfirst hsecond hname
    rcases List.mem_append.mp hfirst with hfirst | hfirst <;>
      rcases List.mem_append.mp hsecond with hsecond | hsecond
    · exact hlinked.named other first second hfirst hsecond hname
    · cases List.mem_singleton.mp hsecond
      exact absurd ⟨first, hfirst, hname⟩ hgone
    · cases List.mem_singleton.mp hfirst
      exact absurd ⟨second, hsecond, hname.symm⟩ hgone
    · cases List.mem_singleton.mp hfirst
      cases List.mem_singleton.mp hsecond
      rfl

/-- **Recording** the index that is there is in step. -/
theorem Linked.record (hplain : Unambiguous configurations) {files : List IndexFile}
    (hfiles : files ∈ configurations) (hindex : Configured files collection index)
    (hlinked : Linked configurations (At collection index.name) database)
    (hthere : (collection, index) ∈ database.indexes) :
    InStep configurations { database with
      records := (database.records.filter fun other =>
        other.id ≠ recordId collection index.name) ++ [.of collection index] } where
  linked := by
    intro other otherIndex _
    simp only [List.mem_append, List.mem_filter, List.mem_singleton, decide_eq_true_eq]
    -- the new record is that of the name, and the others are those of other names
    by_cases hat : At collection index.name other otherIndex.name
    · obtain ⟨rfl, hname⟩ := hat
      constructor
      · intro hmem
        rw [hlinked.named other otherIndex index hmem hthere hname]
        exact Or.inr rfl
      · rintro (⟨_, hid⟩ | heq)
        · exact absurd (congrArg (recordId other) hname) hid
        · obtain ⟨_, rfl⟩ := IndexRecord.of_inj heq
          exact hthere
    · rw [hlinked.linked other otherIndex hat]
      refine ⟨fun hmem => Or.inl ⟨hmem, fun hid => hat ?_⟩, fun hmem => ?_⟩
      · exact hlinked.eq_of_id hplain hfiles hindex hmem hid
      · rcases hmem with ⟨hmem, _⟩ | heq
        · exact hmem
        · obtain ⟨rfl, rfl⟩ := IndexRecord.of_inj heq
          exact absurd ⟨rfl, rfl⟩ hat
  configured := by
    intro record hrecord
    rcases List.mem_append.mp hrecord with hrecord | hrecord
    · exact hlinked.configured record (List.mem_of_mem_filter hrecord)
    · rw [List.mem_singleton.mp hrecord]
      exact ⟨rfl, files, hfiles, hindex⟩
  distinct := by
    rw [List.map_append, List.nodup_append]
    refine ⟨(List.filter_sublist.map _).nodup hlinked.distinct, List.nodup_singleton _, ?_⟩
    intro id hid other hother
    obtain ⟨record, hrecord, rfl⟩ := List.mem_map.mp hid
    rw [List.mem_singleton.mp hother]
    exact of_decide_eq_true (List.mem_filter.mp hrecord).2
  named := hlinked.named

/-- **Deleting the record** of an index that is gone is in step. -/
theorem Linked.forget (hplain : Unambiguous configurations) {record : IndexRecord}
    (hrecord : record ∈ database.records)
    (hlinked : Linked configurations (At record.collection record.index.name) database)
    (hgone : ¬ database.Has record.collection record.index.name) :
    InStep configurations { database with
      records := database.records.filter fun other => other.id ≠ record.id } where
  linked := by
    obtain ⟨hof, files, hfiles, hconfigured⟩ := hlinked.configured record hrecord
    have hid : record.id = recordId record.collection record.index.name := congrArg _ hof
    intro other otherIndex _
    simp only [List.mem_filter, decide_eq_true_eq]
    by_cases hat : At record.collection record.index.name other otherIndex.name
    · obtain ⟨rfl, hname⟩ := hat
      constructor
      · exact fun hmem => absurd ⟨otherIndex, hmem, hname⟩ hgone
      · rintro ⟨_, hne⟩
        exact absurd (by rw [hid, ← hname]; rfl) hne
    · rw [hlinked.linked other otherIndex hat]
      refine ⟨fun hmem => ⟨hmem, fun heq => hat ?_⟩, And.left⟩
      exact hlinked.eq_of_id hplain hfiles hconfigured hmem (heq.trans hid)
  configured := fun other hother => hlinked.configured other (List.mem_of_mem_filter hother)
  distinct := (List.filter_sublist.map _).nodup hlinked.distinct
  named := hlinked.named

/-! ## One attempt -/

/-- An attempt, alone.  Wherever it may end, the database is in step. -/
def timely (configurations : Set (List IndexFile)) : Alone signature SyncError Database where
  answers := Regime.timely.Answers
  allowed op database := MayEnd database op → InStep configurations database
  raises _ database := InStep configurations database
  inv _ := True

theorem has_iff : (database.indexes.any fun entry =>
    entry.1 = collection ∧ entry.2.name = name) = true ↔ database.Has collection name := by
  simp only [List.any_eq_true, decide_eq_true_eq, Prod.exists, Database.Has]
  constructor
  · rintro ⟨other, index, hmem, rfl, hname⟩
    exact ⟨index, hmem, hname⟩
  · rintro ⟨index, hmem, hname⟩
    exact ⟨collection, index, hmem, rfl, hname⟩

/-- A call that reads. -/
theorem runs_read {op : Op} {value : op.Answer}
    (hcarry : carryOut database op = (.ok value, database))
    (hlinked : InStep configurations database) :
    (timely configurations).Runs (await op)
      (fun answer later => answer = value ∧ later = database) database := by
  refine Alone.Runs.perform (fun _ => hlinked) ?_
  rintro answer later ⟨choice, _, hrespond⟩
  cases choice with
  | done =>
      obtain ⟨rfl, rfl⟩ := Prod.mk.inj (hcarry.symm.trans hrespond)
      exact ⟨trivial, rfl, rfl⟩
  | refused =>
      obtain ⟨rfl, rfl⟩ := Prod.mk.inj hrespond
      exact ⟨trivial, hlinked⟩
  | lost arrived =>
      obtain ⟨rfl, rfl⟩ := Prod.mk.inj hrespond
      rw [hcarry, ite_self]
      exact ⟨trivial, hlinked⟩

/-- The index has been dropped, if it was there, and nothing else has changed. -/
structure Dropped (configurations : Set (List IndexFile)) (collection name : String)
    (database later : Database) : Prop where
  linked : Linked configurations (At collection name) later
  gone : ¬ later.Has collection name
  records : later.records = database.records
  others : ∀ entry ∈ database.indexes, ¬ At collection name entry.1 entry.2.name →
    entry ∈ later.indexes

theorem dropped_of_gone (hlinked : InStep configurations database)
    (hgone : ¬ database.Has collection name) :
    Dropped configurations collection name database database :=
  ⟨hlinked.wider fun _ _ => False.elim, hgone, rfl, fun _ hentry _ => hentry⟩

theorem dropped_of_has (hlinked : InStep configurations database) (collection name : String) :
    Dropped configurations collection name database { database with
      indexes := database.indexes.filter fun entry =>
        ¬ (entry.1 = collection ∧ entry.2.name = name) } where
  linked := hlinked.drop collection name
  gone := by
    rintro ⟨index, hmem, hname⟩
    exact of_decide_eq_true (List.mem_filter.mp hmem).2 ⟨rfl, hname⟩
  records := rfl
  others := fun _ hentry hnot => List.mem_filter.mpr ⟨hentry, decide_eq_true hnot⟩

/-- What dropping an index raises: a failure that leaves the indexes as they were and that
`drop_index_if_exists` catches, or the loss of the connection, which ends the attempt. -/
def DropRaises (configurations : Set (List IndexFile)) (database : Database)
    (error : SyncError) (later : Database) : Prop :=
  error = .operationFailure ∧ later = database ∨
    error = .connection ∧ InStep configurations later

theorem runs_dropIndex (hlinked : InStep configurations database) (collection name : String) :
    ({ timely configurations with raises := DropRaises configurations database } :
      Alone signature SyncError Database).Runs (await (.dropIndex collection name))
      (fun _ later => Dropped configurations collection name database later) database := by
  refine Alone.Runs.perform (fun _ => hlinked) ?_
  rintro answer later ⟨choice, hchoice, hrespond⟩
  by_cases hhas : database.Has collection name
  · have hcarry : carryOut database (.dropIndex collection name) = (.ok (), { database with
        indexes := database.indexes.filter fun entry =>
          ¬ (entry.1 = collection ∧ entry.2.name = name) }) := if_pos (has_iff.mpr hhas)
    cases choice with
    | done =>
        obtain ⟨rfl, rfl⟩ := Prod.mk.inj (hcarry.symm.trans hrespond)
        exact ⟨trivial, dropped_of_has hlinked collection name⟩
    | refused =>
        obtain ⟨rfl, rfl⟩ := Prod.mk.inj hrespond
        exact ⟨trivial, Or.inl ⟨rfl, rfl⟩⟩
    | lost arrived =>
        obtain ⟨rfl, rfl⟩ := Prod.mk.inj hrespond
        cases arrived with
        -- an attempt does not end at a drop that has been carried out
        | true => exact absurd hhas hchoice.2
        | false => exact ⟨trivial, Or.inr ⟨rfl, hlinked⟩⟩
  · -- there is no index to drop, so that nothing changes whatever happens to the call
    have hcarry : carryOut database (.dropIndex collection name) =
        (.error .operationFailure, database) := if_neg fun hany => hhas (has_iff.mp hany)
    cases choice with
    | done =>
        obtain ⟨rfl, rfl⟩ := Prod.mk.inj (hcarry.symm.trans hrespond)
        exact ⟨trivial, Or.inl ⟨rfl, rfl⟩⟩
    | refused =>
        obtain ⟨rfl, rfl⟩ := Prod.mk.inj hrespond
        exact ⟨trivial, Or.inl ⟨rfl, rfl⟩⟩
    | lost arrived =>
        obtain ⟨rfl, rfl⟩ := Prod.mk.inj hrespond
        rw [hcarry, ite_self]
        exact ⟨trivial, Or.inr ⟨rfl, hlinked⟩⟩

/-- After `_drop_index_if_exists` the index is gone, or the server has refused to drop it. -/
theorem runs_dropIndexIfExists (hlinked : InStep configurations database)
    (collection name : String) :
    (timely configurations).Runs (dropIndexIfExists collection name)
      (fun _ later => Dropped configurations collection name database later ∨
        later = database ∧ database.Has collection name) database := by
  unfold dropIndexIfExists
  refine Alone.Runs.tryCatch trivial
    ((runs_dropIndex hlinked collection name).mono trivial fun _ _ _ => Or.inl) ?_
  rintro error later _ (⟨rfl, rfl⟩ | ⟨rfl, hstep⟩)
  · -- the failure is caught: the index was not there, or it still is
    rw [if_pos rfl]
    by_cases hhas : later.Has collection name
    · exact Or.inr ⟨rfl, hhas⟩
    · exact Or.inl (dropped_of_gone hlinked hhas)
  · rw [if_neg (by decide)]
    exact hstep

/-- An index is created under a name that is free, or the attempt ends in step: the index
has no record then. -/
theorem runs_createIndex (hlinked : Linked configurations (At collection index.name) database)
    (hgone : ¬ database.Has collection index.name) :
    (timely configurations).Runs (await (.createIndex collection index))
      (fun _ later => later = { database with
        indexes := database.indexes ++ [(collection, index)] }) database := by
  -- the index has been dropped, and must have no record where the attempt ends
  have hstep : MayEnd database (.createIndex collection index) →
      InStep configurations database := fun hend =>
    hlinked.inStep hgone fun hrecorded => hgone (hend hrecorded)
  refine Alone.Runs.perform hstep ?_
  rintro answer later ⟨choice, hchoice, hrespond⟩
  cases choice with
  | done =>
      have hnew : (collection, index) ∉ database.indexes := fun hmem => hgone ⟨index, hmem, rfl⟩
      by_cases hconflict : (database.indexes.any fun entry =>
          entry.1 = collection ∧ Conflicts entry.2 index) = true
      · have hcarry : carryOut database (.createIndex collection index) =
            (.error .operationFailure, database) := by
          rw [carryOut, if_neg hnew, if_pos hconflict]
        obtain ⟨rfl, rfl⟩ := Prod.mk.inj (hcarry.symm.trans hrespond)
        exact ⟨trivial, hstep (hchoice.2 ⟨_, congrArg Prod.fst hcarry⟩)⟩
      · have hcarry : carryOut database (.createIndex collection index) = (.ok (), { database with
            indexes := database.indexes ++ [(collection, index)] }) := by
          rw [carryOut, if_neg hnew, if_neg hconflict]
        obtain ⟨rfl, rfl⟩ := Prod.mk.inj (hcarry.symm.trans hrespond)
        exact ⟨trivial, rfl⟩
  | refused =>
      obtain ⟨rfl, rfl⟩ := Prod.mk.inj hrespond
      exact ⟨trivial, hstep hchoice⟩
  | lost arrived =>
      obtain ⟨rfl, rfl⟩ := Prod.mk.inj hrespond
      cases arrived with
      | true => exact hchoice.2.elim
      | false => exact ⟨trivial, hstep hchoice⟩

/-- While another index of the name is there, none is created. -/
theorem runs_createIndex_there (hlinked : InStep configurations database)
    (hhas : database.Has collection index.name) (hnew : (collection, index) ∉ database.indexes) :
    (timely configurations).Runs (await (.createIndex collection index)) (fun _ _ => False)
      database := by
  have hcarry : carryOut database (.createIndex collection index) =
      (.error .operationFailure, database) := by
    obtain ⟨other, hother, hname⟩ := hhas
    rw [carryOut, if_neg hnew, if_pos]
    exact List.any_eq_true.mpr ⟨_, hother, decide_eq_true ⟨rfl, Or.inl hname⟩⟩
  refine Alone.Runs.perform (fun _ => hlinked) ?_
  rintro answer later ⟨choice, _, hrespond⟩
  cases choice with
  | done =>
      obtain ⟨rfl, rfl⟩ := Prod.mk.inj (hcarry.symm.trans hrespond)
      exact ⟨trivial, hlinked⟩
  | refused =>
      obtain ⟨rfl, rfl⟩ := Prod.mk.inj hrespond
      exact ⟨trivial, hlinked⟩
  | lost arrived =>
      obtain ⟨rfl, rfl⟩ := Prod.mk.inj hrespond
      rw [hcarry, ite_self]
      exact ⟨trivial, hlinked⟩

/-- An index that has been created is recorded. -/
theorem runs_replaceRecord
    (hlater : InStep configurations { database with
      records := (database.records.filter fun other =>
        other.id ≠ recordId collection index.name) ++ [.of collection index] }) :
    (timely configurations).Runs (await (.replaceRecord (.of collection index)))
      (fun _ later => InStep configurations later ∧ later.indexes = database.indexes) database := by
  refine Alone.Runs.perform False.elim ?_
  rintro answer later ⟨choice, hchoice, hrespond⟩
  cases choice with
  | done =>
      obtain ⟨rfl, rfl⟩ := Prod.mk.inj hrespond
      exact ⟨trivial, hlater, rfl⟩
  | refused => exact hchoice.elim
  | lost arrived =>
      obtain ⟨rfl, rfl⟩ := Prod.mk.inj hrespond
      cases arrived with
      | true => exact ⟨trivial, hlater⟩
      | false => exact hchoice.elim

/-- The index is there, and the others that were there still are. -/
structure Synced (configurations : Set (List IndexFile)) (collection : String) (index : Index)
    (database later : Database) : Prop where
  inStep : InStep configurations later
  there : (collection, index) ∈ later.indexes
  others : ∀ entry ∈ database.indexes, ¬ At collection index.name entry.1 entry.2.name →
    entry ∈ later.indexes

/-- **One index of the configuration.** -/
theorem runs_syncIndex (hplain : Unambiguous configurations) {files : List IndexFile}
    (hfiles : files ∈ configurations) (hindex : Configured files collection index)
    (hlinked : InStep configurations database) :
    (timely configurations).Runs (syncIndex collection index)
      (fun _ later => Synced configurations collection index database later) database := by
  have hfind : (timely configurations).Runs (await (.findRecord (recordId collection index.name)))
      (fun answer later => answer = database.records.find? (fun record =>
        record.id = recordId collection index.name) ∧ later = database) database :=
    runs_read rfl hlinked
  unfold syncIndex
  refine hfind.bind trivial ?_
  rintro _ _ _ ⟨rfl, rfl⟩
  split
  · rename_i hrecorded
    -- its record says that the index is there
    obtain ⟨record, hfound, rfl⟩ := Option.map_eq_some_iff.mp hrecorded
    have hrecord := List.mem_of_find?_eq_some hfound
    have hid : record.id = recordId collection record.index.name := by
      simpa using List.find?_some hfound
    obtain ⟨rfl, _⟩ := hlinked.eq_of_id hplain hfiles hindex hrecord hid
    have hof := (hlinked.configured record hrecord).1
    exact ⟨hlinked, (hlinked.linked _ _ id).mpr (hof ▸ hrecord), fun _ hentry _ => hentry⟩
  · rename_i hunrecorded
    refine (runs_dropIndexIfExists hlinked collection index.name).bind trivial ?_
    rintro _ dropped _ (hdropped | ⟨rfl, hhas⟩)
    · refine (runs_createIndex hdropped.linked hdropped.gone).bind trivial ?_
      rintro _ created _ rfl
      have hthere : (collection, index) ∈ dropped.indexes ++ [(collection, index)] := by simp
      have hcreated := hdropped.linked.create hdropped.gone
      refine (runs_replaceRecord (hcreated.record hplain hfiles hindex hthere)).mono trivial ?_
      rintro _ later _ ⟨hlater, hindexes⟩
      refine ⟨hlater, hindexes ▸ hthere, fun entry hentry hnot => ?_⟩
      rw [hindexes]
      exact List.mem_append_left _ (hdropped.others entry hentry hnot)
    · -- the drop has been refused with the index there, so that creating it fails
      refine (runs_createIndex_there hlinked hhas fun hmem => hunrecorded ?_).bind trivial
        fun _ _ _ hfalse => hfalse.elim
      have hrecord := (hlinked.linked collection index id).mp hmem
      exact congrArg _ (hlinked.find?_of_mem hrecord)

/-! ## The whole configuration -/

/-- The indexes of `wanted` are there, and those of the configuration that were there still
are. -/
structure Keeps (configurations : Set (List IndexFile)) (files : List IndexFile)
    (wanted : List (String × Index)) (database later : Database) : Prop where
  inStep : InStep configurations later
  there : ∀ entry ∈ wanted, entry ∈ later.indexes
  kept : ∀ entry ∈ database.indexes, Configured files entry.1 entry.2 → entry ∈ later.indexes

variable {files : List IndexFile}

theorem Keeps.refl (hlinked : InStep configurations database) :
    Keeps configurations files [] database database :=
  ⟨hlinked, by simp, fun _ hentry _ => hentry⟩

theorem Keeps.trans {first second : List (String × Index)} {middle later : Database}
    (hfirst : Keeps configurations files first database middle)
    (hsecond : Keeps configurations files second middle later)
    (hconfigured : ∀ entry ∈ first, Configured files entry.1 entry.2) :
    Keeps configurations files (first ++ second) database later where
  inStep := hsecond.inStep
  there := by
    intro entry hentry
    rcases List.mem_append.mp hentry with hentry | hentry
    · exact hsecond.kept entry (hfirst.there entry hentry) (hconfigured entry hentry)
    · exact hsecond.there entry hentry
  kept := fun entry hentry hwanted =>
    hsecond.kept entry (hfirst.kept entry hentry hwanted) hwanted

/-- The names of a configuration tell its indexes apart. -/
theorem Synced.keeps (hplain : Unambiguous configurations) (hfiles : files ∈ configurations)
    (hindex : Configured files collection index) {later : Database}
    (hsynced : Synced configurations collection index database later) :
    Keeps configurations files [(collection, index)] database later where
  inStep := hsynced.inStep
  there := by
    intro entry hentry
    rw [List.mem_singleton.mp hentry]
    exact hsynced.there
  kept := by
    rintro ⟨other, otherIndex⟩ hentry hwanted
    by_cases hat : At collection index.name other otherIndex.name
    · obtain ⟨rfl, hname⟩ := hat
      rw [hplain.specs files hfiles other otherIndex index hwanted hindex hname]
      exact hsynced.there
    · exact hsynced.others _ hentry hat

theorem runs_syncCollection (hplain : Unambiguous configurations) (hfiles : files ∈ configurations)
    {indexes : List Index} (hindexes : ∀ index ∈ indexes, Configured files collection index)
    (hlinked : InStep configurations database) :
    (timely configurations).Runs (syncCollection collection indexes)
      (fun _ later => Keeps configurations files (indexes.map (collection, ·)) database later)
      database := by
  induction indexes generalizing database with
  | nil => exact .refl hlinked
  | cons index indexes ih =>
      obtain ⟨hindex, hrest⟩ := List.forall_mem_cons.mp hindexes
      refine (runs_syncIndex hplain hfiles hindex hlinked).bind trivial ?_
      intro _ middle _ hmiddle
      refine (ih hrest hmiddle.inStep).mono trivial fun _ later _ hlater => ?_
      refine (hmiddle.keeps hplain hfiles hindex).trans hlater fun entry hentry => ?_
      rw [List.mem_singleton.mp hentry]
      exact hindex

/-- The indexes of the configuration, with their collections. -/
def wantedIndexes (desired : List (String × List Index)) : List (String × Index) :=
  desired.flatMap fun (collection, indexes) => indexes.map (collection, ·)

theorem mem_wantedIndexes {desired : Dict String (List Index)}
    (hload : loadIndexConfigs files .empty = .ok desired) (entry : String × Index) :
    entry ∈ wantedIndexes desired.entries ↔ Configured files entry.1 entry.2 := by
  obtain ⟨collection, index⟩ := entry
  rw [← mem_entries_of_load hload]
  simp [wantedIndexes]

theorem runs_syncCollections (hplain : Unambiguous configurations)
    (hfiles : files ∈ configurations) {desired : List (String × List Index)}
    (hdesired : ∀ entry ∈ wantedIndexes desired, Configured files entry.1 entry.2)
    (hlinked : InStep configurations database) :
    (timely configurations).Runs (syncCollections desired)
      (fun _ later => Keeps configurations files (wantedIndexes desired) database later)
      database := by
  induction desired generalizing database with
  | nil => exact .refl hlinked
  | cons entry desired ih =>
      obtain ⟨collection, indexes⟩ := entry
      rw [wantedIndexes, List.flatMap_cons] at hdesired
      obtain ⟨hindexes, hrest⟩ := List.forall_mem_append.mp hdesired
      have hconfigured : ∀ index ∈ indexes, Configured files collection index :=
        fun index hindex => hindexes (collection, index) (List.mem_map_of_mem hindex)
      refine (runs_syncCollection hplain hfiles hconfigured hlinked).bind trivial ?_
      intro _ middle _ hmiddle
      refine (ih hrest hmiddle.inStep).mono trivial fun _ later _ hlater => ?_
      exact hmiddle.trans hlater hindexes

/-! ## Indexes that are no longer configured -/

/-- The record of an index that has been dropped is deleted, or the attempt ends with it
deleted. -/
theorem runs_deleteRecord (hplain : Unambiguous configurations) {record : IndexRecord}
    (hrecord : record ∈ database.records)
    (hlinked : Linked configurations (At record.collection record.index.name) database)
    (hgone : ¬ database.Has record.collection record.index.name) :
    (timely configurations).Runs (await (.deleteRecord record.id))
      (fun _ later => later = { database with
        records := database.records.filter fun other => other.id ≠ record.id }) database := by
  have hnot : ¬ MayEnd database (.deleteRecord record.id) := fun hend =>
    hgone (hend record hrecord rfl)
  refine Alone.Runs.perform (fun hend => absurd hend hnot) ?_
  rintro answer later ⟨choice, hchoice, hrespond⟩
  cases choice with
  | done =>
      obtain ⟨rfl, rfl⟩ := Prod.mk.inj hrespond
      exact ⟨trivial, rfl⟩
  | refused => exact absurd hchoice hnot
  | lost arrived =>
      obtain ⟨rfl, rfl⟩ := Prod.mk.inj hrespond
      cases arrived with
      | true => exact ⟨trivial, hlinked.forget hplain hrecord hgone⟩
      | false => exact absurd hchoice hnot

/-- The record of an index that is still there is not deleted. -/
theorem runs_deleteRecord_there {record : IndexRecord} (hrecord : record ∈ database.records)
    (hlinked : InStep configurations database)
    (hhas : database.Has record.collection record.index.name) :
    (timely configurations).Runs (await (.deleteRecord record.id)) (fun _ _ => False)
      database := by
  have hnot : ¬ MayCarryOut database (.deleteRecord record.id) := fun hcarry =>
    hcarry record hrecord rfl hhas
  refine Alone.Runs.perform (fun _ => hlinked) ?_
  rintro answer later ⟨choice, hchoice, hrespond⟩
  cases choice with
  | done => exact absurd hchoice.1 hnot
  | refused =>
      obtain ⟨rfl, rfl⟩ := Prod.mk.inj hrespond
      exact ⟨trivial, hlinked⟩
  | lost arrived =>
      obtain ⟨rfl, rfl⟩ := Prod.mk.inj hrespond
      cases arrived with
      | true => exact absurd hchoice.1 hnot
      | false => exact ⟨trivial, hlinked⟩

/-- Only indexes with the ids are left, and those of them that were there still are. -/
structure Pruned (configurations : Set (List IndexFile)) (ids : List String)
    (database later : Database) : Prop where
  inStep : InStep configurations later
  records : ∀ record ∈ later.records, record.id ∈ ids
  kept : ∀ entry ∈ database.indexes, recordId entry.1 entry.2.name ∈ ids →
    entry ∈ later.indexes

/-- **The indexes of the records that are not wanted are dropped.** -/
theorem runs_dropUnmanaged (hplain : Unambiguous configurations) {ids : List String}
    {records : List IndexRecord} (hdistinct : (records.map IndexRecord.id).Nodup)
    (hthere : ∀ record ∈ records, record ∈ database.records)
    (hleft : ∀ record ∈ database.records, record.id ∉ ids → record ∈ records)
    (hlinked : InStep configurations database) :
    (timely configurations).Runs (dropUnmanaged ids records)
      (fun _ later => Pruned configurations ids database later) database := by
  induction records generalizing database with
  | nil =>
      refine ⟨hlinked, fun record hrecord => ?_, fun _ hentry _ => hentry⟩
      by_contra hid
      cases hleft record hrecord hid
  | cons record records ih =>
      obtain ⟨hrecord, hrest⟩ := List.forall_mem_cons.mp hthere
      rw [List.map_cons, List.nodup_cons] at hdistinct
      obtain ⟨hnew, hdistinct⟩ := hdistinct
      rw [dropUnmanaged]
      split
      · rename_i hid
        refine (runs_dropIndexIfExists hlinked record.collection record.index.name).bind trivial ?_
        rintro _ dropped _ (hdropped | ⟨rfl, hhas⟩)
        · -- the record goes after its index, and the induction goes on without both
          have hrecordDropped : record ∈ dropped.records := hdropped.records ▸ hrecord
          refine (runs_deleteRecord hplain hrecordDropped hdropped.linked hdropped.gone).bind
            trivial ?_
          rintro _ _ _ rfl
          have hforgot := hdropped.linked.forget hplain hrecordDropped hdropped.gone
          refine (ih hdistinct (fun other hother => ?_) (fun other hother hotherId => ?_)
            hforgot).mono trivial fun _ later _ hlater => ?_
          · refine List.mem_filter.mpr ⟨hdropped.records ▸ hrest other hother, ?_⟩
            exact decide_eq_true fun heq => hnew (heq ▸ List.mem_map_of_mem hother)
          · obtain ⟨hother, hne⟩ := List.mem_filter.mp hother
            have hcons := hleft other (hdropped.records ▸ hother) hotherId
            rcases List.mem_cons.mp hcons with rfl | hother
            · exact absurd rfl (of_decide_eq_true hne)
            · exact hother
          · refine ⟨hlater.inStep, hlater.records, fun entry hentry hentryId => ?_⟩
            refine hlater.kept entry (hdropped.others entry hentry fun hat => hid ?_) hentryId
            rw [(hlinked.configured record hrecord).1]
            show recordId record.collection record.index.name ∈ ids
            rw [← hat.1, ← hat.2]
            exact hentryId
        · -- the index is still there: the record is not deleted in time
          exact (runs_deleteRecord_there hrecord hlinked hhas).bind trivial
            fun _ _ _ hfalse => hfalse.elim
      · rename_i hid
        refine ih hdistinct hrest (fun other hother hotherId => ?_) hlinked
        rcases List.mem_cons.mp (hleft other hother hotherId) with rfl | hother
        · exact absurd hotherId hid
        · exact hother

/-- The indexes are those of the configuration. -/
def HoldsExactly (files : List IndexFile) (database : Database) : Prop :=
  ∀ collection index, (collection, index) ∈ database.indexes ↔ Configured files collection index

/-- **A completed attempt** leaves the indexes of its configuration. -/
theorem runs_syncIndexes (hplain : Unambiguous configurations) (hfiles : files ∈ configurations)
    (hlinked : InStep configurations database) :
    (timely configurations).Runs (syncIndexes files)
      (fun _ later => InStep configurations later ∧ HoldsExactly files later) database := by
  rw [syncIndexes]
  cases hload : loadIndexConfigs files .empty with
  | error error => exact hlinked
  | ok desired =>
      rw [Program.ofExcept_ok, Program.ret_bind]
      have hwanted := mem_wantedIndexes hload
      have hids : ∀ id, id ∈ desiredIds desired ↔ ∃ entry ∈ wantedIndexes desired.entries,
          recordId entry.1 entry.2.name = id := by
        intro id
        simp only [desiredIds, wantedIndexes, List.mem_flatMap, List.mem_map]
        constructor
        · rintro ⟨⟨collection, indexes⟩, hentry, index, hindex, rfl⟩
          exact ⟨_, ⟨⟨collection, indexes⟩, hentry, index, hindex, rfl⟩, rfl⟩
        · rintro ⟨_, ⟨⟨collection, indexes⟩, hentry, index, hindex, rfl⟩, rfl⟩
          exact ⟨⟨collection, indexes⟩, hentry, index, hindex, rfl⟩
      refine (runs_syncCollections hplain hfiles (fun entry hentry => (hwanted entry).mp hentry)
        hlinked).bind trivial ?_
      intro _ synced _ hsynced
      have hfind : (timely configurations).Runs (await .findRecords)
          (fun answer later => answer = synced.records ∧ later = synced) synced :=
        runs_read rfl hsynced.inStep
      refine hfind.bind trivial ?_
      rintro _ _ _ ⟨rfl, rfl⟩
      refine (runs_dropUnmanaged hplain hsynced.inStep.distinct (fun _ => id)
        (fun _ hrecord _ => hrecord) hsynced.inStep).mono trivial ?_
      intro _ later _ hlater
      refine ⟨hlater.inStep, fun collection index => ⟨fun hmem => ?_, fun hconfigured => ?_⟩⟩
      · -- its record has the id of a wanted index, which is this one
        have hrecord := (hlater.inStep.linked collection index id).mp hmem
        obtain ⟨⟨other, otherIndex⟩, hother, hid⟩ := (hids _).mp (hlater.records _ hrecord)
        have hotherConfigured := (hwanted _).mp hother
        obtain ⟨rfl, hname⟩ :=
          hlater.inStep.eq_of_id hplain hfiles hotherConfigured hrecord hid.symm
        have hthere := hlater.kept _ (hsynced.there _ hother) ((hids _).mpr ⟨_, hother, rfl⟩)
        rw [hlater.inStep.named _ _ _ hmem hthere hname]
        exact hotherConfigured
      · have hmem := (hwanted (collection, index)).mpr hconfigured
        exact hlater.kept _ (hsynced.there _ hmem) ((hids _).mpr ⟨_, hmem, rfl⟩)

/-! ## Attempt after attempt -/

theorem inStep_attempted (hplain : Unambiguous configurations) {later : Database}
    (hattempts : Attempted .timely configurations database later)
    (hlinked : InStep configurations database) : InStep configurations later := by
  induction hattempts with
  | refl => exact hlinked
  | tail _ hattempt ih =>
      obtain ⟨files, hfiles, rest, hstops, hkill⟩ := hattempt
      obtain ⟨_, hrest⟩ := (runs_syncIndexes hplain hfiles ih).stops trivial hstops
      cases rest with
      | ret value => exact hrest.1
      | raise error => exact hrest
      | call op next => exact hrest.1 (hkill op next rfl)

/-- **Attempts converge.**  From empty collections, after any attempts with any of the
configurations that stop in step, an attempt that completes leaves the indexes of its
configuration, with their keys and options, and no others. -/
theorem indexes_of_completed (hplain : Unambiguous configurations) {before after : Database}
    (hattempts : Attempted .timely configurations ⟨[], []⟩ before)
    (hfiles : files ∈ configurations)
    (hcompletes : Alone.Stops Regime.timely.Answers (syncIndexes files) before (.ret ()) after) :
    HoldsExactly files after := by
  have hlinked := inStep_attempted hplain hattempts inStep_empty
  exact ((runs_syncIndexes hplain hfiles hlinked).stops trivial hcompletes).2.2

end InStep

/-! ## A rollback -/

/-- One index, which is made unique or not. -/
def widgets (unique : Option Bool) : List IndexFile :=
  [{ path := "widgets.json", collection := "widgets",
     indexes := [{ name? := some "owner_id", keys? := some [("owner_id", 1)],
                   options := { unique } }] }]

def ownerId (unique : Option Bool) : Index := ⟨"owner_id", [("owner_id", 1)], { unique }⟩

theorem configured_widgets {unique : Option Bool} {collection : String} {index : Index} :
    Configured (widgets unique) collection index ↔
      collection = "widgets" ∧ index = ownerId unique := by
  obtain ⟨name, keys, options⟩ := index
  simp [Configured, widgets, ownerId, eq_comm]

/-- The data has two documents of one owner: the server creates no unique index. -/
def duplicateOwners (op : Op) (database : Database) : Except SyncError op.Answer × Database :=
  respond op (match op with
    | .createIndex _ index => if index.options.unique = some true then .refused else .done
    | _ => .done) database

/-- The first attempt has completed. -/
def firstSynced : Database :=
  ((syncIndexes (widgets none)).eval duplicateOwners ⟨[], []⟩).2

/-- The second attempt has dropped the index and failed to create a unique one. -/
def uniqueRefused : Database :=
  ((syncIndexes (widgets (some true))).evalFor duplicateOwners 3 firstSynced).2

/-- **Going back** to the first configuration completes, but the index is not there: its
record was never changed. -/
theorem rollback_misses_index :
    Attempted .free { widgets none, widgets (some true) } ⟨[], []⟩ uniqueRefused ∧
    ∃ after, Alone.Stops Regime.free.Answers (syncIndexes (widgets none)) uniqueRefused
        (.ret ()) after ∧
      Configured (widgets none) "widgets" (ownerId none) ∧ after.indexes = [] := by
  have hanswers : ∀ op database, Regime.free.Answers op database
      (duplicateOwners op database).1 (duplicateOwners op database).2 :=
    fun op database => ⟨_, trivial, rfl⟩
  have hcompletes : ((syncIndexes (widgets none)).eval duplicateOwners ⟨[], []⟩).1 = .ok () := rfl
  have hrollback : ((syncIndexes (widgets none)).eval duplicateOwners uniqueRefused).1 =
      .ok () := rfl
  have hfirst : Attempted .free { widgets none, widgets (some true) } ⟨[], []⟩ firstSynced :=
    .single ⟨widgets none, Or.inl rfl, _, Alone.Stops.eval hanswers hcompletes,
      fun _ _ _ => trivial⟩
  refine ⟨hfirst.tail ?_, _, Alone.Stops.eval hanswers hrollback,
    configured_widgets.mpr ⟨rfl, rfl⟩, rfl⟩
  exact ⟨widgets (some true), Or.inr rfl, _, Alone.Stops.evalFor hanswers 3 _ _,
    fun _ _ _ => trivial⟩

/-- A unique index that was never there is refused, and then the plain one is installed. -/
theorem indexes_of_completed_widgets : HoldsExactly (widgets none)
    ⟨[("widgets", ownerId none)], [.of "widgets" (ownerId none)]⟩ := by
  have hplain : Unambiguous { widgets none, widgets (some true) } := by
    have hwidgets : ∀ files ∈ ({ widgets none, widgets (some true) } : Set (List IndexFile)),
        ∃ unique, files = widgets unique := by
      rintro files (rfl | rfl)
      · exact ⟨none, rfl⟩
      · exact ⟨some true, rfl⟩
    constructor
    · intro files hfiles others hothers collection index other otherIndex hindex hother _
      obtain ⟨unique, rfl⟩ := hwidgets files hfiles
      obtain ⟨otherUnique, rfl⟩ := hwidgets others hothers
      obtain ⟨rfl, rfl⟩ := configured_widgets.mp hindex
      obtain ⟨rfl, rfl⟩ := configured_widgets.mp hother
      exact ⟨rfl, rfl⟩
    · intro files hfiles collection index other hindex hother _
      obtain ⟨unique, rfl⟩ := hwidgets files hfiles
      rw [(configured_widgets.mp hindex).2, (configured_widgets.mp hother).2]
  have hrefused : Attempted .timely { widgets none, widgets (some true) } ⟨[], []⟩ ⟨[], []⟩ := by
    refine .single ⟨widgets (some true), Or.inr rfl, .raise .operationFailure, ?_, nofun⟩
    refine .call ⟨.done, ⟨trivial, fun _ => trivial⟩, rfl⟩ ?_
    refine .call ⟨.done, ⟨trivial, fun _ => trivial⟩, rfl⟩ ?_
    refine .call ⟨.refused, ?_, rfl⟩ (.here _ _)
    rintro ⟨record, hrecord, _⟩
    cases hrecord
  have hcompletes : Alone.Stops Regime.timely.Answers (syncIndexes (widgets none)) ⟨[], []⟩
      (.ret ()) ⟨[("widgets", ownerId none)], [.of "widgets" (ownerId none)]⟩ := by
    refine .call ⟨.done, ⟨trivial, fun _ => trivial⟩, rfl⟩ ?_
    refine .call ⟨.done, ⟨trivial, fun _ => trivial⟩, rfl⟩ ?_
    refine .call ⟨.done, ⟨trivial, ?_⟩, rfl⟩ ?_
    · rintro ⟨error, herror⟩
      cases herror
    refine .call ⟨.done, ⟨trivial, ?_⟩, rfl⟩ ?_
    · rintro ⟨error, herror⟩
      cases herror
    exact .call ⟨.done, ⟨trivial, fun _ => trivial⟩, rfl⟩ (.here _ _)
  exact indexes_of_completed hplain hrefused (Or.inl rfl) hcompletes

end EveBuild.IndexSync
