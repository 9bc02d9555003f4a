import EveBuild.Startup.IndexAttempts
import EveBuild.Startup.Stages
import Mathlib.Data.List.Induction

/-!
# Index synchronisation and the indexes that are there

One call of `sync_indexes` that nothing disturbs, on whatever indexes and records there
are.  MongoDB does not create an index when the collection has one with the same keys and
options under another name, and `sync_indexes` drops indexes by their configured names
only.  So the call raises when it creates an index anew whose keys another index has; the
index that migration 0010 creates without a name is one for the shipped configuration
(`shipped_conflicts_after_migrations`).

Which indexes the call creates anew follows from the records and the configuration
(`Stale`).  `Accommodates` is the condition on what is there before the call under which
all these can be created, and it is exact (`syncs_iff`).
-/

namespace EveBuild.IndexSync

open Effect

/-- A call of `sync_indexes` that nothing disturbs. -/
def syncOn (files : List IndexFile) (database : Database) : Except SyncError Unit × Database :=
  (syncIndexes files).eval (fun op database => carryOut database op) database

/-- The indexes of a collection have different names. -/
def Database.Named (database : Database) : Prop :=
  ∀ collection index other, (collection, index) ∈ database.indexes →
    (collection, other) ∈ database.indexes → index.name = other.name → index = other

/-- What is there before the call can be anything that MongoDB and `sync_indexes` leave:
indexes that are told apart by their names, and records each of which belongs to its index. -/
structure WellFormed (database : Database) : Prop where
  named : database.Named
  identified : ∀ record ∈ database.records, record = .of record.collection record.index

/-! ## What the call creates anew -/

/-- The index that `_index_config` records under the id. -/
def Database.recordOf (database : Database) (id : String) : Option Index :=
  (database.records.find? fun record => record.id = id).map IndexRecord.index

/-- The index that is recorded under the id once some indexes have been gone through: the
last of them that has the id, or the one that was recorded before. -/
def recordedAfter (database : Database) (before : List (String × Index)) (id : String) :
    Option Index :=
  match before.reverse.find? fun entry => recordId entry.1 entry.2.name = id with
  | some entry => some entry.2
  | none => database.recordOf id

/-- An index is created anew, after those before it, unless it is recorded as it is. -/
def Stale (database : Database) (before : List (String × Index)) (entry : String × Index) :
    Prop :=
  recordedAfter database before (recordId entry.1 entry.2.name) ≠ some entry.2

/-- One of the indexes of a list that are created anew. -/
def Anew (database : Database) (entries : List (String × Index)) (entry : String × Index) :
    Prop :=
  ∃ before after, entries = before ++ entry :: after ∧ Stale database before entry

/-- No index keeps the entry from being created anew: one that was there with its keys and
options has its name, or was replaced under its own name before. -/
def Free (database : Database) (before : List (String × Index)) (entry : String × Index) :
    Prop :=
  Stale database before entry →
    ∀ index, (entry.1, index) ∈ database.indexes → index.keys = entry.2.keys →
      index.options = entry.2.options → index.name = entry.2.name ∨
        ∃ other, Anew database before (entry.1, other) ∧ other.name = index.name

/-- Each entry of the rest is free when its turn comes. -/
def AllFree (database : Database) (before rest : List (String × Index)) : Prop :=
  ∀ earlier entry later, rest = earlier ++ entry :: later →
    Free database (before ++ earlier) entry

/-- **When the configuration can be installed.**  Its indexes have different names, each of
them is created anew or is there, and none of those that are created anew meets an index
with its keys and options under another name. -/
structure Accommodates (database : Database) (wanted : List (String × Index)) : Prop where
  names : ∀ collection index other, (collection, index) ∈ wanted → (collection, other) ∈ wanted →
    index.name = other.name → index = other
  there : ∀ entry ∈ wanted, Anew database wanted entry ∨ entry ∈ database.indexes
  free : AllFree database [] wanted

theorem recordedAfter_append (database : Database) (before : List (String × Index))
    (collection : String) (index : Index) :
    recordedAfter database (before ++ [(collection, index)]) =
      Function.update (recordedAfter database before) (recordId collection index.name)
        (some index) := by
  funext id
  by_cases hid : id = recordId collection index.name
  · subst hid
    simp [recordedAfter]
  · simp [recordedAfter, Function.update_of_ne hid, Ne.symm hid]

theorem anew_append {database : Database} {before : List (String × Index)}
    {last entry : String × Index} :
    Anew database (before ++ [last]) entry ↔
      Anew database before entry ∨ entry = last ∧ Stale database before last := by
  constructor
  · rintro ⟨earlier, later, heq, hstale⟩
    rcases List.eq_nil_or_concat later with rfl | ⟨later, other, rfl⟩
    · obtain ⟨rfl, hlast⟩ := List.append_inj' heq rfl
      obtain rfl := List.singleton_inj.mp hlast
      exact Or.inr ⟨rfl, hstale⟩
    · rw [List.concat_eq_append, ← List.cons_append, ← List.append_assoc] at heq
      exact Or.inl ⟨earlier, later, (List.append_inj' heq rfl).1, hstale⟩
  · rintro (⟨earlier, later, rfl, hstale⟩ | ⟨rfl, hstale⟩)
    · exact ⟨earlier, later ++ [last], by simp, hstale⟩
    · exact ⟨before, [], rfl, hstale⟩

theorem Anew.mem {database : Database} {entries : List (String × Index)}
    {entry : String × Index} (hanew : Anew database entries entry) : entry ∈ entries := by
  obtain ⟨before, after, rfl, _⟩ := hanew
  simp

theorem allFree_nil (database : Database) (before : List (String × Index)) :
    AllFree database before [] := by
  intro earlier entry later heq
  simp at heq

theorem allFree_cons {database : Database} {before rest : List (String × Index)}
    {entry : String × Index} :
    AllFree database before (entry :: rest) ↔
      Free database before entry ∧ AllFree database (before ++ [entry]) rest := by
  constructor
  · intro hall
    refine ⟨by simpa using hall [] entry rest rfl, fun earlier other later heq => ?_⟩
    simpa using hall (entry :: earlier) other later (heq ▸ rfl)
  · rintro ⟨hfree, hall⟩ earlier other later heq
    cases earlier with
    | nil =>
        obtain ⟨rfl, rfl⟩ := List.cons.inj heq
        rwa [List.append_nil]
    | cons first earlier =>
        obtain ⟨rfl, hrest⟩ := List.cons.inj heq
        simpa using hall earlier other later hrest

theorem allFree_append {database : Database} {before first second : List (String × Index)} :
    AllFree database before (first ++ second) ↔
      AllFree database before first ∧ AllFree database (before ++ first) second := by
  induction first generalizing before with
  | nil => simp [allFree_nil]
  | cons entry first ih =>
      rw [List.cons_append, allFree_cons, allFree_cons, ih, and_assoc, List.append_assoc,
        List.singleton_append]

/-! ## The call -/

/-- A call that nothing disturbs can raise only under the condition. -/
def carrying (conflict : Prop) : Alone signature SyncError Database where
  answers op database answer later := carryOut database op = (answer, later)
  allowed _ _ := True
  raises _ _ := conflict
  inv _ := True

section Carrying

variable {conflict : Prop} {database current : Database} {collection name : String}
  {index : Index}

theorem carries {op : Op} {value : op.Answer} {later : Database}
    (hcarry : carryOut database op = (.ok value, later)) :
    (carrying conflict).Runs (await op)
      (fun answer final => answer = value ∧ final = later) database := by
  refine Alone.Runs.perform trivial ?_
  intro answer final hanswer
  obtain ⟨rfl, rfl⟩ := Prod.mk.inj (hcarry.symm.trans hanswer)
  exact ⟨trivial, rfl, rfl⟩

/-- The database without the index of a name. -/
def Database.without (database : Database) (collection name : String) : Database :=
  { database with indexes := database.indexes.filter fun entry =>
    ¬ (entry.1 = collection ∧ entry.2.name = name) }

theorem mem_without {entry : String × Index} :
    entry ∈ (database.without collection name).indexes ↔
      entry ∈ database.indexes ∧ ¬ At collection name entry.1 entry.2.name := by
  rw [Database.without, List.mem_filter, decide_eq_true_eq, At]

theorem carries_dropIndexIfExists (database : Database) (collection name : String) :
    (carrying conflict).Runs (dropIndexIfExists collection name)
      (fun _ later => later = database.without collection name) database := by
  unfold dropIndexIfExists
  by_cases hhas : database.Has collection name
  · have hcarry : carryOut database (.dropIndex collection name) =
        (.ok (), database.without collection name) := if_pos (has_iff.mpr hhas)
    refine Alone.Runs.tryCatch trivial ?_ fun _ _ _ (hfalse : False) => hfalse.elim
    refine Alone.Runs.perform trivial fun answer final hanswer => ?_
    obtain ⟨rfl, rfl⟩ := Prod.mk.inj (hcarry.symm.trans hanswer)
    exact ⟨trivial, rfl⟩
  · have hcarry : carryOut database (.dropIndex collection name) =
        (.error .operationFailure, database) := if_neg fun hany => hhas (has_iff.mp hany)
    -- the error is ignored, and there was no such index
    have hsame : database.without collection name = database := by
      unfold Database.without
      rw [List.filter_eq_self.mpr]
      rintro ⟨other, index⟩ hmem
      refine decide_eq_true ?_
      rintro ⟨rfl, hname⟩
      exact hhas ⟨index, hmem, hname⟩
    refine Alone.Runs.tryCatch trivial
      (Alone.Runs.perform trivial fun answer final hanswer => ?_)
      fun error later _ (hcaught : error = .operationFailure ∧ later = database) => ?_
    · obtain ⟨rfl, rfl⟩ := Prod.mk.inj (hcarry.symm.trans hanswer)
      exact ⟨trivial, rfl, rfl⟩
    · obtain ⟨rfl, rfl⟩ := hcaught
      exact hsame.symm

theorem recordOf_replace (current : Database) (collection : String) (index : Index) :
    Database.recordOf { current with
      records := (current.records.filter fun other =>
        other.id ≠ recordId collection index.name) ++ [.of collection index] } =
      Function.update current.recordOf (recordId collection index.name) (some index) := by
  funext id
  simp only [Database.recordOf, List.find?_append, List.find?_filter]
  by_cases hid : id = recordId collection index.name
  · subst hid
    rw [Function.update_self, List.find?_eq_none.mpr (by simp), Option.none_or,
      List.find?_singleton, if_pos (by simp [IndexRecord.of])]
    rfl
  · rw [Function.update_of_ne hid, List.find?_singleton,
      if_neg (by simp [IndexRecord.of, Ne.symm hid]), Option.or_none]
    congr 2
    funext other
    by_cases hother : other.id = id
    · simp [hother, hid]
    · simp [hother]

/-- What the call has made of the database once it has gone through a list. -/
structure SyncedTo (database : Database) (before : List (String × Index)) (current : Database) :
    Prop where
  identified : ∀ record ∈ current.records, record = .of record.collection record.index
  recorded : current.recordOf = recordedAfter database before
  indexes : ∀ collection index, (collection, index) ∈ current.indexes ↔
    Anew database before (collection, index) ∨ (collection, index) ∈ database.indexes ∧
      ∀ other, Anew database before (collection, other) → other.name ≠ index.name

theorem SyncedTo.refl (hformed : WellFormed database) : SyncedTo database [] database :=
  ⟨hformed.identified, rfl, by simp [Anew]⟩

/-- An index that is recorded as it is stays as it is. -/
theorem SyncedTo.skip {before : List (String × Index)} (hsynced : SyncedTo database before current)
    (hrecorded : ¬ Stale database before (collection, index)) :
    SyncedTo database (before ++ [(collection, index)]) current where
  identified := hsynced.identified
  recorded := by
    rw [hsynced.recorded, recordedAfter_append, ← not_ne_iff.mp hrecorded,
      Function.update_eq_self]
  indexes := by
    intro other otherIndex
    have hanew : ∀ entry, Anew database (before ++ [(collection, index)]) entry ↔
        Anew database before entry := by
      intro entry
      rw [anew_append, or_iff_left fun hnew => hrecorded hnew.2]
    simp only [hanew, hsynced.indexes]

/-- An index that is created anew takes the place of the one of its name. -/
theorem SyncedTo.create {before : List (String × Index)}
    (hsynced : SyncedTo database before current)
    (hnames : ∀ other, (collection, other) ∈ before → other.name = index.name → other = index)
    (hstale : Stale database before (collection, index)) :
    SyncedTo database (before ++ [(collection, index)]) {
      indexes := (current.without collection index.name).indexes ++ [(collection, index)]
      records := (current.records.filter fun other =>
        other.id ≠ recordId collection index.name) ++ [.of collection index] } where
  identified := by
    intro record hrecord
    rcases List.mem_append.mp hrecord with hold | hnew
    · exact hsynced.identified record (List.mem_of_mem_filter hold)
    · obtain rfl := List.mem_singleton.mp hnew
      rfl
  recorded := by
    rw [recordedAfter_append, ← hsynced.recorded]
    exact recordOf_replace current collection index
  indexes := by
    intro other otherIndex
    simp only [List.mem_append, List.mem_singleton, mem_without, hsynced.indexes, anew_append,
      hstale, and_true, Prod.mk.injEq]
    constructor
    · -- an index of another name is kept, and the one of the name is new
      rintro (⟨hanew | ⟨hthere, hkept⟩, hnot⟩ | heq)
      · exact Or.inl (Or.inl hanew)
      · refine Or.inr ⟨hthere, fun new hnew => ?_⟩
        rcases hnew with hnew | ⟨rfl, rfl⟩
        · exact hkept new hnew
        · exact fun hname => hnot ⟨rfl, hname.symm⟩
      · exact Or.inl (Or.inr heq)
    · rintro ((hanew | heq) | ⟨hthere, hkept⟩)
      · by_cases hat : At collection index.name other otherIndex.name
        · obtain ⟨rfl, hname⟩ := hat
          exact Or.inr ⟨rfl, hnames otherIndex hanew.mem hname⟩
        · exact Or.inl ⟨Or.inl hanew, hat⟩
      · exact Or.inr heq
      · refine Or.inl ⟨Or.inr ⟨hthere, fun new hnew => hkept new (Or.inl hnew)⟩, ?_⟩
        rintro ⟨rfl, hname⟩
        exact hkept index (Or.inr ⟨rfl, rfl⟩) hname.symm

/-- An index that is created anew meets one with its keys and options exactly if it is not
free. -/
theorem SyncedTo.conflicts_iff {before : List (String × Index)}
    (hsynced : SyncedTo database before current)
    (hkeys : ∀ other, (collection, other) ∈ before → other.keys = index.keys → other = index)
    (hstale : Stale database before (collection, index)) :
    ((current.without collection index.name).indexes.any fun entry =>
      entry.1 = collection ∧ Conflicts entry.2 index) = true ↔
      ¬ Free database before (collection, index) := by
  simp only [List.any_eq_true, decide_eq_true_eq, Prod.exists]
  constructor
  · rintro ⟨_, other, hmem, rfl, hname | ⟨hsameKeys, hoptions⟩⟩ hfree
    · exact (mem_without.mp hmem).2 ⟨rfl, hname⟩
    obtain ⟨hcurrent, hnot⟩ := mem_without.mp hmem
    rcases (hsynced.indexes _ other).mp hcurrent with hanew | ⟨hthere, hkept⟩
    · -- the configuration has these keys once, so that it is the index itself
      exact hnot ⟨rfl, congrArg Index.name (hkeys other hanew.mem hsameKeys)⟩
    · rcases hfree hstale other hthere hsameKeys hoptions with hname | ⟨new, hanew, hname⟩
      · exact hnot ⟨rfl, hname⟩
      · exact hkept new hanew hname
  · intro hfree
    unfold Free at hfree
    push Not at hfree
    obtain ⟨_, other, hthere, hsameKeys, hoptions, hname, hkept⟩ := hfree
    refine ⟨collection, other, mem_without.mpr ⟨?_, fun hat => hname hat.2⟩, rfl,
      Or.inr ⟨hsameKeys, hoptions⟩⟩
    exact (hsynced.indexes _ other).mpr (Or.inr ⟨hthere, hkept⟩)

/-- **One index of the configuration** is brought in line exactly if it is free. -/
theorem carries_syncIndex {before : List (String × Index)}
    (hsynced : SyncedTo database before current)
    (hnames : ∀ other, (collection, other) ∈ before → other.name = index.name → other = index)
    (hkeys : ∀ other, (collection, other) ∈ before → other.keys = index.keys → other = index)
    (hconflict : ¬ Free database before (collection, index) → conflict) :
    (carrying conflict).Runs (syncIndex collection index)
      (fun _ later => SyncedTo database (before ++ [(collection, index)]) later ∧
        Free database before (collection, index)) current := by
  have hfind : (carrying conflict).Runs (await (.findRecord (recordId collection index.name)))
      (fun answer later => answer = current.records.find? (fun record =>
        record.id = recordId collection index.name) ∧ later = current) current := carries rfl
  unfold syncIndex
  refine hfind.bind trivial ?_
  rintro _ current _ ⟨rfl, rfl⟩
  have hrecord : current.recordOf (recordId collection index.name) =
      recordedAfter database before (recordId collection index.name) := by rw [hsynced.recorded]
  split
  · rename_i hrecorded
    -- the index is recorded as it is configured
    have hskip : ¬ Stale database before (collection, index) :=
      not_ne_iff.mpr (hrecord.symm.trans hrecorded)
    exact ⟨hsynced.skip hskip, fun hstale => absurd hstale hskip⟩
  · rename_i hunrecorded
    have hstale : Stale database before (collection, index) :=
      fun hrecorded => hunrecorded (hrecord.trans hrecorded)
    refine (carries_dropIndexIfExists current collection index.name).bind trivial ?_
    rintro _ _ _ rfl
    -- the name has just become free
    have hnew : (collection, index) ∉ (current.without collection index.name).indexes :=
      fun hmem => (mem_without.mp hmem).2 ⟨rfl, rfl⟩
    have hconflicts := hsynced.conflicts_iff hkeys hstale
    by_cases hfree : Free database before (collection, index)
    · have hcreate : carryOut (current.without collection index.name)
          (.createIndex collection index) = (.ok (), { current.without collection index.name with
            indexes := (current.without collection index.name).indexes ++
              [(collection, index)] }) := by
        rw [carryOut, if_neg hnew, if_neg fun hany => hconflicts.mp hany hfree]
      refine (carries hcreate).bind trivial ?_
      rintro _ _ _ ⟨_, rfl⟩
      refine (carries rfl).mono trivial ?_
      rintro _ _ _ ⟨_, rfl⟩
      exact ⟨hsynced.create hnames hstale, hfree⟩
    · -- `create_index` raises, so that nothing comes after it
      have hcreate : carryOut (current.without collection index.name)
          (.createIndex collection index) =
            (.error .operationFailure, current.without collection index.name) := by
        rw [carryOut, if_neg hnew, if_pos (hconflicts.mpr hfree)]
      have hraise : (carrying conflict).Runs (await (.createIndex collection index))
          (fun _ _ => False) (current.without collection index.name) := by
        refine Alone.Runs.perform trivial fun answer final hanswer => ?_
        obtain ⟨rfl, rfl⟩ := Prod.mk.inj (hcreate.symm.trans hanswer)
        exact ⟨trivial, hconflict hfree⟩
      exact hraise.bind trivial fun _ _ _ hfalse => hfalse.elim

/-! ## The whole configuration -/

theorem carries_syncCollection {wanted before : List (String × Index)} {indexes : List Index}
    (hnames : ∀ collection index other, (collection, index) ∈ wanted →
      (collection, other) ∈ wanted → index.name = other.name → index = other)
    (hkeys : ∀ collection index other, (collection, index) ∈ wanted →
      (collection, other) ∈ wanted → index.keys = other.keys → index = other)
    (hbefore : ∀ entry ∈ before, entry ∈ wanted)
    (hindexes : ∀ entry ∈ indexes.map (collection, ·), entry ∈ wanted)
    (hsynced : SyncedTo database before current)
    (hconflict : ¬ AllFree database before (indexes.map (collection, ·)) → conflict) :
    (carrying conflict).Runs (syncCollection collection indexes)
      (fun _ later => SyncedTo database (before ++ indexes.map (collection, ·)) later ∧
        AllFree database before (indexes.map (collection, ·))) current := by
  induction indexes generalizing before current with
  | nil =>
      rw [List.map_nil, List.append_nil]
      exact ⟨hsynced, allFree_nil database before⟩
  | cons index indexes ih =>
      rw [List.map_cons] at hindexes hconflict ⊢
      rw [allFree_cons] at hconflict ⊢
      obtain ⟨hindex, hrest⟩ := List.forall_mem_cons.mp hindexes
      refine (carries_syncIndex hsynced
        (fun other hother => hnames _ other index (hbefore _ hother) hindex)
        (fun other hother => hkeys _ other index (hbefore _ hother) hindex)
        fun hnot => hconflict fun hall => hnot hall.1).bind trivial ?_
      rintro _ middle _ ⟨hmiddle, hfree⟩
      -- the index goes over to those before it
      have hextended : ∀ entry ∈ before ++ [(collection, index)], entry ∈ wanted :=
        List.forall_mem_append.mpr ⟨hbefore, List.forall_mem_singleton.mpr hindex⟩
      refine (ih hextended hrest hmiddle fun hnot => hconflict fun hall => hnot hall.2).mono
        trivial ?_
      rintro _ later _ ⟨hlater, hall⟩
      rw [List.append_assoc, List.singleton_append] at hlater
      exact ⟨hlater, hfree, hall⟩

/-- **The indexes of the configuration** are brought in line exactly if all are free. -/
theorem carries_syncCollections {wanted before : List (String × Index)}
    {desired : List (String × List Index)}
    (hnames : ∀ collection index other, (collection, index) ∈ wanted →
      (collection, other) ∈ wanted → index.name = other.name → index = other)
    (hkeys : ∀ collection index other, (collection, index) ∈ wanted →
      (collection, other) ∈ wanted → index.keys = other.keys → index = other)
    (hbefore : ∀ entry ∈ before, entry ∈ wanted)
    (hdesired : ∀ entry ∈ wantedIndexes desired, entry ∈ wanted)
    (hsynced : SyncedTo database before current)
    (hconflict : ¬ AllFree database before (wantedIndexes desired) → conflict) :
    (carrying conflict).Runs (syncCollections desired)
      (fun _ later => SyncedTo database (before ++ wantedIndexes desired) later ∧
        AllFree database before (wantedIndexes desired)) current := by
  induction desired generalizing before current with
  | nil =>
      rw [wantedIndexes, List.flatMap_nil, List.append_nil]
      exact ⟨hsynced, allFree_nil database before⟩
  | cons entry desired ih =>
      obtain ⟨collection, indexes⟩ := entry
      have hcons : wantedIndexes ((collection, indexes) :: desired) =
          indexes.map (collection, ·) ++ wantedIndexes desired := List.flatMap_cons
      rw [hcons] at hdesired hconflict ⊢
      rw [allFree_append] at hconflict ⊢
      obtain ⟨hindexes, hrest⟩ := List.forall_mem_append.mp hdesired
      refine (carries_syncCollection hnames hkeys hbefore hindexes hsynced
        fun hnot => hconflict fun hall => hnot hall.1).bind trivial ?_
      rintro _ middle _ ⟨hmiddle, hfirst⟩
      refine (ih (List.forall_mem_append.mpr ⟨hbefore, hindexes⟩) hrest hmiddle
        fun hnot => hconflict fun hall => hnot hall.2).mono trivial ?_
      rintro _ later _ ⟨hlater, hall⟩
      rw [List.append_assoc] at hlater
      exact ⟨hlater, hfirst, hall⟩

/-- Only indexes whose ids are not wanted have been dropped. -/
structure Cleared (ids : List String) (current later : Database) : Prop where
  left : ∀ entry ∈ later.indexes, entry ∈ current.indexes
  kept : ∀ entry ∈ current.indexes, recordId entry.1 entry.2.name ∈ ids → entry ∈ later.indexes

theorem carries_dropUnmanaged {ids : List String} {records : List IndexRecord}
    (hidentified : ∀ record ∈ records, record = .of record.collection record.index) :
    (carrying conflict).Runs (dropUnmanaged ids records)
      (fun _ later => Cleared ids current later) current := by
  induction records generalizing current with
  | nil => exact ⟨fun _ => id, fun _ hentry _ => hentry⟩
  | cons record records ih =>
      obtain ⟨hrecord, hrest⟩ := List.forall_mem_cons.mp hidentified
      rw [dropUnmanaged]
      split
      · rename_i hid
        refine (carries_dropIndexIfExists current record.collection record.index.name).bind
          trivial ?_
        rintro _ _ _ rfl
        refine (carries rfl).bind trivial ?_
        rintro _ _ _ ⟨_, rfl⟩
        refine (ih hrest).mono trivial fun _ later _ hlater => ⟨fun entry hentry => ?_, ?_⟩
        · exact (mem_without.mp (hlater.left entry hentry)).1
        · intro entry hentry hentryId
          refine hlater.kept entry (mem_without.mpr ⟨hentry, ?_⟩) hentryId
          rintro ⟨hcollection, hname⟩
          rw [hcollection, hname] at hentryId
          exact hid (hrecord ▸ hentryId)
      · exact ih hrest

variable {files : List IndexFile} {desired : Dict String (List Index)}

/-- The call alone: which of the configured indexes are there in the end. -/
theorem carries_syncIndexes (hformed : WellFormed database)
    (hload : loadIndexConfigs files .empty = .ok desired)
    (hnames : ∀ collection index other, (collection, index) ∈ wantedIndexes desired.entries →
      (collection, other) ∈ wantedIndexes desired.entries → index.name = other.name →
        index = other)
    (hkeys : ∀ collection index other, (collection, index) ∈ wantedIndexes desired.entries →
      (collection, other) ∈ wantedIndexes desired.entries → index.keys = other.keys →
        index = other) :
    (carrying (¬ AllFree database [] (wantedIndexes desired.entries))).Runs (syncIndexes files)
      (fun _ later => AllFree database [] (wantedIndexes desired.entries) ∧
        ∀ entry ∈ wantedIndexes desired.entries, entry ∈ later.indexes ↔
          Anew database (wantedIndexes desired.entries) entry ∨ entry ∈ database.indexes)
      database := by
  rw [syncIndexes, hload, Program.ofExcept_ok, Program.ret_bind]
  refine (carries_syncCollections hnames hkeys (List.forall_mem_nil _) (fun _ => id)
    (.refl hformed) id).bind trivial ?_
  rintro _ synced _ ⟨hsynced, hall⟩
  rw [List.nil_append] at hsynced
  refine (carries rfl).bind trivial ?_
  rintro _ _ _ ⟨rfl, rfl⟩
  refine (carries_dropUnmanaged hsynced.identified).mono trivial fun _ later _ hlater => ?_
  refine ⟨hall, fun entry hentry => ?_⟩
  obtain ⟨collection, index⟩ := entry
  -- an index of the configuration is not dropped as unmanaged
  have hid : recordId collection index.name ∈ desiredIds desired := by
    obtain ⟨_, hmem, hentry⟩ := List.mem_flatMap.mp hentry
    obtain ⟨_, hindex, heq⟩ := List.mem_map.mp hentry
    obtain ⟨rfl, rfl⟩ := Prod.mk.inj heq
    exact List.mem_flatMap.mpr ⟨_, hmem, List.mem_map_of_mem hindex⟩
  constructor
  · intro hmem
    exact ((hsynced.indexes collection index).mp (hlater.left _ hmem)).imp_right And.left
  · intro hor
    refine hlater.kept _ ((hsynced.indexes collection index).mpr ?_) hid
    by_cases hanew : Anew database (wantedIndexes desired.entries) (collection, index)
    · exact Or.inl hanew
    · refine Or.inr ⟨hor.resolve_left hanew, fun other hother hname => hanew ?_⟩
      rwa [← hnames _ other index hother.mem hentry hname]

end Carrying

/-! ## When the call succeeds -/

/-- MongoDB keeps the names of a collection's indexes different. -/
theorem named_carryOut {database : Database} (hnamed : database.Named) (op : Op) :
    (carryOut database op).2.Named := by
  cases op with
  | dropIndex collection name =>
      rw [carryOut]
      split
      · intro other index another hmem hanother
        exact hnamed other index another (List.mem_of_mem_filter hmem)
          (List.mem_of_mem_filter hanother)
      · exact hnamed
  | createIndex collection index =>
      rw [carryOut]
      split_ifs with hthere hconflict
      · exact hnamed
      · exact hnamed
      · -- the new one has a name of its own
        have hfresh : ∀ other, (collection, other) ∈ database.indexes → other.name ≠ index.name :=
          fun other hother hname => hconflict (List.any_eq_true.mpr
            ⟨(collection, other), hother, decide_eq_true ⟨rfl, Or.inl hname⟩⟩)
        intro other first second hfirst hsecond hname
        simp only [List.mem_append, List.mem_singleton, Prod.mk.injEq] at hfirst hsecond
        rcases hfirst with hfirst | ⟨rfl, rfl⟩
        · rcases hsecond with hsecond | ⟨rfl, rfl⟩
          · exact hnamed other first second hfirst hsecond hname
          · exact absurd hname (hfresh first hfirst)
        · rcases hsecond with hsecond | ⟨_, rfl⟩
          · exact absurd hname.symm (hfresh second hsecond)
          · rfl
  | findRecord id => exact hnamed
  | replaceRecord record => exact hnamed
  | findRecords => exact hnamed
  | deleteRecord id => exact hnamed

theorem named_syncOn {files : List IndexFile} {database : Database} (hnamed : database.Named)
    (hok : (syncOn files database).1 = .ok ()) : (syncOn files database).2.Named := by
  have hstops : Alone.Stops (fun op database answer later => carryOut database op = (answer, later))
      (syncIndexes files) database (.ret ()) (syncOn files database).2 :=
    Alone.Stops.eval (fun _ _ => rfl) hok
  refine hstops.invariant Database.Named (fun op world answer later hanswer hworld => ?_) hnamed
  obtain rfl := congrArg Prod.snd hanswer
  exact named_carryOut hworld op

/-- **When index synchronisation succeeds.**  With a configuration that is accepted and does
not give two indexes the same keys, a call completes and leaves every configured index in
place exactly if what is there before accommodates the configuration. -/
theorem syncs_iff {files : List IndexFile} {desired : Dict String (List Index)}
    {database : Database} (hformed : WellFormed database)
    (hload : loadIndexConfigs files .empty = .ok desired)
    (hkeys : ∀ collection index other, Configured files collection index →
      Configured files collection other → index.keys = other.keys → index = other) :
    ((syncOn files database).1 = .ok () ∧ ∀ collection index, Configured files collection index →
      (collection, index) ∈ (syncOn files database).2.indexes) ↔
      Accommodates database (wantedIndexes desired.entries) := by
  have hwanted : ∀ entry, entry ∈ wantedIndexes desired.entries ↔
      Configured files entry.1 entry.2 := mem_wantedIndexes hload
  have hdistinct : ∀ collection index other, (collection, index) ∈ wantedIndexes desired.entries →
      (collection, other) ∈ wantedIndexes desired.entries → index.keys = other.keys →
        index = other := fun collection index other hindex hother =>
    hkeys collection index other ((hwanted _).mp hindex) ((hwanted _).mp hother)
  constructor
  · rintro ⟨hok, hthere⟩
    have hinstalled : ∀ entry ∈ wantedIndexes desired.entries,
        entry ∈ (syncOn files database).2.indexes := fun entry hentry =>
      hthere entry.1 entry.2 ((hwanted entry).mp hentry)
    have hnames : ∀ collection index other, (collection, index) ∈ wantedIndexes desired.entries →
        (collection, other) ∈ wantedIndexes desired.entries → index.name = other.name →
          index = other := fun collection index other hindex hother =>
      named_syncOn hformed.named hok collection index other (hinstalled _ hindex)
        (hinstalled _ hother)
    have hends : (carrying _).Ends _ (syncOn files database).1 (syncOn files database).2 :=
      (carries_syncIndexes hformed hload hnames hdistinct).eval fun _ _ => rfl
    rw [hok] at hends
    obtain ⟨hfree, hiff⟩ := hends
    exact ⟨hnames, fun entry hentry => (hiff entry hentry).mp (hinstalled entry hentry), hfree⟩
  · rintro ⟨hnames, hthere, hfree⟩
    have hends : (carrying _).Ends _ (syncOn files database).1 (syncOn files database).2 :=
      (carries_syncIndexes hformed hload hnames hdistinct).eval fun _ _ => rfl
    cases hresult : (syncOn files database).1 with
    | error error =>
        rw [hresult] at hends
        exact absurd hfree hends
    | ok value =>
        rw [hresult] at hends
        refine ⟨rfl, fun collection index hconfigured => ?_⟩
        have hentry := (hwanted (collection, index)).mpr hconfigured
        exact (hends.2 _ hentry).mpr (hthere _ hentry)

/-- One index has its name for itself. -/
theorem named_singleton (entry : String × Index) (records : List IndexRecord) :
    Database.Named ⟨[entry], records⟩ := by
  intro collection index other hindex hother _
  obtain rfl := List.mem_singleton.mp hindex
  exact (Prod.mk.inj (List.mem_singleton.mp hother)).2.symm

/-- An index that was created by hand is no obstacle to one with other keys. -/
theorem syncs_widgets :
    let byHand : Index := ⟨"created_at", [("created_at", 1)], {}⟩
    (syncOn (widgets none) ⟨[("widgets", byHand)], []⟩).1 = .ok () ∧
      ∀ collection index, Configured (widgets none) collection index →
        (collection, index) ∈ (syncOn (widgets none) ⟨[("widgets", byHand)], []⟩).2.indexes := by
  intro byHand
  have hformed : WellFormed ⟨[("widgets", byHand)], []⟩ := by
    constructor
    · exact named_singleton _ _
    · simp
  have hload : loadIndexConfigs (widgets none) .empty =
      .ok (Dict.empty.set "widgets" [ownerId none]) := rfl
  have hwanted : wantedIndexes (Dict.empty.set "widgets" [ownerId none]).entries =
      [("widgets", ownerId none)] := rfl
  have hsame : ∀ collection index other, Configured (widgets none) collection index →
      Configured (widgets none) collection other → index = other := by
    intro collection index other hindex hother
    rw [(configured_widgets.mp hindex).2, (configured_widgets.mp hother).2]
  refine (syncs_iff hformed hload fun _ _ _ hindex hother _ => hsame _ _ _ hindex hother).mpr ?_
  rw [hwanted]
  constructor
  · exact named_singleton _ []
  · intro entry hentry
    obtain rfl := List.mem_singleton.mp hentry
    exact Or.inl ⟨[], [], rfl, by simp [Stale, recordedAfter, Database.recordOf]⟩
  · refine allFree_cons.mpr ⟨fun _ index hindex hkeys _ => ?_, allFree_nil _ _⟩
    obtain ⟨_, rfl⟩ := Prod.mk.inj (List.mem_singleton.mp hindex)
    simp [byHand, ownerId] at hkeys

/-! ## After the migrations -/

open Migrations (discoverMigrations runMigrations migrationIds MigrationError)

/-- The name of an index that is created without one. -/
def defaultName (keys : List (String × ℤ)) : String :=
  "_".intercalate (keys.map fun (field, direction) => field ++ "_" ++ toString direction)

/-- The names of the lookup collections. -/
def collectionName : Migrations.Collection → String
  | .sdeTypes => "sde_types"
  | .sdeBlueprints => "sde_blueprints"
  | .sdeCategories => "sde_categories"
  | .sdePlanetSchematics => "sde_planet_schematics"

/-- What a call of a migration does to the indexes. -/
def onIndexes : Migrations.Op → Database → Except SyncError Unit × Database
  | .createIndex collection keys, database =>
      carryOut database
        (.createIndex (collectionName collection) ⟨defaultName keys, keys, {}⟩)
  | .dropCollection dropped, database =>
      (.ok (), { database with indexes := database.indexes.filter fun entry => entry.1 ≠ dropped })
  | _, database => (.ok (), database)

/-- A call of a migration. -/
def carryOutMigration (op : Migrations.Op) (state : Migrations.World × Database) :
    Except MigrationError op.Answer × (Migrations.World × Database) :=
  match onIndexes op state.2 with
  | (.error _, database) => (.error .database, state.1, database)
  | (.ok _, database) =>
      ((Migrations.respond op .done state.1).1, (Migrations.respond op .done state.1).2, database)

/-- An installation that has applied all migrations but the last one, and that has no index
and no dump file, after `run_migrations`. -/
def migrated : Except MigrationError Unit × (Migrations.World × Database) :=
  (runMigrations ⟨fun _ => none, none, none, none, none⟩ .asSent).eval carryOutMigration
    (Migrations.World.empty.insertApplied (migrationIds.take 9), ⟨[], []⟩)

/-- In the shipped files, keys tell the indexes of a collection apart. -/
theorem keys_shipped {collection : String} {index other : Index}
    (hindex : Configured shippedFiles collection index)
    (hother : Configured shippedFiles collection other) (hkeys : index.keys = other.keys) :
    index = other := by
  obtain ⟨file, hfile, hcollection, spec, hspec, hname, hspecKeys, hoptions⟩ := hindex
  obtain ⟨file', hfile', hcollection', spec', hspec', hname', hspecKeys', hoptions'⟩ := hother
  have hall : ∀ file ∈ shippedFiles, ∀ file' ∈ shippedFiles, ∀ spec ∈ file.indexes,
      ∀ spec' ∈ file'.indexes, file.collection = file'.collection ∧ spec.keys? = spec'.keys? →
        spec.name? = spec'.name? ∧ spec.options = spec'.options := by
    decide
  obtain ⟨hnames, hsame⟩ := hall file hfile file' hfile' spec hspec spec' hspec'
    ⟨hcollection.trans hcollection'.symm, by rw [hspecKeys, hspecKeys', hkeys]⟩
  rw [hname, hname'] at hnames
  rw [hoptions, hoptions'] at hsame
  obtain ⟨name, keys, options⟩ := index
  obtain ⟨otherName, otherKeys, otherOptions⟩ := other
  obtain rfl := Option.some_inj.mp hnames
  obtain rfl := hkeys
  obtain rfl := hsame
  rfl

/-- **The shipped configuration** cannot be installed after the last migration: the index
of `sde_blueprints` that it has created has another name. -/
theorem shipped_conflicts_after_migrations :
    migrated.1 = .ok () ∧ WellFormed migrated.2.2 ∧
    (∃ desired, loadIndexConfigs shippedFiles .empty = .ok desired) ∧
    (∀ collection index other, Configured shippedFiles collection index →
      Configured shippedFiles collection other → index.keys = other.keys → index = other) ∧
    (syncOn shippedFiles migrated.2.2).1 = .error .operationFailure := by
  have hformed : WellFormed migrated.2.2 := by
    have hindexes : migrated.2.2 = ⟨[("sde_blueprints",
        ⟨"product_type_id_1", [("product_type_id", 1)], {}⟩)], []⟩ := rfl
    rw [hindexes]
    constructor
    · exact named_singleton _ _
    · simp
  refine ⟨rfl, hformed, ⟨_, rfl⟩, ?_, rfl⟩
  intro collection index other hindex hother hkeys
  exact keys_shipped hindex hother hkeys

end EveBuild.IndexSync
