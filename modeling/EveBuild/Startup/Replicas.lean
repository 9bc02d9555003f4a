import EveBuild.Startup.Resume

/-!
# Replicas that start at once

Nothing keeps two replicas from applying migrations at the same time, and a call of
`run_migrations` reads which ones have been recorded only once, at its start.  So a
replica can apply a migration that another one is applying, or has long recorded
(`overlapping_loses_volume`: it rebuilds `sde_types` without the fields that later
migrations have added, and these are not applied again).

`exclusive` is what a lock would do: a call begins a migration only if it has not been
recorded and no other replica is applying one.  Then the collections end up as in a single
uninterrupted run, whatever else happens (`exclusive_eq_uninterrupted`).  In which order the
updates of a batch arrive is another matter for each call.
-/

namespace EveBuild.Migrations

open Effect

/-! ## One at a time -/

/-- The migration that a call is applying, from its log: it has begun it, and has not tried
to record it. -/
def applyingId? : MigrationLog → Option String
  | [] => none
  | ⟨.info message id, _⟩ :: log => if message = applyingMessage then some id else applyingId? log
  | ⟨.insertApplied id, _⟩ :: log => if id ∈ migrationIds then none else applyingId? log
  | _ :: log => applyingId? log

/-- A replica is applying a migration.  One that has failed is over once its process has
exited. -/
def Applying (moment : MigrationMoment) (thread : ℕ) : Prop :=
  thread ∉ moment.crashed ∧ (applyingId? (moment.logOf thread)).isSome

/-- A migration is begun only if it has not been recorded and no other replica is applying
one. -/
def exclusive : Policy signature MigrationError World Arrivals Delivery Empty where
  start _ _ := True
  call thread op _ moment := ∀ id, op = .info applyingMessage id →
    id ∉ moment.world.applied ∧ ∀ other ≠ thread, ¬ Applying moment other
  crash _ _ := True
  tick _ _ := True

/-- The database is at some stage, and at most one replica is applying a migration. -/
structure Orderly (dumps : Dumps) (moment : MigrationMoment) : Prop where
  ready : ∃ n arrivals, Recorded n moment.world ∧ Stage dumps arrivals n moment.world
  one : ∀ first second, Applying moment first → Applying moment second → first = second
  crashed : ∀ thread ∈ moment.crashed, thread < moment.starts.length

/-- While a replica applies a migration, the database is left alone by the others. -/
structure LeftAlone (thread : ℕ) (moment later : MigrationMoment) : Prop where
  applying : Applying moment thread → Applying later thread ∧ later.world = moment.world
  crashed : thread ∉ moment.crashed → thread ∉ later.crashed
  applied : ∀ id ∈ moment.world.applied, id ∈ later.world.applied

def contract (dumps : Dumps) : Contract signature MigrationError World Arrivals where
  inv := Orderly dumps
  rely := LeftAlone
  rely_refl _ _ := ⟨fun happlying => ⟨happlying, rfl⟩, id, fun _ => id⟩
  rely_trans _ _ _ _ hfirst hsecond := by
    refine ⟨fun happlying => ?_, hsecond.crashed ∘ hfirst.crashed,
      fun id hid => hsecond.applied id (hfirst.applied id hid)⟩
    obtain ⟨hmiddle, hworld⟩ := hfirst.applying happlying
    obtain ⟨hlater, hsame⟩ := hsecond.applying hmiddle
    exact ⟨hlater, hsame.trans hworld⟩

section Replicas

variable {dumps : Dumps} {arrivals own : Arrivals} {moment later : MigrationMoment}
  {thread other index : ℕ}

/-! ## Calls -/

/-- What has been recorded stays so. -/
theorem applied_respond {op : Op} {delivery : Delivery} {world : World} {id : String}
    (hid : id ∈ world.applied) : id ∈ (respond op delivery world).2.applied := by
  cases op with
  | insertApplied id => exact mem_insertApplied.mpr (Or.inl hid)
  | findApplied ids => cases ids <;> exact hid
  | find table activityID => cases activityID <;> exact hid
  | _ => exact hid

theorem applyingId?_cons_ordinary {call : Call signature MigrationError} {log : MigrationLog}
    (hordinary : Ordinary call.op) : applyingId? (call :: log) = applyingId? log := by
  obtain ⟨op, answer⟩ := call
  cases op with
  | info message argument => exact if_neg hordinary
  | insertApplied id => exact if_neg hordinary
  | _ => rfl

theorem applying_answer_of_ne {call : Call signature MigrationError} {world : World}
    (hne : other ≠ thread) : Applying (moment.answer thread call world) other ↔
      Applying moment other := by
  rw [Applying, Applying, Moment.answer_logOf, if_neg (Ne.symm hne), Moment.answer_crashed]

theorem applying_answer_ordinary {call : Call signature MigrationError} {world : World}
    (hordinary : Ordinary call.op) :
    Applying (moment.answer thread call world) other ↔ Applying moment other := by
  rcases eq_or_ne other thread with rfl | hne
  · rw [Applying, Applying, Moment.answer_logOf_self, Moment.answer_crashed,
      applyingId?_cons_ordinary hordinary]
  · exact applying_answer_of_ne hne

/-- A call by the replica that is applying a migration. -/
theorem leftAlone_of_applying {op : Op} {answer : Except MigrationError op.Answer}
    {delivery : Delivery} {world : World} (horderly : Orderly dumps moment)
    (happlying : Applying moment thread)
    (hrespond : respond op delivery moment.world = (answer, world)) (hne : other ≠ thread) :
    LeftAlone other moment (moment.answer thread ⟨op, answer⟩ world) where
  applying hother := absurd (horderly.one other thread hother happlying) hne
  crashed := id
  applied id hid := by
    obtain ⟨_, rfl⟩ := Prod.mk.inj hrespond
    exact applied_respond hid

/-- A call that leaves the database as it is. -/
theorem leftAlone_of_read {call : Call signature MigrationError} (hne : other ≠ thread) :
    LeftAlone other moment (moment.answer thread call moment.world) where
  applying hother := ⟨(applying_answer_of_ne hne).mpr hother, rfl⟩
  crashed := id
  applied _ := id

theorem orderly_of_read {call : Call signature MigrationError} (hordinary : Ordinary call.op)
    (horderly : Orderly dumps moment) :
    Orderly dumps (moment.answer thread call moment.world) where
  ready := horderly.ready
  one first second hfirst hsecond := horderly.one first second
    ((applying_answer_ordinary hordinary).mp hfirst)
    ((applying_answer_ordinary hordinary).mp hsecond)
  crashed := horderly.crashed

/-- The database belongs to the replica that is applying a migration. -/
def database (dumps : Dumps) (thread : ℕ) : (contract dumps).Share thread World where
  held moment := Applying moment thread
  part moment := moment.world
  stable hlater _ hheld := hlater.rely.applying hheld

/-- **A migration is applied** as if nobody else were there. -/
theorem triple_apply {migration : Migration}
    (hmigration : (discoverMigrations dumps own)[index]? = some migration)
    (hown : index < 8 → own = arrivals) :
    (database dumps thread).Triple (migrating dumps) exclusive
      (fun world => Recorded index world ∧ Stage dumps arrivals index world) migration.apply
      fun outcome world => outcome = .ok () →
        Recorded index world ∧ Stage dumps arrivals (index + 1) world := by
  have hruns : ∀ world, Recorded index world ∧ Stage dumps arrivals index world →
      (applying dumps arrivals index true).Runs migration.apply
        (fun _ later => Recorded index later ∧ Stage dumps arrivals (index + 1) later) world :=
    fun world hworld => (runs_apply hmigration hown hworld).mono hworld
      fun _ _ hlater hnext => ⟨hlater.1, hnext⟩
  have htriple : (database dumps thread).Triple (migrating dumps) exclusive
      (fun world => Recorded index world ∧ Stage dumps arrivals index world) migration.apply
      ((applying dumps arrivals index true).Ends
        fun _ world => Recorded index world ∧ Stage dumps arrivals (index + 1) world) := by
    refine Alone.Runs.triple ?_ hruns
    -- a call of a migration leaves alone who applies what
    rintro moment op answer world horderly hheld hallowed ⟨delivery, _, hrespond⟩
    have hordinary : Ordinary op := hallowed
    obtain hrespond := Option.some_inj.mp hrespond
    refine ⟨⟨delivery, (fun hfalse => nomatch hfalse), hrespond⟩, fun hworld => ?_⟩
    refine ⟨⟨⟨index, arrivals, hworld⟩, fun first second hfirst hsecond => ?_, horderly.crashed⟩,
      fun other hne => leftAlone_of_applying horderly hheld hrespond hne, ?_⟩
    · exact horderly.one first second ((applying_answer_ordinary hordinary).mp hfirst)
        ((applying_answer_ordinary hordinary).mp hsecond)
    · exact (applying_answer_ordinary hordinary).mpr hheld
  refine htriple.consequence (fun _ => id) ?_
  rintro outcome world hpost rfl
  exact hpost

/-! ## The runner -/

/-- What a call knows between two migrations: which ones have been recorded. -/
structure Knows (thread : ℕ) (ids : List String) (moment : MigrationMoment) : Prop where
  running : thread ∉ moment.crashed
  applied : ∀ id ∈ ids, id ∈ moment.world.applied

theorem Knows.of_later {ids : List String} (hknows : Knows thread ids moment)
    (hlater : (contract dumps).Later thread moment later) : Knows thread ids later where
  running := hlater.rely.crashed hknows.running
  applied id hid := hlater.rely.applied id (hknows.applied id hid)

theorem Knows.of_read {ids : List String} {call : Call signature MigrationError}
    (hknows : Knows thread ids moment) :
    Knows thread ids (moment.answer thread call moment.world) :=
  ⟨hknows.running, hknows.applied⟩

/-- What is logged, and is no beginning of a migration. -/
theorem safe_info {message argument : String} {ids : List String}
    (hmessage : message ≠ applyingMessage) (hknows : Knows thread ids moment) :
    (contract dumps).Safe (migrating dumps) exclusive thread (info message argument)
      (fun _ final => Knows thread ids final) moment := by
  refine Contract.Safe.perform fun later hlater horderly answer world hanswers => ?_
  obtain ⟨delivery, _, hrespond⟩ := hanswers
  obtain ⟨rfl, rfl⟩ := Prod.mk.inj (Option.some_inj.mp hrespond)
  refine ⟨orderly_of_read hmessage horderly, fun other hne => leftAlone_of_read hne,
    fun final hfinal _ => ?_⟩
  exact (hknows.of_later hlater).of_read.of_later hfinal

/-- A call has begun a migration. -/
structure Begun (dumps : Dumps) (arrivals : Arrivals) (thread index : ℕ)
    (moment : MigrationMoment) : Prop where
  applying : Applying moment thread
  recorded : Recorded index moment.world
  stage : Stage dumps arrivals index moment.world

/-- Once all earlier migrations have been recorded, the next one is begun at its stage. -/
theorem safe_begin {migration : Migration} {ids : List String}
    (hmigration : (discoverMigrations dumps own)[index]? = some migration)
    (hids : migrationIds.take index ⊆ ids) (hknows : Knows thread ids moment) :
    (contract dumps).Safe (migrating dumps) exclusive thread
      (info applyingMessage migration.migrationId)
      (fun _ final => Knows thread ids final ∧ ∃ arrivals, (index < 8 → own = arrivals) ∧
        Begun dumps arrivals thread index final) moment := by
  obtain ⟨hindex, hid⟩ := getElem_migrationIds hmigration
  refine Contract.Safe.perform fun later hlater horderly answer world hanswers => ?_
  obtain ⟨delivery, hpolicy, hrespond⟩ := hanswers
  obtain ⟨rfl, rfl⟩ := Prod.mk.inj (Option.some_inj.mp hrespond)
  obtain ⟨hnew, hnobody⟩ := hpolicy _ rfl
  have hafter := hknows.of_later hlater
  obtain ⟨n, arrivals, hrecorded, hstage⟩ := horderly.ready
  -- the stage is that of the migration
  have hn : n = index := by
    refine le_antisymm (not_lt.mp fun hlt => hnew ?_) (not_lt.mp fun hlt => ?_)
    · exact hid ▸ (hrecorded index hindex).mpr hlt
    · have hmem : migrationIds[n] ∈ migrationIds.take index :=
        List.mem_take_iff_getElem.mpr ⟨n, by omega, rfl⟩
      exact lt_irrefl n ((hrecorded n (by omega)).mp (hafter.applied _ (hids hmem)))
  subst hn
  obtain ⟨settled, hown, hsettled⟩ := hstage.settled own
  have hbegun : Applying (later.answer thread ⟨.info applyingMessage migration.migrationId, .ok ()⟩
      later.world) thread := by
    refine ⟨hafter.running, ?_⟩
    rw [Moment.answer_logOf_self]
    rfl
  refine ⟨⟨⟨n, arrivals, hrecorded, hstage⟩, fun first second hfirst hsecond => ?_,
    horderly.crashed⟩,
    fun other hne => leftAlone_of_read hne, fun final hfinal _ => ?_⟩
  · have honly : ∀ other, Applying (later.answer thread
        ⟨.info applyingMessage migration.migrationId, .ok ()⟩ later.world) other →
        other = thread := by
      intro other hother
      by_contra hne
      exact hnobody other hne ((applying_answer_of_ne hne).mp hother)
    rw [honly first hfirst, honly second hsecond]
  · obtain ⟨hfinalApplying, hfinalWorld⟩ := hfinal.rely.applying hbegun
    exact ⟨hafter.of_read.of_later hfinal, settled, hown, hfinalApplying,
      hfinalWorld ▸ hrecorded, hfinalWorld ▸ hsettled⟩

/-- A migration that has been applied is recorded. -/
theorem safe_record {migration : Migration}
    (hmigration : (discoverMigrations dumps own)[index]? = some migration)
    {ids : List String} (hknows : Knows thread ids moment) (happlying : Applying moment thread)
    (hrecorded : Recorded index moment.world)
    (hstage : Stage dumps arrivals (index + 1) moment.world) :
    (contract dumps).Safe (migrating dumps) exclusive thread
      (await (.insertApplied migration.migrationId))
      (fun outcome final => outcome = .ok () →
        Knows thread (ids ++ [migration.migrationId]) final) moment := by
  obtain ⟨hindex, hid⟩ := getElem_migrationIds hmigration
  refine Contract.Safe.perform fun later hlater horderly answer world hanswers => ?_
  obtain ⟨delivery, _, hrespond⟩ := hanswers
  obtain hrespond := Option.some_inj.mp hrespond
  obtain ⟨hlaterApplying, hworld⟩ := hlater.rely.applying happlying
  have hready := ready_insertApplied delivery hmigration (hworld ▸ hrecorded) (hworld ▸ hstage)
  have hafter := hknows.of_later hlater
  refine ⟨⟨?_, fun first second hfirst hsecond => ?_, horderly.crashed⟩,
    fun other hne => leftAlone_of_applying horderly hlaterApplying hrespond hne,
    fun final hfinal _ hanswer => ?_⟩
  · obtain ⟨_, rfl⟩ := Prod.mk.inj hrespond
    exact hready
  · -- the replica is not applying the migration any more
    have hover : ∀ other, Applying (later.answer thread
        ⟨.insertApplied migration.migrationId, answer⟩ world) other → Applying later other := by
      intro other hother
      refine (applying_answer_of_ne ?_).mp hother
      rintro rfl
      have hsome := hother.2
      rw [Moment.answer_logOf_self, applyingId?, if_pos (hid ▸ List.getElem_mem hindex)] at hsome
      cases hsome
    exact horderly.one first second (hover first hfirst) (hover second hsecond)
  · obtain ⟨hinsert, rfl⟩ := Prod.mk.inj hrespond
    -- an insert that succeeds has arrived
    have hall : ∀ id ∈ ids ++ [migration.migrationId],
        id ∈ (later.world.insertApplied (delivery.parts [migration.migrationId])).applied := by
      intro id hmem
      refine mem_insertApplied.mpr
        ((List.mem_append.mp hmem).imp (hafter.applied id) fun hmem => ?_)
      cases delivery with
      | done => exact hmem
      | error carriedOut => cases hinsert.trans hanswer
    have hnext : Knows thread (ids ++ [migration.migrationId]) (later.answer thread
        ⟨.insertApplied migration.migrationId, answer⟩
        (later.world.insertApplied (delivery.parts [migration.migrationId]))) :=
      ⟨hafter.running, hall⟩
    exact hnext.of_later hfinal

/-- At the same stage the same migrations have been recorded. -/
theorem Recorded.mem_iff {first second : World} (hfirst : Recorded index first)
    (hsecond : Recorded index second) {id : String} (hid : id ∈ migrationIds) :
    id ∈ first.applied ↔ id ∈ second.applied := by
  obtain ⟨position, hposition, rfl⟩ := List.getElem_of_mem hid
  rw [hfirst position hposition, hsecond position hposition]

/-- One migration of a call of `run_migrations`. -/
theorem safe_runMigration {appliedIds ids : List String} {migration : Migration}
    (hmigration : (discoverMigrations dumps own)[index]? = some migration)
    (happlied : migration.migrationId ∈ appliedIds → migration.migrationId ∈ ids)
    (hids : migrationIds.take index ⊆ ids) (hsub : ids ⊆ migrationIds)
    (horderly : Orderly dumps moment) (hknows : Knows thread ids moment) :
    (contract dumps).Safe (migrating dumps) exclusive thread (runMigration appliedIds migration)
      (fun outcome final => outcome = .ok () →
        Knows thread (ids ++ [migration.migrationId]) final) moment := by
  unfold runMigration
  split
  · rename_i hskip
    -- the migration has been found recorded
    refine (safe_info (by decide) hknows).mono fun outcome final _ hfinal _ => ⟨hfinal.running, ?_⟩
    intro id hid
    rcases List.mem_append.mp hid with hid | hid
    · exact hfinal.applied id hid
    · exact hfinal.applied id (List.mem_singleton.mp hid ▸ happlied hskip)
  refine (safe_begin hmigration hids hknows).bind horderly ?_ fun _ _ _ _ herror => by cases herror
  rintro _ begun hbegunOrderly ⟨hbegunKnows, arrivals, hown, hbegun⟩
  refine (triple_apply hmigration hown begun hbegunOrderly hbegun.applying
    ⟨hbegun.recorded, hbegun.stage⟩).bind hbegunOrderly ?_ fun _ _ _ _ herror => by cases herror
  rintro _ applied happliedOrderly ⟨happlying, hdone⟩
  obtain ⟨hrecorded, hstage⟩ := hdone rfl
  -- applying has neither recorded a migration nor removed a record
  have happliedKnows : Knows thread ids applied := ⟨happlying.1, fun id hid =>
    (hbegun.recorded.mem_iff hrecorded (hsub hid)).mp (hbegunKnows.applied id hid)⟩
  refine (safe_record hmigration happliedKnows happlying hrecorded hstage).bind happliedOrderly ?_
    fun _ _ _ _ herror => by cases herror
  intro _ recorded _ hrecordedKnows
  exact (safe_info (by decide) (hrecordedKnows rfl)).mono fun _ _ _ hfinal _ => hfinal

/-- The migrations that are still to be gone through. -/
theorem safe_forEach {appliedIds : List String} {after : List Migration} (ids : List String)
    (before : List Migration) (hmigrations : discoverMigrations dumps own = before ++ after)
    (happlied : ∀ id ∈ appliedIds, id ∈ migrationIds → id ∈ ids)
    (hids : migrationIds.take before.length ⊆ ids) (hsub : ids ⊆ migrationIds)
    (horderly : Orderly dumps moment) (hknows : Knows thread ids moment) :
    (contract dumps).Safe (migrating dumps) exclusive thread
      (Program.forEach (runMigration appliedIds) after) (fun _ _ => True) moment := by
  induction after generalizing before ids moment with
  | nil => exact fun _ _ _ => trivial
  | cons migration after ih =>
      have hmigration : (discoverMigrations dumps own)[before.length]? = some migration := by
        simp [hmigrations]
      obtain ⟨hindex, hid⟩ := getElem_migrationIds hmigration
      have hmem : migration.migrationId ∈ migrationIds := hid ▸ List.getElem_mem hindex
      refine (safe_runMigration hmigration (fun hskip => happlied _ hskip hmem) hids hsub horderly
        hknows).bind horderly (fun _ later hlaterOrderly hlater => ?_) fun _ _ _ _ => trivial
      refine ih _ (before ++ [migration]) (by simp [hmigrations]) ?_ ?_ ?_ hlaterOrderly
        (hlater rfl)
      · exact fun id hskip hid => List.mem_append_left _ (happlied id hskip hid)
      · rw [List.length_append, List.length_singleton, List.take_succ_eq_append_getElem hindex, hid]
        exact List.append_subset.mpr ⟨List.subset_append_of_subset_left _ hids,
          List.subset_append_right _ _⟩
      · exact List.append_subset.mpr ⟨hsub, by simpa using hmem⟩

/-- **Every call** of `run_migrations` keeps the contract. -/
theorem safe_runMigrations (horderly : Orderly dumps moment) (hrunning : thread ∉ moment.crashed) :
    (contract dumps).Safe (migrating dumps) exclusive thread (runMigrations dumps own)
      (fun _ _ => True) moment := by
  -- what has been found recorded stays so
  have hfind : (contract dumps).Safe (migrating dumps) exclusive thread (await (.findApplied none))
      (fun outcome final => ∀ appliedIds, outcome = .ok appliedIds →
        Knows thread appliedIds final) moment := by
    refine Contract.Safe.perform fun later hlater horderly answer world hanswers => ?_
    obtain ⟨delivery, _, hrespond⟩ := hanswers
    obtain ⟨hanswer, rfl⟩ := Prod.mk.inj (Option.some_inj.mp hrespond)
    have hordinary : Ordinary (.findApplied none) := trivial
    refine ⟨orderly_of_read hordinary horderly, fun other hne => leftAlone_of_read hne,
      fun final hfinal _ appliedIds happlied => ?_⟩
    have hlaterKnows : Knows thread later.world.applied later :=
      ⟨hlater.rely.crashed hrunning, fun _ => id⟩
    cases delivery with
    | done =>
        obtain rfl := Except.ok.inj (hanswer.trans happlied)
        exact hlaterKnows.of_read.of_later hfinal
    | error carriedOut => cases hanswer.trans happlied
  refine hfind.bind horderly ?_ fun _ _ _ _ => trivial
  intro appliedIds later hlaterOrderly hlater
  have hknows := hlater appliedIds rfl
  refine safe_forEach (appliedIds.filter (· ∈ migrationIds)) [] rfl ?_
    (List.nil_subset _) ?_ hlaterOrderly ⟨hknows.running, fun id hid => ?_⟩
  · exact fun id hid hmem => List.mem_filter.mpr ⟨hid, by simpa using hmem⟩
  · exact fun id hid => by simpa using (List.mem_filter.mp hid).2
  · exact hknows.applied id (List.mem_filter.mp hid).1

/-! ## Runs -/

theorem kept : (contract dumps).Kept (migrating dumps) exclusive fun _ _ _ => True where
  start moment start world horderly hlog _ henter := by
    obtain rfl := Option.some_inj.mp henter
    refine ⟨⟨horderly.ready, horderly.one, fun thread hthread => ?_⟩,
      fun other _ => ⟨fun happlying => ⟨happlying, rfl⟩, id, fun _ => id⟩, ?_⟩
    · rw [Moment.enter_starts, List.length_append]
      exact Nat.lt_succ_of_lt (horderly.crashed thread hthread)
    · refine safe_runMigrations ⟨horderly.ready, horderly.one, fun thread hthread => ?_⟩ ?_
      · rw [Moment.enter_starts, List.length_append]
        exact Nat.lt_succ_of_lt (horderly.crashed thread hthread)
      · exact fun hcrashed => lt_irrefl _ (horderly.crashed _ hcrashed)
  crash moment thread horderly hthread _ := by
    have hbefore : ∀ other, Applying (moment.crash thread moment.world) other →
        Applying moment other :=
      fun other hother => ⟨fun hcrashed => hother.1 (List.mem_cons_of_mem _ hcrashed), hother.2⟩
    refine ⟨⟨horderly.ready, fun first second hfirst hsecond => ?_, fun other hother => ?_⟩,
      fun other hne => ⟨fun hother => ⟨⟨?_, hother.2⟩, rfl⟩, fun hother => ?_, fun _ => id⟩⟩
    · exact horderly.one first second (hbefore first hfirst) (hbefore second hsecond)
    · exact (List.mem_cons.mp hother).elim (fun heq => heq ▸ hthread) (horderly.crashed other)
    · exact fun hcrashed => (List.mem_cons.mp hcrashed).elim hne hother.1
    · exact fun hcrashed => (List.mem_cons.mp hcrashed).elim hne hother
  tick _ tick := nomatch tick

/-- **Replicas that take turns.**  In every run in which a migration is begun only if it has
not been recorded and no other replica is applying one, once all migrations have been
recorded, the collections are those of a single uninterrupted run. -/
theorem exclusive_eq_uninterrupted {config : MigrationConfig}
    (hreaches : (migrating dumps).Reaches exclusive (Config.initial _ _ _ _ .empty) config)
    (hrecorded : ∀ id ∈ migrationIds, id ∈ config.moment.world.applied) :
    AsUninterrupted dumps config.moment.world := by
  have horderly : Orderly dumps config.moment := by
    refine (kept.reaches (Contract.Good.initial ?_) hreaches).inv
    exact ⟨⟨0, .asSent, recorded_empty, stage_empty dumps .asSent⟩,
      fun first second hfirst => absurd hfirst.2
        (by simp [Config.initial, Moment.logOf, applyingId?]), fun thread hthread => by cases hthread⟩
  obtain ⟨n, arrivals, hn, hstage⟩ := horderly.ready
  have hlast : 9 < n := (hn 9 (by decide)).mp (hrecorded _ (List.getElem_mem _))
  exact (hstage.mono hlast).asUninterrupted

/-! ## Overlapping replicas -/

/-- One type, with a volume and a category. -/
def sampleDumps : Dumps where
  table
    | .invTypes => some [⟨34, "Tritanium", 18, 1, none, some (1 / 100)⟩]
    | .industryActivity => none
    | .industryActivityMaterials => none
    | .industryActivityProducts => none
  invGroups := some [⟨18, 4⟩]
  invCategories := some []
  planetSchematics := some []
  planetSchematicsTypeMap := some []

def calls (thread count : ℕ) : List MigrationEvent := List.replicate count (.call thread .done)

/-- The first replica records 0001; the second one begins 0002 and reads the raw tables; the
first one applies all other migrations; and the second one goes on. -/
def overlappingEvents : List MigrationEvent :=
  .start .asSent :: calls 0 10 ++ .start .asSent :: calls 1 7 ++ calls 0 47 ++ calls 1 4

/-- What a run leaves. -/
def sampleAfter (dumps : Dumps) (events : List MigrationEvent) : MigrationConfig :=
  ((migrating dumps).run (Config.initial _ _ _ _ .empty) events).getD (Config.initial _ _ _ _ .empty)

theorem run_sampleAfter {dumps : Dumps} {events : List MigrationEvent}
    (hsome : ((migrating dumps).run (Config.initial _ _ _ _ .empty) events).isSome) :
    (migrating dumps).run (Config.initial _ _ _ _ .empty) events =
      some (sampleAfter dumps events) := by
  obtain ⟨later, hlater⟩ := Option.isSome_iff_exists.mp hsome
  rw [sampleAfter, hlater, Option.getD_some]

/-- **A type has lost its volume.**  All migrations have been recorded and both calls are
over, but the second replica has rebuilt `sde_types` after the first one has added the
volumes and categories. -/
theorem overlapping_loses_volume :
    (migrating sampleDumps).Reaches .free (Config.initial _ _ _ _ .empty)
      (sampleAfter sampleDumps overlappingEvents) ∧
    (∀ id ∈ migrationIds,
      id ∈ (sampleAfter sampleDumps overlappingEvents).moment.world.applied) ∧
    (sampleAfter sampleDumps overlappingEvents).moment.starts = [.asSent, .asSent] ∧
    (sampleAfter sampleDumps overlappingEvents).threads 0 = some (.ret ()) ∧
    (sampleAfter sampleDumps overlappingEvents).threads 1 = some (.raise .duplicateKey) ∧
    ∀ arrivals, ¬ SameDocuments (sampleAfter sampleDumps overlappingEvents).moment.world
      (uninterrupted sampleDumps arrivals).2 := by
  refine ⟨System.reaches_of_run (run_sampleAfter rfl) fun event _ config =>
      Policy.free_meets config event, by decide, rfl, rfl, rfl, fun arrivals hsame => ?_⟩
  have himportable : Importable sampleDumps :=
    ⟨rfl, rfl, rfl, rfl, by decide, by decide, by decide, by decide⟩
  have hsent := (stage_uninterrupted himportable arrivals).2.asUninterrupted.any (by decide) .asSent
  have hdocuments := (hsame.documents .sdeTypes 34).trans (hsent.2.documents .sdeTypes 34)
  exact absurd (congrArg (Option.map TypeDocument.volume) hdocuments) (by decide)

/-! ### Two replicas that take turns -/

/-- A replica begins no migration that has been recorded, for so many calls. -/
def beginsNew (dumps : Dumps) (thread : ℕ) : ℕ → MigrationConfig → Bool
  | 0, _ => true
  | count + 1, config =>
      (match config.threads thread with
        | some (.call (.info message id) _) =>
            message ≠ applyingMessage || id ∉ config.moment.world.applied
        | _ => true) &&
      ((migrating dumps).step config (.call thread .done)).all (beginsNew dumps thread count)

/-- A replica takes turns if no other one is applying a migration. -/
theorem reaches_of_beginsNew (count : ℕ) {config later : MigrationConfig}
    (halone : ∀ other ≠ thread, ¬ Applying config.moment other)
    (hrun : (migrating dumps).run config (calls thread count) = some later)
    (hbegins : beginsNew dumps thread count config) :
    (migrating dumps).Reaches exclusive config later := by
  induction count generalizing config with
  | zero =>
      cases hrun
      exact .refl
  | succ count ih =>
      rw [calls, List.replicate_succ, ← calls, System.run, List.foldlM_cons] at hrun
      obtain ⟨middle, hfirst, hrest⟩ := Option.bind_eq_some_iff.mp hrun
      rw [beginsNew, Bool.and_eq_true, hfirst] at hbegins
      have hmeets : exclusive.Meets config (.call thread .done) := by
        rintro op next hthread id rfl
        have hnew := hbegins.1
        rw [hthread] at hnew
        exact ⟨by simpa using hnew, halone⟩
      refine .head ⟨_, hmeets, hfirst⟩ (ih (fun other hother happlying => ?_) hrest hbegins.2)
      cases System.steps_of_step hfirst with
      | call hthread hrespond =>
          exact halone other hother ((applying_answer_of_ne hother).mp happlying)

/-- Only a replica that has made a call, and has not been killed, is applying a migration. -/
theorem not_applying_of_crashed
    (hcrashed : ∀ thread ∈ moment.trace.map Prod.fst, thread ∈ moment.crashed) :
    ¬ Applying moment other := by
  rintro ⟨hrunning, hsome⟩
  cases hlog : moment.logOf other with
  | nil =>
      rw [hlog] at hsome
      cases hsome
  | cons call log =>
      have hcall : (other, call) ∈ moment.trace :=
        Moment.mem_logOf.mp (hlog ▸ List.mem_cons_self ..)
      exact hrunning (hcrashed other (List.mem_map_of_mem hcall))

/-- The first replica is killed between the updates of 0003; the second one, whose updates arrive
in another order, applies it again and all others. -/
def firstReplica : List MigrationEvent := .start .asSent :: calls 0 39

def secondReplica : List MigrationEvent := firstReplica ++ [.crash 0, .start .reversed]

theorem run_append {events more : List MigrationEvent}
    (hsome :
      ((migrating joinedDumps).run (Config.initial _ _ _ _ .empty) (events ++ more)).isSome) :
    (migrating joinedDumps).run (sampleAfter joinedDumps events) more =
      some (sampleAfter joinedDumps (events ++ more)) := by
  have hrun := run_sampleAfter hsome
  rw [System.run, List.foldlM_append] at hrun
  obtain ⟨middle, hevents, hmore⟩ := Option.bind_eq_some_iff.mp hrun
  have hmiddle : sampleAfter joinedDumps events = middle := by
    rw [sampleAfter, System.run, hevents, Option.getD_some]
  rw [hmiddle]
  exact hmore

/-- Two replicas, of which the second one starts when the first one has been killed. -/
theorem exclusive_eq_uninterrupted_two :
    SameDocuments (sampleAfter joinedDumps (secondReplica ++ calls 1 45)).moment.world
        (uninterrupted joinedDumps .asSent).2 ∧
      SameDocuments (sampleAfter joinedDumps (secondReplica ++ calls 1 45)).moment.world
        (uninterrupted joinedDumps .reversed).2 := by
  have hstart : (migrating joinedDumps).Reaches exclusive (Config.initial _ _ _ _ .empty)
      (sampleAfter joinedDumps [.start .asSent]) := .single ⟨.start .asSent, trivial, rfl⟩
  have hfirst : (migrating joinedDumps).Reaches exclusive
      (sampleAfter joinedDumps [.start .asSent]) (sampleAfter joinedDumps firstReplica) :=
    reaches_of_beginsNew 39 (fun _ _ => not_applying_of_crashed (by decide +kernel))
      (@run_append [.start .asSent] _ (by decide +kernel)) (by decide +kernel)
  have hkilled : (migrating joinedDumps).Reaches exclusive
      (sampleAfter joinedDumps firstReplica) (sampleAfter joinedDumps secondReplica) :=
    System.reaches_of_run (run_append (by decide +kernel)) (by simp [Policy.Meets, exclusive])
  have hsecond : (migrating joinedDumps).Reaches exclusive
      (sampleAfter joinedDumps secondReplica)
      (sampleAfter joinedDumps (secondReplica ++ calls 1 45)) :=
    reaches_of_beginsNew 45 (fun _ _ => not_applying_of_crashed (by decide +kernel))
      (run_append (by decide +kernel)) (by decide +kernel)
  have hrecorded : ∀ id ∈ migrationIds, id ∈
      (sampleAfter joinedDumps (secondReplica ++ calls 1 45)).moment.world.applied := by
    decide +kernel
  have hdistinct : DistinctFormulas joinedDumps := by decide
  have hlast := (exclusive_eq_uninterrupted (((hstart.trans hfirst).trans hkilled).trans hsecond)
    hrecorded).any hdistinct
  exact ⟨(hlast .asSent).2, (hlast .reversed).2⟩

end Replicas

end EveBuild.Migrations
