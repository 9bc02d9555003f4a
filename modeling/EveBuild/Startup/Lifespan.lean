import EveBuild.Effect.Sum
import EveBuild.Effect.Cleanup
import EveBuild.Startup.Migrations
import EveBuild.Startup.IndexRepeats

/-!
# Starting up and shutting down

`lifespan` of `app/main.py`: the clients are created, the database is migrated and its indexes are
synchronised, the service is up, and in the end whatever has been created is closed.

`lived_of_ran` says what a run is like, whatever any of its calls comes to.  The service is only
up after all of this has been done (`Ready`).  What has been created is closed, also when
startup fails, unless closing something before it has raised (`Lived.released`).

* The service is up as long as the call `serve` has not been answered.
* An exception of a call of `lifespan` itself can be any `Exception`.
* Stopping the gauges is a call that raises no `CancelledError`, which is suppressed.  The task
  itself is not modelled: it uses the database from its creation until this call is answered.
* Log lines are left out.
-/

namespace EveBuild.Lifespan

open Effect Program

variable {Exception : Type}

/-! ## The programs -/

/-- What is created: the clients of `app.state`, and `db_gauges_task`. -/
inductive Resource
  | mongoClient
  | redis
  | rabbitmq
  | dbGaugesTask
deriving DecidableEq

/-- The calls of `lifespan` itself.  `serve` is its `yield`. -/
inductive Op
  | create (resource : Resource)
  | serve
  | close (resource : Resource)

abbrev databaseSignature : Signature := Migrations.signature.sum IndexSync.Json.signature

abbrev signature : Signature := databaseSignature.sum ⟨Op, fun _ => Unit⟩

abbrev DatabaseError := Migrations.MigrationError ⊕ IndexSync.Json.Error

abbrev Code (Exception : Type) := Program signature (DatabaseError ⊕ Exception) Unit

abbrev LifespanCall (Exception : Type) := Call signature (DatabaseError ⊕ Exception)

abbrev LifespanLog (Exception : Type) := List (LifespanCall Exception)

def await (op : Op) : Code Exception := Program.perform (S := signature) (.inr op)

/-- A call of `lifespan` itself with its answer. -/
def ownCall (op : Op) (answer : Except (DatabaseError ⊕ Exception) Unit) : LifespanCall Exception :=
  ⟨.inr op, answer⟩

/-- The settings that `lifespan` reads, itself or by what it calls. -/
structure Settings where
  redisEnabled : Bool
  rabbitmqEnabled : Bool
  runMigrationsOnStartup : Bool
  syncIndexesOnStartup : Bool
  metricsEnabled : Bool
  metricsDbGaugesEnabled : Bool
  /-- The files of `sde_data_dir`. -/
  dumps : Migrations.Dumps
  /-- When the updates of the migrations arrive, which is no setting. -/
  arrivals : Migrations.Arrivals
  /-- The files of `mongo_indexes_dir`. -/
  indexFiles : List IndexSync.JsonFile
  /-- `str`, of what the index files name. -/
  str : Value → String

/-- A statement of the `try` block. -/
inductive Statement
  | create (resource : Resource)
  | runMigrations
  | syncIndexes
  | serve
deriving DecidableEq

def Statement.program (settings : Settings) : Statement → Code Exception
  | create resource => await (.create resource)
  | runMigrations => ((Migrations.runMigrations settings.dumps settings.arrivals).left _ _).left _ _
  | syncIndexes =>
      ((IndexSync.Json.syncIndexes settings.str settings.indexFiles).right _ _).left _ _
  | serve => await .serve

/-- The `try` block up to its `yield`.  A client that is not enabled is not created. -/
def startUp (settings : Settings) : List Statement :=
  [.create .mongoClient] ++
  (if settings.redisEnabled then [.create .redis] else []) ++
  (if settings.rabbitmqEnabled then [.create .rabbitmq] else []) ++
  (if settings.runMigrationsOnStartup then [.runMigrations] else []) ++
  (if settings.syncIndexesOnStartup then [.syncIndexes] else []) ++
  (if settings.metricsEnabled && settings.metricsDbGaugesEnabled then [.create .dbGaugesTask]
    else [])

/-- The order in which things are closed. -/
def closingOrder : List Resource := [.dbGaugesTask, .mongoClient, .redis, .rabbitmq]

/-- The `finally` block: what is not `None` is closed. -/
def shutDown (done : List Statement) : Code Exception :=
  forEach (fun resource => await (.close resource))
    (closingOrder.filter fun resource => .create resource ∈ done)

/-- `lifespan`. -/
def lifespan (settings : Settings) : Code Exception :=
  tryFinally (Statement.program settings) shutDown (startUp settings ++ [.serve])

/-! ## What a run is like -/

section Log

variable (log : LifespanLog Exception)

def Created (resource : Resource) : Prop := ownCall (.create resource) (.ok ()) ∈ log

/-- It has been tried to close the resource. -/
def Closes (resource : Resource) : Prop := ∃ answer, ownCall (.close resource) answer ∈ log

def FailsToClose (resource : Resource) : Prop :=
  ∃ error, ownCall (.close resource) (.error error) ∈ log

end Log

/-- The one is closed before the other. -/
def ClosedBefore (first second : Resource) : Prop :=
  closingOrder.idxOf first < closingOrder.idxOf second

/-- What the settings ask for. -/
def Settings.Enables (settings : Settings) : Resource → Prop
  | .mongoClient => True
  | .redis => settings.redisEnabled
  | .rabbitmq => settings.rabbitmqEnabled
  | .dbGaugesTask => settings.metricsEnabled ∧ settings.metricsDbGaugesEnabled

/-- `run_migrations` has returned. -/
def Migrated (settings : Settings) (log : LifespanLog Exception) : Prop :=
  ∃ calls, Ran (Migrations.runMigrations settings.dumps settings.arrivals) calls (.ok ()) ∧
    (calls.map Call.left).map Call.left <:+: log

/-- `sync_indexes` has returned. -/
def Synced (settings : Settings) (log : LifespanLog Exception) : Prop :=
  ∃ calls, Ran (IndexSync.Json.syncIndexes settings.str settings.indexFiles) calls (.ok ()) ∧
    (calls.map Call.right).map Call.left <:+: log

/-- **Startup is complete.** -/
structure Ready (settings : Settings) (log : LifespanLog Exception) : Prop where
  created : ∀ resource, settings.Enables resource → Created log resource
  migrated : settings.runMigrationsOnStartup → Migrated settings log
  /-- The indexes are synchronised after the migrations. -/
  synced : settings.syncIndexesOnStartup → ∃ later earlier, log = later ++ earlier ∧
    Synced settings later ∧ (settings.runMigrationsOnStartup → Migrated settings earlier)
  unclosed : ∀ resource, ¬ Closes log resource

/-- **A run**, with all of its calls and its outcome. -/
structure Lived (settings : Settings) (log : LifespanLog Exception)
    (outcome : Except (DatabaseError ⊕ Exception) Unit) : Prop where
  /-- The service is up only once startup is complete. -/
  ready : ∀ answer earlier, ownCall .serve answer :: earlier <:+ log → Ready settings earlier
  /-- `lifespan` itself uses the database only while its client is open. -/
  connected : ∀ op answer earlier, ⟨.inl op, answer⟩ :: earlier <:+ log →
    Created earlier .mongoClient ∧ ∀ resource, ¬ Closes earlier resource
  /-- What is closed has been created, and has not been closed before. -/
  once : ∀ resource answer earlier, ownCall (.close resource) answer :: earlier <:+ log →
    Created earlier resource ∧ ¬ Closes earlier resource
  /-- Whatever comes first in the order is closed by then: the task that refreshes the gauges, which
  uses the database on its own, is over before the client is closed. -/
  ordered : ∀ resource answer earlier, ownCall (.close resource) answer :: earlier <:+ log →
    ∀ other, ClosedBefore other resource → Created earlier other →
      ownCall (.close other) (.ok ()) ∈ earlier
  /-- What has been created is closed, unless closing something before it has raised. -/
  released : ∀ resource, Created log resource →
    (Closes log resource ↔ ∀ other, ClosedBefore other resource → ¬ FailsToClose log other)
  /-- An error of the shutdown is raised. -/
  raised : ∀ resource error, ownCall (.close resource) (.error error) ∈ log → outcome = .error error
  /-- An error of the startup or of the service is raised if nothing fails to be closed. -/
  failed : ∀ error, outcome = .error error → (∀ resource, ¬ FailsToClose log resource) →
    ∃ statement ∈ startUp settings ++ [.serve], ∃ calls, calls <:+: log ∧
      Ran (statement.program settings) calls (.error error)
  returned : outcome = .ok () ↔
    ownCall .serve (.ok ()) ∈ log ∧ ∀ resource, ¬ FailsToClose log resource

/-! ## The log of the shutdown -/

section Shutdown

variable {log : LifespanLog Exception} {items done : List Resource}
  {outcome : Except (DatabaseError ⊕ Exception) Unit}

@[simp] theorem ownCall_inj {op other : Op}
    {answer result : Except (DatabaseError ⊕ Exception) Unit} :
    ownCall op answer = ownCall other result ↔ op = other ∧ answer = result := by
  constructor
  · intro heq
    cases heq
    exact ⟨rfl, rfl⟩
  · rintro ⟨rfl, rfl⟩
    rfl

theorem ran_await {op : Op} (hran : Ran (await op) log outcome) : log = [ownCall op outcome] :=
  Ran.of_perform (S := signature) hran

@[simp] theorem closes_append {first last : LifespanLog Exception} {resource : Resource} :
    Closes (last ++ first) resource ↔ Closes last resource ∨ Closes first resource := by
  simp only [Closes, List.mem_append, exists_or]

@[simp] theorem failsToClose_append {first last : LifespanLog Exception} {resource : Resource} :
    FailsToClose (last ++ first) resource ↔
      FailsToClose last resource ∨ FailsToClose first resource := by
  simp only [FailsToClose, List.mem_append, exists_or]

@[simp] theorem created_append {first last : LifespanLog Exception} {resource : Resource} :
    Created (last ++ first) resource ↔ Created last resource ∨ Created first resource :=
  List.mem_append

/-- Whatever is closed before the first error succeeds. -/
theorem closings_cases (hclosed : Performed (fun resource => await (.close resource)) items done
    log outcome) :
    ∃ raised : List (LifespanCall Exception),
      log = raised ++ (done.map fun resource => ownCall (.close resource) (.ok ())).reverse ∧
      ((done = items ∧ raised = [] ∧ outcome = .ok ()) ∨
        ∃ failing rest error, items = done ++ failing :: rest ∧
          raised = [ownCall (.close failing) (.error error)] ∧ outcome = .error error) := by
  induction hclosed with
  | nil => exact ⟨[], rfl, Or.inl ⟨rfl, rfl, rfl⟩⟩
  | @raise item items own error hran =>
      exact ⟨[ownCall (.close item) (.error error)], ran_await hran,
        Or.inr ⟨item, items, error, rfl, rfl, rfl⟩⟩
  | @cons item items done first rest outcome hran _ ih =>
      obtain ⟨raised, rfl, hcases⟩ := ih
      refine ⟨raised, by simp [ran_await hran], ?_⟩
      rcases hcases with ⟨rfl, rfl, rfl⟩ | ⟨failing, others, error, rfl, rfl, rfl⟩
      · exact Or.inl ⟨rfl, rfl, rfl⟩
      · exact Or.inr ⟨failing, others, error, rfl, rfl, rfl⟩

/-- What is closed is one of the items, and has not been closed before. -/
theorem closings_once (hclosed : Performed (fun resource => await (.close resource)) items done
    log outcome) (hnodup : items.Nodup) {resource : Resource}
    {answer : Except (DatabaseError ⊕ Exception) Unit} {earlier : LifespanLog Exception}
    (hsuffix : ownCall (.close resource) answer :: earlier <:+ log) :
    resource ∈ items ∧ ¬ Closes earlier resource := by
  induction hclosed generalizing earlier with
  | nil => cases List.suffix_nil.mp hsuffix
  | @raise item items own error hran =>
      rw [ran_await hran] at hsuffix
      rcases List.suffix_cons_iff.mp hsuffix with heq | hnil
      · obtain ⟨hcall, rfl⟩ := List.cons.inj heq
        cases hcall
        exact ⟨List.mem_cons_self, by simp [Closes]⟩
      · cases List.suffix_nil.mp hnil
  | @cons item items done first rest outcome hran _ ih =>
      obtain ⟨hitem, hrest⟩ := List.nodup_cons.mp hnodup
      rw [ran_await hran] at hsuffix
      rcases List.suffix_concat_iff.mp hsuffix with hnil | ⟨before, heq, hbefore⟩
      · cases hnil
      cases before with
      | nil =>
          obtain ⟨hcall, rfl⟩ := List.cons.inj heq
          cases hcall
          exact ⟨List.mem_cons_self, by simp [Closes]⟩
      | cons call before =>
          obtain ⟨rfl, rfl⟩ := List.cons.inj heq
          obtain ⟨hmem, hbefore⟩ := ih hrest hbefore
          refine ⟨List.mem_cons_of_mem _ hmem, fun hcloses => ?_⟩
          rcases closes_append.mp hcloses with hcloses | ⟨other, hother⟩
          · exact hbefore hcloses
          · cases List.mem_singleton.mp hother
            exact hitem hmem

/-- The items before the one that is being closed have been closed. -/
theorem closings_before (hclosed : Performed (fun resource => await (.close resource)) items done
    log outcome) {resource : Resource} {answer : Except (DatabaseError ⊕ Exception) Unit}
    {earlier : LifespanLog Exception}
    (hsuffix : ownCall (.close resource) answer :: earlier <:+ log) :
    ∃ before after, items = before ++ resource :: after ∧
      ∀ other ∈ before, ownCall (.close other) (.ok ()) ∈ earlier := by
  induction hclosed generalizing earlier with
  | nil => cases List.suffix_nil.mp hsuffix
  | @raise item items own error hran =>
      rw [ran_await hran] at hsuffix
      rcases List.suffix_cons_iff.mp hsuffix with heq | hnil
      · obtain ⟨hcall, rfl⟩ := List.cons.inj heq
        cases hcall
        exact ⟨[], items, rfl, by simp⟩
      · cases List.suffix_nil.mp hnil
  | @cons item items done first rest outcome hran _ ih =>
      rw [ran_await hran] at hsuffix
      rcases List.suffix_concat_iff.mp hsuffix with hnil | ⟨between, heq, hbetween⟩
      · cases hnil
      cases between with
      | nil =>
          obtain ⟨hcall, rfl⟩ := List.cons.inj heq
          cases hcall
          exact ⟨[], items, rfl, by simp⟩
      | cons call between =>
          obtain ⟨rfl, rfl⟩ := List.cons.inj heq
          obtain ⟨before, after, rfl, hbefore⟩ := ih hbetween
          refine ⟨item :: before, after, rfl, List.forall_mem_cons.mpr ⟨by simp, ?_⟩⟩
          exact fun other hother => List.mem_append_left _ (hbefore other hother)

/-- Nothing but closing happens in the shutdown. -/
theorem isClose_of_closings (hclosed : Performed (fun resource => await (.close resource)) items
    done log outcome) {call : LifespanCall Exception} (hcall : call ∈ log) :
    ∃ resource answer, call = ownCall (.close resource) answer := by
  obtain ⟨resource, _, ran, result, hran, hmem, _⟩ := hclosed.exists_of_mem hcall
  rw [ran_await hran] at hmem
  exact ⟨resource, result, List.mem_singleton.mp hmem⟩

end Shutdown

/-! ## The log of the startup -/

section Startup

variable {settings : Settings} {log : LifespanLog Exception} {statements done : List Statement}
  {outcome : Except (DatabaseError ⊕ Exception) Unit}

/-- The calls of a statement. -/
def Statement.Makes : Statement → signature.Op → Prop
  | create resource, op => op = .inr (.create resource)
  | runMigrations, op => ∃ databaseOp, op = .inl databaseOp
  | syncIndexes, op => ∃ databaseOp, op = .inl databaseOp
  | serve, op => op = .inr .serve

theorem issues_program (statement : Statement) :
    (statement.program settings : Code Exception).Issues statement.Makes := by
  cases statement with
  | create resource => exact ⟨rfl, fun answer => by cases answer <;> trivial⟩
  | runMigrations => exact Issues.left (Issues.left (issues_of_forall (fun _ => ⟨_, rfl⟩) _))
  | syncIndexes => exact Issues.left (Issues.right (issues_of_forall (fun _ => ⟨_, rfl⟩) _))
  | serve => exact ⟨rfl, fun answer => by cases answer <;> trivial⟩

/-- Each call is one that a statement makes. -/
theorem makes_of_performed (hperformed : Performed (Statement.program settings) statements done
    log outcome) {call : LifespanCall Exception} (hcall : call ∈ log) :
    ∃ statement ∈ statements, statement.Makes call.op := by
  obtain ⟨statement, hstatement, ran, result, hran, hmem, _⟩ := hperformed.exists_of_mem hcall
  exact ⟨statement, hstatement, (issues_program statement).of_ran hran call hmem⟩

theorem not_closes_of_performed (hperformed : Performed (Statement.program settings) statements
    done log outcome) (resource : Resource) : ¬ Closes log resource := by
  rintro ⟨answer, hcall⟩
  obtain ⟨statement, _, hmakes⟩ := makes_of_performed hperformed hcall
  cases statement <;> cases hmakes
  all_goals contradiction

/-- What has been created is what the statements have created that have succeeded. -/
theorem created_iff (hperformed : Performed (Statement.program settings) statements done log
    outcome) (resource : Resource) : Created log resource ↔ .create resource ∈ done := by
  constructor
  · intro hcreated
    obtain ⟨statement, _, ran, result, hran, hmem, hdone⟩ := hperformed.exists_of_mem hcreated
    have hmakes := (issues_program statement).of_ran hran _ hmem
    cases statement with
    | create other =>
        cases hmakes
        rw [ran_await hran] at hmem
        rcases hdone with hdone | ⟨error, rfl⟩
        · exact hdone
        · cases List.mem_singleton.mp hmem
    | runMigrations => obtain ⟨_, hop⟩ := hmakes; cases hop
    | syncIndexes => obtain ⟨_, hop⟩ := hmakes; cases hop
    | serve => cases hmakes
  · intro hdone
    obtain ⟨ran, hran, hinfix⟩ := hperformed.ran_of_mem hdone
    rw [ran_await hran] at hinfix
    exact hinfix.subset (List.mem_singleton_self _)

theorem migrated_of_mem (hperformed : Performed (Statement.program settings) statements done log
    outcome) (hdone : .runMigrations ∈ done) : Migrated settings log := by
  obtain ⟨ran, hran, hinfix⟩ := hperformed.ran_of_mem hdone
  obtain ⟨_, rfl, hdatabase⟩ := Ran.of_left hran
  obtain ⟨calls, rfl, hcalls⟩ := Ran.of_left hdatabase
  exact ⟨calls, hcalls, hinfix⟩

theorem synced_of_mem (hperformed : Performed (Statement.program settings) statements done log
    outcome) (hdone : .syncIndexes ∈ done) : Synced settings log := by
  obtain ⟨ran, hran, hinfix⟩ := hperformed.ran_of_mem hdone
  obtain ⟨_, rfl, hdatabase⟩ := Ran.of_left hran
  obtain ⟨calls, rfl, hcalls⟩ := Ran.of_right hdatabase
  exact ⟨calls, hcalls, hinfix⟩

theorem create_mem_startUp {resource : Resource} (henabled : settings.Enables resource) :
    .create resource ∈ startUp settings := by
  cases resource with
  | mongoClient => simp [startUp]
  | redis => simp [startUp, show settings.redisEnabled = true from henabled]
  | rabbitmq => simp [startUp, show settings.rabbitmqEnabled = true from henabled]
  | dbGaugesTask => simp [startUp, henabled.1, henabled.2]

/-- All statements before `yield` have succeeded. -/
theorem ready_of_performed (hperformed : Performed (Statement.program settings) (startUp settings)
    (startUp settings) log (.ok ())) : Ready settings log where
  created resource henabled := (created_iff hperformed resource).mpr (create_mem_startUp henabled)
  migrated henabled := migrated_of_mem hperformed (by simp [startUp, henabled])
  synced henabled := by
    rw [startUp, List.append_assoc] at hperformed
    rcases hperformed.of_append with ⟨_, _, heq⟩ | ⟨rest, earlier, later, heq, rfl, hfront, hback⟩
    · cases heq
    · have hrest := List.append_cancel_left heq
      refine ⟨later, earlier, rfl, synced_of_mem hback ?_, fun hmigrations => ?_⟩
      · rw [← hrest, henabled]
        exact List.mem_cons_self
      · exact migrated_of_mem hfront (by simp [hmigrations])
  unclosed := not_closes_of_performed hperformed

theorem not_serve_of_startUp (hperformed : Performed (Statement.program settings)
    (startUp settings) done log outcome) (answer : Except (DatabaseError ⊕ Exception) Unit) :
    ownCall .serve answer ∉ log := by
  intro hcall
  obtain ⟨statement, hstatement, hmakes⟩ := makes_of_performed hperformed hcall
  cases statement with
  | serve => simp [startUp] at hstatement
  | create resource => cases hmakes
  | runMigrations => obtain ⟨_, hop⟩ := hmakes; cases hop
  | syncIndexes => obtain ⟨_, hop⟩ := hmakes; cases hop

/-- The service is up after all statements before `yield`. -/
theorem ready_of_serve (hperformed : Performed (Statement.program settings)
    (startUp settings ++ [.serve]) done log outcome)
    {answer : Except (DatabaseError ⊕ Exception) Unit} {earlier : LifespanLog Exception}
    (hsuffix : ownCall .serve answer :: earlier <:+ log) : Ready settings earlier := by
  rcases hperformed.of_append with ⟨error, hraised, -⟩ | ⟨rest, before, last, -, rfl, hsetup, hlast⟩
  · exact absurd (hsuffix.subset List.mem_cons_self) (not_serve_of_startUp hraised answer)
  · rcases cons_suffix_append hsuffix with hbefore | ⟨between, hlater, rfl⟩
    · exact absurd (hbefore.subset List.mem_cons_self) (not_serve_of_startUp hsetup answer)
    · have hbetween : between = [] := by
        cases hlast with
        | raise hran =>
            rw [ran_await hran] at hlater
            exact (List.cons.inj (hlater.eq_of_length_le (by simp))).2
        | cons hran hnil =>
            cases hnil
            rw [ran_await hran] at hlater
            exact (List.cons.inj (hlater.eq_of_length_le (by simp))).2
      rw [hbetween]
      exact ready_of_performed hsetup

/-- The database is used after the client has been created. -/
theorem created_of_database (hperformed : Performed (Statement.program settings)
    (.create .mongoClient :: statements) done log outcome) {op : databaseSignature.Op}
    {answer : Except (DatabaseError ⊕ Exception) (databaseSignature.Answer op)}
    {earlier : LifespanLog Exception}
    (hsuffix : ⟨.inl op, answer⟩ :: earlier <:+ log) : Created earlier .mongoClient := by
  cases hperformed with
  | raise hran =>
      rw [ran_await hran] at hsuffix
      cases List.mem_singleton.mp (hsuffix.subset List.mem_cons_self)
  | cons hran hrest =>
      rw [ran_await hran] at hsuffix
      rcases cons_suffix_append hsuffix with hfirst | ⟨between, _, rfl⟩
      · cases List.mem_singleton.mp (hfirst.subset List.mem_cons_self)
      · exact List.mem_append_right _ (List.mem_singleton_self _)

/-- The `try` block returns once the service has ended without an error. -/
theorem tried_of_serve (hperformed : Performed (Statement.program settings)
    (startUp settings ++ [.serve]) done log outcome) :
    outcome = .ok () ↔ ownCall .serve (.ok ()) ∈ log := by
  rcases hperformed.of_append with ⟨error, hraised, rfl⟩ |
    ⟨rest, before, last, -, rfl, hsetup, hlast⟩
  · exact ⟨nofun, fun hcall => absurd hcall (not_serve_of_startUp hraised _)⟩
  · rw [List.mem_append, or_iff_left (not_serve_of_startUp hsetup _)]
    cases hlast with
    | raise hran =>
        rw [ran_await hran, List.mem_singleton]
        exact ⟨nofun, nofun⟩
    | cons hran hnil =>
        cases hnil
        rw [ran_await hran]
        exact ⟨fun _ => List.mem_singleton_self _, fun _ => rfl⟩

end Startup

/-! ## Runs -/

/-- The two halves of a run: what has been done, and what has been closed. -/
structure Halves (settings : Settings) (done : List Statement) (closed : List Resource)
    (first last : LifespanLog Exception)
    (tried cleaned : Except (DatabaseError ⊕ Exception) Unit) : Prop where
  started : Performed (Statement.program settings) (startUp settings ++ [.serve]) done first tried
  closings : Performed (fun resource => await (.close resource))
    (closingOrder.filter fun resource => .create resource ∈ done) closed last cleaned

theorem closingOrder_pairwise : closingOrder.Pairwise ClosedBefore := by
  unfold ClosedBefore
  decide

theorem mem_closingOrder (resource : Resource) : resource ∈ closingOrder := by
  cases resource <;> decide

namespace Halves

variable {settings : Settings} {done : List Statement} {closed : List Resource}
  {first last earlier : LifespanLog Exception}
  {tried cleaned answer : Except (DatabaseError ⊕ Exception) Unit}
  {resource : Resource} {error : DatabaseError ⊕ Exception}

theorem closes_iff (halves : Halves settings done closed first last tried cleaned) :
    Closes (last ++ first) resource ↔ Closes last resource := by
  rw [closes_append, or_iff_left (not_closes_of_performed halves.started resource)]

theorem created_iff (halves : Halves settings done closed first last tried cleaned) :
    Created (last ++ first) resource ↔ .create resource ∈ done := by
  rw [created_append, Lifespan.created_iff halves.started]
  refine or_iff_right fun hcreated => ?_
  obtain ⟨_, _, hcall⟩ := isClose_of_closings halves.closings hcreated
  cases hcall

/-- Nothing has failed to be closed, or the last thing that has been closed has. -/
theorem failed_cases (halves : Halves settings done closed first last tried cleaned) :
    (closed = closingOrder.filter (fun resource => .create resource ∈ done) ∧ cleaned = .ok () ∧
      (∀ resource, Closes (last ++ first) resource ↔ resource ∈ closed) ∧
      ∀ resource error, ownCall (.close resource) (.error error) ∉ last ++ first) ∨
    ∃ failing rest raised, closingOrder.filter (fun resource => .create resource ∈ done) =
        closed ++ failing :: rest ∧ cleaned = .error raised ∧
      (∀ resource, Closes (last ++ first) resource ↔ resource = failing ∨ resource ∈ closed) ∧
      ∀ resource error, ownCall (.close resource) (.error error) ∈ last ++ first ↔
        resource = failing ∧ error = raised := by
  have hfirst : ∀ resource error, ownCall (.close resource) (.error error) ∉ first :=
    fun resource error hcall => not_closes_of_performed halves.started resource ⟨_, hcall⟩
  obtain ⟨raised, hlog, hcases⟩ := closings_cases halves.closings
  rcases hcases with ⟨hclosed, rfl, hcleaned⟩ | ⟨failing, rest, raised, hitems, rfl, hcleaned⟩
  · refine Or.inl ⟨hclosed, hcleaned, fun resource => ?_, fun resource error hcall => ?_⟩
    · rw [halves.closes_iff, hlog]
      simp [Closes]
    · rcases List.mem_append.mp hcall with hcall | hcall
      · rw [hlog] at hcall
        simp at hcall
      · exact hfirst resource error hcall
  · refine Or.inr ⟨failing, rest, raised, hitems, hcleaned, fun resource => ?_,
      fun resource error => ?_⟩
    · rw [halves.closes_iff, hlog]
      simp [Closes, exists_or]
    · rw [List.mem_append, or_iff_left (hfirst resource error), hlog]
      simp

theorem ready (halves : Halves settings done closed first last tried cleaned)
    (hsuffix : ownCall .serve answer :: earlier <:+ last ++ first) : Ready settings earlier := by
  rcases cons_suffix_append hsuffix with hfirst | ⟨_, hlast, _⟩
  · exact ready_of_serve halves.started hfirst
  · obtain ⟨_, _, hcall⟩ := isClose_of_closings halves.closings (hlast.subset List.mem_cons_self)
    cases hcall

theorem connected (halves : Halves settings done closed first last tried cleaned)
    {op : databaseSignature.Op}
    {answer : Except (DatabaseError ⊕ Exception) (databaseSignature.Answer op)}
    (hsuffix : ⟨.inl op, answer⟩ :: earlier <:+ last ++ first) :
    Created earlier .mongoClient ∧ ∀ resource, ¬ Closes earlier resource := by
  rcases cons_suffix_append hsuffix with hfirst | ⟨_, hlast, _⟩
  · obtain ⟨statements, hstatements⟩ :
        ∃ statements, startUp settings ++ [.serve] = .create .mongoClient :: statements := ⟨_, rfl⟩
    refine ⟨created_of_database (hstatements ▸ halves.started) hfirst, fun resource hcloses => ?_⟩
    obtain ⟨_, hcall⟩ := hcloses
    exact not_closes_of_performed halves.started resource
      ⟨_, hfirst.subset (List.mem_cons_of_mem _ hcall)⟩
  · obtain ⟨_, _, hcall⟩ := isClose_of_closings halves.closings (hlast.subset List.mem_cons_self)
    cases hcall

theorem once (halves : Halves settings done closed first last tried cleaned)
    (hsuffix : ownCall (.close resource) answer :: earlier <:+ last ++ first) :
    Created earlier resource ∧ ¬ Closes earlier resource := by
  have hnone := not_closes_of_performed halves.started resource
  rcases cons_suffix_append hsuffix with hfirst | ⟨between, hlast, rfl⟩
  · exact absurd ⟨answer, hfirst.subset List.mem_cons_self⟩ hnone
  · have hnodup : (closingOrder.filter fun resource => .create resource ∈ done).Nodup :=
      List.Nodup.filter _ (by decide)
    obtain ⟨hitem, hbetween⟩ := closings_once halves.closings hnodup hlast
    have hdone : .create resource ∈ done := of_decide_eq_true (List.mem_filter.mp hitem).2
    rw [created_append, closes_append, Lifespan.created_iff halves.started]
    exact ⟨Or.inr hdone, not_or.mpr ⟨hbetween, hnone⟩⟩

theorem ordered (halves : Halves settings done closed first last tried cleaned)
    (hsuffix : ownCall (.close resource) answer :: earlier <:+ last ++ first) {other : Resource}
    (hother : ClosedBefore other resource) (hcreated : Created earlier other) :
    ownCall (.close other) (.ok ()) ∈ earlier := by
  rcases cons_suffix_append hsuffix with hfirst | ⟨between, hlast, rfl⟩
  · exact absurd ⟨answer, hfirst.subset List.mem_cons_self⟩
      (not_closes_of_performed halves.started resource)
  obtain ⟨before, after, hitems, hbefore⟩ := closings_before halves.closings hlast
  have hitem : other ∈ before ++ resource :: after := by
    rw [← hitems]
    refine List.mem_filter.mpr ⟨mem_closingOrder _, decide_eq_true (halves.created_iff.mp ?_)⟩
    exact hsuffix.subset (List.mem_cons_of_mem _ hcreated)
  have hpairwise := closingOrder_pairwise.filter fun resource => decide (.create resource ∈ done)
  rw [hitems] at hpairwise
  obtain ⟨_, hrest, _⟩ := List.pairwise_append.mp hpairwise
  -- what is not closed by then is not before the resource
  rcases List.mem_append.mp hitem with hmem | hmem
  · exact List.mem_append_left _ (hbefore other hmem)
  · rcases List.mem_cons.mp hmem with rfl | hafter
    · exact absurd hother (lt_irrefl _)
    · exact absurd hother (lt_asymm (List.rel_of_pairwise_cons hrest hafter))

theorem released (halves : Halves settings done closed first last tried cleaned)
    (hcreated : Created (last ++ first) resource) : Closes (last ++ first) resource ↔
      ∀ other, ClosedBefore other resource → ¬ FailsToClose (last ++ first) other := by
  have hitem : resource ∈ closingOrder.filter fun resource => .create resource ∈ done :=
    List.mem_filter.mpr ⟨mem_closingOrder _, decide_eq_true (halves.created_iff.mp hcreated)⟩
  rcases halves.failed_cases with ⟨hclosed, _, hcloses, hfails⟩ |
    ⟨failing, rest, raised, hitems, _, hcloses, hfails⟩
  · rw [hcloses, hclosed]
    exact ⟨fun _ other _ ⟨error, hcall⟩ => hfails other error hcall, fun _ => hitem⟩
  · have hpairwise := closingOrder_pairwise.filter fun resource => decide (.create resource ∈ done)
    rw [hitems] at hitem hpairwise
    obtain ⟨_, hrest, hbefore⟩ := List.pairwise_append.mp hpairwise
    rw [hcloses]
    constructor
    · -- What is closed is not after the one that fails.
      rintro hclosed other hother ⟨error, hcall⟩
      obtain ⟨rfl, rfl⟩ := (hfails other error).mp hcall
      rcases hclosed with rfl | hclosed
      · exact lt_irrefl _ hother
      · exact lt_asymm hother (hbefore resource hclosed other List.mem_cons_self)
    · intro hnone
      rcases List.mem_append.mp hitem with hclosed | hitem
      · exact Or.inr hclosed
      · rcases List.mem_cons.mp hitem with rfl | hlater
        · exact Or.inl rfl
        · have hother := List.rel_of_pairwise_cons hrest hlater
          exact absurd ⟨raised, (hfails failing raised).mpr ⟨rfl, rfl⟩⟩ (hnone failing hother)

theorem raised (halves : Halves settings done closed first last tried cleaned)
    (hcall : ownCall (.close resource) (.error error) ∈ last ++ first) :
    (cleaned >>= fun _ => tried) = .error error := by
  rcases halves.failed_cases with ⟨_, _, _, hfails⟩ | ⟨_, _, raised, _, rfl, _, hfails⟩
  · exact absurd hcall (hfails resource error)
  · obtain ⟨_, rfl⟩ := (hfails resource error).mp hcall
    rfl

/-- What the shutdown comes to. -/
theorem cleaned_eq_ok_iff (halves : Halves settings done closed first last tried cleaned) :
    cleaned = .ok () ↔ ∀ resource, ¬ FailsToClose (last ++ first) resource := by
  rcases halves.failed_cases with ⟨_, rfl, _, hfails⟩ | ⟨failing, _, raised, _, rfl, _, hfails⟩
  · exact ⟨fun _ resource ⟨error, hcall⟩ => hfails resource error hcall, fun _ => rfl⟩
  · exact ⟨nofun, fun hnone =>
      absurd ⟨raised, (hfails failing raised).mpr ⟨rfl, rfl⟩⟩ (hnone failing)⟩

theorem failed (halves : Halves settings done closed first last tried cleaned)
    (houtcome : (cleaned >>= fun _ => tried) = .error error)
    (hnone : ∀ resource, ¬ FailsToClose (last ++ first) resource) :
    ∃ statement ∈ startUp settings ++ [.serve], ∃ calls, calls <:+: last ++ first ∧
      Ran (statement.program settings) calls (.error error) := by
  obtain rfl := halves.cleaned_eq_ok_iff.mpr hnone
  obtain rfl : tried = .error error := houtcome
  rcases halves.started.done_cases with ⟨_, heq⟩ |
    ⟨statement, rest, before, calls, raised, hstatements, rfl, hran, heq⟩
  · cases heq
  · cases heq
    refine ⟨statement, ?_, calls, ⟨last, before, List.append_assoc ..⟩, hran⟩
    rw [hstatements]
    exact List.mem_append_right _ List.mem_cons_self

theorem returned (halves : Halves settings done closed first last tried cleaned) :
    (cleaned >>= fun _ => tried) = .ok () ↔ ownCall .serve (.ok ()) ∈ last ++ first ∧
      ∀ resource, ¬ FailsToClose (last ++ first) resource := by
  have hserve : ownCall .serve (.ok ()) ∉ last := by
    intro hcall
    obtain ⟨_, _, hclose⟩ := isClose_of_closings halves.closings hcall
    cases hclose
  rw [List.mem_append, or_iff_right hserve, ← tried_of_serve halves.started,
    ← halves.cleaned_eq_ok_iff]
  cases cleaned with
  | ok _ => exact ⟨fun heq => ⟨heq, rfl⟩, And.left⟩
  | error _ => exact ⟨nofun, fun heq => absurd heq.2 nofun⟩

end Halves

/-- **Starting up and shutting down.**  Whatever the calls of a run come to, the service is up
only once startup is complete, and what has been created is closed. -/
theorem lived_of_ran {settings : Settings} {log : LifespanLog Exception}
    {outcome : Except (DatabaseError ⊕ Exception) Unit}
    (hran : Ran (lifespan settings) log outcome) : Lived settings log outcome := by
  obtain ⟨done, first, last, tried, cleaned, rfl, hstarted, hclosed, rfl⟩ := hran.of_tryFinally
  obtain ⟨closed, hclosings⟩ := hclosed.performed_of_forEach
  have halves : Halves settings done closed first last tried cleaned := ⟨hstarted, hclosings⟩
  exact {
    ready := fun _ _ => halves.ready
    connected := fun _ _ _ => halves.connected
    once := fun _ _ _ => halves.once
    ordered := fun _ _ _ hsuffix _ => halves.ordered hsuffix
    released := fun _ => halves.released
    raised := fun _ _ => halves.raised
    failed := fun _ => halves.failed
    returned := halves.returned }

/-- Only the migrations are enabled. -/
def sampleSettings : Settings where
  redisEnabled := false
  rabbitmqEnabled := false
  runMigrationsOnStartup := true
  syncIndexesOnStartup := false
  metricsEnabled := false
  metricsDbGaugesEnabled := true
  dumps := ⟨fun _ => none, none, none, none, none⟩
  arrivals := .asSent
  indexFiles := []
  str _ := ""

/-- The first query of the migrations fails, and the client is closed. -/
def failedStartup : LifespanLog Empty :=
  [ownCall (.close .mongoClient) (.ok ()),
    ⟨.inl (.inl (.findApplied none)), .error (.inl (.inl .database))⟩,
    ownCall (.create .mongoClient) (.ok ())]

theorem ran_failedStartup :
    Ran (lifespan sampleSettings) failedStartup (.error (.inl (.inl .database))) := by
  change Ran (lifespan sampleSettings) ((([] ++ [ownCall (.close .mongoClient) (.ok ())]) ++
    [⟨.inl (.inl (.findApplied none)), .error (.inl (.inl .database))⟩]) ++
    [ownCall (.create .mongoClient) (.ok ())]) _
  exact .call (.call (.call (.raise _)))

theorem lived_of_ran_failedStartup :
    Lived sampleSettings failedStartup (.error (.inl (.inl .database))) :=
  lived_of_ran ran_failedStartup

end EveBuild.Lifespan
