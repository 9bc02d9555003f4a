import EveBuild.Effect.Program
import Mathlib.Logic.Function.Basic
import Mathlib.Logic.Relation

/-!
# Systems of programs that run at the same time

A `System` is what its programs run against: a world that answers calls, and the
programs that can be started in it.  Everything that is not determined, which
program goes next, what a service outside of the world answers, whether a call
fails, is in the *events* that drive it, so that `System.step` and `System.run`
are functions.  Between two calls a program is not interrupted.

Programs are numbered in the order in which they are started.  A crash removes a
program, whatever it was waiting for; what a crash does to the world (a broker
that takes unacknowledged messages back) is the system's to say, and a `tick` is
anything that happens without a program.

A `Moment` is the world together with what has happened so far.  The history is
not part of the world, so that no answer can depend on it.
-/

namespace EveBuild.Effect

/-- The world, the programs that have been started, the calls that have been answered,
the newest first, each with the number of its program, and the programs that have
crashed. -/
structure Moment (S : Signature) (ε World Start : Type) where
  world : World
  starts : List Start
  trace : List (ℕ × Call S ε)
  crashed : List ℕ

namespace Moment

variable {S : Signature} {ε World Start : Type}

/-- The calls of one program, the newest first. -/
def logOf (moment : Moment S ε World Start) (thread : ℕ) : List (Call S ε) :=
  moment.trace.filterMap fun entry => if entry.1 = thread then some entry.2 else none

/-- A new world and nothing else. -/
def put (moment : Moment S ε World Start) (world : World) : Moment S ε World Start :=
  { moment with world }

/-- One more program has been started. -/
def enter (moment : Moment S ε World Start) (start : Start) (world : World) :
    Moment S ε World Start :=
  { moment with world, starts := moment.starts ++ [start] }

/-- A call of a program has been answered. -/
def answer (moment : Moment S ε World Start) (thread : ℕ) (call : Call S ε) (world : World) :
    Moment S ε World Start :=
  { moment with world, trace := (thread, call) :: moment.trace }

/-- A program has crashed. -/
def crash (moment : Moment S ε World Start) (thread : ℕ) (world : World) :
    Moment S ε World Start :=
  { moment with world, crashed := thread :: moment.crashed }

section Simp

variable (moment : Moment S ε World Start) (world : World) (start : Start) (thread other : ℕ)
  (call : Call S ε)

@[simp] theorem put_world : (moment.put world).world = world := rfl
@[simp] theorem put_starts : (moment.put world).starts = moment.starts := rfl
@[simp] theorem put_trace : (moment.put world).trace = moment.trace := rfl
@[simp] theorem put_logOf : (moment.put world).logOf thread = moment.logOf thread := rfl
@[simp] theorem put_crashed : (moment.put world).crashed = moment.crashed := rfl
@[simp] theorem enter_world : (moment.enter start world).world = world := rfl
@[simp] theorem enter_starts : (moment.enter start world).starts = moment.starts ++ [start] := rfl
@[simp] theorem enter_trace : (moment.enter start world).trace = moment.trace := rfl
@[simp] theorem enter_logOf : (moment.enter start world).logOf thread = moment.logOf thread := rfl
@[simp] theorem enter_crashed : (moment.enter start world).crashed = moment.crashed := rfl
@[simp] theorem crash_world : (moment.crash thread world).world = world := rfl
@[simp] theorem crash_starts : (moment.crash thread world).starts = moment.starts := rfl
@[simp] theorem crash_trace : (moment.crash thread world).trace = moment.trace := rfl
@[simp] theorem crash_logOf : (moment.crash thread world).logOf other = moment.logOf other := rfl
@[simp] theorem crash_crashed :
    (moment.crash thread world).crashed = thread :: moment.crashed := rfl
@[simp] theorem answer_crashed :
    (moment.answer thread call world).crashed = moment.crashed := rfl
@[simp] theorem answer_world : (moment.answer thread call world).world = world := rfl
@[simp] theorem answer_starts : (moment.answer thread call world).starts = moment.starts := rfl
@[simp] theorem answer_trace :
    (moment.answer thread call world).trace = (thread, call) :: moment.trace := rfl

theorem answer_logOf :
    (moment.answer thread call world).logOf other =
      if thread = other then call :: moment.logOf other else moment.logOf other := by
  unfold logOf
  rw [answer_trace, List.filterMap_cons]
  by_cases heq : thread = other <;> simp [heq]

@[simp] theorem answer_logOf_self :
    (moment.answer thread call world).logOf thread = call :: moment.logOf thread := by
  rw [answer_logOf, if_pos rfl]

end Simp

section Logs

variable {moment : Moment S ε World Start} {world : World} {thread other : ℕ} {call new : Call S ε}

/-- A call in a log is an old one, or the one that has been answered now. -/
theorem mem_answer_logOf (hnew : new ∈ (moment.answer thread call world).logOf other) :
    new ∈ moment.logOf other ∨ thread = other ∧ new = call := by
  rw [answer_logOf] at hnew
  split at hnew
  · rename_i heq
    rcases List.mem_cons.mp hnew with rfl | hold
    · exact Or.inr ⟨heq, rfl⟩
    · exact Or.inl hold
  · exact Or.inl hnew

theorem mem_logOf_of_ne (hnew : new ∈ (moment.answer thread call world).logOf other)
    (hne : new ≠ call) : new ∈ moment.logOf other :=
  (mem_answer_logOf hnew).resolve_right fun hcall => hne hcall.2

end Logs

theorem mem_logOf {moment : Moment S ε World Start} {thread : ℕ} {call : Call S ε} :
    call ∈ moment.logOf thread ↔ (thread, call) ∈ moment.trace := by
  unfold logOf
  rw [List.mem_filterMap]
  constructor
  · rintro ⟨⟨other, call'⟩, hentry, hcall⟩
    split at hcall
    · rename_i heq
      cases heq
      cases hcall
      exact hentry
    · cases hcall
  · intro hentry
    exact ⟨(thread, call), hentry, if_pos rfl⟩

/-- Nothing of the history of the earlier moment is taken back. -/
structure Extends (earlier later : Moment S ε World Start) : Prop where
  starts : earlier.starts <+: later.starts
  logOf : ∀ thread, earlier.logOf thread <:+ later.logOf thread

theorem Extends.refl (moment : Moment S ε World Start) : moment.Extends moment :=
  ⟨List.prefix_refl _, fun _ => List.suffix_refl _⟩

theorem Extends.trans {first second third : Moment S ε World Start} (hfirst : first.Extends second)
    (hsecond : second.Extends third) : first.Extends third :=
  ⟨hfirst.starts.trans hsecond.starts,
    fun thread => (hfirst.logOf thread).trans (hsecond.logOf thread)⟩

theorem extends_put (moment : Moment S ε World Start) (world : World) :
    moment.Extends (moment.put world) :=
  ⟨List.prefix_refl _, fun _ => List.suffix_refl _⟩

theorem extends_crash (moment : Moment S ε World Start) (thread : ℕ) (world : World) :
    moment.Extends (moment.crash thread world) :=
  ⟨List.prefix_refl _, fun _ => List.suffix_refl _⟩

theorem extends_enter (moment : Moment S ε World Start) (start : Start) (world : World) :
    moment.Extends (moment.enter start world) :=
  ⟨List.prefix_append _ _, fun _ => List.suffix_refl _⟩

theorem extends_answer (moment : Moment S ε World Start) (thread : ℕ) (call : Call S ε)
    (world : World) : moment.Extends (moment.answer thread call world) := by
  refine ⟨List.prefix_refl _, fun other => ?_⟩
  rw [answer_logOf]
  split
  · exact List.suffix_cons _ _
  · exact List.suffix_refl _

theorem Extends.getElem?_starts {earlier later : Moment S ε World Start}
    (hextends : earlier.Extends later) {index : ℕ} {start : Start}
    (hstart : earlier.starts[index]? = some start) : later.starts[index]? = some start := by
  obtain ⟨hlt, rfl⟩ := List.getElem?_eq_some_iff.mp hstart
  exact List.prefix_iff_getElem?.mp hextends.starts index hlt

end Moment

/-- What programs run against. -/
structure System (S : Signature) (ε α World Start Choice Tick : Type) where
  /-- The program that a start runs. -/
  body : Start → Program S ε α
  /-- The world once a program is started, if it can be. -/
  enter : ℕ → Start → World → Option World
  /-- An answer to a call, if the world allows the choice. -/
  respond : ℕ → (op : S.Op) → Choice → World → Option (Except ε (S.Answer op) × World)
  /-- What a program leaves behind when it crashes. -/
  crash : ℕ → World → World
  /-- What can happen without a program. -/
  tick : Tick → World → Option World

/-- What happens next. -/
inductive Event (Start Choice Tick : Type)
  | start (start : Start)
  | call (thread : ℕ) (choice : Choice)
  | crash (thread : ℕ)
  | tick (tick : Tick)

/-- A moment, and what the programs still have to do. -/
structure Config (S : Signature) (ε α World Start : Type) where
  moment : Moment S ε World Start
  threads : ℕ → Option (Program S ε α)

/-- Whatever the programs still do, they only make `allowed` calls. -/
def Config.Issues {S : Signature} {ε α World Start : Type} (allowed : S.Op → Prop)
    (config : Config S ε α World Start) : Prop :=
  ∀ thread program, config.threads thread = some program → program.Issues allowed

/-- A world in which no program has been started. -/
def Config.initial (S : Signature) (ε α : Type) {World : Type} (Start : Type) (world : World) :
    Config S ε α World Start where
  moment := { world, starts := [], trace := [], crashed := [] }
  threads _ := none

variable {S : Signature} {ε α World Start Choice Tick : Type}

theorem Config.Issues.initial {allowed : S.Op → Prop} {world : World} :
    (Config.initial S ε α Start world).Issues allowed := by
  intro thread program hthread
  cases hthread

namespace System

variable (sys : System S ε α World Start Choice Tick)

/-- The configuration after an event, if the event can happen. -/
def step (config : Config S ε α World Start) :
    Event Start Choice Tick → Option (Config S ε α World Start)
  | .start start =>
      match sys.enter config.moment.starts.length start config.moment.world with
      | none => none
      | some world => some {
          moment := config.moment.enter start world
          threads := Function.update config.threads config.moment.starts.length
            (some (sys.body start)) }
  | .call thread choice =>
      match config.threads thread with
      | some (.call op next) =>
          match sys.respond thread op choice config.moment.world with
          | none => none
          | some (answer, world) => some {
              moment := config.moment.answer thread ⟨op, answer⟩ world
              threads := Function.update config.threads thread (some (next answer)) }
      | _ => none
  | .crash thread =>
      match config.threads thread with
      | none => none
      | some _ => some {
          moment := config.moment.crash thread (sys.crash thread config.moment.world)
          threads := Function.update config.threads thread none }
  | .tick tick =>
      match sys.tick tick config.moment.world with
      | none => none
      | some world => some { moment := config.moment.put world, threads := config.threads }

/-- The configuration after a list of events, if they can happen. -/
def run (config : Config S ε α World Start) (events : List (Event Start Choice Tick)) :
    Option (Config S ε α World Start) := events.foldlM sys.step config

/-- **What a step can do.** -/
inductive Steps (config : Config S ε α World Start) :
    Event Start Choice Tick → Config S ε α World Start → Prop
  | start {start world}
      (henter : sys.enter config.moment.starts.length start config.moment.world = some world) :
      Steps config (.start start) {
        moment := config.moment.enter start world
        threads := Function.update config.threads config.moment.starts.length
          (some (sys.body start)) }
  | call {thread choice op next answer world}
      (hthread : config.threads thread = some (.call op next))
      (hrespond : sys.respond thread op choice config.moment.world = some (answer, world)) :
      Steps config (.call thread choice) {
        moment := config.moment.answer thread ⟨op, answer⟩ world
        threads := Function.update config.threads thread (some (next answer)) }
  | crash {thread program} (hthread : config.threads thread = some program) :
      Steps config (.crash thread) {
        moment := config.moment.crash thread (sys.crash thread config.moment.world)
        threads := Function.update config.threads thread none }
  | tick {tick world} (htick : sys.tick tick config.moment.world = some world) :
      Steps config (.tick tick) {
        moment := config.moment.put world, threads := config.threads }

variable {sys}

theorem steps_of_step {config later : Config S ε α World Start} {event : Event Start Choice Tick}
    (hstep : sys.step config event = some later) : sys.Steps config event later := by
  cases event with
  | start start =>
      cases henter : sys.enter config.moment.starts.length start config.moment.world with
      | none => simp [step, henter] at hstep
      | some world =>
          simp only [step, henter, Option.some.injEq] at hstep
          exact hstep ▸ .start henter
  | call thread choice =>
      simp only [step] at hstep
      split at hstep
      · rename_i op next hthread
        cases hrespond : sys.respond thread op choice config.moment.world with
        | none => simp [hrespond] at hstep
        | some answered =>
            simp only [hrespond, Option.some.injEq] at hstep
            exact hstep ▸ .call hthread hrespond
      · cases hstep
  | crash thread =>
      cases hthread : config.threads thread with
      | none => simp [step, hthread] at hstep
      | some program =>
          simp only [step, hthread, Option.some.injEq] at hstep
          exact hstep ▸ .crash hthread
  | tick tick =>
      cases htick : sys.tick tick config.moment.world with
      | none => simp [step, htick] at hstep
      | some world =>
          simp only [step, htick, Option.some.injEq] at hstep
          exact hstep ▸ .tick htick

end System

/-- A program after a step is the one that made it or was there before. -/
theorem of_update_eq_some {threads : ℕ → Option (Program S ε α)} {thread other : ℕ}
    {new : Option (Program S ε α)} {program : Program S ε α}
    (hupdate : Function.update threads thread new other = some program) :
    (other = thread ∧ new = some program) ∨ (other ≠ thread ∧ threads other = some program) := by
  rcases eq_or_ne other thread with rfl | hne
  · exact Or.inl ⟨rfl, by rwa [Function.update_self] at hupdate⟩
  · exact Or.inr ⟨hne, by rwa [Function.update_of_ne hne] at hupdate⟩

/-! ## Runs whose steps meet a condition -/

/-- A condition on steps, in terms of the moment before the step. -/
structure Policy (S : Signature) (ε World Start Choice Tick : Type) where
  start : Start → Moment S ε World Start → Prop
  call : ℕ → S.Op → Choice → Moment S ε World Start → Prop
  crash : ℕ → Moment S ε World Start → Prop
  tick : Tick → Moment S ε World Start → Prop

/-- No condition. -/
def Policy.free : Policy S ε World Start Choice Tick :=
  ⟨fun _ _ => True, fun _ _ _ _ => True, fun _ _ => True, fun _ _ => True⟩

/-- An event meets the condition. -/
def Policy.Meets (policy : Policy S ε World Start Choice Tick)
    (config : Config S ε α World Start) : Event Start Choice Tick → Prop
  | .start start => policy.start start config.moment
  | .call thread choice =>
      ∀ op next, config.threads thread = some (.call op next) →
        policy.call thread op choice config.moment
  | .crash thread => policy.crash thread config.moment
  | .tick tick => policy.tick tick config.moment

theorem Policy.free_meets (config : Config S ε α World Start)
    (event : Event Start Choice Tick) :
    (free : Policy S ε World Start Choice Tick).Meets config event := by
  cases event with
  | call thread choice => exact fun _ _ _ => trivial
  | _ => trivial

namespace System

variable (sys : System S ε α World Start Choice Tick)
  (policy : Policy S ε World Start Choice Tick)

/-- `later` is reached by steps that all meet the condition. -/
def Reaches : Config S ε α World Start → Config S ε α World Start → Prop :=
  Relation.ReflTransGen fun config later =>
    ∃ event, policy.Meets config event ∧ sys.step config event = some later

variable {sys policy}

/-- **Invariants.**  What the steps that meet the condition preserve holds of every
configuration that such steps reach. -/
theorem Reaches.invariant {motive : Config S ε α World Start → Prop}
    {config later : Config S ε α World Start} (hreaches : sys.Reaches policy config later)
    (hconfig : motive config)
    (hstep : ∀ before event after, motive before → policy.Meets before event →
      sys.Steps before event after → motive after) : motive later := by
  induction hreaches with
  | refl => exact hconfig
  | tail _ hlast ih =>
      obtain ⟨event, hmeets, hevent⟩ := hlast
      exact hstep _ event _ ih hmeets (steps_of_step hevent)

variable (sys) in
/-- A property of each step of a run: of the configuration before it, its event and the
configuration after it. -/
def EveryStep (property : Config S ε α World Start → Event Start Choice Tick →
    Config S ε α World Start → Prop) :
    Config S ε α World Start → List (Event Start Choice Tick) → Prop
  | _, [] => True
  | config, event :: events => ∀ later, sys.step config event = some later →
      property config event later ∧ EveryStep property later events

/-- **Two properties of every step.**  What each step that the invariant and `given` hold
of has of one property exactly if it has the other, every step of a run has of one
exactly if it has the other. -/
theorem everyStep_congr {motive : Config S ε α World Start → Prop}
    {given first second : Config S ε α World Start → Event Start Choice Tick →
      Config S ε α World Start → Prop}
    (hstep : ∀ before event after, motive before → given before event after →
      sys.Steps before event after →
      (first before event after ↔ second before event after) ∧
      (first before event after → motive after))
    {config : Config S ε α World Start} (hconfig : motive config)
    {events : List (Event Start Choice Tick)} (hgiven : sys.EveryStep given config events) :
    sys.EveryStep first config events ↔ sys.EveryStep second config events := by
  induction events generalizing config with
  | nil => exact Iff.rfl
  | cons event events ih =>
      refine forall_congr' fun later => forall_congr' fun hlater => ?_
      obtain ⟨hgivenStep, hgivenRest⟩ := hgiven later hlater
      obtain ⟨hiff, hmotive⟩ := hstep config event later hconfig hgivenStep (steps_of_step hlater)
      constructor
      · rintro ⟨hfirst, hrest⟩
        exact ⟨hiff.mp hfirst, (ih (hmotive hfirst) hgivenRest).mp hrest⟩
      · rintro ⟨hsecond, hrest⟩
        have hfirst := hiff.mpr hsecond
        exact ⟨hfirst, (ih (hmotive hfirst) hgivenRest).mpr hrest⟩

theorem everyStep_of_forall {property : Config S ε α World Start → Event Start Choice Tick →
      Config S ε α World Start → Prop} {events : List (Event Start Choice Tick)}
    (hproperty : ∀ event ∈ events, ∀ before after, property before event after)
    (config : Config S ε α World Start) : sys.EveryStep property config events := by
  induction events generalizing config with
  | nil => trivial
  | cons event events ih =>
      intro later _
      exact ⟨hproperty event (List.mem_cons_self ..) config later,
        ih (fun other hother => hproperty other (List.mem_cons_of_mem _ hother)) later⟩

/-- A run whose steps meet the condition. -/
theorem reaches_of_everyStep {config later : Config S ε α World Start}
    {events : List (Event Start Choice Tick)} (hrun : sys.run config events = some later)
    (hmeets : sys.EveryStep (fun before event _ => policy.Meets before event) config events) :
    sys.Reaches policy config later := by
  induction events generalizing config with
  | nil =>
      cases hrun
      exact .refl
  | cons event rest ih =>
      rw [run, List.foldlM_cons] at hrun
      obtain ⟨middle, hfirst, hrest⟩ := Option.bind_eq_some_iff.mp hrun
      obtain ⟨hmeetsFirst, hmeetsRest⟩ := hmeets middle hfirst
      exact .head ⟨event, hmeetsFirst, hfirst⟩ (ih hrest hmeetsRest)

/-- A run whose events meet the condition wherever they happen. -/
theorem reaches_of_run {config later : Config S ε α World Start}
    {events : List (Event Start Choice Tick)} (hrun : sys.run config events = some later)
    (hmeets : ∀ event ∈ events, ∀ config : Config S ε α World Start, policy.Meets config event) :
    sys.Reaches policy config later :=
  reaches_of_everyStep hrun (everyStep_of_forall (fun event hevent before _ =>
    hmeets event hevent before) config)

/-- A run of calls that meet the condition whenever they are allowed. -/
theorem reaches_of_calls {allowed : S.Op → Prop} {config later : Config S ε α World Start}
    {events : List (Event Start Choice Tick)} (hissues : config.Issues allowed)
    (hrun : sys.run config events = some later)
    (hevents : ∀ event ∈ events, ∃ thread choice, event = .call thread choice ∧
      ∀ op, allowed op → ∀ moment, policy.call thread op choice moment) :
    sys.Reaches policy config later := by
  induction events generalizing config with
  | nil =>
      cases hrun
      exact .refl
  | cons event rest ih =>
      rw [run, List.foldlM_cons] at hrun
      obtain ⟨middle, hfirst, hrest⟩ := Option.bind_eq_some_iff.mp hrun
      obtain ⟨thread, choice, rfl, hmeets⟩ := hevents event (List.mem_cons_self ..)
      have hcall : policy.Meets config (.call thread choice) := fun op next hthread =>
        hmeets op (hissues thread _ hthread).1 config.moment
      refine .head ⟨_, hcall, hfirst⟩ (ih ?_ hrest fun other hother =>
        hevents other (List.mem_cons_of_mem _ hother))
      cases steps_of_step hfirst with
      | call hcaller hrespond =>
          intro other program hthread
          rcases of_update_eq_some hthread with ⟨rfl, hprogram⟩ | ⟨_, hthread⟩
          · exact Option.some_inj.mp hprogram ▸ (hissues other _ hcaller).2 _
          · exact hissues other program hthread

/-- A program that has been started stands at its number. -/
theorem Steps.getElem?_starts {before after : Config S ε α World Start} {start : Start}
    (hstep : sys.Steps before (.start start) after) :
    after.moment.starts[before.moment.starts.length]? = some start := by
  cases hstep with
  | start henter => exact List.getElem?_concat_length

/-- Nothing of the history is taken back. -/
theorem Steps.extends {before after : Config S ε α World Start} {event : Event Start Choice Tick}
    (hstep : sys.Steps before event after) : before.moment.Extends after.moment := by
  cases hstep with
  | start henter => exact Moment.extends_enter _ _ _
  | call hthread hrespond => exact Moment.extends_answer _ _ _ _
  | crash hthread => exact Moment.extends_crash _ _ _
  | tick htick => exact Moment.extends_put _ _

theorem Reaches.extends {config later : Config S ε α World Start}
    (hreaches : sys.Reaches policy config later) : config.moment.Extends later.moment :=
  hreaches.invariant (motive := fun later => config.moment.Extends later.moment)
    (Moment.Extends.refl _) fun _ _ _ hbefore _ hstep => hbefore.trans hstep.extends

/-- Programs only ever make the calls that the programs they started from make. -/
theorem Steps.issues {allowed : S.Op → Prop} (hbody : ∀ start, (sys.body start).Issues allowed)
    {before after : Config S ε α World Start} {event : Event Start Choice Tick}
    (hstep : sys.Steps before event after) (hbefore : before.Issues allowed) :
    after.Issues allowed := by
  intro thread program hthread
  cases hstep with
  | start henter =>
      rcases of_update_eq_some hthread with ⟨rfl, hprogram⟩ | ⟨_, hthread⟩
      · exact Option.some_inj.mp hprogram ▸ hbody _
      · exact hbefore thread program hthread
  | call hcaller hrespond =>
      rcases of_update_eq_some hthread with ⟨rfl, hprogram⟩ | ⟨_, hthread⟩
      · exact Option.some_inj.mp hprogram ▸ (hbefore thread _ hcaller).2 _
      · exact hbefore thread program hthread
  | crash hcrashed =>
      rcases of_update_eq_some hthread with ⟨rfl, hprogram⟩ | ⟨_, hthread⟩
      · cases hprogram
      · exact hbefore thread program hthread
  | tick htick => exact hbefore thread program hthread

/-- **Programs come to an end.**  Where every call can be answered, a program that is left to
go on by itself ends. -/
theorem exists_outcome (fine : Call S ε → Prop)
    (hrespond : ∀ thread op world, ∃ choice answer later,
      sys.respond thread op choice world = some (answer, later) ∧ fine ⟨op, answer⟩)
    {config : Config S ε α World Start} {thread : ℕ} {program : Program S ε α}
    (hthread : config.threads thread = some program) :
    ∃ (choices : List Choice) (later : Config S ε α World Start) (final : Program S ε α)
      (outcome : Except ε α), sys.run config (choices.map (Event.call thread)) = some later ∧
      later.threads thread = some final ∧ final.outcome? = some outcome ∧
      ∀ call ∈ later.moment.logOf thread, call ∈ config.moment.logOf thread ∨ fine call := by
  induction program generalizing config with
  | ret value => exact ⟨[], config, _, .ok value, rfl, hthread, rfl, fun _ => Or.inl⟩
  | raise error => exact ⟨[], config, _, .error error, rfl, hthread, rfl, fun _ => Or.inl⟩
  | call op next ih =>
      obtain ⟨choice, answer, world, hanswer, hfine⟩ := hrespond thread op config.moment.world
      -- one call is answered, and the rest is shorter
      obtain ⟨middle, hstep, hmiddle, hlog⟩ : ∃ middle, sys.step config (.call thread choice) =
          some middle ∧ middle.threads thread = some (next answer) ∧
          middle.moment = config.moment.answer thread ⟨op, answer⟩ world := by
        refine ⟨⟨config.moment.answer thread ⟨op, answer⟩ world,
          Function.update config.threads thread (some (next answer))⟩, ?_,
          Function.update_self .., rfl⟩
        simp only [step, hthread, hanswer]
      obtain ⟨choices, later, final, outcome, hrun, hfinal, houtcome, hcalls⟩ := ih answer hmiddle
      refine ⟨choice :: choices, later, final, outcome, ?_, hfinal, houtcome, fun call hcall => ?_⟩
      · rw [List.map_cons, run, List.foldlM_cons, hstep]
        exact hrun
      · rcases hcalls call hcall with hold | hnew
        · rw [hlog, Moment.answer_logOf_self] at hold
          rcases List.mem_cons.mp hold with rfl | hold
          · exact Or.inr hfine
          · exact Or.inl hold
        · exact Or.inr hnew

end System

end EveBuild.Effect
