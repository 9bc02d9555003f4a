import EveBuild.Effect.Owned

/-!
# Programs that have the state to themselves

A program that nobody interferes with is verified by itself: `Alone` says how its calls
are answered, which calls it may make, which errors it may raise, and what every state on
its way has to satisfy, since it can be stopped in any of them.  `Alone.Runs` is the
weakest precondition, with a rule for each way in which programs are built and one for
each kind of loop.

What has been shown so holds of the run in which every call is handled (`Runs.eval`), and
of the program among others for as long as it owns the state (`Runs.triple`).
-/

namespace EveBuild.Effect

/-! ## Loops -/

namespace Program

variable {S : Signature} {ε α β World : Type}

/-- `for item in items`. -/
def forEach (task : α → Program S ε Unit) : List α → Program S ε Unit
  | [] => return ()
  | item :: items => do
      task item
      forEach task items

/-- The outcome of a program, as a value. -/
def attempt (program : Program S ε β) : Program S ε (Except ε β) :=
  MonadExcept.tryCatch (program >>= fun value => return .ok value) fun error => return .error error

/-- `asyncio.gather`: all tasks are run, and the first error is raised. -/
def gather (task : α → Program S ε Unit) : List α → Program S ε Unit
  | [] => return ()
  | item :: items => do
      let first ← attempt (task item)
      let others ← attempt (gather task items)
      ofExcept first
      ofExcept others

/-- The run in which every call is handled. -/
def eval (handle : (op : S.Op) → World → Except ε (S.Answer op) × World) :
    Program S ε β → World → Except ε β × World
  | ret value, world => (.ok value, world)
  | raise error, world => (.error error, world)
  | call op next, world => (next (handle op world).1).eval handle (handle op world).2

/-- The first calls of this run, with what is left of the program. -/
def evalFor (handle : (op : S.Op) → World → Except ε (S.Answer op) × World)
    (calls : ℕ) (program : Program S ε β) (world : World) : Program S ε β × World :=
  match calls, program with
  | calls + 1, call op next => (next (handle op world).1).evalFor handle calls (handle op world).2
  | _, program => (program, world)

end Program

/-! ## Running alone -/

/-- How a program can go on while nobody else changes the state.  A call is allowed or not
in the state in which it is made, and an error in the state in which it is raised. -/
structure Alone (S : Signature) (ε World : Type) where
  answers : (op : S.Op) → World → Except ε (S.Answer op) → World → Prop
  allowed : S.Op → World → Prop
  raises : ε → World → Prop
  inv : World → Prop

namespace Alone

variable {S : Signature} {ε α β γ World : Type} (alone : Alone S ε World)

/-- Every state on the way of the program satisfies the invariant, and if it returns, the
last one satisfies the postcondition. -/
def Runs : Program S ε β → (β → World → Prop) → World → Prop
  | .ret value, post, world => post value world
  | .raise error, _, world => alone.raises error world
  | .call op next, post, world => alone.allowed op world ∧ ∀ answer later,
      alone.answers op world answer later → alone.inv later ∧ Runs (next answer) post later

/-- A program has returned with the postcondition, or raised what it may raise. -/
def Ends (post : β → World → Prop) : Except ε β → World → Prop
  | .ok value, world => post value world
  | .error error, world => alone.raises error world

variable {alone} {world : World}

theorem Runs.mono {program : Program S ε β} {post wider : β → World → Prop}
    (hinv : alone.inv world) (hruns : alone.Runs program post world)
    (hwider : ∀ value later, alone.inv later → post value later → wider value later) :
    alone.Runs program wider world := by
  induction program generalizing world with
  | ret value => exact hwider value world hinv hruns
  | raise error => exact hruns
  | call op next ih =>
      refine ⟨hruns.1, fun answer later hanswers => ?_⟩
      obtain ⟨hlater, hnext⟩ := hruns.2 answer later hanswers
      exact ⟨hlater, ih answer hlater hnext⟩

/-- **Sequencing.** -/
theorem Runs.bind {program : Program S ε β} {next : β → Program S ε γ}
    {middle : β → World → Prop} {post : γ → World → Prop}
    (hinv : alone.inv world) (hruns : alone.Runs program middle world)
    (hnext : ∀ value later, alone.inv later → middle value later →
      alone.Runs (next value) post later) :
    alone.Runs (program >>= next) post world := by
  induction program generalizing world with
  | ret value => exact hnext value world hinv hruns
  | raise error => exact hruns
  | call op rest ih =>
      refine ⟨hruns.1, fun answer later hanswers => ?_⟩
      obtain ⟨hlater, hrest⟩ := hruns.2 answer later hanswers
      exact ⟨hlater, ih answer hlater hrest⟩

/-- **One call.** -/
theorem Runs.perform {op : S.Op} {post : S.Answer op → World → Prop}
    (hallowed : alone.allowed op world)
    (hanswer : ∀ answer later, alone.answers op world answer later →
      alone.inv later ∧ alone.Ends post answer later) :
    alone.Runs (Program.perform op) post world := by
  refine ⟨hallowed, fun answer later hanswers => ?_⟩
  obtain ⟨hlater, hpost⟩ := hanswer answer later hanswers
  refine ⟨hlater, ?_⟩
  cases answer with
  | ok value => exact hpost
  | error error => exact hpost

theorem Runs.attempt {program : Program S ε β} {post : β → World → Prop}
    (hruns : alone.Runs program post world) :
    alone.Runs program.attempt (alone.Ends post) world := by
  induction program generalizing world with
  | ret value => exact hruns
  | raise error => exact hruns
  | call op next ih =>
      refine ⟨hruns.1, fun answer later hanswers => ?_⟩
      obtain ⟨hlater, hnext⟩ := hruns.2 answer later hanswers
      exact ⟨hlater, ih answer hnext⟩

/-- **Loops.**  `done` is what has been done of the work, of which each item is a part. -/
theorem Runs.forEach {task : α → Program S ε Unit} {items : List α} (part : α → List γ)
    (done : List γ → World → Prop) (hinv : alone.inv world) (hdone : done [] world)
    (hstep : ∀ before item after, items = before ++ item :: after → ∀ later, alone.inv later →
      done (before.flatMap part) later →
      alone.Runs (task item) (fun _ final => done (before.flatMap part ++ part item) final) later) :
    alone.Runs (Program.forEach task items)
      (fun _ later => done (items.flatMap part) later) world := by
  suffices hsuffix : ∀ after before, items = before ++ after → ∀ later, alone.inv later →
      done (before.flatMap part) later → alone.Runs (Program.forEach task after)
        (fun _ final => done (items.flatMap part) final) later from
    hsuffix items [] rfl world hinv hdone
  intro after
  induction after with
  | nil =>
      rintro before rfl later _ hlater
      rwa [List.append_nil]
  | cons item after ih =>
      intro before hitems later hlaterInv hlater
      refine (hstep before item after hitems later hlaterInv hlater).bind hlaterInv ?_
      intro _ final hfinalInv hfinal
      refine ih (before ++ [item]) (by simpa using hitems) final hfinalInv ?_
      simpa using hfinal

/-- **Catching errors.**  What is caught is raised in a state that the handler can go on
from. -/
theorem Runs.tryCatch {program : Program S ε β} {handler : ε → Program S ε β}
    {post : β → World → Prop} {caught : ε → World → Prop} (hinv : alone.inv world)
    (hruns : ({ alone with raises := caught } : Alone S ε World).Runs program post world)
    (hhandler : ∀ error later, alone.inv later → caught error later →
      alone.Runs (handler error) post later) :
    alone.Runs (MonadExcept.tryCatch program handler) post world := by
  induction program generalizing world with
  | ret value => exact hruns
  | raise error => exact hhandler error world hinv hruns
  | call op next ih =>
      refine ⟨hruns.1, fun answer later hanswers => ?_⟩
      obtain ⟨hlater, hnext⟩ := hruns.2 answer later hanswers
      exact ⟨hlater, ih answer hlater hnext⟩

/-- **Gathered tasks.**  Each of them adds its item to whatever has been done.  An error is
raised when all of them are over. -/
theorem Runs.gather {task : α → Program S ε Unit} {items : List α}
    (done : List α → World → Prop) (hinv : alone.inv world)
    (hraises : ∀ error later final, alone.raises error later → alone.raises error final)
    (hstep : ∀ item ∈ items, ∀ later, alone.inv later → alone.Runs (task item)
      (fun _ final => ∀ before, done before later → done (before ++ [item]) final) later) :
    alone.Runs (Program.gather task items)
      (fun _ later => ∀ before, done before world → done (before ++ items) later) world := by
  induction items generalizing world with
  | nil => exact fun before hbefore => by rwa [List.append_nil]
  | cons item items ih =>
      obtain ⟨hitem, hitems⟩ := List.forall_mem_cons.mp hstep
      refine (hitem world hinv).attempt.bind hinv fun first later hlaterInv hlater => ?_
      refine (ih hlaterInv hitems).attempt.bind hlaterInv fun others final hfinalInv hfinal => ?_
      cases first with
      | error error => exact hraises error later final hlater
      | ok value =>
          cases others with
          | error error => exact hfinal
          | ok value =>
              intro before hbefore
              simpa using hfinal _ (hlater before hbefore)

/-- What holds of a program holds of it in weaker terms. -/
theorem Runs.weaken {weaker : Alone S ε World} {program : Program S ε β}
    {post : β → World → Prop} (hinv : alone.inv world) (hruns : alone.Runs program post world)
    (hanswers : ∀ op world answer later, weaker.answers op world answer later →
      alone.answers op world answer later)
    (hallowed : ∀ op world, alone.inv world → alone.allowed op world → weaker.allowed op world)
    (hraises : ∀ error world, alone.inv world → alone.raises error world →
      weaker.raises error world)
    (hweaker : ∀ world, alone.inv world → weaker.inv world) :
    weaker.Runs program post world := by
  induction program generalizing world with
  | ret value => exact hruns
  | raise error => exact hraises error world hinv hruns
  | call op next ih =>
      refine ⟨hallowed op world hinv hruns.1, fun answer later hanswer => ?_⟩
      obtain ⟨hlater, hnext⟩ := hruns.2 answer later (hanswers op world answer later hanswer)
      exact ⟨hweaker later hlater, ih answer hlater hnext⟩

/-! ## What has been shown -/

/-- A program that is stopped, with what is left of it. -/
inductive Stops (answers : (op : S.Op) → World → Except ε (S.Answer op) → World → Prop) :
    Program S ε β → World → Program S ε β → World → Prop
  | here (program : Program S ε β) (world : World) : Stops answers program world program world
  | call {op next world answer later rest final} (hanswer : answers op world answer later)
      (hnext : Stops answers (next answer) later rest final) :
      Stops answers (.call op next) world rest final

/-- What the answers preserve. -/
theorem Stops.invariant
    {answers : (op : S.Op) → World → Except ε (S.Answer op) → World → Prop}
    (motive : World → Prop)
    (hstep : ∀ op world answer later, answers op world answer later → motive world → motive later)
    {program rest : Program S ε β} {final : World}
    (hstops : Stops answers program world rest final) (hworld : motive world) : motive final := by
  induction hstops with
  | here => exact hworld
  | call hanswer _ ih => exact ih (hstep _ _ _ _ hanswer hworld)

/-- A program that is not stopped runs to its end. -/
theorem Stops.eval {answers : (op : S.Op) → World → Except ε (S.Answer op) → World → Prop}
    {handle : (op : S.Op) → World → Except ε (S.Answer op) × World}
    (hhandle : ∀ op world, answers op world (handle op world).1 (handle op world).2)
    {program : Program S ε β} {value : β} (hvalue : (program.eval handle world).1 = .ok value) :
    Stops answers program world (.ret value) (program.eval handle world).2 := by
  induction program generalizing world with
  | ret value =>
      cases hvalue
      exact .here _ _
  | raise error => cases hvalue
  | call op next ih => exact .call (hhandle op world) (ih _ hvalue)

/-- A program can be stopped after any number of calls. -/
theorem Stops.evalFor {answers : (op : S.Op) → World → Except ε (S.Answer op) → World → Prop}
    {handle : (op : S.Op) → World → Except ε (S.Answer op) × World}
    (hhandle : ∀ op world, answers op world (handle op world).1 (handle op world).2)
    (calls : ℕ) (program : Program S ε β) (world : World) :
    Stops answers program world (program.evalFor handle calls world).1
      (program.evalFor handle calls world).2 := by
  induction calls generalizing program world with
  | zero => exact .here _ _
  | succ calls ih =>
      cases program with
      | ret value => exact .here _ _
      | raise error => exact .here _ _
      | call op next => exact .call (hhandle op world) (ih _ _)

/-- **Wherever the program is stopped**, the invariant holds, and what is left can go on. -/
theorem Runs.stops {program rest : Program S ε β} {post : β → World → Prop} {final : World}
    (hinv : alone.inv world) (hruns : alone.Runs program post world)
    (hstops : Stops alone.answers program world rest final) :
    alone.inv final ∧ alone.Runs rest post final := by
  induction hstops with
  | here => exact ⟨hinv, hruns⟩
  | call hanswer _ ih =>
      obtain ⟨hlater, hnext⟩ := hruns.2 _ _ hanswer
      exact ih hlater hnext

/-- **The run in which every call is handled.** -/
theorem Runs.eval {program : Program S ε β} {post : β → World → Prop}
    {handle : (op : S.Op) → World → Except ε (S.Answer op) × World}
    (hhandle : ∀ op world, alone.answers op world (handle op world).1 (handle op world).2)
    (hruns : alone.Runs program post world) :
    alone.Ends post (program.eval handle world).1 (program.eval handle world).2 := by
  induction program generalizing world with
  | ret value => exact hruns
  | raise error => exact hruns
  | call op next ih => exact ih _ (hruns.2 _ _ (hhandle op world)).2

/-- **Among others.**  A program that holds a share, and makes only calls that keep the
contract as long as they keep the invariant of the share, goes on as if it were alone. -/
theorem Runs.triple {Start Choice Tick Global : Type}
    {contract : Contract S ε Global Start} {thread : ℕ} {share : contract.Share thread World}
    {sys : System S ε α Global Start Choice Tick} {policy : Policy S ε Global Start Choice Tick}
    {pre : World → Prop} {program : Program S ε β} {post : β → World → Prop}
    (hcall : ∀ moment op answer world, contract.inv moment → share.held moment →
      alone.allowed op (share.part moment) →
      Contract.Answers sys policy thread op moment answer world →
      alone.answers op (share.part moment) answer
        (share.part (moment.answer thread ⟨op, answer⟩ world)) ∧
      (alone.inv (share.part (moment.answer thread ⟨op, answer⟩ world)) →
        contract.inv (moment.answer thread ⟨op, answer⟩ world) ∧
        (∀ other ≠ thread,
          contract.rely other moment (moment.answer thread ⟨op, answer⟩ world)) ∧
        share.held (moment.answer thread ⟨op, answer⟩ world)))
    (hruns : ∀ state, pre state → alone.Runs program post state) :
    share.Triple sys policy pre program (alone.Ends post) := by
  intro moment hinv hheld hpre
  -- the part of the share takes the steps of the run alone
  have hstate := hruns _ hpre
  clear hruns hpre
  induction program generalizing moment with
  | ret value =>
      intro later hlater hlaterInv
      obtain ⟨hlaterHeld, hpart⟩ := share.stable hlater hlaterInv hheld
      exact ⟨hlaterHeld, hpart ▸ hstate⟩
  | raise error =>
      intro later hlater hlaterInv
      obtain ⟨hlaterHeld, hpart⟩ := share.stable hlater hlaterInv hheld
      exact ⟨hlaterHeld, hpart ▸ hstate⟩
  | call op next ih =>
      intro later hlater hlaterInv answer world hanswers
      obtain ⟨hlaterHeld, hpart⟩ := share.stable hlater hlaterInv hheld
      obtain ⟨hanswered, hkept⟩ :=
        hcall later op answer world hlaterInv hlaterHeld (hpart ▸ hstate.1) hanswers
      obtain ⟨hnextInv, hnext⟩ := hstate.2 answer _ (hpart ▸ hanswered)
      obtain ⟨hafter, hrely, hafterHeld⟩ := hkept hnextInv
      exact ⟨hafter, hrely, ih answer _ hafter hafterHeld hnext⟩

end Alone

end EveBuild.Effect
