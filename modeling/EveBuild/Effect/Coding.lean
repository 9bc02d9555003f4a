import EveBuild.Effect.System

/-!
# Calls that are written down

A program computes with values, and the calls that it makes carry something else: texts, bytes,
rows.  A `Coding` says how a call is written down, which may fail, and how what it is answered is
read, which may fail, too; `Coding.program` is the program that makes the written calls.

`Agrees` relates a system of such programs to the system of the programs that they are written
from, where a call that is `sound` can be written down and the written answer to it is read.
`Agrees.run` is the simulation, in both directions: the same events lead to the same ends.  That
only sound calls are made is `Handles`, which may rely on what is read being `trusted`.
-/

namespace EveBuild.Effect

/-- How a call is written down, and how what it is answered is read. -/
structure Coding (S T : Signature) (δ : Type) where
  write : (op : S.Op) → Except δ ((coded : T.Op) × (T.Answer coded → Except δ (S.Answer op)))

variable {S T : Signature} {ε δ α β : Type}

namespace Coding

variable (coding : Coding S T δ)

/-- Go on with what is read.  What cannot be read is raised, and is not caught. -/
def goOn {op : S.Op} {Answer : Type} (read : Answer → Except δ (S.Answer op))
    (next : Except ε (S.Answer op) → Program T (ε ⊕ δ) α) :
    Except (ε ⊕ δ) Answer → Program T (ε ⊕ δ) α
  | .ok answer => match read answer with
    | .ok value => next (.ok value)
    | .error error => .raise (.inr error)
  | .error (.inl error) => next (.error error)
  | .error (.inr error) => .raise (.inr error)

/-- The program that makes the written calls. -/
def program : Program S ε α → Program T (ε ⊕ δ) α
  | .ret value => .ret value
  | .raise error => .raise (.inl error)
  | .call op next => match coding.write op with
    | .ok ⟨coded, read⟩ => .call coded (goOn read fun answer => program (next answer))
    | .error error => .raise (.inr error)

/-- An error of the calls is handled, an error of the writing is not. -/
def handler (handle : ε → Program S ε α) : ε ⊕ δ → Program T (ε ⊕ δ) α
  | .inl error => coding.program (handle error)
  | .inr error => .raise (.inr error)

theorem goOn_bind {op : S.Op} {Answer : Type} {read : Answer → Except δ (S.Answer op)}
    {next : Except ε (S.Answer op) → Program T (ε ⊕ δ) α} {last : α → Program T (ε ⊕ δ) β}
    (answer : Except (ε ⊕ δ) Answer) :
    (goOn read next answer >>= last) = goOn read (fun answer => next answer >>= last) answer := by
  rcases answer with (error | error) | answer
  · rfl
  · rfl
  · cases hread : read answer <;> simp [goOn, hread]

theorem program_bind (first : Program S ε α) (next : α → Program S ε β) :
    coding.program (first >>= next) =
      coding.program first >>= fun value => coding.program (next value) := by
  induction first with
  | ret value => rfl
  | raise error => rfl
  | call op rest ih =>
      rw [Program.call_bind]
      simp only [program]
      cases coding.write op with
      | error error => rfl
      | ok written =>
          refine congrArg (Program.call written.1) (funext fun answer => ?_)
          simp only [ih]
          exact (goOn_bind answer).symm

theorem program_tryCatch (first : Program S ε α) (handle : ε → Program S ε α) :
    coding.program (MonadExcept.tryCatch first handle) =
      MonadExcept.tryCatch (coding.program first) (coding.handler handle) := by
  induction first with
  | ret value => rfl
  | raise error => rfl
  | call op rest ih =>
      have hcall : MonadExcept.tryCatch (Program.call op rest) handle =
          Program.call op fun answer => MonadExcept.tryCatch (rest answer) handle := rfl
      rw [hcall]
      simp only [program]
      cases coding.write op with
      | error error => rfl
      | ok written =>
          refine congrArg (Program.call written.1) (funext fun answer => ?_)
          simp only [ih]
          rcases answer with (error | error) | answer
          · rfl
          · rfl
          · simp only [goOn]
            cases written.2 answer <;> rfl

end Coding

/-! ## Which calls are made -/

namespace Program

/-- As long as the answers are trusted, only sound calls are made, and what is returned satisfies
`post`. -/
def Handles (sound : S.Op → Prop) (trusted : (op : S.Op) → S.Answer op → Prop) (post : α → Prop) :
    Program S ε α → Prop
  | ret value => post value
  | raise _ => True
  | call op next => sound op ∧ (∀ value, trusted op value → (next (.ok value)).Handles sound trusted
      post) ∧ ∀ error, (next (.error error)).Handles sound trusted post

variable {sound : S.Op → Prop} {trusted : (op : S.Op) → S.Answer op → Prop} {post : α → Prop}
  {program : Program S ε α}

theorem Handles.bind {after : β → Prop} {next : α → Program S ε β}
    (hprogram : program.Handles sound trusted post)
    (hnext : ∀ value, post value → (next value).Handles sound trusted after) :
    (program >>= next).Handles sound trusted after := by
  induction program with
  | ret value => exact hnext value hprogram
  | raise error => trivial
  | call op rest ih =>
      obtain ⟨hsound, hvalue, herror⟩ := hprogram
      exact ⟨hsound, fun value htrusted => ih _ (hvalue value htrusted),
        fun error => ih _ (herror error)⟩

theorem Handles.tryCatch {handle : ε → Program S ε α}
    (hprogram : program.Handles sound trusted post)
    (hhandle : ∀ error, (handle error).Handles sound trusted post) :
    (MonadExcept.tryCatch program handle).Handles sound trusted post := by
  induction program with
  | ret value => exact hprogram
  | raise error => exact hhandle error
  | call op rest ih =>
      obtain ⟨hsound, hvalue, herror⟩ := hprogram
      exact ⟨hsound, fun value htrusted => ih _ (hvalue value htrusted),
        fun error => ih _ (herror error)⟩

theorem Handles.perform {op : S.Op} (hsound : sound op) :
    (perform op : Program S ε (S.Answer op)).Handles sound trusted (trusted op) :=
  ⟨hsound, fun _ htrusted => htrusted, fun _ => trivial⟩

end Program

/-! ## The simulation -/

variable {Written World Start Choice Tick : Type}

/-- The written answer is read as the answer. -/
inductive Answers {S : Signature} {ε δ Answer : Type} {op : S.Op}
    (read : Answer → Except δ (S.Answer op)) (trusted : S.Answer op → Prop) :
    Except (ε ⊕ δ) Answer → Except ε (S.Answer op) → Prop
  | ok {coded value} (hread : read coded = .ok value) (htrusted : trusted value) :
      Answers read trusted (.ok coded) (.ok value)
  | error (error : ε) : Answers read trusted (.error (.inl error)) (.error error)

/-- The first system runs the written programs of the second, and its world stands for that of the
second, whatever happens that is `allowed`. -/
structure Agrees (coding : Coding S T δ) (sound : S.Op → Prop)
    (trusted : (op : S.Op) → S.Answer op → Prop) (allowed : Choice → Prop)
    (related : Written → World → Prop) (coded : System T (ε ⊕ δ) α Written Start Choice Tick)
    (sys : System S ε α World Start Choice Tick) : Prop where
  body : ∀ start, coded.body start = coding.program (sys.body start)
  handles : ∀ start, (sys.body start).Handles sound trusted fun _ => True
  enter : ∀ thread start {written world}, related written world →
    Option.Rel related (coded.enter thread start written) (sys.enter thread start world)
  write : ∀ op, sound op → ∃ written, coding.write op = .ok written
  respond : ∀ thread op choice {written world call read}, sound op → allowed choice →
    related written world → coding.write op = .ok ⟨call, read⟩ →
      Option.Rel (fun one other => Answers read (trusted op) one.1 other.1 ∧ related one.2 other.2)
        (coded.respond thread call choice written) (sys.respond thread op choice world)
  crash : ∀ thread {written world}, related written world →
    related (coded.crash thread written) (sys.crash thread world)
  tick : ∀ tick {written world}, related written world →
    Option.Rel related (coded.tick tick written) (sys.tick tick world)

/-- The programs of the first configuration are those of the second, written down. -/
structure Simulates (coding : Coding S T δ) (sound : S.Op → Prop)
    (trusted : (op : S.Op) → S.Answer op → Prop) (related : Written → World → Prop)
    (coded : Config T (ε ⊕ δ) α Written Start) (config : Config S ε α World Start) : Prop where
  world : related coded.moment.world config.moment.world
  starts : coded.moment.starts = config.moment.starts
  crashed : coded.moment.crashed = config.moment.crashed
  threads : ∀ thread, coded.threads thread = (config.threads thread).map coding.program
  handles : ∀ thread program, config.threads thread = some program →
    program.Handles sound trusted fun _ => True

section Simulation

variable {coding : Coding S T δ} {sound : S.Op → Prop}
  {trusted : (op : S.Op) → S.Answer op → Prop} {allowed : Choice → Prop}
  {related : Written → World → Prop} {coded : System T (ε ⊕ δ) α Written Start Choice Tick}
  {sys : System S ε α World Start Choice Tick}

theorem Simulates.initial {written : Written} {world : World} (hrelated : related written world) :
    Simulates coding sound trusted related (Config.initial T (ε ⊕ δ) α Start written)
      (Config.initial S ε α Start world) where
  world := hrelated
  starts := rfl
  crashed := rfl
  threads _ := rfl
  handles _ _ hthread := by cases hthread

theorem program_goOn {op : S.Op} {Answer : Type} {read : Answer → Except δ (S.Answer op)}
    {next : Except ε (S.Answer op) → Program S ε α} {answer : Except (ε ⊕ δ) Answer}
    {value : Except ε (S.Answer op)} (hanswers : Answers read (trusted op) answer value) :
    Coding.goOn read (fun answer => coding.program (next answer)) answer =
      coding.program (next value) := by
  cases hanswers with
  | ok hread _ => simp only [Coding.goOn, hread]
  | error error => rfl

theorem Program.Handles.answer {op : S.Op} {next : Except ε (S.Answer op) → Program S ε α}
    {post : α → Prop} (hhandles : (Program.call op next).Handles sound trusted post)
    {Answer : Type} {read : Answer → Except δ (S.Answer op)} {answer : Except (ε ⊕ δ) Answer}
    {value : Except ε (S.Answer op)} (hanswers : Answers read (trusted op) answer value) :
    (next value).Handles sound trusted post := by
  cases hanswers with
  | ok _ htrusted => exact hhandles.2.1 _ htrusted
  | error error => exact hhandles.2.2 error

/-- The threads after one of them has been replaced. -/
theorem threads_update {threads : ℕ → Option (Program T (ε ⊕ δ) α)}
    {others : ℕ → Option (Program S ε α)}
    (hthreads : ∀ thread, threads thread = (others thread).map coding.program) (thread : ℕ)
    (new : Option (Program S ε α)) (other : ℕ) :
    Function.update threads thread (new.map coding.program) other =
      (Function.update others thread new other).map coding.program := by
  rcases eq_or_ne other thread with rfl | hne
  · simp
  · simp [Function.update_of_ne hne, hthreads other]

theorem handles_update {threads : ℕ → Option (Program S ε α)}
    (hhandles : ∀ thread program, threads thread = some program →
      program.Handles sound trusted fun _ => True) {thread : ℕ} {new : Program S ε α}
    (hnew : new.Handles sound trusted fun _ => True) (other : ℕ) (program : Program S ε α)
    (hprogram : Function.update threads thread (some new) other = some program) :
    program.Handles sound trusted fun _ => True := by
  rcases of_update_eq_some hprogram with ⟨-, heq⟩ | ⟨-, hother⟩
  · exact Option.some_inj.mp heq ▸ hnew
  · exact hhandles other program hother

/-- **One event** does the same to both. -/
theorem Agrees.step (hagrees : Agrees coding sound trusted allowed related coded sys)
    {written : Config T (ε ⊕ δ) α Written Start} {config : Config S ε α World Start}
    (hsimulates : Simulates coding sound trusted related written config)
    {event : Event Start Choice Tick}
    (hallowed : ∀ thread choice, event = .call thread choice → allowed choice) :
    Option.Rel (Simulates coding sound trusted related) (coded.step written event)
      (sys.step config event) := by
  obtain ⟨hworld, hstarts, hcrashed, hthreads, hhandles⟩ := hsimulates
  cases event with
  | start start =>
      have henter := hagrees.enter config.moment.starts.length start hworld
      simp only [System.step, hstarts]
      generalize coded.enter _ start written.moment.world = entered at henter ⊢
      generalize sys.enter _ start config.moment.world = other at henter ⊢
      cases henter with
      | none => exact .none
      | some hrelated =>
          refine .some ⟨hrelated, by simp [Moment.enter, hstarts], hcrashed, ?_, ?_⟩
          · rw [hagrees.body]
            exact threads_update hthreads _ (some (sys.body start))
          · exact handles_update hhandles (hagrees.handles start)
  | call thread choice =>
      have hthread := hthreads thread
      simp only [System.step]
      cases hprogram : config.threads thread with
      | none =>
          rw [hprogram] at hthread
          simp only [hthread, Option.map_none]
          exact .none
      | some program =>
          rw [hprogram, Option.map_some] at hthread
          cases program with
          | ret value =>
              simp only [hthread, Coding.program]
              exact .none
          | raise error =>
              simp only [hthread, Coding.program]
              exact .none
          | call op next =>
              -- the call is a sound one, so that it has been written down
              have hcall := hhandles thread _ hprogram
              obtain ⟨⟨call, read⟩, hwrite⟩ := hagrees.write op hcall.1
              have hrespond := hagrees.respond thread op choice hcall.1 (hallowed thread choice rfl)
                hworld hwrite
              simp only [Coding.program, hwrite] at hthread
              simp only [hthread]
              generalize coded.respond thread call choice written.moment.world = answered
                at hrespond ⊢
              generalize sys.respond thread op choice config.moment.world = other at hrespond ⊢
              cases hrespond with
              | none => exact .none
              | some hanswered =>
                  obtain ⟨hanswers, hrelated⟩ := hanswered
                  refine .some ⟨hrelated, hstarts, hcrashed, ?_, ?_⟩
                  · rw [program_goOn hanswers]
                    exact threads_update hthreads thread (some _)
                  · exact handles_update hhandles (hcall.answer hanswers)
  | crash thread =>
      have hthread := hthreads thread
      simp only [System.step]
      cases hprogram : config.threads thread with
      | none =>
          rw [hprogram] at hthread
          simp only [hthread, Option.map_none]
          exact .none
      | some program =>
          rw [hprogram] at hthread
          simp only [hthread, Option.map_some]
          refine .some ⟨hagrees.crash thread hworld, hstarts, congrArg _ hcrashed,
            threads_update hthreads thread none, fun other program hother => ?_⟩
          rcases of_update_eq_some hother with ⟨-, heq⟩ | ⟨-, hother⟩
          · cases heq
          · exact hhandles other program hother
  | tick tick =>
      have htick := hagrees.tick tick hworld
      simp only [System.step]
      generalize coded.tick tick written.moment.world = ticked at htick ⊢
      generalize sys.tick tick config.moment.world = other at htick ⊢
      cases htick with
      | none => exact .none
      | some hrelated => exact .some ⟨hrelated, hstarts, hcrashed, hthreads, hhandles⟩

/-- **The same events lead to the same ends**, or to none. -/
theorem Agrees.run (hagrees : Agrees coding sound trusted allowed related coded sys)
    {events : List (Event Start Choice Tick)}
    (hallowed : ∀ thread choice, .call thread choice ∈ events → allowed choice)
    {written : Config T (ε ⊕ δ) α Written Start} {config : Config S ε α World Start}
    (hsimulates : Simulates coding sound trusted related written config) :
    Option.Rel (Simulates coding sound trusted related) (coded.run written events)
      (sys.run config events) := by
  induction events generalizing written config with
  | nil => exact .some hsimulates
  | cons event events ih =>
      have hstep := hagrees.step hsimulates fun thread choice heq =>
        hallowed thread choice (heq ▸ List.mem_cons_self ..)
      simp only [System.run, List.foldlM_cons]
      generalize coded.step written event = stepped at hstep ⊢
      generalize sys.step config event = other at hstep ⊢
      cases hstep with
      | none => exact .none
      | some hlater =>
          exact ih (fun thread choice hmem => hallowed thread choice (List.mem_cons_of_mem _ hmem))
            hlater

/-- A program ends when the one that it is written from does, and as that one does. -/
theorem Agrees.outcome (hagrees : Agrees coding sound trusted allowed related coded sys)
    {written : Config T (ε ⊕ δ) α Written Start} {config : Config S ε α World Start}
    (hsimulates : Simulates coding sound trusted related written config) (thread : ℕ) :
    (written.threads thread).bind Program.outcome? =
      ((config.threads thread).bind Program.outcome?).map (Except.mapError .inl) := by
  rw [hsimulates.threads thread]
  cases hprogram : config.threads thread with
  | none => rfl
  | some program =>
      cases program with
      | ret value => rfl
      | raise error => rfl
      | call op next =>
          obtain ⟨⟨call, read⟩, hwrite⟩ := hagrees.write op (hsimulates.handles thread _ hprogram).1
          simp only [Option.map_some, Option.bind_some, Coding.program, hwrite, Program.outcome?]
          rfl

end Simulation

end EveBuild.Effect
