import Mathlib.Data.List.Basic

/-!
# Programs that wait on calls

An asynchronous function computes until it awaits something outside of itself: a
database, a message broker, an HTTP service, the clock.  `Program` keeps just
that.  A program has returned, has raised, or waits on a call and goes on with
whatever the call answers; every call may answer with an error, which is raised
where the call was awaited and can be caught there.

Nothing is said about what the calls do.  `Program.Issues` bounds which calls a
program can make, whatever it is answered.
-/

namespace EveBuild.Effect

/-- The calls that programs can make, and the type of answer each has. -/
structure Signature where
  Op : Type
  Answer : Op → Type

/-- A call with its answer. -/
structure Call (S : Signature) (ε : Type) where
  op : S.Op
  answer : Except ε (S.Answer op)

/-- A program that returns `α`, raises `ε`, or waits on a call. -/
inductive Program (S : Signature) (ε α : Type) : Type
  | ret (value : α)
  | raise (error : ε)
  | call (op : S.Op) (next : Except ε (S.Answer op) → Program S ε α)

namespace Program

variable {S : Signature} {ε α β : Type}

/-- Go on with `next` once the program has returned. -/
def bind : Program S ε α → (α → Program S ε β) → Program S ε β
  | ret value, next => next value
  | raise error, _ => raise error
  | call op rest, next => call op fun answer => (rest answer).bind next

/-- Go on with `handler` once the program has raised. -/
def tryCatch : Program S ε α → (ε → Program S ε α) → Program S ε α
  | ret value, _ => ret value
  | raise error, handler => handler error
  | call op rest, handler => call op fun answer => (rest answer).tryCatch handler

instance : Monad (Program S ε) where
  pure := ret
  bind := bind

instance : MonadExcept ε (Program S ε) where
  throw := raise
  tryCatch := tryCatch

/-- Return a value or raise an error. -/
def ofExcept : Except ε α → Program S ε α
  | .ok value => ret value
  | .error error => raise error

/-- Await a call. -/
def perform (op : S.Op) : Program S ε (S.Answer op) := call op ofExcept

/-- The outcome of a program that has ended. -/
def outcome? : Program S ε α → Option (Except ε α)
  | ret value => some (.ok value)
  | raise error => some (.error error)
  | call .. => none

@[simp] theorem pure_eq (value : α) : (pure value : Program S ε α) = ret value := rfl

@[simp] theorem throw_eq (error : ε) : (throw error : Program S ε α) = raise error := rfl

@[simp] theorem ret_bind (value : α) (next : α → Program S ε β) :
    (ret value >>= next) = next value := rfl

@[simp] theorem raise_bind (error : ε) (next : α → Program S ε β) :
    (raise error >>= next) = raise error := rfl

@[simp] theorem call_bind (op : S.Op) (rest : Except ε (S.Answer op) → Program S ε α)
    (next : α → Program S ε β) :
    (call op rest >>= next) = call op fun answer => rest answer >>= next := rfl

@[simp] theorem ofExcept_ok (value : α) : (ofExcept (.ok value) : Program S ε α) = ret value := rfl

@[simp] theorem ofExcept_error (error : ε) :
    (ofExcept (.error error) : Program S ε α) = raise error := rfl

theorem bind_assoc {γ : Type} (program : Program S ε α) (next : α → Program S ε β)
    (last : β → Program S ε γ) :
    program >>= next >>= last = program >>= fun value => next value >>= last := by
  induction program with
  | ret value => rfl
  | raise error => rfl
  | call op rest ih => exact congrArg (call op) (funext ih)

/-! ## Which calls a program makes -/

/-- Every call that the program can ever make is `allowed`. -/
def Issues (allowed : S.Op → Prop) : Program S ε α → Prop
  | ret _ => True
  | raise _ => True
  | call op next => allowed op ∧ ∀ answer, (next answer).Issues allowed

variable {allowed : S.Op → Prop}

theorem Issues.mono {wider : S.Op → Prop} (hwider : ∀ op, allowed op → wider op)
    {program : Program S ε α} (hissues : program.Issues allowed) : program.Issues wider := by
  induction program with
  | ret value => trivial
  | raise error => trivial
  | call op next ih => exact ⟨hwider op hissues.1, fun answer => ih answer (hissues.2 answer)⟩

/-- Every value that the program can return satisfies `post`. -/
def Returns (post : α → Prop) : Program S ε α → Prop
  | ret value => post value
  | raise _ => True
  | call _ next => ∀ answer, (next answer).Returns post

theorem Returns.bind {middle : α → Prop} {post : β → Prop} {program : Program S ε α}
    {next : α → Program S ε β} (hprogram : program.Returns middle)
    (hnext : ∀ value, middle value → (next value).Returns post) :
    (program >>= next).Returns post := by
  induction program with
  | ret value => exact hnext value hprogram
  | raise error => trivial
  | call op rest ih => exact fun answer => ih answer (hprogram answer)

theorem returns_true (program : Program S ε α) : program.Returns fun _ => True := by
  induction program with
  | ret value => trivial
  | raise error => trivial
  | call op rest ih => exact ih

/-- What follows makes its calls after a value that the program can return. -/
theorem Issues.bind_of_returns {middle : α → Prop} {program : Program S ε α}
    {next : α → Program S ε β} (hprogram : program.Issues allowed)
    (hreturns : program.Returns middle)
    (hnext : ∀ value, middle value → (next value).Issues allowed) :
    (program >>= next).Issues allowed := by
  induction program with
  | ret value => exact hnext value hreturns
  | raise error => trivial
  | call op rest ih =>
      exact ⟨hprogram.1, fun answer => ih answer (hprogram.2 answer) (hreturns answer)⟩

theorem Issues.bind {program : Program S ε α} {next : α → Program S ε β}
    (hprogram : program.Issues allowed) (hnext : ∀ value, (next value).Issues allowed) :
    (program >>= next).Issues allowed :=
  hprogram.bind_of_returns (returns_true program) fun value _ => hnext value

theorem Issues.tryCatch {program : Program S ε α} {handler : ε → Program S ε α}
    (hprogram : program.Issues allowed) (hhandler : ∀ error, (handler error).Issues allowed) :
    (MonadExcept.tryCatch program handler).Issues allowed := by
  induction program with
  | ret value => trivial
  | raise error => exact hhandler error
  | call op rest ih => exact ⟨hprogram.1, fun answer => ih answer (hprogram.2 answer)⟩

theorem Issues.ofExcept (result : Except ε α) :
    (ofExcept result : Program S ε α).Issues allowed := by
  cases result <;> trivial

theorem Issues.perform {op : S.Op} (hop : allowed op) :
    (perform op : Program S ε (S.Answer op)).Issues allowed :=
  ⟨hop, Issues.ofExcept⟩

end Program

end EveBuild.Effect
