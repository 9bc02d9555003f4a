import EveBuild.Effect.Alone

/-!
# Handled runs

The run in which every call is handled (`Program.eval`), by the way in which a program is
built.
-/

namespace EveBuild.Effect.Program

variable {S : Signature} {ε α β World : Type}
  {handle : (op : S.Op) → World → Except ε (S.Answer op) × World} {world later : World}

@[simp] theorem eval_ret (value : α) (world : World) :
    (ret value : Program S ε α).eval handle world = (.ok value, world) := rfl

@[simp] theorem eval_raise (error : ε) (world : World) :
    (raise error : Program S ε α).eval handle world = (.error error, world) := rfl

@[simp] theorem eval_perform (op : S.Op) (world : World) :
    (perform op).eval handle world = handle op world := by
  change (ofExcept (handle op world).1).eval handle (handle op world).2 = _
  cases hanswer : handle op world with
  | mk answer later => cases answer <;> rfl

theorem eval_bind_of_ok {program : Program S ε α} {next : α → Program S ε β} {value : α}
    (heval : program.eval handle world = (.ok value, later)) :
    (program >>= next).eval handle world = (next value).eval handle later := by
  induction program generalizing world with
  | ret other =>
      cases heval
      rfl
  | raise error => cases heval
  | call op rest ih => exact ih _ heval

theorem eval_bind_of_error {program : Program S ε α} {next : α → Program S ε β} {error : ε}
    (heval : program.eval handle world = (.error error, later)) :
    (program >>= next).eval handle world = (.error error, later) := by
  induction program generalizing world with
  | ret value => cases heval
  | raise other =>
      cases heval
      rfl
  | call op rest ih => exact ih _ heval

/-- What follows is handled only once the program has returned. -/
theorem eval_bind_eq_ok_iff {program : Program S ε α} {next : α → Program S ε β} {result : β} :
    (program >>= next).eval handle world = (.ok result, later) ↔ ∃ value middle,
      program.eval handle world = (.ok value, middle) ∧
        (next value).eval handle middle = (.ok result, later) := by
  cases heval : program.eval handle world with
  | mk outcome middle =>
      cases outcome with
      | error error =>
          rw [eval_bind_of_error heval]
          simp
      | ok value =>
          rw [eval_bind_of_ok heval]
          simp

/-- A handler does what is left to do after an error. -/
theorem eval_tryCatch (program : Program S ε α) (handler : ε → Program S ε α) (world : World) :
    (MonadExcept.tryCatch program handler).eval handle world =
      match program.eval handle world with
      | (.ok value, later) => (.ok value, later)
      | (.error error, later) => (handler error).eval handle later := by
  induction program generalizing world with
  | ret value => rfl
  | raise error => rfl
  | call op rest ih => exact ih _ _

/-- The outcome of an attempt is a value. -/
theorem eval_attempt (program : Program S ε α) (world : World) :
    program.attempt.eval handle world =
      (.ok (program.eval handle world).1, (program.eval handle world).2) := by
  induction program generalizing world with
  | ret value => rfl
  | raise error => rfl
  | call op rest ih => exact ih _ _

/-- What the allowed calls preserve. -/
theorem Issues.eval_invariant {allowed : S.Op → Prop} (inv : World → Prop)
    {program : Program S ε α} (hissues : program.Issues allowed)
    (hstep : ∀ op world, allowed op → inv world → inv (handle op world).2) (hworld : inv world) :
    inv (program.eval handle world).2 := by
  induction program generalizing world with
  | ret value => exact hworld
  | raise error => exact hworld
  | call op next ih => exact ih _ (hissues.2 _) (hstep op world hissues.1 hworld)

theorem Returns.of_eval {post : α → Prop} {program : Program S ε α} {value : α}
    (hreturns : program.Returns post)
    (heval : program.eval handle world = (.ok value, later)) : post value := by
  induction program generalizing world with
  | ret other =>
      cases heval
      exact hreturns
  | raise error => cases heval
  | call op next ih => exact ih _ (hreturns _) heval

/-! ## The calls of the run -/

/-- The calls of the run in which every call is handled. -/
def issued (handle : (op : S.Op) → World → Except ε (S.Answer op) × World) :
    Program S ε α → World → List S.Op
  | ret _, _ => []
  | raise _, _ => []
  | call op next, world => op :: (next (handle op world).1).issued handle (handle op world).2

@[simp] theorem issued_perform (op : S.Op) (world : World) :
    (perform op).issued handle world = [op] := by
  change op :: (ofExcept (handle op world).1).issued handle (handle op world).2 = _
  cases hanswer : handle op world with
  | mk answer later => cases answer <;> rfl

theorem issued_bind_of_ok {program : Program S ε α} {next : α → Program S ε β} {value : α}
    (heval : program.eval handle world = (.ok value, later)) :
    (program >>= next).issued handle world =
      program.issued handle world ++ (next value).issued handle later := by
  induction program generalizing world with
  | ret other =>
      cases heval
      rfl
  | raise error => cases heval
  | call op rest ih => exact congrArg (op :: ·) (ih _ heval)

/-- A program makes its own calls before those of what follows. -/
theorem mem_issued_bind {program : Program S ε α} {next : α → Program S ε β} {op : S.Op}
    (hop : op ∈ program.issued handle world) : op ∈ (program >>= next).issued handle world := by
  induction program generalizing world with
  | ret value => cases hop
  | raise error => cases hop
  | call first rest ih =>
      rcases List.mem_cons.mp hop with rfl | hop
      · exact List.mem_cons_self ..
      · exact List.mem_cons_of_mem _ (ih _ hop)

end EveBuild.Effect.Program
