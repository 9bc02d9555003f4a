import EveBuild.Effect.Log

/-!
# Programs of two signatures

A program that awaits calls of two kinds, such as those of two databases, is made of programs
of each: `Program.left` and `Program.right` are these as programs of the sum.  Their errors
are kept apart.  `Ran.of_left` and `Ran.of_right` take a run of them back to one of the
program that they are made of.
-/

namespace EveBuild.Effect

/-- The calls of either signature. -/
abbrev Signature.sum (S T : Signature) : Signature where
  Op := S.Op ⊕ T.Op
  Answer := Sum.elim S.Answer T.Answer

variable {S T : Signature} {ε δ α : Type}

/-- A call of the first signature. -/
def Call.left (call : Call S ε) : Call (S.sum T) (ε ⊕ δ) :=
  ⟨.inl call.op, call.answer.mapError .inl⟩

/-- A call of the second signature. -/
def Call.right (call : Call T δ) : Call (S.sum T) (ε ⊕ δ) :=
  ⟨.inr call.op, call.answer.mapError .inr⟩

/-- An answer of the first kind, or an error of the second. -/
def leftAnswer {β : Type} : Except (ε ⊕ δ) β → Except ε β ⊕ δ
  | .ok value => .inl (.ok value)
  | .error (.inl error) => .inl (.error error)
  | .error (.inr error) => .inr error

/-- An answer of the second kind, or an error of the first. -/
def rightAnswer {β : Type} : Except (ε ⊕ δ) β → Except δ β ⊕ ε
  | .ok value => .inl (.ok value)
  | .error (.inl error) => .inr error
  | .error (.inr error) => .inl (.error error)

namespace Program

/-- A program of the first signature.  An error of the second kind ends it. -/
def left (T : Signature) (δ : Type) : Program S ε α → Program (S.sum T) (ε ⊕ δ) α
  | ret value => ret value
  | raise error => raise (.inl error)
  | call op next => call (.inl op) fun answer =>
      (leftAnswer answer).elim (fun answer => (next answer).left T δ) fun error =>
        raise (.inr error)

/-- A program of the second signature.  An error of the first kind ends it. -/
def right (S : Signature) (ε : Type) : Program T δ α → Program (S.sum T) (ε ⊕ δ) α
  | ret value => ret value
  | raise error => raise (.inr error)
  | call op next => call (.inr op) fun answer =>
      (rightAnswer answer).elim (fun answer => (next answer).right S ε) fun error =>
        raise (.inl error)

/-- Calls of the first kind only. -/
theorem Issues.left {allowed : (S.sum T).Op → Prop} {program : Program S ε α}
    (hprogram : program.Issues fun op => allowed (.inl op)) :
    (program.left T δ).Issues allowed := by
  induction program with
  | ret value => trivial
  | raise error => trivial
  | call op next ih =>
      rw [Program.left]
      refine ⟨hprogram.1, fun answer => ?_⟩
      cases answer with
      | ok value => exact ih (.ok value) (hprogram.2 _)
      | error error =>
          cases error with
          | inl error => exact ih (.error error) (hprogram.2 _)
          | inr error => trivial

/-- Calls of the second kind only. -/
theorem Issues.right {allowed : (S.sum T).Op → Prop} {program : Program T δ α}
    (hprogram : program.Issues fun op => allowed (.inr op)) :
    (program.right S ε).Issues allowed := by
  induction program with
  | ret value => trivial
  | raise error => trivial
  | call op next ih =>
      rw [Program.right]
      refine ⟨hprogram.1, fun answer => ?_⟩
      cases answer with
      | ok value => exact ih (.ok value) (hprogram.2 _)
      | error error =>
          cases error with
          | inl error => trivial
          | inr error => exact ih (.error error) (hprogram.2 _)

/-- **A run of the first kind.** -/
theorem Ran.of_left {program : Program S ε α} {own : List (Call (S.sum T) (ε ⊕ δ))} {value : α}
    (hran : Ran (program.left T δ) own (.ok value)) :
    ∃ log : List (Call S ε), own = log.map Call.left ∧ Ran program log (.ok value) := by
  induction program generalizing own with
  | ret other =>
      obtain ⟨rfl, heq⟩ := hran.of_ret
      exact ⟨[], rfl, Except.ok.inj heq ▸ .ret value⟩
  | raise error => cases hran.of_raise.2
  | call op next ih =>
      rw [left] at hran
      obtain ⟨answer, rest, rfl, hnext⟩ := hran.of_call
      cases answer with
      | ok answered =>
          obtain ⟨log, rfl, hlog⟩ := ih (.ok answered) hnext
          exact ⟨log ++ [⟨op, .ok answered⟩], by rw [List.map_append]; rfl, .call hlog⟩
      | error error =>
          cases error with
          | inl error =>
              obtain ⟨log, rfl, hlog⟩ := ih (.error error) hnext
              exact ⟨log ++ [⟨op, .error error⟩], by rw [List.map_append]; rfl, .call hlog⟩
          | inr error => cases hnext.of_raise.2

/-- **A run of the second kind.** -/
theorem Ran.of_right {program : Program T δ α} {own : List (Call (S.sum T) (ε ⊕ δ))} {value : α}
    (hran : Ran (program.right S ε) own (.ok value)) :
    ∃ log : List (Call T δ), own = log.map Call.right ∧ Ran program log (.ok value) := by
  induction program generalizing own with
  | ret other =>
      obtain ⟨rfl, heq⟩ := hran.of_ret
      exact ⟨[], rfl, Except.ok.inj heq ▸ .ret value⟩
  | raise error => cases hran.of_raise.2
  | call op next ih =>
      rw [right] at hran
      obtain ⟨answer, rest, rfl, hnext⟩ := hran.of_call
      cases answer with
      | ok answered =>
          obtain ⟨log, rfl, hlog⟩ := ih (.ok answered) hnext
          exact ⟨log ++ [⟨op, .ok answered⟩], by rw [List.map_append]; rfl, .call hlog⟩
      | error error =>
          cases error with
          | inl error => cases hnext.of_raise.2
          | inr error =>
              obtain ⟨log, rfl, hlog⟩ := ih (.error error) hnext
              exact ⟨log ++ [⟨op, .error error⟩], by rw [List.map_append]; rfl, .call hlog⟩

end Program

end EveBuild.Effect
