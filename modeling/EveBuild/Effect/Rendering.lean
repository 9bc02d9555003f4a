import EveBuild.Effect.Program

/-!
# Programs in other terms

Two programs that make calls of different signatures can do the same, if every call of the first
and every answer to it can be written down in the terms of the second.  A `Rendering` says how they
are written down, and `Renders` says of two programs that the second makes the calls of the first
and goes on as the first whatever these are answered.  There is a rule for each way in which
programs are built.
-/

namespace EveBuild.Effect

/-- The calls, the values that they return and the errors, in the terms of another signature. -/
structure Rendering (S T : Signature) (ε η : Type) where
  op : S.Op → T.Op
  value : (call : S.Op) → S.Answer call → T.Answer (op call)
  error : ε → η

variable {S T : Signature} {ε η α β γ δ : Type}

/-- What a call is answered. -/
def Rendering.answer (rendering : Rendering S T ε η) (op : S.Op) :
    Except ε (S.Answer op) → Except η (T.Answer (rendering.op op))
  | .ok value => .ok (rendering.value op value)
  | .error error => .error (rendering.error error)

/-- The second program does what the first one does, and returns a related value. -/
inductive Renders (rendering : Rendering S T ε η) (related : α → β → Prop) :
    Program S ε α → Program T η β → Prop
  | ret {value other} (hrelated : related value other) :
      Renders rendering related (.ret value) (.ret other)
  | raise (error : ε) : Renders rendering related (.raise error) (.raise (rendering.error error))
  | call {op next rendered}
      (hnext : ∀ answer, Renders rendering related (next answer)
        (rendered (rendering.answer op answer))) :
      Renders rendering related (.call op next) (.call (rendering.op op) rendered)

namespace Renders

variable {rendering : Rendering S T ε η} {related : α → β → Prop} {program : Program S ε α}
  {rendered : Program T η β}

theorem mono {wider : α → β → Prop} (hprogram : Renders rendering related program rendered)
    (hwider : ∀ value other, related value other → wider value other) :
    Renders rendering wider program rendered := by
  induction hprogram with
  | ret hrelated => exact .ret (hwider _ _ hrelated)
  | raise error => exact .raise error
  | call _ ih => exact .call ih

theorem bind {relatedNext : γ → δ → Prop} {next : α → Program S ε γ}
    {renderedNext : β → Program T η δ} (hprogram : Renders rendering related program rendered)
    (hnext : ∀ value other, related value other →
      Renders rendering relatedNext (next value) (renderedNext other)) :
    Renders rendering relatedNext (program >>= next) (rendered >>= renderedNext) := by
  induction hprogram with
  | ret hrelated => exact hnext _ _ hrelated
  | raise error => exact .raise error
  | call _ ih => exact .call ih

theorem tryCatch {handler : ε → Program S ε α} {renderedHandler : η → Program T η β}
    (hprogram : Renders rendering related program rendered)
    (hhandler : ∀ error,
      Renders rendering related (handler error) (renderedHandler (rendering.error error))) :
    Renders rendering related (MonadExcept.tryCatch program handler)
      (MonadExcept.tryCatch rendered renderedHandler) := by
  induction hprogram with
  | ret hrelated => exact .ret hrelated
  | raise error => exact hhandler error
  | call _ ih => exact .call ih

theorem perform (rendering : Rendering S T ε η) (op : S.Op) :
    Renders rendering (fun value other => rendering.value op value = other)
      (.perform op : Program S ε _) (.perform (rendering.op op) : Program T η _) := by
  refine .call fun answer => ?_
  cases answer with
  | ok value => exact .ret rfl
  | error error => exact .raise error

end Renders

end EveBuild.Effect
