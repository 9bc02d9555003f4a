import EveBuild.Effect.Alone
import EveBuild.Effect.Log

/-!
# Cleaning up

`try … finally` around tasks that are run one after the other until one raises.  What is done
in the end depends on which tasks have succeeded (`tryFinally`), and an error that is raised
there takes the place of one that the tasks have raised.

`Performed` says what a run of such tasks looks like, whether they are those of a loop or of a
`try` block.
-/

namespace EveBuild.Effect

variable {S : Signature} {ε α : Type}

namespace Program

/-- The tasks, one after the other, until one raises: the items whose tasks have succeeded, and
the outcome. -/
def untilRaised (task : α → Program S ε Unit) : List α → Program S ε (List α × Except ε Unit)
  | [] => return ([], .ok ())
  | item :: items => do
      match ← attempt (task item) with
      | .ok () =>
          let (done, outcome) ← untilRaised task items
          return (item :: done, outcome)
      | .error error => return ([], .error error)

/-- `try … finally`, where the cleanup is told which tasks have succeeded. -/
def tryFinally (task : α → Program S ε Unit) (cleanup : List α → Program S ε Unit)
    (items : List α) : Program S ε Unit := do
  let (done, outcome) ← untilRaised task items
  cleanup done
  ofExcept outcome

/-- **A run of tasks.**  Those of `done` have succeeded one after the other, and the next one, if
there is one, has raised. -/
inductive Performed (task : α → Program S ε Unit) :
    List α → List α → List (Call S ε) → Except ε Unit → Prop
  | nil : Performed task [] [] [] (.ok ())
  | raise {item items own error} (hran : Ran (task item) own (.error error)) :
      Performed task (item :: items) [] own (.error error)
  | cons {item items done first rest outcome} (hran : Ran (task item) first (.ok ()))
      (hrest : Performed task items done rest outcome) :
      Performed task (item :: items) (item :: done) (rest ++ first) outcome

variable {task : α → Program S ε Unit} {cleanup : List α → Program S ε Unit} {item : α}
  {items front back done : List α} {own : List (Call S ε)} {outcome : Except ε Unit}

/-- Calls that are all allowed. -/
theorem issues_of_forall {β : Type} {allowed : S.Op → Prop} (hallowed : ∀ op, allowed op)
    (program : Program S ε β) : program.Issues allowed := by
  induction program with
  | ret value => trivial
  | raise error => trivial
  | call op next ih => exact ⟨hallowed op, ih⟩

/-- A call of two logs, with the calls before it. -/
theorem cons_suffix_append {call : Call S ε} {earlier first last : List (Call S ε)}
    (hsuffix : call :: earlier <:+ last ++ first) :
    call :: earlier <:+ first ∨
      ∃ between, call :: between <:+ last ∧ earlier = between ++ first := by
  rcases List.suffix_or_suffix_of_suffix hsuffix (List.suffix_append last first) with
    hfirst | ⟨between, heq⟩
  · exact Or.inl hfirst
  · cases between with
    | nil => exact Or.inl ⟨[], heq.symm⟩
    | cons other between =>
        obtain ⟨rfl, rfl⟩ := List.cons.inj heq
        exact Or.inr ⟨between, List.suffix_append_self_iff.mp hsuffix, rfl⟩

/-! ## Runs of tasks -/

/-- An attempt ends with the outcome of its program. -/
theorem Ran.of_attempt {β : Type} {program : Program S ε β} {result : Except ε (Except ε β)}
    (hran : Ran program.attempt own result) :
    ∃ outcome, result = .ok outcome ∧ Ran program own outcome := by
  rcases hran.of_tryCatch with ⟨outcome, rfl, hbind⟩ | ⟨error, first, rest, rfl, hbind, hrest⟩
  · rcases hbind.of_bind with ⟨value, first, rest, rfl, hfirst, hrest⟩ | ⟨error, heq, _⟩
    · obtain ⟨rfl, heq⟩ := hrest.of_ret
      cases heq
      exact ⟨_, rfl, hfirst⟩
    · cases heq
  · obtain ⟨rfl, rfl⟩ := hrest.of_ret
    rcases hbind.of_bind with ⟨value, _, _, _, _, hnext⟩ | ⟨other, heq, hfirst⟩
    · cases hnext.of_ret.2
    · cases heq
      exact ⟨_, rfl, hfirst⟩

theorem Ran.performed_of_forEach (hran : Ran (forEach task items) own outcome) :
    ∃ done, Performed task items done own outcome := by
  induction items generalizing own with
  | nil =>
      obtain ⟨rfl, rfl⟩ := hran.of_ret
      exact ⟨[], .nil⟩
  | cons item items ih =>
      rcases hran.of_bind with ⟨_, first, rest, rfl, hfirst, hrest⟩ | ⟨error, rfl, hraised⟩
      · obtain ⟨done, hdone⟩ := ih hrest
        exact ⟨item :: done, .cons hfirst hdone⟩
      · exact ⟨[], .raise hraised⟩

theorem Ran.performed_of_untilRaised {result : Except ε (List α × Except ε Unit)}
    (hran : Ran (untilRaised task items) own result) :
    ∃ done outcome, result = .ok (done, outcome) ∧ Performed task items done own outcome := by
  induction items generalizing own result with
  | nil =>
      obtain ⟨rfl, rfl⟩ := hran.of_ret
      exact ⟨[], _, rfl, .nil⟩
  | cons item items ih =>
      rcases hran.of_bind with ⟨value, first, rest, rfl, hfirst, hrest⟩ | ⟨error, rfl, hraised⟩
      · obtain ⟨outcome, heq, htask⟩ := hfirst.of_attempt
        cases heq
        cases value with
        | error error =>
            obtain ⟨rfl, rfl⟩ := hrest.of_ret
            exact ⟨[], _, rfl, .raise htask⟩
        | ok _ =>
            rcases hrest.of_bind with ⟨value, earlier, later, rfl, hitems, hlater⟩ |
              ⟨error, rfl, hraised⟩
            · obtain ⟨done, outcome, heq, hdone⟩ := ih hitems
              cases heq
              obtain ⟨rfl, rfl⟩ := hlater.of_ret
              exact ⟨item :: done, outcome, rfl, .cons htask hdone⟩
            · obtain ⟨_, _, heq, _⟩ := ih hraised
              cases heq
      · obtain ⟨_, heq, _⟩ := hraised.of_attempt
        cases heq

/-- **Cleaning up.**  The cleanup is run whatever the tasks come to, and its error is raised
rather than theirs. -/
theorem Ran.of_tryFinally (hran : Ran (tryFinally task cleanup items) own outcome) :
    ∃ done first last tried cleaned, own = last ++ first ∧ Performed task items done first tried ∧
      Ran (cleanup done) last cleaned ∧ outcome = cleaned >>= fun _ => tried := by
  rcases hran.of_bind with ⟨value, first, rest, rfl, hfirst, hrest⟩ | ⟨error, rfl, hraised⟩
  · obtain ⟨done, tried, heq, hdone⟩ := hfirst.performed_of_untilRaised
    cases heq
    rcases hrest.of_bind with ⟨_, last, later, rfl, hlast, hlater⟩ | ⟨error, rfl, hraised⟩
    · refine ⟨done, first, last, tried, .ok (), ?_, hdone, hlast, ?_⟩
      · cases tried with
        | ok _ => rw [hlater.of_ret.1, List.nil_append]
        | error _ => rw [hlater.of_raise.1, List.nil_append]
      · cases tried with
        | ok _ => exact hlater.of_ret.2
        | error _ => exact hlater.of_raise.2
    · exact ⟨done, first, rest, tried, .error error, rfl, hdone, hraised, rfl⟩
  · obtain ⟨_, _, heq, _⟩ := hraised.performed_of_untilRaised
    cases heq

/-! ## What has been performed -/

/-- All tasks have succeeded, or all before one that has raised. -/
theorem Performed.done_cases (hperformed : Performed task items done own outcome) :
    (done = items ∧ outcome = .ok ()) ∨
    ∃ item rest first last error, items = done ++ item :: rest ∧ own = last ++ first ∧
      Ran (task item) last (.error error) ∧ outcome = .error error := by
  induction hperformed with
  | nil => exact Or.inl ⟨rfl, rfl⟩
  | @raise item items own error hran =>
      exact Or.inr ⟨item, items, [], own, error, rfl, (List.append_nil own).symm, hran, rfl⟩
  | @cons item items done first rest outcome hran _ ih =>
      rcases ih with ⟨rfl, rfl⟩ | ⟨raised, others, earlier, last, error, rfl, rfl, hraised, rfl⟩
      · exact Or.inl ⟨rfl, rfl⟩
      · exact Or.inr ⟨raised, others, earlier ++ first, last, error, rfl,
          List.append_assoc .., hraised, rfl⟩

/-- A task that has succeeded has run. -/
theorem Performed.ran_of_mem (hperformed : Performed task items done own outcome)
    (hitem : item ∈ done) : ∃ ran, Ran (task item) ran (.ok ()) ∧ ran <:+: own := by
  induction hperformed with
  | nil => cases hitem
  | raise => cases hitem
  | @cons other items done first rest outcome hran _ ih =>
      rcases List.mem_cons.mp hitem with rfl | hitem
      · exact ⟨first, hran, (List.suffix_append rest first).isInfix⟩
      · obtain ⟨ran, htask, hinfix⟩ := ih hitem
        exact ⟨ran, htask, hinfix.trans (List.prefix_append rest first).isInfix⟩

/-- A call is one of a task that has succeeded or of the one that has raised. -/
theorem Performed.exists_of_mem (hperformed : Performed task items done own outcome)
    {call : Call S ε} (hcall : call ∈ own) :
    ∃ item ∈ items, ∃ ran result, Ran (task item) ran result ∧ call ∈ ran ∧
      (item ∈ done ∨ ∃ error, result = .error error) := by
  induction hperformed with
  | nil => cases hcall
  | @raise item items own error hran =>
      exact ⟨item, List.mem_cons_self, own, _, hran, hcall, Or.inr ⟨error, rfl⟩⟩
  | @cons item items done first rest outcome hran _ ih =>
      rcases List.mem_append.mp hcall with hcall | hcall
      · obtain ⟨other, hother, ran, result, htask, hran, hdone⟩ := ih hcall
        exact ⟨other, List.mem_cons_of_mem _ hother, ran, result, htask, hran,
          hdone.imp_left (List.mem_cons_of_mem _)⟩
      · exact ⟨item, List.mem_cons_self, first, _, hran, hcall, Or.inl List.mem_cons_self⟩

/-- The first tasks come first. -/
theorem Performed.of_append (hperformed : Performed task (front ++ back) done own outcome) :
    (∃ error, Performed task front done own (.error error) ∧ outcome = .error error) ∨
    ∃ rest first last, done = front ++ rest ∧ own = last ++ first ∧
      Performed task front front first (.ok ()) ∧ Performed task back rest last outcome := by
  induction front generalizing done own with
  | nil => exact Or.inr ⟨done, [], own, rfl, (List.append_nil own).symm, .nil, hperformed⟩
  | cons item front ih =>
      cases hperformed with
      | @raise _ _ _ error hran => exact Or.inl ⟨error, .raise hran, rfl⟩
      | @cons _ _ done first rest _ hran hrest =>
          rcases ih hrest with ⟨error, hfront, rfl⟩ |
            ⟨others, earlier, last, rfl, rfl, hfront, hback⟩
          · exact Or.inl ⟨error, .cons hran hfront, rfl⟩
          · exact Or.inr ⟨others, earlier ++ first, last, rfl, List.append_assoc ..,
              .cons hran hfront, hback⟩

end Program

end EveBuild.Effect
