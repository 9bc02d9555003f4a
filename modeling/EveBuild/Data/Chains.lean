import Mathlib.Logic.Relation

/-!
# Chains: relations that lead from each thing to at most one

A chain either ends, at a thing from which the relation leads nowhere, or it comes back to a
thing that it has left.  It does not do both (`not_circles_of_ends`), its end is unique
(`ends_unique`) and it is the end of every later part of the chain (`Ends.of_next`).
-/

namespace EveBuild

open Relation

variable {T : Type*} {next : T → T → Prop}

/-- Following `next` from `thing`, one arrives at `last` and cannot go on. -/
def Ends (next : T → T → Prop) (thing last : T) : Prop :=
  ReflTransGen next thing last ∧ ∀ further, ¬ next last further

/-- Following `next` from `thing`, one arrives at something that leads back to itself. -/
def Circles (next : T → T → Prop) (thing : T) : Prop :=
  ∃ again, ReflTransGen next thing again ∧ TransGen next again again

theorem Ends.of_next {thing following last : T} (hnext : next thing following)
    (hends : Ends next following last) : Ends next thing last :=
  ⟨hends.1.head hnext, hends.2⟩

theorem Circles.of_next {thing following : T} (hnext : next thing following)
    (hcircles : Circles next following) : Circles next thing := by
  obtain ⟨again, hpath, hcycle⟩ := hcircles
  exact ⟨again, hpath.head hnext, hcycle⟩

/-- Nothing but the last thing is reached from the last thing. -/
theorem Ends.eq_of_reached {thing last other : T} (hends : Ends next thing last)
    (hpath : ReflTransGen next last other) : other = last := by
  rcases hpath.cases_head with heq | ⟨further, hnext, -⟩
  · exact heq.symm
  · exact absurd hnext (hends.2 further)

theorem ends_unique (hunique : Relator.RightUnique next) {thing first second : T}
    (hfirst : Ends next thing first) (hsecond : Ends next thing second) : first = second := by
  rcases ReflTransGen.total_of_right_unique hunique hfirst.1 hsecond.1 with hpath | hpath
  · exact (hfirst.eq_of_reached hpath).symm
  · exact hsecond.eq_of_reached hpath

/-- A chain that passes through a cycle stays on it. -/
theorem reaches_back (hunique : Relator.RightUnique next) {again other : T}
    (hcycle : TransGen next again again) (hpath : ReflTransGen next again other) :
    TransGen next other again := by
  induction hpath with
  | refl => exact hcycle
  | tail _ hnext ih =>
      -- the first step of the way back is the step that the path takes
      obtain ⟨further, hfurther, hback⟩ := TransGen.head'_iff.mp ih
      rw [hunique hfurther hnext] at hback
      rcases hback.cases_head with heq | ⟨beyond, hbeyond, hrest⟩
      · rw [heq]
        exact hcycle
      · exact TransGen.head' hbeyond hrest

theorem not_circles_of_ends (hunique : Relator.RightUnique next) {thing last : T}
    (hends : Ends next thing last) : ¬ Circles next thing := by
  rintro ⟨again, hpath, hcycle⟩
  have hback : TransGen next last again := by
    rcases ReflTransGen.total_of_right_unique hunique hends.1 hpath with hfrom | hto
    · rw [hends.eq_of_reached hfrom] at hcycle ⊢
      exact hcycle
    · exact reaches_back hunique hcycle hto
  obtain ⟨further, hfurther, -⟩ := TransGen.head'_iff.mp hback
  exact hends.2 further hfurther

end EveBuild
