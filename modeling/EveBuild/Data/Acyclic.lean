import Mathlib.Data.Set.Card
import Mathlib.Logic.Relation

/-!
# Acyclic relations on finitely many things

`height` counts which of finitely many things can be reached from one.  Along a relation
without cycles it decreases (`height_lt`), so that a recursion along the relation ends
within as many steps as there are things, and a definition by it is well-founded.
-/

namespace EveBuild

variable {T : Type*} (next : T → T → Prop) (things : Finset T)

/-- No thing leads back to itself. -/
def NoCycle : Prop := ∀ thing, ¬ Relation.TransGen next thing thing

variable {next} in
/-- A relation that only leads downwards has no cycle. -/
theorem noCycle_of_lt [Preorder T] (hlt : ∀ user thing, next user thing → thing < user) :
    NoCycle next := by
  have hpath : ∀ user thing, Relation.TransGen next user thing → thing < user := by
    intro user thing hpath
    induction hpath with
    | single hnext => exact hlt _ _ hnext
    | tail _ hnext ih => exact (hlt _ _ hnext).trans ih
  exact fun thing hcycle => lt_irrefl _ (hpath thing thing hcycle)

/-- How many of the things can be reached. -/
noncomputable def height (thing : T) : ℕ :=
  {other | other ∈ things ∧ Relation.ReflTransGen next thing other}.ncard

variable {next things}

theorem finite_reached (thing : T) :
    {other | other ∈ things ∧ Relation.ReflTransGen next thing other}.Finite :=
  things.finite_toSet.subset fun _ hother => hother.1

theorem height_le (thing : T) : height next things thing ≤ things.card := by
  rw [← Set.ncard_coe_finset]
  exact Set.ncard_le_ncard (fun _ hother => hother.1) things.finite_toSet

theorem height_lt (hacyclic : NoCycle next) {user thing : T} (huser : user ∈ things)
    (hnext : next user thing) : height next things thing < height next things user := by
  refine Set.ncard_lt_ncard (Set.ssubset_iff_of_subset ?_ |>.mpr ⟨user, ?_, ?_⟩)
    (finite_reached user)
  · exact fun other hother => ⟨hother.1, hother.2.head hnext⟩
  · exact ⟨huser, Relation.ReflTransGen.refl⟩
  · -- the user is not reached from below itself
    exact fun hback => hacyclic user (Relation.TransGen.head' hnext hback.2)

theorem wellFounded_of_noCycle (hacyclic : NoCycle next)
    (hthings : ∀ user thing, next user thing → user ∈ things) :
    WellFounded fun thing user => next user thing := by
  refine Subrelation.wf ?_ (measure (height next things)).wf
  intro thing user hnext
  exact height_lt hacyclic (hthings user thing hnext) hnext

end EveBuild
