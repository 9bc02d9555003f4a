import EveBuild.BuildChain.Model
import Mathlib.Data.Finset.Card
import Mathlib.Logic.Relation

/-!
# What `_topological_order` lists

The source walks depth first from the target and appends a step when all its
materials have been visited.  The walk marks a type before it looks at its
materials, so it also ends on cyclic tables.

`Visits` is the contract of one call of `visit`: which types it marks, which
steps it appends, and that every newly marked step has all its materials marked.
The contracts of the calls of a loop compose (`Visits.trans`), and a call is
granted its contract as soon as its fuel exceeds the number of steps that are
not visited yet (`visits_visit`).  From the empty set of visited types the
contract says that the listed steps are those of the types reachable from the
target (`mem_topologicalOrder_iff`), each once (`nodup_topologicalOrder`).
-/

namespace EveBuild.BuildChain

variable {stepsByTypeId : Dict TypeId BuildStep}

/-- Every step of the dictionary is filed under its own type. -/
def KeyedByType (stepsByTypeId : Dict TypeId BuildStep) : Prop :=
  ∀ typeId step, stepsByTypeId.get? typeId = some step → step.typeId = typeId

/-- `material` is listed among the materials of the step of `typeId`. -/
def Uses (stepsByTypeId : Dict TypeId BuildStep) (typeId material : TypeId) : Prop :=
  ∃ step, stepsByTypeId.get? typeId = some step ∧ material ∈ step.materials.keys

/-- `typeId` is below `target` in the dictionary of steps. -/
def Below (stepsByTypeId : Dict TypeId BuildStep) (target typeId : TypeId) : Prop :=
  Relation.ReflTransGen (Uses stepsByTypeId) target typeId

/-- The number of steps whose type has not been visited. -/
def unvisited (stepsByTypeId : Dict TypeId BuildStep) (visited : Finset TypeId) : ℕ :=
  (stepsByTypeId.keys.toFinset \ visited).card

theorem unvisited_anti {visited later : Finset TypeId} (h : visited ⊆ later) :
    unvisited stepsByTypeId later ≤ unvisited stepsByTypeId visited :=
  Finset.card_le_card (Finset.sdiff_subset_sdiff (Finset.Subset.refl _) h)

theorem unvisited_insert_lt {visited : Finset TypeId} {typeId : TypeId}
    (hkey : typeId ∈ stepsByTypeId.keys) (hnew : typeId ∉ visited) :
    unvisited stepsByTypeId (insert typeId visited) < unvisited stepsByTypeId visited := by
  refine Finset.card_lt_card (Finset.ssubset_iff_of_subset
    (Finset.sdiff_subset_sdiff (Finset.Subset.refl _) (Finset.subset_insert _ _))|>.mpr ?_)
  exact ⟨typeId, by simp [hkey, hnew], by simp⟩

/-! ## The contract of a call -/

/-- What a call does that starts with the types `visited` marked, ends with
`later` marked and appends `fresh` to the ordered steps. -/
structure Visits (stepsByTypeId : Dict TypeId BuildStep) (visited later : Finset TypeId)
    (fresh : List BuildStep) : Prop where
  subset : visited ⊆ later
  listed : ∀ step ∈ fresh, stepsByTypeId.get? step.typeId = some step ∧
    step.typeId ∉ visited ∧ step.typeId ∈ later
  nodup : (fresh.map BuildStep.typeId).Nodup
  closed : ∀ typeId ∈ later, typeId ∉ visited → ∀ step, stepsByTypeId.get? typeId = some step →
    step ∈ fresh ∧ ∀ material ∈ step.materials.keys, material ∈ later

theorem Visits.refl (visited : Finset TypeId) : Visits stepsByTypeId visited visited [] :=
  ⟨Finset.Subset.refl _, by simp, List.nodup_nil, fun _ hlater hnew => absurd hlater hnew⟩

/-- A type without a step is only marked. -/
theorem Visits.leaf {visited : Finset TypeId} {typeId : TypeId}
    (hnone : stepsByTypeId.get? typeId = none) :
    Visits stepsByTypeId visited (insert typeId visited) [] := by
  refine ⟨Finset.subset_insert _ _, by simp, List.nodup_nil, ?_⟩
  intro other hother hnew step hstep
  rcases Finset.mem_insert.mp hother with rfl | hother
  · rw [hnone] at hstep
    exact absurd hstep (Option.some_ne_none step).symm
  · exact absurd hother hnew

theorem Visits.trans {visited middle later : Finset TypeId} {first second : List BuildStep}
    (hfirst : Visits stepsByTypeId visited middle first)
    (hsecond : Visits stepsByTypeId middle later second) :
    Visits stepsByTypeId visited later (first ++ second) where
  subset := hfirst.subset.trans hsecond.subset
  listed := by
    intro step hstep
    rcases List.mem_append.mp hstep with hstep | hstep
    · obtain ⟨hget, hnew, hmiddle⟩ := hfirst.listed step hstep
      exact ⟨hget, hnew, hsecond.subset hmiddle⟩
    · obtain ⟨hget, hnew, hlater⟩ := hsecond.listed step hstep
      exact ⟨hget, fun hvisited => hnew (hfirst.subset hvisited), hlater⟩
  nodup := by
    rw [List.map_append]
    refine List.Nodup.append hfirst.nodup hsecond.nodup ?_
    -- what the second calls list was not marked when they began
    intro typeId h₁ h₂
    obtain ⟨step₁, hstep₁, rfl⟩ := List.mem_map.mp h₁
    obtain ⟨step₂, hstep₂, heq⟩ := List.mem_map.mp h₂
    exact (hsecond.listed step₂ hstep₂).2.1 (heq ▸ (hfirst.listed step₁ hstep₁).2.2)
  closed := by
    intro typeId hlater hnew step hstep
    by_cases hmiddle : typeId ∈ middle
    · obtain ⟨hmem, hmaterials⟩ := hfirst.closed typeId hmiddle hnew step hstep
      exact ⟨List.mem_append_left _ hmem, fun m hm => hsecond.subset (hmaterials m hm)⟩
    · obtain ⟨hmem, hmaterials⟩ := hsecond.closed typeId hlater hmiddle step hstep
      exact ⟨List.mem_append_right _ hmem, hmaterials⟩

/-- A type with a step: its materials are visited with the type marked, and then
its step is appended. -/
theorem Visits.node {visited later : Finset TypeId} {fresh : List BuildStep} {typeId : TypeId}
    {step : BuildStep} (hnew : typeId ∉ visited) (hstep : stepsByTypeId.get? typeId = some step)
    (hkeyed : step.typeId = typeId)
    (hmaterials : Visits stepsByTypeId (insert typeId visited) later fresh)
    (hmarked : ∀ material ∈ step.materials.keys, material ∈ later) :
    Visits stepsByTypeId visited later (fresh ++ [step]) where
  subset := (Finset.subset_insert _ _).trans hmaterials.subset
  listed := by
    intro other hother
    rcases List.mem_append.mp hother with hother | hother
    · obtain ⟨hget, hfresh, hlater⟩ := hmaterials.listed other hother
      exact ⟨hget, fun h => hfresh (Finset.mem_insert_of_mem h), hlater⟩
    · rw [List.mem_singleton.mp hother, hkeyed]
      exact ⟨hstep, hnew, hmaterials.subset (Finset.mem_insert_self _ _)⟩
  nodup := by
    rw [List.map_append, List.map_singleton, hkeyed]
    -- the type is marked before its materials are visited
    refine List.Nodup.append hmaterials.nodup (List.nodup_singleton _) ?_
    intro other h₁ h₂
    obtain ⟨first, hfirst, rfl⟩ := List.mem_map.mp h₁
    rw [List.mem_singleton] at h₂
    exact (hmaterials.listed first hfirst).2.1 (h₂ ▸ Finset.mem_insert_self _ _)
  closed := by
    intro other hlater hother otherStep hget
    by_cases heq : other = typeId
    · subst heq
      obtain rfl : step = otherStep := Option.some_inj.mp (hstep.symm.trans hget)
      exact ⟨by simp, hmarked⟩
    · have hnotMem : other ∉ insert typeId visited := by simp [heq, hother]
      obtain ⟨hmem, hall⟩ := hmaterials.closed other hlater hnotMem otherStep hget
      exact ⟨List.mem_append_left _ hmem, hall⟩

/-! ## `visit` keeps its contract -/

/-- A loop of calls keeps the contract when each call does, and marks all its types. -/
theorem visits_foldl {fuel : ℕ}
    (hcall : ∀ visited ordered typeId, unvisited stepsByTypeId visited < fuel →
      ∃ later fresh,
        visit stepsByTypeId fuel (visited, ordered) typeId = (later, ordered ++ fresh) ∧
          Visits stepsByTypeId visited later fresh ∧ typeId ∈ later) :
    ∀ (typeIds : List TypeId) (visited : Finset TypeId) (ordered : List BuildStep),
      unvisited stepsByTypeId visited < fuel →
      ∃ later fresh,
        typeIds.foldl (visit stepsByTypeId fuel) (visited, ordered) = (later, ordered ++ fresh) ∧
          Visits stepsByTypeId visited later fresh ∧ ∀ typeId ∈ typeIds, typeId ∈ later := by
  intro typeIds
  induction typeIds with
  | nil =>
      intro visited ordered _
      exact ⟨visited, [], by simp, Visits.refl visited, by simp⟩
  | cons typeId rest ih =>
      intro visited ordered hfuel
      obtain ⟨middle, first, hvisit, hfirst, hmarked⟩ := hcall visited ordered typeId hfuel
      obtain ⟨later, second, hfold, hsecond, hrest⟩ := ih middle (ordered ++ first)
        ((unvisited_anti hfirst.subset).trans_lt hfuel)
      refine ⟨later, first ++ second, ?_, hfirst.trans hsecond, ?_⟩
      · rw [List.foldl_cons, hvisit, hfold, List.append_assoc]
      · intro other hother
        rcases List.mem_cons.mp hother with rfl | hother
        · exact hsecond.subset hmarked
        · exact hrest other hother

theorem visits_visit (hkeyed : KeyedByType stepsByTypeId) :
    ∀ (fuel : ℕ) (visited : Finset TypeId) (ordered : List BuildStep) (typeId : TypeId),
      unvisited stepsByTypeId visited < fuel →
      ∃ later fresh,
        visit stepsByTypeId fuel (visited, ordered) typeId = (later, ordered ++ fresh) ∧
          Visits stepsByTypeId visited later fresh ∧ typeId ∈ later := by
  intro fuel
  induction fuel with
  | zero => intro _ _ _ hfuel; exact absurd hfuel (Nat.not_lt_zero _)
  | succ fuel ih =>
      intro visited ordered typeId hfuel
      by_cases hvisited : typeId ∈ visited
      · exact ⟨visited, [], by simp [visit, hvisited], Visits.refl visited, hvisited⟩
      cases hstep : stepsByTypeId.get? typeId with
      | none =>
          exact ⟨insert typeId visited, [], by simp [visit, hvisited, hstep],
            Visits.leaf hstep, Finset.mem_insert_self _ _⟩
      | some step =>
          have hkey : typeId ∈ stepsByTypeId.keys := Dict.mem_keys_iff.mpr ⟨step, hstep⟩
          -- marking a type that has a step leaves fewer to visit, so that the fuel suffices
          have hless := unvisited_insert_lt hkey hvisited
          obtain ⟨later, fresh, hfold, hvisits, hmarked⟩ :=
            visits_foldl ih step.materials.keys (insert typeId visited) ordered (by omega)
          refine ⟨later, fresh ++ [step], ?_,
            hvisits.node hvisited hstep (hkeyed typeId step hstep) hmarked,
            hvisits.subset (Finset.mem_insert_self _ _)⟩
          simp [visit, hvisited, hstep, hfold]

/-! ## The ordered steps -/

/-- The fuel of `topologicalOrder` suffices. -/
theorem unvisited_empty_lt (stepsByTypeId : Dict TypeId BuildStep) :
    unvisited stepsByTypeId ∅ < stepsByTypeId.entries.length + 1 := by
  have hcard := stepsByTypeId.keys.toFinset_card_le
  simp only [unvisited, Finset.sdiff_empty]
  simp only [Dict.keys, List.length_map] at hcard ⊢
  omega

theorem visits_topologicalOrder (hkeyed : KeyedByType stepsByTypeId) (target : TypeId) :
    ∃ later, Visits stepsByTypeId ∅ later (topologicalOrder target stepsByTypeId) ∧
      target ∈ later := by
  obtain ⟨later, fresh, hvisit, hvisits, hmarked⟩ :=
    visits_visit hkeyed _ ∅ [] target (unvisited_empty_lt stepsByTypeId)
  refine ⟨later, ?_, hmarked⟩
  rw [topologicalOrder, hvisit]
  exact hvisits

/-- Everything below a visited type is visited. -/
theorem Visits.mem_of_below {later : Finset TypeId} {fresh : List BuildStep}
    (hvisits : Visits stepsByTypeId ∅ later fresh) {target typeId : TypeId}
    (htarget : target ∈ later) (hbelow : Below stepsByTypeId target typeId) : typeId ∈ later := by
  induction hbelow with
  | refl => exact htarget
  | tail _ huses ih =>
      obtain ⟨step, hstep, hmaterial⟩ := huses
      exact (hvisits.closed _ ih (Finset.notMem_empty _) step hstep).2 _ hmaterial

/-- No type is listed twice. -/
theorem nodup_topologicalOrder (hkeyed : KeyedByType stepsByTypeId) (target : TypeId) :
    ((topologicalOrder target stepsByTypeId).map BuildStep.typeId).Nodup := by
  obtain ⟨later, hvisits, _⟩ := visits_topologicalOrder hkeyed target
  exact hvisits.nodup

/-- **The reordering drops nothing and adds nothing.**  When every step is below
the target, the listed steps are exactly the steps of the dictionary. -/
theorem mem_topologicalOrder_iff (hkeyed : KeyedByType stepsByTypeId) {target : TypeId}
    (hbelow : ∀ typeId ∈ stepsByTypeId.keys, Below stepsByTypeId target typeId)
    {step : BuildStep} :
    step ∈ topologicalOrder target stepsByTypeId ↔ step ∈ stepsByTypeId.values := by
  obtain ⟨later, hvisits, htarget⟩ := visits_topologicalOrder hkeyed target
  constructor
  · intro hstep
    exact List.mem_map.mpr ⟨_, Dict.get?_eq_some_iff.mp (hvisits.listed step hstep).1, rfl⟩
  · intro hstep
    obtain ⟨⟨typeId, step⟩, hentry, rfl⟩ := List.mem_map.mp hstep
    have hget := Dict.get?_eq_some_iff.mpr hentry
    have hlater := hvisits.mem_of_below htarget (hbelow typeId (Dict.mem_keys_of_mem hentry))
    exact (hvisits.closed typeId hlater (Finset.notMem_empty _) step hget).1

theorem topologicalOrder_perm (hkeyed : KeyedByType stepsByTypeId) {target : TypeId}
    (hbelow : ∀ typeId ∈ stepsByTypeId.keys, Below stepsByTypeId target typeId) :
    (topologicalOrder target stepsByTypeId).Perm stepsByTypeId.values := by
  have hvalues : stepsByTypeId.values.map BuildStep.typeId = stepsByTypeId.keys := by
    simp only [Dict.values, Dict.keys, List.map_map]
    refine List.map_congr_left fun entry hentry => ?_
    exact hkeyed _ _ (Dict.get?_eq_some_iff.mpr hentry)
  refine (List.perm_ext_iff_of_nodup (nodup_topologicalOrder hkeyed target).of_map ?_).mpr
    fun step => mem_topologicalOrder_iff hkeyed hbelow
  exact List.Nodup.of_map BuildStep.typeId (hvalues ▸ stepsByTypeId.nodup_keys)

end EveBuild.BuildChain
