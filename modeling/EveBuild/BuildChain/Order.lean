import EveBuild.BuildChain.Rounding
import EveBuild.Data.Acyclic

/-!
# Steps in the order of building

When no step needs its own type, not even by way of others, `_topological_order` lists a
step after all steps whose types are among its materials, and the target's step last.

The walk marks a type before it visits the materials, so that a marked type need not be
listed yet: it may still be open, which means that the walk has come here from it.
`Lists` is the contract of one call in this respect.  A step that it lists is below the
type of the call, and the materials of the step that have steps come before it or were
marked when the call began.  What the call itself opens is the one exception, and that a
step below a type needs this type is a cycle (`Lists.node`).
-/

namespace EveBuild.BuildChain

variable {stepsByTypeId : Dict TypeId BuildStep}

/-- No step needs its own type, not even by way of other steps. -/
def Acyclic (stepsByTypeId : Dict TypeId BuildStep) : Prop := NoCycle (Uses stepsByTypeId)

/-! ## The contract of a call -/

/-- What a call for `user` lists that starts with the types `visited` marked. -/
structure Lists (stepsByTypeId : Dict TypeId BuildStep) (user : TypeId) (visited : Finset TypeId)
    (fresh : List BuildStep) : Prop where
  below : ∀ step ∈ fresh, Below stepsByTypeId user step.typeId
  order : ∀ before step after, fresh = before ++ step :: after →
    ∀ material ∈ step.materials.keys, ∀ used, stepsByTypeId.get? material = some used →
      material ∈ visited ∨ used ∈ before

theorem Lists.nil (user : TypeId) (visited : Finset TypeId) :
    Lists stepsByTypeId user visited [] where
  below := by simp
  order := by simp

/-- What is listed below a material is listed below its user. -/
theorem Lists.of_uses {user material : TypeId} {visited : Finset TypeId} {fresh : List BuildStep}
    (huses : Uses stepsByTypeId user material)
    (hlists : Lists stepsByTypeId material visited fresh) :
    Lists stepsByTypeId user visited fresh where
  below := fun step hstep => (hlists.below step hstep).head huses
  order := hlists.order

theorem Lists.append {user : TypeId} {visited middle : Finset TypeId}
    {first second : List BuildStep} (hvisits : Visits stepsByTypeId visited middle first)
    (hfirst : Lists stepsByTypeId user visited first)
    (hsecond : Lists stepsByTypeId user middle second) :
    Lists stepsByTypeId user visited (first ++ second) where
  below := by
    intro step hstep
    rcases List.mem_append.mp hstep with hstep | hstep
    · exact hfirst.below step hstep
    · exact hsecond.below step hstep
  order := by
    intro before step after hsplit material hmaterial used hused
    -- what the first calls have marked was marked before, or they have listed its step
    have hlisted : material ∈ middle → material ∈ visited ∨ used ∈ first := fun hmiddle =>
      (em (material ∈ visited)).imp_right fun hnew =>
        (hvisits.closed material hmiddle hnew used hused).1
    rcases List.append_eq_append_iff.mp hsplit with ⟨rest, rfl, hrest⟩ | ⟨rest, rfl, hrest⟩
    · -- the step is one of the second calls
      rcases hsecond.order rest step after hrest material hmaterial used hused with
        hmiddle | hbefore
      · exact (hlisted hmiddle).imp_right (List.mem_append_left _)
      · exact Or.inr (List.mem_append_right _ hbefore)
    · -- the step is one of the first calls, or the first of the second ones
      cases rest with
      | nil =>
          rw [List.append_nil] at hlisted
          rcases hsecond.order [] step after hrest.symm material hmaterial used hused with
            hmiddle | hbefore
          · exact hlisted hmiddle
          · cases hbefore
      | cons other rest =>
          obtain ⟨rfl, rfl⟩ := List.cons.inj hrest
          exact hfirst.order before step rest rfl material hmaterial used hused

/-- A type with a step: what is listed for its materials does not need it. -/
theorem Lists.node (hacyclic : Acyclic stepsByTypeId) {visited later : Finset TypeId}
    {fresh : List BuildStep} {typeId : TypeId} {step : BuildStep}
    (hstep : stepsByTypeId.get? typeId = some step) (hkeyed : step.typeId = typeId)
    (hvisits : Visits stepsByTypeId (insert typeId visited) later fresh)
    (hmarked : ∀ material ∈ step.materials.keys, material ∈ later)
    (hlists : Lists stepsByTypeId typeId (insert typeId visited) fresh) :
    Lists stepsByTypeId typeId visited (fresh ++ [step]) where
  below := by
    intro other hother
    rcases List.mem_append.mp hother with hother | hother
    · exact hlists.below other hother
    · rw [List.mem_singleton.mp hother, hkeyed]
      exact Relation.ReflTransGen.refl
  order := by
    intro before other after hsplit material hmaterial used hused
    rcases List.eq_nil_or_concat after with rfl | ⟨after', last, rfl⟩
    · -- the step of the type itself, which is listed last
      obtain ⟨rfl, hlast⟩ := List.append_inj' hsplit rfl
      obtain rfl := (List.cons.inj hlast).1
      by_cases hopen : material ∈ insert typeId visited
      · rcases Finset.mem_insert.mp hopen with rfl | hvisited
        · exact absurd (.single ⟨step, hstep, hmaterial⟩) (hacyclic material)
        · exact Or.inl hvisited
      · exact Or.inr (hvisits.closed material (hmarked material hmaterial) hopen used hused).1
    · have hfresh : fresh = before ++ other :: after' := by
        have happend : fresh ++ [step] = (before ++ other :: after') ++ [last] := by
          rw [hsplit, List.concat_eq_append, List.append_assoc, List.cons_append]
        exact (List.append_inj' happend rfl).1
      rcases hlists.order before other after' hfresh material hmaterial used hused with
        hopen | hbefore
      · rcases Finset.mem_insert.mp hopen with rfl | hvisited
        · -- a step below the type needs the type
          have hother : other ∈ fresh := hfresh ▸ List.mem_append_right _ (List.mem_cons_self ..)
          have huses : Uses stepsByTypeId other.typeId material :=
            ⟨other, (hvisits.listed other hother).1, hmaterial⟩
          exact absurd (Relation.TransGen.tail' (hlists.below other hother) huses)
            (hacyclic material)
        · exact Or.inl hvisited
      · exact Or.inr hbefore

/-! ## `visit` keeps its contract -/

/-- A loop of calls for the materials of a type keeps the contract when each call does. -/
theorem lists_foldl (hkeyed : KeyedByType stepsByTypeId) {fuel : ℕ} {user : TypeId}
    (hcall : ∀ visited ordered typeId later fresh, unvisited stepsByTypeId visited < fuel →
      visit stepsByTypeId fuel (visited, ordered) typeId = (later, ordered ++ fresh) →
        Lists stepsByTypeId typeId visited fresh) :
    ∀ (typeIds : List TypeId), (∀ typeId ∈ typeIds, Uses stepsByTypeId user typeId) →
      ∀ (visited : Finset TypeId) (ordered : List BuildStep) (later : Finset TypeId)
        (fresh : List BuildStep), unvisited stepsByTypeId visited < fuel →
        typeIds.foldl (visit stepsByTypeId fuel) (visited, ordered) = (later, ordered ++ fresh) →
        Lists stepsByTypeId user visited fresh := by
  intro typeIds
  -- the loop goes over the materials, and each call marks what it lists
  induction typeIds with
  | nil =>
      intro _ visited ordered later fresh _ hfold
      obtain rfl : fresh = [] := by simpa using (Prod.mk.inj hfold).2
      exact Lists.nil user visited
  | cons typeId rest ih =>
      intro huses visited ordered later fresh hfuel hfold
      obtain ⟨huse, hrest⟩ := List.forall_mem_cons.mp huses
      obtain ⟨middle, first, hvisit, hvisits, _⟩ :=
        visits_visit hkeyed fuel visited ordered typeId hfuel
      have hless := (unvisited_anti hvisits.subset).trans_lt hfuel
      obtain ⟨later', second, hfold', _, _⟩ :=
        visits_foldl (visits_visit hkeyed fuel) rest middle (ordered ++ first) hless
      rw [List.foldl_cons, hvisit, hfold', List.append_assoc] at hfold
      obtain rfl : first ++ second = fresh := List.append_cancel_left (Prod.mk.inj hfold).2
      have hfirst := hcall visited ordered typeId middle first hfuel hvisit
      exact (hfirst.of_uses huse).append hvisits (ih hrest middle _ later' second hless hfold')

theorem lists_visit (hkeyed : KeyedByType stepsByTypeId) (hacyclic : Acyclic stepsByTypeId) :
    ∀ (fuel : ℕ) (visited : Finset TypeId) (ordered : List BuildStep) (typeId : TypeId)
      (later : Finset TypeId) (fresh : List BuildStep), unvisited stepsByTypeId visited < fuel →
      visit stepsByTypeId fuel (visited, ordered) typeId = (later, ordered ++ fresh) →
      Lists stepsByTypeId typeId visited fresh := by
  intro fuel
  induction fuel with
  | zero => intro _ _ _ _ _ hfuel; exact absurd hfuel (Nat.not_lt_zero _)
  | succ fuel ih =>
      intro visited ordered typeId later fresh hfuel hvisit
      rw [visit] at hvisit
      split at hvisit
      · -- the type has been visited before
        obtain rfl : fresh = [] := by simpa using (Prod.mk.inj hvisit).2
        exact Lists.nil typeId visited
      · rename_i hnew
        cases hstep : stepsByTypeId.get? typeId with
        | none =>
            -- a raw material has no step
            simp only [hstep] at hvisit
            obtain rfl : fresh = [] := by simpa using (Prod.mk.inj hvisit).2
            exact Lists.nil typeId visited
        | some step =>
            have hkey : typeId ∈ stepsByTypeId.keys := Dict.mem_keys_iff.mpr ⟨step, hstep⟩
            have hless := unvisited_insert_lt hkey hnew
            obtain ⟨middle, below, hfold, hvisits, hmarked⟩ :=
              visits_foldl (visits_visit hkeyed fuel) step.materials.keys (insert typeId visited)
                ordered (by omega)
            simp only [hstep, hfold, List.append_assoc] at hvisit
            obtain rfl : below ++ [step] = fresh := List.append_cancel_left (Prod.mk.inj hvisit).2
            have hbelow := lists_foldl hkeyed ih step.materials.keys
              (fun material hmaterial => ⟨step, hstep, hmaterial⟩) (insert typeId visited) ordered
              middle below (by omega) hfold
            exact Lists.node hacyclic hstep (hkeyed typeId step hstep) hvisits hmarked hbelow

/-! ## The returned steps -/

/-- The steps are listed in an order in which they can be built. -/
structure BuildOrder (accumulated : Dict TypeId BuildStep) (target : TypeId)
    (steps : List BuildStep) : Prop where
  perm : steps.Perm accumulated.values
  nodup : (steps.map BuildStep.typeId).Nodup
  order : ∀ before step after, steps = before ++ step :: after →
    ∀ used ∈ steps, used.typeId ∈ step.materials.keys → used ∈ before
  last : steps.getLast? = accumulated.get? target

theorem getLast?_topologicalOrder (target : TypeId) :
    (topologicalOrder target stepsByTypeId).getLast? = stepsByTypeId.get? target := by
  rw [topologicalOrder, visit, if_neg (Finset.notMem_empty target)]
  cases stepsByTypeId.get? target with
  | none => rfl
  | some step => exact List.getLast?_concat ..

theorem buildOrder_topologicalOrder (hkeyed : KeyedByType stepsByTypeId)
    (hacyclic : Acyclic stepsByTypeId) {target : TypeId}
    (hbelow : ∀ typeId ∈ stepsByTypeId.keys, Below stepsByTypeId target typeId) :
    BuildOrder stepsByTypeId target (topologicalOrder target stepsByTypeId) where
  perm := topologicalOrder_perm hkeyed hbelow
  nodup := nodup_topologicalOrder hkeyed target
  last := getLast?_topologicalOrder target
  order := by
    intro before step after hsplit used hused hmaterial
    have hfuel := unvisited_empty_lt stepsByTypeId
    obtain ⟨later, fresh, hvisit, hvisits, _⟩ := visits_visit hkeyed _ ∅ [] target hfuel
    have hlists := lists_visit hkeyed hacyclic _ ∅ [] target later fresh hfuel hvisit
    have hfresh : topologicalOrder target stepsByTypeId = fresh := by
      rw [topologicalOrder, hvisit, List.nil_append]
    rw [hfresh] at hsplit hused
    have hget := (hvisits.listed used hused).1
    rcases hlists.order before step after hsplit used.typeId hmaterial used hget with
      hvisited | hbefore
    · exact absurd hvisited (Finset.notMem_empty _)
    · exact hbefore

theorem acyclic_nameSteps {typeName : TypeId → Option String} (hacyclic : Acyclic stepsByTypeId) :
    Acyclic (nameSteps typeName stepsByTypeId) := by
  intro typeId hcycle
  refine hacyclic typeId (Relation.TransGen.mono (fun user material huses => ?_) _ _ hcycle)
  obtain ⟨named, hnamed, hmaterial⟩ := huses
  rw [get?_nameSteps] at hnamed
  obtain ⟨step, hstep, rfl⟩ := Option.map_eq_some_iff.mp hnamed
  exact ⟨step, hstep, hmaterial⟩

variable {ceilQuotient : ℤ → ℤ → Except ArithmeticError ℤ} {db : List Blueprint}
  {target : TypeId} {buildSet : Finset TypeId}

/-- **The steps come in a buildable order.**  When the accumulated steps do not need each
other in a cycle, each of them is listed once, after the steps of its materials, and the
target's step is the last one. -/
theorem steps_in_build_order (typeName : TypeId → Option String) {targetQuantity : ℤ}
    {walk : Walk} {leftover : Dict TypeId ℤ}
    (hlevels : resolveLevels ceilQuotient db target buildSet targetQuantity =
      .ok (walk, leftover))
    (hacyclic : Acyclic walk.stepsByTypeId) :
    ∃ resolution, resolveBuildChain ceilQuotient db target buildSet typeName targetQuantity =
        .ok resolution ∧
      BuildOrder (nameSteps typeName walk.stepsByTypeId) target resolution.steps := by
  obtain ⟨resolution, hresolve⟩ : ∃ resolution,
      resolveBuildChain ceilQuotient db target buildSet typeName targetQuantity = .ok resolution :=
    ⟨_, bind_eq_ok.mpr ⟨_, hlevels, rfl⟩⟩
  refine ⟨resolution, hresolve, ?_⟩
  obtain ⟨walk', leftover', hlevels', hsteps, _⟩ := resolveBuildChain_cases hresolve
  obtain ⟨rfl, rfl⟩ := Prod.mk.inj (Except.ok.inj (hlevels.symm.trans hlevels'))
  have haccounted := resolveLevels_accounted hlevels
  rw [hsteps]
  refine buildOrder_topologicalOrder (keyedByType_nameSteps haccounted.keyed)
    (acyclic_nameSteps hacyclic) fun typeId htypeId => ?_
  rw [keys_nameSteps] at htypeId
  exact below_nameSteps (haccounted.below typeId htypeId)

theorem steps_in_build_order_twoDepths :
    ∃ walk leftover resolution,
      resolveLevels exactCeil twoDepths 1 {2, 3} 1 = .ok (walk, leftover) ∧
      resolveBuildChain exactCeil twoDepths 1 {2, 3} (fun _ => none) 1 = .ok resolution ∧
      Acyclic walk.stepsByTypeId ∧
      BuildOrder (nameSteps (fun _ => none) walk.stepsByTypeId) 1 resolution.steps := by
  have hacyclic : ∀ walk leftover,
      resolveLevels exactCeil twoDepths 1 {2, 3} 1 = .ok (walk, leftover) →
        Acyclic walk.stepsByTypeId := by
    intro walk leftover hlevels
    have hless : ∀ entry ∈ walk.stepsByTypeId.entries,
        ∀ material ∈ entry.2.materials.keys, entry.1 < material := by
      cases hlevels
      decide
    refine noCycle_of_lt (T := ℤᵒᵈ) ?_
    rintro user material ⟨step, hstep, hmaterial⟩
    exact hless _ (Dict.get?_eq_some_iff.mp hstep) material hmaterial
  obtain ⟨walk, leftover, hlevels⟩ : ∃ walk leftover,
      resolveLevels exactCeil twoDepths 1 {2, 3} 1 = .ok (walk, leftover) := ⟨_, _, rfl⟩
  obtain ⟨resolution, hresolve, horder⟩ :=
    steps_in_build_order (fun _ => none) hlevels (hacyclic walk leftover hlevels)
  exact ⟨walk, leftover, resolution, hlevels, hresolve, hacyclic walk leftover hlevels, horder⟩

end EveBuild.BuildChain
