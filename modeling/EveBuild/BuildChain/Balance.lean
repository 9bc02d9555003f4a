import EveBuild.BuildChain.Topological
import EveBuild.Data.Loops
import Mathlib.Tactic.Linarith
import Mathlib.Tactic.Ring

/-!
# The material balance of a resolution

Whatever the blueprints, the build set and the rounding, the walk neither loses
demand nor counts it twice.  In the middle of a level the demand that is known so
far is the target's own plus everything the steps use, and it is accounted for in
four places: the steps' `quantityNeeded`, the raw totals, the entries of the
current level that are still to be visited, and the next level.  `Accounted` says
so for every type, together with what the steps record about their blueprints and
with the fact that every type the walk meets is below the target.

`visitType` preserves `Accounted` (`Accounted.visitType`), so a level does, so
the loop does (`levelLoop_accounted`), and adding what the depth guard leaves to
the raw totals closes the balance (`material_balance`).
-/

namespace EveBuild.BuildChain

/-! ## What one visit does -/

variable {ceilQuotient : ℤ → ℤ → Except ArithmeticError ℤ} {db : List Blueprint}
  {target : TypeId} {buildSet : Finset TypeId}

/-- The quantity that the walk has recorded as needed of a step's type. -/
def Walk.needed (walk : Walk) (typeId : TypeId) : ℤ :=
  (walk.stepsByTypeId.get? typeId).elim 0 BuildStep.quantityNeeded

/-- The quantity of a material that all steps together use. -/
def Walk.used (walk : Walk) (material : TypeId) : ℤ :=
  (walk.stepsByTypeId.values.map fun step => step.materials.getD material 0).sum

/-- The quantity of a type in the raw totals. -/
def Walk.raw (walk : Walk) (typeId : TypeId) : ℤ := walk.rawTotals.getD typeId 0

theorem getD_addNeeds (additionalRuns : ℤ) (materials : List Material) (needs : Dict TypeId ℤ)
    (typeId : TypeId) :
    (addNeeds additionalRuns materials needs).getD typeId 0 =
      needs.getD typeId 0 + additionalRuns * Dict.tally
        (materials.map fun material => (material.typeId, material.quantity)) typeId := by
  induction materials generalizing needs with
  | nil => simp [addNeeds]
  | cons material rest ih =>
      have hrest := ih (needs.add material.typeId (material.quantity * additionalRuns))
      rw [Dict.getD_add] at hrest
      rw [addNeeds, List.foldl_cons, ← addNeeds, hrest, List.map_cons, Dict.tally_cons]
      by_cases heq : typeId = material.typeId
      · simp [heq]
        ring
      · simp [heq, Ne.symm heq]

theorem mem_keys_addNeeds {additionalRuns : ℤ} {materials : List Material}
    {needs : Dict TypeId ℤ} {typeId : TypeId} :
    typeId ∈ (addNeeds additionalRuns materials needs).keys ↔
      typeId ∈ needs.keys ∨ ∃ material ∈ materials, material.typeId = typeId := by
  induction materials generalizing needs with
  | nil => simp [addNeeds]
  | cons material rest ih =>
      have hrest := @ih (needs.add material.typeId (material.quantity * additionalRuns))
      rw [Dict.mem_keys_add] at hrest
      rw [addNeeds, List.foldl_cons, ← addNeeds, hrest]
      simp only [List.mem_cons, exists_eq_or_imp, eq_comm (a := typeId)]
      tauto

/-- **The outcomes of a visit.**  The type is bought, or it is built with the
rounded number of runs. -/
theorem visitType_cases {walk walk' : Walk} {nextLevel nextLevel' : Dict TypeId ℤ}
    {typeId : TypeId} {quantity : ℤ}
    (hvisit : visitType ceilQuotient db target buildSet (walk, nextLevel) (typeId, quantity) =
      .ok (walk', nextLevel')) :
    (expansion db target buildSet typeId = none ∧ nextLevel' = nextLevel ∧
        walk' = walk.buy typeId quantity (blueprintForProduct db typeId).isSome) ∨
      ∃ blueprint quotient, expansion db target buildSet typeId = some blueprint ∧
        ceilQuotient quantity blueprint.productQuantity = .ok quotient ∧
        walk' = walk.build typeId quantity blueprint (max 1 quotient) ∧
        nextLevel' = addNeeds (max 1 quotient) blueprint.materials nextLevel := by
  cases hexpansion : expansion db target buildSet typeId with
  | none =>
      simp only [visitType, hexpansion, pure, Except.pure, Except.ok.injEq, Prod.mk.injEq] at hvisit
      exact Or.inl ⟨rfl, hvisit.2.symm, hvisit.1.symm⟩
  | some blueprint =>
      simp only [visitType, hexpansion] at hvisit
      obtain ⟨quotient, hquotient, hresult⟩ := bind_eq_ok.mp hvisit
      simp only [pure, Except.pure, Except.ok.injEq, Prod.mk.injEq] at hresult
      exact Or.inr ⟨blueprint, quotient, rfl, hquotient, hresult.1.symm, hresult.2.symm⟩

theorem needed_buy (walk : Walk) (typeId other : TypeId) (quantity : ℤ) (isBuildable : Bool) :
    (walk.buy typeId quantity isBuildable).needed other = walk.needed other := rfl

theorem used_buy (walk : Walk) (typeId other : TypeId) (quantity : ℤ) (isBuildable : Bool) :
    (walk.buy typeId quantity isBuildable).used other = walk.used other := rfl

theorem raw_buy (walk : Walk) (typeId other : TypeId) (quantity : ℤ) (isBuildable : Bool) :
    (walk.buy typeId quantity isBuildable).raw other =
      walk.raw other + if other = typeId then quantity else 0 :=
  Dict.getD_add _ _ _ _

theorem raw_build (walk : Walk) (typeId other : TypeId) (quantity : ℤ) (blueprint : Blueprint)
    (runs : ℤ) : (walk.build typeId quantity blueprint runs).raw other = walk.raw other := rfl

theorem stepFor_of_get? {walk : Walk} {typeId : TypeId} {step : BuildStep}
    (hstep : walk.stepsByTypeId.get? typeId = some step) (productQuantity : ℤ) :
    walk.stepFor typeId productQuantity = step := by
  rw [Walk.stepFor, hstep, Option.getD_some]

theorem needed_build (walk : Walk) (typeId other : TypeId) (quantity : ℤ) (blueprint : Blueprint)
    (runs : ℤ) :
    (walk.build typeId quantity blueprint runs).needed other =
      walk.needed other + if other = typeId then quantity else 0 := by
  unfold Walk.needed Walk.build
  simp only [Dict.get?_set]
  by_cases heq : other = typeId
  · subst heq
    simp only [if_true, Option.elim]
    cases hstep : walk.stepsByTypeId.get? other <;> simp [Walk.stepFor, hstep]
  · simp [heq]

theorem used_build (walk : Walk) (typeId material : TypeId) (quantity : ℤ) (blueprint : Blueprint)
    (runs : ℤ) :
    (walk.build typeId quantity blueprint runs).used material =
      walk.used material + runs * blueprint.perRun material := by
  have hsum := Dict.sum_set walk.stepsByTypeId typeId
    { walk.stepFor typeId blueprint.productQuantity with
      quantityNeeded := (walk.stepFor typeId blueprint.productQuantity).quantityNeeded + quantity
      runs := (walk.stepFor typeId blueprint.productQuantity).runs + runs
      materials := addNeeds runs blueprint.materials
        (walk.stepFor typeId blueprint.productQuantity).materials }
    fun step => step.materials.getD material 0
  rw [getD_addNeeds] at hsum
  have hold : (walk.stepsByTypeId.get? typeId).elim 0 (fun step => step.materials.getD material 0) =
      (walk.stepFor typeId blueprint.productQuantity).materials.getD material 0 := by
    cases hstep : walk.stepsByTypeId.get? typeId <;> simp [Walk.stepFor, hstep]
  rw [hold] at hsum
  unfold Walk.used Walk.build Blueprint.perRun
  linarith

/-! ## The invariant -/

/-- In the middle of a level: `pending` are the entries of the current level that
are still to be visited, `nextLevel` is the level being built. -/
structure Accounted (db : List Blueprint) (target : TypeId) (buildSet : Finset TypeId)
    (targetQuantity : ℤ) (walk : Walk) (pending : List (TypeId × ℤ))
    (nextLevel : Dict TypeId ℤ) : Prop where
  balance : ∀ typeId, (if typeId = target then targetQuantity else 0) + walk.used typeId =
    walk.needed typeId + walk.raw typeId + Dict.tally pending typeId + nextLevel.getD typeId 0
  keyed : KeyedByType walk.stepsByTypeId
  recipe : ∀ typeId step, walk.stepsByTypeId.get? typeId = some step →
    ∃ blueprint, expansion db target buildSet typeId = some blueprint ∧
      step.productQuantity = blueprint.productQuantity ∧
      ∀ material, step.materials.getD material 0 = step.runs * blueprint.perRun material
  below : ∀ typeId ∈ walk.stepsByTypeId.keys, Below walk.stepsByTypeId target typeId
  pending_below : ∀ entry ∈ pending, Below walk.stepsByTypeId target entry.1
  next_below : ∀ typeId ∈ nextLevel.keys, Below walk.stepsByTypeId target typeId

/-- Adding runs to a step only adds to what its type uses. -/
theorem uses_build {walk : Walk} {typeId : TypeId} {quantity : ℤ} {blueprint : Blueprint}
    {runs : ℤ} {user material : TypeId} (huses : Uses walk.stepsByTypeId user material) :
    Uses (walk.build typeId quantity blueprint runs).stepsByTypeId user material := by
  obtain ⟨step, hstep, hmaterial⟩ := huses
  by_cases heq : user = typeId
  · subst heq
    refine ⟨_, by simp only [Walk.build, Dict.get?_set_self]; rfl, ?_⟩
    rw [stepFor_of_get? hstep]
    exact mem_keys_addNeeds.mpr (Or.inl hmaterial)
  · exact ⟨step, by simp only [Walk.build, Dict.get?_set, if_neg heq, hstep], hmaterial⟩

theorem below_build {walk : Walk} {typeId : TypeId} {quantity : ℤ} {blueprint : Blueprint}
    {runs : ℤ} {other : TypeId} (hbelow : Below walk.stepsByTypeId target other) :
    Below (walk.build typeId quantity blueprint runs).stepsByTypeId target other :=
  Relation.ReflTransGen.mono (fun _ _ => uses_build) _ _ hbelow

/-- The materials of the blueprint are below the target once the type's step is built. -/
theorem below_material_build {walk : Walk} {typeId : TypeId} {quantity : ℤ} {blueprint : Blueprint}
    {runs : ℤ} (hbelow : Below walk.stepsByTypeId target typeId) {material : Material}
    (hmaterial : material ∈ blueprint.materials) :
    Below (walk.build typeId quantity blueprint runs).stepsByTypeId target material.typeId := by
  refine (below_build hbelow).tail ⟨_, by simp only [Walk.build, Dict.get?_set_self]; rfl, ?_⟩
  exact mem_keys_addNeeds.mpr (Or.inr ⟨material, hmaterial, rfl⟩)

variable {targetQuantity : ℤ}

theorem Accounted.start :
    Accounted db target buildSet targetQuantity .start
      (Dict.single target targetQuantity).entries .empty where
  balance := by
    intro typeId
    by_cases heq : typeId = target
    · simp [heq, Walk.start, Walk.used, Walk.needed, Walk.raw, Dict.values]
    · simp [heq, Ne.symm heq, Walk.start, Walk.used, Walk.needed, Walk.raw, Dict.values]
  keyed := by simp [KeyedByType, Walk.start]
  recipe := by simp [Walk.start]
  below := by simp [Walk.start]
  pending_below := by
    intro entry hentry
    rw [Dict.entries_single, List.mem_singleton] at hentry
    rw [hentry]
    exact Relation.ReflTransGen.refl
  next_below := by simp

theorem Accounted.buy {walk : Walk} {nextLevel : Dict TypeId ℤ} {typeId : TypeId} {quantity : ℤ}
    {rest : List (TypeId × ℤ)} {isBuildable : Bool}
    (haccounted : Accounted db target buildSet targetQuantity walk ((typeId, quantity) :: rest)
      nextLevel) :
    Accounted db target buildSet targetQuantity (walk.buy typeId quantity isBuildable) rest
      nextLevel where
  balance := by
    intro other
    have hbalance := haccounted.balance other
    rw [Dict.tally_cons] at hbalance
    rw [used_buy, needed_buy, raw_buy]
    simp only [eq_comm (a := other) (b := typeId)]
    linarith
  keyed := haccounted.keyed
  recipe := haccounted.recipe
  below := haccounted.below
  pending_below := fun entry hentry =>
    haccounted.pending_below entry (List.mem_cons_of_mem _ hentry)
  next_below := haccounted.next_below

theorem Accounted.build {walk : Walk} {nextLevel : Dict TypeId ℤ} {typeId : TypeId} {quantity : ℤ}
    {rest : List (TypeId × ℤ)} {blueprint : Blueprint} {runs : ℤ}
    (hexpansion : expansion db target buildSet typeId = some blueprint)
    (haccounted : Accounted db target buildSet targetQuantity walk ((typeId, quantity) :: rest)
      nextLevel) :
    Accounted db target buildSet targetQuantity (walk.build typeId quantity blueprint runs) rest
      (addNeeds runs blueprint.materials nextLevel) where
  balance := by
    intro other
    -- the pending quantity goes over to the step, and its materials to the next level
    have hbalance := haccounted.balance other
    rw [Dict.tally_cons] at hbalance
    rw [used_build, needed_build, raw_build, getD_addNeeds, ← Blueprint.perRun]
    simp only [eq_comm (a := other) (b := typeId)]
    linarith
  keyed := by
    intro other step hstep
    simp only [Walk.build, Dict.get?_set] at hstep
    split at hstep
    · rename_i heq
      subst heq
      obtain rfl := Option.some_inj.mp hstep
      -- a type of a higher level has a step already, which is added to
      cases hold : walk.stepsByTypeId.get? other with
      | none => simp [Walk.stepFor, hold]
      | some old => simpa [Walk.stepFor, hold] using haccounted.keyed other old hold
    · exact haccounted.keyed other step hstep
  recipe := by
    intro other step hstep
    simp only [Walk.build, Dict.get?_set] at hstep
    split at hstep
    · rename_i heq
      subst heq
      obtain rfl := Option.some_inj.mp hstep
      refine ⟨blueprint, hexpansion, ?_, fun material => ?_⟩
      · cases hold : walk.stepsByTypeId.get? other with
        | none => simp [Walk.stepFor, hold]
        | some old =>
            obtain ⟨blueprint', hexpansion', hquantity, _⟩ := haccounted.recipe other old hold
            obtain rfl := Option.some_inj.mp (hexpansion.symm.trans hexpansion')
            simpa [Walk.stepFor, hold] using hquantity
      · rw [getD_addNeeds, ← Blueprint.perRun]
        cases hold : walk.stepsByTypeId.get? other with
        | none => simp [Walk.stepFor, hold]
        | some old =>
            obtain ⟨blueprint', hexpansion', _, hmaterials⟩ := haccounted.recipe other old hold
            obtain rfl := Option.some_inj.mp (hexpansion.symm.trans hexpansion')
            simp only [Walk.stepFor, hold, Option.getD_some, hmaterials]
            ring
    · exact haccounted.recipe other step hstep
  below := by
    intro other hother
    rcases Dict.mem_keys_set.mp hother with rfl | hother
    · exact below_build (haccounted.pending_below _ (List.mem_cons_self ..))
    · exact below_build (haccounted.below other hother)
  pending_below := fun entry hentry =>
    below_build (haccounted.pending_below entry (List.mem_cons_of_mem _ hentry))
  next_below := by
    intro other hother
    rcases mem_keys_addNeeds.mp hother with hother | ⟨material, hmaterial, rfl⟩
    · exact below_build (haccounted.next_below other hother)
    · exact below_material_build (haccounted.pending_below _ (List.mem_cons_self ..)) hmaterial

/-- **One visit keeps the account.** -/
theorem Accounted.visitType {walk walk' : Walk} {nextLevel nextLevel' : Dict TypeId ℤ}
    {item : TypeId × ℤ} {rest : List (TypeId × ℤ)}
    (haccounted : Accounted db target buildSet targetQuantity walk (item :: rest) nextLevel)
    (hvisit : visitType ceilQuotient db target buildSet (walk, nextLevel) item =
      .ok (walk', nextLevel')) :
    Accounted db target buildSet targetQuantity walk' rest nextLevel' := by
  rcases visitType_cases hvisit with ⟨_, rfl, rfl⟩ | ⟨blueprint, quotient, hexpansion, _, rfl, rfl⟩
  · exact haccounted.buy
  · exact haccounted.build hexpansion

/-- Between two levels, the next level becomes the current one. -/
theorem Accounted.nextLevel {walk : Walk} {nextLevel : Dict TypeId ℤ}
    (haccounted : Accounted db target buildSet targetQuantity walk [] nextLevel) :
    Accounted db target buildSet targetQuantity walk nextLevel.entries .empty where
  balance := by
    intro typeId
    have hbalance := haccounted.balance typeId
    rw [Dict.getD_eq_tally] at hbalance
    simpa using hbalance
  keyed := haccounted.keyed
  recipe := haccounted.recipe
  below := haccounted.below
  pending_below := fun _ hentry => haccounted.next_below _ (Dict.mem_keys_of_mem hentry)
  next_below := by simp

theorem visitLevel_accounted {walk walk' : Walk} {currentLevel nextLevel : Dict TypeId ℤ}
    (haccounted : Accounted db target buildSet targetQuantity walk currentLevel.entries .empty)
    (hvisit : visitLevel ceilQuotient db target buildSet walk currentLevel =
      .ok (walk', nextLevel)) :
    Accounted db target buildSet targetQuantity walk' nextLevel.entries .empty :=
  (foldlM_ok_invariant
    (motive := fun state pending =>
      Accounted db target buildSet targetQuantity state.1 pending state.2)
    (fun _ _ _ _ haccounted hvisit => haccounted.visitType hvisit)
    currentLevel.entries _ _ haccounted hvisit).nextLevel

/-- **The loop keeps the account**, however many passes it makes. -/
theorem levelLoop_accounted :
    ∀ (passes : ℕ) {walk walk' : Walk} {currentLevel leftover : Dict TypeId ℤ},
      Accounted db target buildSet targetQuantity walk currentLevel.entries .empty →
      levelLoop ceilQuotient db target buildSet passes walk currentLevel = .ok (walk', leftover) →
      Accounted db target buildSet targetQuantity walk' leftover.entries .empty := by
  intro passes
  induction passes with
  | zero =>
      intro walk walk' currentLevel leftover haccounted hloop
      cases hloop
      exact haccounted
  | succ passes ih =>
      intro walk walk' currentLevel leftover haccounted hloop
      rw [levelLoop] at hloop
      split at hloop
      · cases hloop
        exact haccounted
      · obtain ⟨⟨middle, nextLevel⟩, hvisit, hrest⟩ := bind_eq_ok.mp hloop
        exact ih (visitLevel_accounted haccounted hvisit) hrest

theorem resolveLevels_accounted {walk : Walk} {leftover : Dict TypeId ℤ}
    (hlevels : resolveLevels ceilQuotient db target buildSet targetQuantity =
      .ok (walk, leftover)) :
    Accounted db target buildSet targetQuantity walk leftover.entries .empty :=
  levelLoop_accounted maxDepth Accounted.start hlevels

/-! ## What the guard leaves -/

theorem stepsByTypeId_addLeftover (walk : Walk) (leftover : Dict TypeId ℤ) :
    (addLeftover walk leftover).stepsByTypeId = walk.stepsByTypeId := by
  unfold addLeftover
  generalize leftover.entries = entries
  induction entries generalizing walk with
  | nil => rfl
  | cons entry rest ih =>
      rw [List.foldl_cons, ih]

theorem raw_addLeftover (walk : Walk) (leftover : Dict TypeId ℤ) (typeId : TypeId) :
    (addLeftover walk leftover).raw typeId =
      walk.raw typeId + Dict.tally leftover.entries typeId := by
  unfold addLeftover
  generalize leftover.entries = entries
  induction entries generalizing walk with
  | nil => simp
  | cons entry rest ih =>
      rw [List.foldl_cons, ih, Dict.tally_cons]
      simp only [Walk.raw, Dict.getD_add, eq_comm (a := typeId) (b := entry.1)]
      ring

/-! ## Naming and ordering change no quantity -/

theorem get?_nameSteps (typeName : TypeId → Option String) (stepsByTypeId : Dict TypeId BuildStep)
    (typeId : TypeId) :
    (nameSteps typeName stepsByTypeId).get? typeId =
      (stepsByTypeId.get? typeId).map fun step =>
        { step with name := nameOf typeName step.typeId } := by
  unfold Dict.get? nameSteps
  simp only [List.find?_map, Option.map_map]
  rfl

theorem keys_nameSteps (typeName : TypeId → Option String) (stepsByTypeId : Dict TypeId BuildStep) :
    (nameSteps typeName stepsByTypeId).keys = stepsByTypeId.keys := by
  simp [nameSteps, Dict.keys]

theorem values_nameSteps (typeName : TypeId → Option String)
    (stepsByTypeId : Dict TypeId BuildStep) :
    (nameSteps typeName stepsByTypeId).values =
      stepsByTypeId.values.map fun step => { step with name := nameOf typeName step.typeId } := by
  simp [nameSteps, Dict.values]

theorem keyedByType_nameSteps {typeName : TypeId → Option String}
    {stepsByTypeId : Dict TypeId BuildStep} (hkeyed : KeyedByType stepsByTypeId) :
    KeyedByType (nameSteps typeName stepsByTypeId) := by
  intro typeId step hstep
  rw [get?_nameSteps] at hstep
  obtain ⟨original, horiginal, rfl⟩ := Option.map_eq_some_iff.mp hstep
  exact hkeyed typeId original horiginal

theorem below_nameSteps {typeName : TypeId → Option String} {stepsByTypeId : Dict TypeId BuildStep}
    {typeId : TypeId} (hbelow : Below stepsByTypeId target typeId) :
    Below (nameSteps typeName stepsByTypeId) target typeId := by
  refine Relation.ReflTransGen.mono ?_ _ _ hbelow
  rintro user material ⟨step, hstep, hmaterial⟩
  exact ⟨{ step with name := nameOf typeName step.typeId }, by rw [get?_nameSteps, hstep]; rfl,
    hmaterial⟩

/-! ## The returned resolution -/

/-- `quantity_needed` of the returned step for a type, `0` if there is none. -/
def BuildResolution.neededOf (resolution : BuildResolution) (typeId : TypeId) : ℤ :=
  (resolution.steps.find? fun step => step.typeId = typeId).elim 0 BuildStep.quantityNeeded

/-- The quantity of a type among the returned raw materials, `0` if absent. -/
def BuildResolution.rawOf (resolution : BuildResolution) (typeId : TypeId) : ℤ :=
  (resolution.rawMaterials.find? fun material => material.typeId = typeId).elim 0
    RawMaterial.quantity

/-- What the walk of a resolution looked like before the steps were ordered and
the raw totals sorted. -/
theorem resolveBuildChain_cases {typeName : TypeId → Option String} {resolution : BuildResolution}
    (hresolve : resolveBuildChain ceilQuotient db target buildSet typeName targetQuantity =
      .ok resolution) :
    ∃ walk leftover, resolveLevels ceilQuotient db target buildSet targetQuantity =
        .ok (walk, leftover) ∧
      resolution.steps = topologicalOrder target (nameSteps typeName walk.stepsByTypeId) ∧
      resolution.rawMaterials = rawMaterials typeName (addLeftover walk leftover) := by
  obtain ⟨⟨walk, leftover⟩, hlevels, hresult⟩ := bind_eq_ok.mp hresolve
  cases hresult
  exact ⟨walk, leftover, hlevels, by rw [stepsByTypeId_addLeftover], rfl⟩

/-- The returned steps are the steps of the walk with their names, in some order. -/
theorem steps_perm {walk : Walk} {pending : List (TypeId × ℤ)} {nextLevel : Dict TypeId ℤ}
    (haccounted : Accounted db target buildSet targetQuantity walk pending nextLevel)
    (typeName : TypeId → Option String) :
    (topologicalOrder target (nameSteps typeName walk.stepsByTypeId)).Perm
      (walk.stepsByTypeId.values.map fun step =>
        { step with name := nameOf typeName step.typeId }) := by
  rw [← values_nameSteps]
  refine topologicalOrder_perm (keyedByType_nameSteps haccounted.keyed) fun typeId htypeId => ?_
  rw [keys_nameSteps] at htypeId
  exact below_nameSteps (haccounted.below typeId htypeId)

/-- Reading a quantity of a type's step off the returned steps is reading it off the walk. -/
theorem find?_topologicalOrder {walk : Walk} {pending : List (TypeId × ℤ)}
    {nextLevel : Dict TypeId ℤ}
    (haccounted : Accounted db target buildSet targetQuantity walk pending nextLevel)
    (typeName : TypeId → Option String) (typeId : TypeId) {read : BuildStep → ℤ}
    (hread : ∀ step name, read { step with name } = read step) :
    ((topologicalOrder target (nameSteps typeName walk.stepsByTypeId)).find?
        fun step => step.typeId = typeId).elim 0 read =
      (walk.stepsByTypeId.get? typeId).elim 0 read := by
  have hperm := steps_perm haccounted typeName
  cases hfind : (topologicalOrder target (nameSteps typeName walk.stepsByTypeId)).find?
      fun step => step.typeId = typeId with
  | some step =>
      obtain ⟨original, horiginal, rfl⟩ :=
        List.mem_map.mp (hperm.subset (List.mem_of_find?_eq_some hfind))
      obtain ⟨⟨key, original⟩, hentry, rfl⟩ := List.mem_map.mp horiginal
      have hget := Dict.get?_eq_some_iff.mpr hentry
      -- a step is kept under its own type
      have hkey : key = typeId := by
        rw [← haccounted.keyed key original hget]
        simpa using List.find?_some hfind
      rw [← hkey, hget]
      exact hread original _
  | none =>
      cases hget : walk.stepsByTypeId.get? typeId with
      | none => rfl
      | some step =>
          have hmem := hperm.symm.subset (List.mem_map_of_mem
            (List.mem_map_of_mem (Dict.get?_eq_some_iff.mp hget)))
          have hnot := List.find?_eq_none.mp hfind _ hmem
          simp [haccounted.keyed typeId step hget] at hnot

theorem typeIds_rawMaterials_perm (typeName : TypeId → Option String) (walk : Walk) :
    ((rawMaterials typeName walk).map RawMaterial.typeId).Perm walk.rawTotals.keys := by
  unfold rawMaterials
  rw [List.map_map]
  exact (List.perm_insertionSort _ _).map Prod.fst

/-- Looking a type up in the returned raw materials is looking it up in the totals. -/
theorem find?_rawMaterials (typeName : TypeId → Option String) (walk : Walk) (typeId : TypeId) :
    ((rawMaterials typeName walk).find? fun material => material.typeId = typeId).elim 0
      RawMaterial.quantity = walk.raw typeId := by
  have hmem : ∀ material ∈ rawMaterials typeName walk,
      (material.typeId, material.quantity) ∈ walk.rawTotals.entries := by
    intro material hmaterial
    obtain ⟨entry, hentry, rfl⟩ := List.mem_map.mp hmaterial
    exact (List.perm_insertionSort _ _).subset hentry
  unfold Walk.raw
  cases hfind : (rawMaterials typeName walk).find? fun material => material.typeId = typeId with
  | some material =>
      have hkey : material.typeId = typeId := by simpa using List.find?_some hfind
      have hentry := hmem material (List.mem_of_find?_eq_some hfind)
      rw [hkey] at hentry
      exact (Dict.getD_of_get? (Dict.get?_eq_some_iff.mpr hentry) 0).symm
  | none =>
      have hnone : walk.rawTotals.get? typeId = none := by
        rw [Dict.get?_eq_none_iff]
        intro hkey
        obtain ⟨material, hmaterial, rfl⟩ :=
          List.mem_map.mp ((typeIds_rawMaterials_perm typeName walk).symm.subset hkey)
        simpa using List.find?_eq_none.mp hfind material hmaterial
      rw [Dict.getD, hnone]
      rfl

/-- No type is returned twice, neither as a step nor as a raw material. -/
theorem distinct_of_resolve {typeName : TypeId → Option String} {resolution : BuildResolution}
    (hresolve : resolveBuildChain ceilQuotient db target buildSet typeName targetQuantity =
      .ok resolution) :
    (resolution.steps.map BuildStep.typeId).Nodup ∧
      (resolution.rawMaterials.map RawMaterial.typeId).Nodup := by
  obtain ⟨walk, leftover, hlevels, hsteps, hraw⟩ := resolveBuildChain_cases hresolve
  have haccounted := resolveLevels_accounted hlevels
  constructor
  · rw [hsteps]
    exact nodup_topologicalOrder (keyedByType_nameSteps haccounted.keyed) target
  · rw [hraw]
    exact ((typeIds_rawMaterials_perm typeName _).nodup_iff).mpr (Dict.nodup_keys _)

/-- A resolution that neither loses demand nor counts it twice.  The demand for
each type, the target's own and that of all steps, is what its step provides for
plus what is raw; each step uses its runs times what one run of its blueprint
uses; and no type is returned twice. -/
structure Balanced (db : List Blueprint) (target : TypeId) (targetQuantity : ℤ)
    (resolution : BuildResolution) : Prop where
  balance : ∀ typeId, (if typeId = target then targetQuantity else 0) +
      (resolution.steps.map fun step => step.materials.getD typeId 0).sum =
    resolution.neededOf typeId + resolution.rawOf typeId
  materials : ∀ step ∈ resolution.steps, ∃ blueprint,
    blueprintForProduct db step.typeId = some blueprint ∧
    ∀ material, step.materials.getD material 0 = step.runs * blueprint.perRun material
  nodup_steps : (resolution.steps.map BuildStep.typeId).Nodup
  nodup_rawMaterials : (resolution.rawMaterials.map RawMaterial.typeId).Nodup

/-- **Material balance.**  Every resolution that is returned is balanced, whatever
the blueprints (cyclic or deeper than the guard included) and the rounding of the
runs. -/
theorem material_balance {typeName : TypeId → Option String} {resolution : BuildResolution}
    (hresolve : resolveBuildChain ceilQuotient db target buildSet typeName targetQuantity =
      .ok resolution) :
    Balanced db target targetQuantity resolution := by
  obtain ⟨walk, leftover, hlevels, hsteps, hraw⟩ := resolveBuildChain_cases hresolve
  have haccounted := resolveLevels_accounted hlevels
  have hperm := steps_perm haccounted typeName
  obtain ⟨hnodupSteps, hnodupRaw⟩ := distinct_of_resolve hresolve
  refine ⟨fun typeId => ?_, fun step hstep => ?_, hnodupSteps, hnodupRaw⟩
  · -- the order of the steps does not matter to the sum
    have hused : (resolution.steps.map fun step => step.materials.getD typeId 0).sum =
        walk.used typeId := by
      rw [hsteps, (hperm.map _).sum_eq, List.map_map]
      rfl
    have hbalance := haccounted.balance typeId
    rw [Dict.getD_empty] at hbalance
    rw [hused, BuildResolution.neededOf, BuildResolution.rawOf, hsteps, hraw,
      find?_topologicalOrder haccounted typeName typeId fun _ _ => rfl, ← Walk.needed,
      find?_rawMaterials, raw_addLeftover]
    linarith
  · rw [hsteps] at hstep
    obtain ⟨original, horiginal, rfl⟩ := List.mem_map.mp (hperm.subset hstep)
    obtain ⟨⟨typeId, original⟩, hentry, rfl⟩ := List.mem_map.mp horiginal
    have hget := Dict.get?_eq_some_iff.mpr hentry
    obtain ⟨blueprint, hexpansion, _, hmaterials⟩ := haccounted.recipe typeId original hget
    refine ⟨blueprint, ?_, hmaterials⟩
    rw [haccounted.keyed typeId original hget]
    -- an expansion is a blueprint of the table
    unfold expansion at hexpansion
    split at hexpansion
    · exact absurd hexpansion (by simp)
    · exact hexpansion

/-- Two blueprints that need each other's product: the guard cuts the walk off. -/
def mutualNeed : List Blueprint := [⟨1, some 1, [⟨2, 1⟩]⟩, ⟨2, some 1, [⟨1, 2⟩]⟩]

theorem material_balance_mutualNeed :
    ∃ resolution, resolveBuildChain exactCeil mutualNeed 1 {2} (fun _ => none) 1 =
      .ok resolution ∧ Balanced mutualNeed 1 1 resolution := by
  obtain ⟨resolution, hresolve⟩ : ∃ resolution,
      resolveBuildChain exactCeil mutualNeed 1 {2} (fun _ => none) 1 = .ok resolution := ⟨_, rfl⟩
  exact ⟨resolution, hresolve, material_balance hresolve⟩

end EveBuild.BuildChain
