import EveBuild.BuildChain.Bulk

/-!
# How the runs of a step are rounded

A step collects what its type is needed at the depths `0 … maxDepth - 1`.  The quantities
of the depths are added up, but each depth is rounded up to runs by itself
(`roundsOnce_iff_sum`), so that a component that is needed at two depths can get a run too
many (`runs_ne_ceil_of_two_depths`).

`roundsOnce_iff_metOnce` says on which tables this cannot happen.  Whatever the blueprints
make in a run, all steps have `ceil (quantityNeeded / productQuantity)` runs exactly if
every type that is expanded is met at one depth only.  For given product quantities it is
enough that, at every depth but one, each run of each user takes whole batches of the type.
-/

namespace EveBuild.BuildChain

open Batches (runsFor)

variable {db db' : List Blueprint} {target : TypeId} {buildSet : Finset TypeId}
  {targetQuantity : ℤ}

/-- The combined demand of each returned step, rounded up once. -/
def RoundsOnce (resolution : BuildResolution) : Prop :=
  ∀ step ∈ resolution.steps, step.runs = ⌈(step.quantityNeeded : ℚ) / step.productQuantity⌉

/-- The chain resolves, and its steps are rounded up once. -/
def ResolvesRounded (db : List Blueprint) (target : TypeId) (buildSet : Finset TypeId)
    (typeName : TypeId → Option String) (targetQuantity : ℤ) : Prop :=
  ∃ resolution, resolveBuildChain exactCeil db target buildSet typeName targetQuantity =
    .ok resolution ∧ RoundsOnce resolution

/-! ## The quantities of the depths -/

/-- The quantity of a type in the level at a depth. -/
def quantityAt (db : List Blueprint) (target : TypeId) (buildSet : Finset TypeId)
    (targetQuantity : ℤ) (depth : ℕ) (typeId : TypeId) : ℤ :=
  spreadAt db target buildSet (clampedRuns db target buildSet) targetQuantity depth typeId

theorem clampedRuns_of_expansion {typeId : TypeId} {blueprint : Blueprint}
    (hexpansion : expansion db target buildSet typeId = some blueprint) (quantity : ℤ) :
    clampedRuns db target buildSet typeId quantity =
      max 1 (runsFor blueprint.productQuantity quantity) := by
  rw [clampedRuns, hexpansion, Option.elim]

theorem expands_of_expansion {typeId : TypeId} {blueprint : Blueprint}
    (hexpansion : expansion db target buildSet typeId = some blueprint) :
    Expands db target buildSet typeId := by
  simp [Expands, hexpansion]

theorem PositiveMaterials.nonnegative (hmaterials : PositiveMaterials db) :
    NonnegativeMaterials db :=
  fun blueprint hblueprint material hmaterial =>
    zero_le_one.trans (hmaterials blueprint hblueprint material hmaterial)

/-- Of every type of a level at least one unit is needed. -/
theorem one_le_quantityAt (hmaterials : PositiveMaterials db) (hquantity : 1 ≤ targetQuantity)
    {depth : ℕ} {typeId : TypeId} (hmet : typeId ∈ typesAt db target buildSet depth) :
    1 ≤ quantityAt db target buildSet targetQuantity depth typeId := by
  refine one_le_spread usePerRun_eq_zero
    (fun _ user _ material hbelow => ?_) (fun user material quantity hbelow _ => ?_) hquantity hmet
  · obtain ⟨blueprint, hexpansion, -⟩ := mem_materialsBelow.mp hbelow
    have hpositive := hmaterials blueprint (mem_of_expansion hexpansion)
    exact one_le_usePerRun_of_expansion hexpansion hpositive hbelow
  · obtain ⟨blueprint, hexpansion, -⟩ := mem_materialsBelow.mp hbelow
    rw [clampedRuns_of_expansion hexpansion]
    exact le_max_left ..

theorem quantityAt_nonneg (hmaterials : PositiveMaterials db) (hquantity : 1 ≤ targetQuantity)
    (depth : ℕ) (typeId : TypeId) :
    0 ≤ quantityAt db target buildSet targetQuantity depth typeId := by
  by_cases hmet : typeId ∈ typesAt db target buildSet depth
  · exact zero_le_one.trans (one_le_quantityAt hmaterials hquantity hmet)
  · exact (spreadAt_eq_zero hmet).ge

/-- **What a step is rounded to.**  The chain resolves, and its steps are rounded once exactly
if rounding the quantities of the depths is rounding their sum, for every expanded type. -/
theorem roundsOnce_iff_sum (typeName : TypeId → Option String) (hproducts : PositiveProducts db)
    (hmaterials : PositiveMaterials db) (hquantity : 1 ≤ targetQuantity) :
    ResolvesRounded db target buildSet typeName targetQuantity ↔
      ∀ typeId blueprint, expansion db target buildSet typeId = some blueprint →
        ∑ depth ∈ Finset.range maxDepth, runsFor blueprint.productQuantity
            (quantityAt db target buildSet targetQuantity depth typeId) =
          runsFor blueprint.productQuantity (∑ depth ∈ Finset.range maxDepth,
            quantityAt db target buildSet targetQuantity depth typeId) := by
  have hruns := levelsRunBy_clampedRuns hproducts target buildSet targetQuantity
  obtain ⟨resolution, hresolve, -⟩ :=
    resolveBuildChain_adds hproducts target buildSet typeName targetQuantity
  obtain ⟨walk, leftover, hlevels, hsteps, -⟩ := resolveBuildChain_cases hresolve
  have hall := @forall_steps_iff _ _ _ _ _ _ (resolveLevels_accounted hlevels) _ _ hsteps
    (fun needed runs productQuantity => runs = ⌈(needed : ℚ) / productQuantity⌉) (by simp)
  have hreturned : ResolvesRounded db target buildSet typeName targetQuantity ↔
      RoundsOnce resolution := by
    rw [ResolvesRounded, hresolve]
    simp
  rw [hreturned, RoundsOnce, hall]
  refine forall₃_congr fun typeId blueprint hexpansion => ?_
  have hneeded : walk.needed typeId = ∑ depth ∈ Finset.range maxDepth,
      quantityAt db target buildSet targetQuantity depth typeId := by
    rw [levelLoop_needed hruns maxDepth holdsSpread_single hlevels]
    simp [neededAt, expands_of_expansion hexpansion, quantityAt, Walk.needed, Walk.start]
  have hmade : walk.runsOf typeId = ∑ depth ∈ Finset.range maxDepth,
      runsFor blueprint.productQuantity
        (quantityAt db target buildSet targetQuantity depth typeId) := by
    rw [(levelLoop_spreads hruns maxDepth holdsSpread_single hlevels).2.2 typeId]
    simp only [Walk.runsOf, Walk.start, Dict.get?_empty, Option.elim, zero_add]
    refine Finset.sum_congr rfl fun depth _ => ?_
    rw [runsSpreadAt, ← quantityAt]
    split
    · -- something is needed, so that the `max` with 1 does nothing
      rename_i hmet
      rw [clampedRuns_of_expansion hexpansion]
      refine max_eq_right (Batches.runsFor_pos ?_ (one_le_quantityAt hmaterials hquantity hmet))
      exact hproducts blueprint (mem_of_expansion hexpansion)
    · rename_i hmet
      rw [quantityAt, spreadAt_eq_zero hmet, Batches.runsFor_zero]
  rw [hneeded, hmade]
  rfl

/-! ## Whole batches -/

/-- What the users of a type at a depth take of it is whole batches. -/
def WholeBatchesAt (db : List Blueprint) (target : TypeId) (buildSet : Finset TypeId)
    (targetQuantity batch : ℤ) (typeId : TypeId) : ℕ → Prop
  | 0 => batch ∣ targetQuantity
  | depth + 1 => ∀ user ∈ typesAt db target buildSet depth,
      batch ∣ usePerRun db target buildSet user typeId

/-- Units are whole batches of one. -/
theorem wholeBatchesAt_one (typeId : TypeId) (depth : ℕ) :
    WholeBatchesAt db target buildSet targetQuantity 1 typeId depth := by
  cases depth with
  | zero => exact one_dvd _
  | succ depth => exact fun _ _ => one_dvd _

/-- Every type that is expanded is needed in whole batches, wherever it is met but at one
depth. -/
def WholeBatchesElsewhere (db : List Blueprint) (target : TypeId) (buildSet : Finset TypeId)
    (targetQuantity : ℤ) : Prop :=
  ∀ typeId blueprint, expansion db target buildSet typeId = some blueprint →
    ∃ depth, ∀ other < maxDepth, other ≠ depth → typeId ∈ typesAt db target buildSet other →
      WholeBatchesAt db target buildSet targetQuantity blueprint.productQuantity typeId other

theorem dvd_quantityAt {batch : ℤ} {typeId : TypeId} {depth : ℕ}
    (hmet : typeId ∈ typesAt db target buildSet depth)
    (hwhole : WholeBatchesAt db target buildSet targetQuantity batch typeId depth) :
    batch ∣ quantityAt db target buildSet targetQuantity depth typeId := by
  cases depth with
  | zero =>
      have hquantity : quantityAt db target buildSet targetQuantity 0 typeId = targetQuantity :=
        if_pos (mem_layer_zero.mp hmet)
      rw [hquantity]
      exact hwhole
  | succ depth => exact Finset.dvd_sum fun user huser => (hwhole user huser).mul_left _

/-- Whole batches at all depths but one are rounded once. -/
theorem resolvesRounded_of_wholeBatches (typeName : TypeId → Option String)
    (hproducts : PositiveProducts db) (hmaterials : PositiveMaterials db)
    (hquantity : 1 ≤ targetQuantity)
    (hwhole : WholeBatchesElsewhere db target buildSet targetQuantity) :
    ResolvesRounded db target buildSet typeName targetQuantity := by
  refine (roundsOnce_iff_sum typeName hproducts hmaterials hquantity).mpr ?_
  intro typeId blueprint hexpansion
  obtain ⟨special, hspecial⟩ := hwhole typeId blueprint hexpansion
  refine Batches.sum_runsFor_of_dvd (hproducts blueprint (mem_of_expansion hexpansion)) special ?_
  intro depth hdepth hne
  by_cases hmet : typeId ∈ typesAt db target buildSet depth
  · exact dvd_quantityAt hmet (hspecial depth (Finset.mem_range.mp hdepth) hne hmet)
  · rw [quantityAt, spreadAt_eq_zero hmet]
    exact dvd_zero _

/-! ## Tables with the same materials -/

/-- What a blueprint makes and takes, but not how much it makes. -/
def Blueprint.outline (blueprint : Blueprint) : TypeId × List Material :=
  (blueprint.productTypeId, blueprint.materials)

/-- The tables differ in product quantities only. -/
def SameMaterials (db db' : List Blueprint) : Prop :=
  db.map Blueprint.outline = db'.map Blueprint.outline

theorem SameMaterials.symm (hsame : SameMaterials db db') : SameMaterials db' db := Eq.symm hsame

theorem SameMaterials.trans {db'' : List Blueprint} (hsame : SameMaterials db db')
    (hother : SameMaterials db' db'') : SameMaterials db db'' := Eq.trans hsame hother

theorem SameMaterials.map_expansion (hsame : SameMaterials db db') (target : TypeId)
    (buildSet : Finset TypeId) (typeId : TypeId) :
    (expansion db target buildSet typeId).map Blueprint.outline =
      (expansion db' target buildSet typeId).map Blueprint.outline := by
  have hfind : ∀ table : List Blueprint, (blueprintForProduct table typeId).map Blueprint.outline =
      (table.map Blueprint.outline).find? fun outline => outline.1 = typeId := by
    intro table
    rw [blueprintForProduct, List.find?_map]
    rfl
  unfold expansion
  split
  · rfl
  · rw [hfind, hfind, hsame]

theorem SameMaterials.expands (hsame : SameMaterials db db') (typeId : TypeId) :
    Expands db target buildSet typeId ↔ Expands db' target buildSet typeId := by
  have hisSome := congrArg Option.isSome (hsame.map_expansion target buildSet typeId)
  rw [Option.isSome_map, Option.isSome_map] at hisSome
  rw [Expands, Expands, hisSome]

theorem SameMaterials.materialsBelow_eq (hsame : SameMaterials db db') (target : TypeId)
    (buildSet : Finset TypeId) :
    materialsBelow db target buildSet = materialsBelow db' target buildSet := by
  have hbelow : ∀ (table : List Blueprint) (typeId : TypeId),
      materialsBelow table target buildSet typeId =
        ((((expansion table target buildSet typeId).map Blueprint.outline).elim []
          Prod.snd).map Material.typeId).toFinset := by
    intro table typeId
    unfold materialsBelow
    cases expansion table target buildSet typeId <;> rfl
  funext typeId
  rw [hbelow, hbelow, hsame.map_expansion]

theorem SameMaterials.usePerRun_eq (hsame : SameMaterials db db') (target : TypeId)
    (buildSet : Finset TypeId) :
    usePerRun db target buildSet = usePerRun db' target buildSet := by
  have huse : ∀ (table : List Blueprint) (user material : TypeId),
      usePerRun table target buildSet user material =
        (((expansion table target buildSet user).map Blueprint.outline).elim 0
          fun outline => Dict.tally (outline.2.map fun entry => (entry.typeId, entry.quantity))
            material) := by
    intro table user material
    unfold usePerRun
    cases expansion table target buildSet user <;> rfl
  funext user material
  rw [huse, huse, hsame.map_expansion]

theorem SameMaterials.typesAt_eq (hsame : SameMaterials db db') (depth : ℕ) :
    typesAt db target buildSet depth = typesAt db' target buildSet depth := by
  rw [typesAt, hsame.materialsBelow_eq, ← typesAt]

theorem SameMaterials.positive (hsame : SameMaterials db db') (hmaterials : PositiveMaterials db') :
    PositiveMaterials db := by
  intro blueprint hblueprint material hmaterial
  have hmem : blueprint.outline ∈ db'.map Blueprint.outline :=
    hsame ▸ List.mem_map_of_mem hblueprint
  obtain ⟨other, hother, houtline⟩ := List.mem_map.mp hmem
  have hmaterials' : other.materials = blueprint.materials := congrArg Prod.snd houtline
  exact hmaterials other hother material (hmaterials' ▸ hmaterial)

/-- **Larger product quantities need no more.** -/
theorem SameMaterials.quantityAt_le (hsame : SameMaterials db db')
    (hproducts : PositiveProducts db') (hmaterials : PositiveMaterials db')
    (hlarger : ∀ typeId blueprint blueprint', expansion db target buildSet typeId = some blueprint →
      expansion db' target buildSet typeId = some blueprint' →
      blueprint'.productQuantity ≤ blueprint.productQuantity) (depth : ℕ) (typeId : TypeId) :
    quantityAt db target buildSet targetQuantity depth typeId ≤
      quantityAt db' target buildSet targetQuantity depth typeId := by
  rw [quantityAt, quantityAt, spreadAt, spreadAt, hsame.materialsBelow_eq, hsame.usePerRun_eq]
  refine spread_le (fun user small large hle => ?_)
    (usePerRun_nonneg hmaterials.nonnegative) depth typeId le_rfl
  refine le_trans ?_ (clampedRuns_mono hproducts user small large hle)
  have houtline := hsame.map_expansion target buildSet user
  unfold clampedRuns
  cases hexpansion' : expansion db' target buildSet user with
  | none =>
      rw [hexpansion', Option.map_none, Option.map_eq_none_iff] at houtline
      rw [houtline]
  | some blueprint' =>
      rw [hexpansion', Option.map_some, Option.map_eq_some_iff] at houtline
      obtain ⟨blueprint, hexpansion, -⟩ := houtline
      rw [hexpansion]
      exact Batches.max_runsFor_le_of_batch_le
        (hproducts blueprint' (mem_of_expansion hexpansion'))
        (hlarger user blueprint blueprint' hexpansion hexpansion') small

/-! ## Types that are met once -/

/-- All chains of expanded types from the target to an expanded type have the same length, as far
as the walk follows them. -/
def MetOnce (db : List Blueprint) (target : TypeId) (buildSet : Finset TypeId) : Prop :=
  ∀ typeId, Expands db target buildSet typeId → ∀ first < maxDepth, ∀ second < maxDepth,
    typeId ∈ typesAt db target buildSet first → typeId ∈ typesAt db target buildSet second →
    first = second

theorem MetOnce.wholeBatches (honce : MetOnce db target buildSet) :
    WholeBatchesElsewhere db target buildSet targetQuantity := by
  intro typeId blueprint hexpansion
  have hexpands := expands_of_expansion hexpansion
  by_cases hmet : ∃ depth < maxDepth, typeId ∈ typesAt db target buildSet depth
  · obtain ⟨depth, hdepth, htypeId⟩ := hmet
    exact ⟨depth, fun other hother hne hsecond =>
      absurd (honce typeId hexpands other hother depth hdepth hsecond htypeId) hne⟩
  · exact ⟨0, fun other hother _ hsecond => absurd ⟨other, hother, hsecond⟩ hmet⟩

theorem SameMaterials.metOnce (hsame : SameMaterials db' db) (honce : MetOnce db target buildSet) :
    MetOnce db' target buildSet := by
  intro typeId hexpands first hfirst second hsecond hmetFirst hmetSecond
  rw [hsame.typesAt_eq] at hmetFirst hmetSecond
  exact honce typeId ((hsame.expands typeId).mp hexpands) first hfirst second hsecond hmetFirst
    hmetSecond

/-- The table in which the blueprints of one type make `productQuantity` of it, and all others one
unit. -/
def makingOf (typeId : TypeId) (productQuantity : ℤ) (db : List Blueprint) : List Blueprint :=
  db.map fun blueprint =>
    ⟨blueprint.productTypeId, some (if blueprint.productTypeId = typeId then productQuantity else 1),
      blueprint.materials⟩

theorem sameMaterials_makingOf (typeId : TypeId) (productQuantity : ℤ) (db : List Blueprint) :
    SameMaterials (makingOf typeId productQuantity db) db := by
  rw [SameMaterials, makingOf, List.map_map]
  rfl

theorem productQuantity_makingOf {typeId : TypeId} {productQuantity : ℤ} {blueprint : Blueprint}
    (hmem : blueprint ∈ makingOf typeId productQuantity db) :
    blueprint.productQuantity =
      if blueprint.productTypeId = typeId then productQuantity else 1 := by
  obtain ⟨original, -, rfl⟩ := List.mem_map.mp hmem
  rfl

theorem positiveProducts_makingOf (typeId : TypeId) {productQuantity : ℤ}
    (hproduct : 1 ≤ productQuantity) (db : List Blueprint) :
    PositiveProducts (makingOf typeId productQuantity db) := by
  intro blueprint hblueprint
  rw [productQuantity_makingOf hblueprint]
  split
  · exact hproduct
  · exact le_rfl

theorem productTypeId_of_expansion {typeId : TypeId} {blueprint : Blueprint}
    (hexpansion : expansion db target buildSet typeId = some blueprint) :
    blueprint.productTypeId = typeId := by
  unfold expansion at hexpansion
  split at hexpansion
  · cases hexpansion
  · rw [blueprintForProduct] at hexpansion
    simpa using List.find?_some hexpansion

/-- An expanded type that is met twice is not rounded once if a run makes more of it than is ever
needed. -/
theorem metOnce_of_resolvesRounded (typeName : TypeId → Option String)
    (hmaterials : PositiveMaterials db) (hquantity : 1 ≤ targetQuantity)
    (hrounded : ∀ db', SameMaterials db' db → PositiveProducts db' →
      ResolvesRounded db' target buildSet typeName targetQuantity) :
    MetOnce db target buildSet := by
  intro typeId hexpands first hfirst second hsecond hmetFirst hmetSecond
  -- what is needed of the type where every run makes one unit
  let needed := ∑ depth ∈ Finset.range maxDepth,
    quantityAt (makingOf typeId 1 db) target buildSet targetQuantity depth typeId
  have hunits := sameMaterials_makingOf typeId 1 db
  have hmany := sameMaterials_makingOf typeId needed db
  have hpos : 1 ≤ needed := by
    have hterm := one_le_quantityAt (hunits.positive hmaterials) hquantity
      (hunits.typesAt_eq first ▸ hmetFirst)
    refine hterm.trans (Finset.single_le_sum (f := fun depth =>
      quantityAt (makingOf typeId 1 db) target buildSet targetQuantity depth typeId)
      (fun depth _ => quantityAt_nonneg (hunits.positive hmaterials) hquantity depth typeId) ?_)
    exact Finset.mem_range.mpr hfirst
  have hproducts := positiveProducts_makingOf typeId hpos db
  obtain ⟨blueprint, hexpansion⟩ :=
    Option.isSome_iff_exists.mp ((hmany.expands typeId).mpr hexpands)
  have hproduct : blueprint.productQuantity = needed := by
    rw [productQuantity_makingOf (mem_of_expansion hexpansion),
      if_pos (productTypeId_of_expansion hexpansion)]
  have hfits : ∑ depth ∈ Finset.range maxDepth,
      quantityAt (makingOf typeId needed db) target buildSet targetQuantity depth typeId ≤
        blueprint.productQuantity := by
    rw [hproduct]
    refine Finset.sum_le_sum fun depth _ => ?_
    refine (hmany.trans hunits.symm).quantityAt_le (positiveProducts_makingOf typeId le_rfl db)
      (hunits.positive hmaterials) (fun other made made' hmade hmade' => ?_) depth typeId
    rw [productQuantity_makingOf (mem_of_expansion hmade'), ite_self]
    exact hproducts made (mem_of_expansion hmade)
  have hsum := (roundsOnce_iff_sum typeName hproducts (hmany.positive hmaterials) hquantity).mp
    (hrounded _ hmany hproducts) typeId blueprint hexpansion
  exact Batches.eq_of_sum_runsFor_eq (hproducts blueprint (mem_of_expansion hexpansion))
    (fun depth _ => quantityAt_nonneg (hmany.positive hmaterials) hquantity depth typeId) hfits hsum
    (Finset.mem_range.mpr hfirst) (Finset.mem_range.mpr hsecond)
    (one_le_quantityAt (hmany.positive hmaterials) hquantity (hmany.typesAt_eq first ▸ hmetFirst))
    (one_le_quantityAt (hmany.positive hmaterials) hquantity (hmany.typesAt_eq second ▸ hmetSecond))

/-- **When the runs are rounded once.**  Whatever the blueprints make in a run, all steps have
`ceil (quantityNeeded / productQuantity)` runs exactly if every type that is expanded is met at
one depth only.  For the given product quantities it is enough that every expanded type is needed
in whole batches at all depths but one. -/
theorem roundsOnce_iff_metOnce (typeName : TypeId → Option String)
    (hproducts : PositiveProducts db) (hmaterials : PositiveMaterials db)
    (hquantity : 1 ≤ targetQuantity) :
    ((∀ db', SameMaterials db' db → PositiveProducts db' →
        ResolvesRounded db' target buildSet typeName targetQuantity) ↔
      MetOnce db target buildSet) ∧
    (WholeBatchesElsewhere db target buildSet targetQuantity →
      ResolvesRounded db target buildSet typeName targetQuantity) := by
  refine ⟨⟨metOnce_of_resolvesRounded typeName hmaterials hquantity, ?_⟩,
    resolvesRounded_of_wholeBatches typeName hproducts hmaterials hquantity⟩
  intro honce db' hsame hproducts'
  exact resolvesRounded_of_wholeBatches typeName hproducts' (hsame.positive hmaterials) hquantity
    (hsame.metOnce honce).wholeBatches

/-! ## A component at two depths -/

/-- The target takes a `2` and five `3`s, and a `2` takes five more `3`s; a run of
`3` makes ten. -/
def twoDepths : List Blueprint :=
  [⟨1, some 1, [⟨2, 1⟩, ⟨3, 5⟩]⟩, ⟨2, some 1, [⟨3, 5⟩]⟩, ⟨3, some 10, [⟨4, 1⟩]⟩]

theorem positiveProducts_twoDepths : PositiveProducts twoDepths := by
  simp [PositiveProducts, twoDepths, Blueprint.productQuantity]

theorem positiveMaterials_twoDepths : PositiveMaterials twoDepths := by
  simp [PositiveMaterials, twoDepths]

/-- The ten `3`s that are needed take one run, but five are rounded up at depth one
and five at depth two.  The loop ends with an empty level. -/
theorem runs_ne_ceil_of_two_depths :
    PositiveProducts twoDepths ∧ PositiveMaterials twoDepths ∧
    (∃ walk, resolveLevels exactCeil twoDepths 1 {2, 3} 1 = .ok (walk, .empty)) ∧
    ∃ resolution, resolveBuildChain exactCeil twoDepths 1 {2, 3} (fun _ => none) 1 =
      .ok resolution ∧
      ∃ step ∈ resolution.steps, step.quantityNeeded = 10 ∧ step.productQuantity = 10 ∧
        step.runs = 2 ∧ step.runs ≠ ⌈(step.quantityNeeded : ℚ) / step.productQuantity⌉ := by
  refine ⟨positiveProducts_twoDepths, positiveMaterials_twoDepths, ⟨_, rfl⟩, _, rfl, ?_⟩
  refine ⟨_, List.mem_cons_self .., rfl, rfl, rfl, ?_⟩
  show (2 : ℤ) ≠ ⌈((10 : ℤ) : ℚ) / ((10 : ℤ) : ℚ)⌉
  norm_num

/-- The same table, but a run of `3` makes five. -/
def fiveAtOnce : List Blueprint :=
  [⟨1, some 1, [⟨2, 1⟩, ⟨3, 5⟩]⟩, ⟨2, some 1, [⟨3, 5⟩]⟩, ⟨3, some 5, [⟨4, 1⟩]⟩]

theorem productQuantity_fiveAtOnce {typeId : TypeId} {blueprint : Blueprint}
    (hexpansion : expansion fiveAtOnce 1 {2, 3} typeId = some blueprint) :
    blueprint.productQuantity = 1 ∨ typeId = 3 ∧ blueprint.productQuantity = 5 := by
  have hproduct := productTypeId_of_expansion hexpansion
  have hmem := mem_of_expansion hexpansion
  simp only [fiveAtOnce, List.mem_cons, List.not_mem_nil, or_false] at hmem
  rcases hmem with rfl | rfl | rfl
  · exact .inl rfl
  · exact .inl rfl
  · exact .inr ⟨hproduct.symm, rfl⟩

/-- Each run takes five `3`s or none. -/
theorem dvd_usePerRun_fiveAtOnce (user : TypeId) :
    5 ∣ usePerRun fiveAtOnce 1 {2, 3} user 3 := by
  unfold usePerRun
  cases hexpansion : expansion fiveAtOnce 1 {2, 3} user with
  | none => exact dvd_zero _
  | some blueprint =>
      have hmem := mem_of_expansion hexpansion
      simp only [fiveAtOnce, List.mem_cons, List.not_mem_nil, or_false] at hmem
      rcases hmem with rfl | rfl | rfl <;> decide

theorem wholeBatches_fiveAtOnce : WholeBatchesElsewhere fiveAtOnce 1 {2, 3} 1 := by
  intro typeId blueprint hexpansion
  rcases productQuantity_fiveAtOnce hexpansion with hone | ⟨rfl, hfive⟩
  · rw [hone]
    exact ⟨0, fun depth _ _ _ => wholeBatchesAt_one typeId depth⟩
  · rw [hfive]
    refine ⟨0, fun depth _ hne _ => ?_⟩
    cases depth with
    | zero => exact absurd rfl hne
    | succ depth => exact fun user _ => dvd_usePerRun_fiveAtOnce user

/-- `3` is met at two depths, so that it depends on what a run makes: five are fine. -/
theorem roundsOnce_iff_metOnce_fiveAtOnce :
    (¬ ∀ db', SameMaterials db' fiveAtOnce → PositiveProducts db' →
      ResolvesRounded db' 1 {2, 3} (fun _ => none) 1) ∧
    ResolvesRounded fiveAtOnce 1 {2, 3} (fun _ => none) 1 := by
  obtain ⟨hiff, hwhole⟩ := @roundsOnce_iff_metOnce fiveAtOnce 1 {2, 3} 1 (fun _ => none)
    (by simp [PositiveProducts, fiveAtOnce, Blueprint.productQuantity])
    (by simp [PositiveMaterials, fiveAtOnce]) le_rfl
  refine ⟨fun hall => ?_, hwhole wholeBatches_fiveAtOnce⟩
  exact absurd (hiff.mp hall 3 (by decide) 1 (by decide) 2 (by decide) (by decide) (by decide))
    (by decide)

end EveBuild.BuildChain
