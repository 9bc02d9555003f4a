import EveBuild.BuildChain.Rounding
import EveBuild.Data.Significand

/-!
# The runs that a float quotient gives

The source divides two integers as floats: the quotient is rounded to 53 binary digits before it
is rounded up to runs, and one that is too large for a float raises an `OverflowError`.

A step is built enough just if what the visits of its type at different depths lack and what they
have too much makes up for each other (`returnsEnough_iff`).  This is about the quantities of the
walk itself, which has rounded them already.  In terms of the expansion with exact quotients,
enough is built if every quotient of it still has the same ceiling as a float, as those of
quantities up to `2 ^ 53` have; and whatever the table is, some target quantity is too large
(`builds_enough`).
-/

namespace EveBuild.BuildChain

open Significand

variable {ceilQuotient : ℤ → ℤ → Except ArithmeticError ℤ} {db : List Blueprint}
  {target : TypeId} {buildSet : Finset TypeId} {runs : TypeId → ℤ → ℤ} {targetQuantity : ℤ}

/-! ## When the loop returns -/

/-- The division of a visit returns. -/
def DivisionReturns (ceilQuotient : ℤ → ℤ → Except ArithmeticError ℤ) (db : List Blueprint)
    (target : TypeId) (buildSet : Finset TypeId) (typeId : TypeId) (quantity : ℤ) : Prop :=
  ∀ blueprint, expansion db target buildSet typeId = some blueprint →
    ∃ quotient, ceilQuotient quantity blueprint.productQuantity = .ok quotient

theorem visitLevel_returns_iff {level : Dict TypeId ℤ} {depth : ℕ}
    (hlevel : HoldsSpread db target buildSet runs targetQuantity level depth) (walk : Walk) :
    (∃ state, visitLevel ceilQuotient db target buildSet walk level = .ok state) ↔
      ∀ typeId ∈ typesAt db target buildSet depth, DivisionReturns ceilQuotient db target buildSet
        typeId (spreadAt db target buildSet runs targetQuantity depth typeId) := by
  rw [visitLevel, visitEntries_returns_iff]
  constructor
  · intro hdivides typeId htypeId
    obtain ⟨quantity, hget⟩ := Dict.mem_keys_iff.mp ((hlevel.types typeId).mpr htypeId)
    have hquantity := hlevel.quantity typeId
    rw [Dict.getD_of_get? hget] at hquantity
    rw [← hquantity]
    exact hdivides _ (Dict.get?_eq_some_iff.mp hget)
  · intro hdivides entry hentry
    have hquantity := hlevel.quantity entry.1
    rw [Dict.getD_of_get? (Dict.get?_eq_some_iff.mpr hentry)] at hquantity
    rw [hquantity]
    exact hdivides entry.1 ((hlevel.types entry.1).mp (Dict.mem_keys_of_mem hentry))

/-- **When the loop returns.** -/
theorem levelLoop_returns_iff
    (hruns : LevelsRunBy ceilQuotient db target buildSet runs targetQuantity) :
    ∀ (passes : ℕ) {depth : ℕ} (walk : Walk) {level : Dict TypeId ℤ},
      HoldsSpread db target buildSet runs targetQuantity level depth →
      ((∃ result, levelLoop ceilQuotient db target buildSet passes walk level = .ok result) ↔
        ∀ pass < passes, ∀ typeId ∈ typesAt db target buildSet (depth + pass),
          DivisionReturns ceilQuotient db target buildSet typeId
            (spreadAt db target buildSet runs targetQuantity (depth + pass) typeId)) := by
  intro passes
  induction passes with
  | zero =>
      intro depth walk level _
      simpa using ⟨_, _, rfl⟩
  | succ passes ih =>
      intro depth walk level hlevel
      have hshift : ∀ pass, depth + 1 + pass = depth + (pass + 1) := by omega
      rw [levelLoop]
      split
      · rename_i hentries
        -- there is no type to divide for
        refine ⟨fun _ pass _ typeId htypeId => ?_, fun _ => ⟨_, rfl⟩⟩
        rw [typesAt, layer_eq_empty_of_le (hlevel.types.eq_empty hentries)
          (Nat.le_add_right depth pass)] at htypeId
        exact absurd htypeId (Finset.notMem_empty typeId)
      · constructor
        · rintro ⟨result, hloop⟩ pass hpass
          obtain ⟨⟨middle, nextLevel⟩, hvisit, hrest⟩ := bind_eq_ok.mp hloop
          cases pass with
          -- each level is divided for by its own pass
          | zero => exact (visitLevel_returns_iff hlevel walk).mp ⟨_, hvisit⟩
          | succ pass =>
              have hnext := (visitLevel_spreads hruns hlevel hvisit).1
              rw [← hshift]
              exact (ih middle hnext).mp ⟨result, hrest⟩ pass (by omega)
        · intro hdivides
          obtain ⟨⟨middle, nextLevel⟩, hvisit⟩ :=
            (visitLevel_returns_iff hlevel walk).mpr (hdivides 0 (by omega))
          have hnext := (visitLevel_spreads hruns hlevel hvisit).1
          obtain ⟨result, hrest⟩ := (ih middle hnext).mpr fun pass hpass => by
            rw [hshift]
            exact hdivides (pass + 1) (by omega)
          exact ⟨result, bind_eq_ok.mpr ⟨_, hvisit, hrest⟩⟩

/-! ## Float quotients -/

/-- `quantity / product_quantity`. -/
def trueDivide (quantity productQuantity : ℤ) : Except ArithmeticError ℚ :=
  if productQuantity = 0 then .error .zeroDivision
  else (double (quantity / productQuantity)).elim (.error .overflow) .ok

/-- `math.ceil(quantity / product_quantity)`. -/
def floatCeil (quantity productQuantity : ℤ) : Except ArithmeticError ℤ := do
  let quotient ← trueDivide quantity productQuantity
  return ⌈quotient⌉

/-- The quotient, rounded to the digits of a float. -/
def floatQuotient (quantity productQuantity : ℤ) : ℚ := round 53 (quantity / productQuantity)

theorem floatCeil_eq_ok_iff {quantity productQuantity quotient : ℤ}
    (hproduct : 1 ≤ productQuantity) :
    floatCeil quantity productQuantity = .ok quotient ↔
      |floatQuotient quantity productQuantity| < 2 ^ 1024 ∧
        quotient = ⌈floatQuotient quantity productQuantity⌉ := by
  rw [floatCeil, trueDivide, if_neg (by omega), double, ← floatQuotient]
  by_cases hlarge : 2 ^ 1024 ≤ |floatQuotient quantity productQuantity|
  · rw [if_pos hlarge]
    refine ⟨fun herror => ?_, fun hsmall => absurd hsmall.1 (not_lt.mpr hlarge)⟩
    cases herror
  · rw [if_neg hlarge]
    constructor
    · intro hok
      exact ⟨not_le.mp hlarge, (Except.ok.inj hok).symm⟩
    · rintro ⟨_, rfl⟩
      rfl

/-- `additional_runs`. -/
def floatRuns (db : List Blueprint) (target : TypeId) (buildSet : Finset TypeId)
    (typeId : TypeId) (quantity : ℤ) : ℤ :=
  (expansion db target buildSet typeId).elim 0 fun blueprint =>
    max 1 ⌈floatQuotient quantity blueprint.productQuantity⌉

/-- The quantity of a type in the level at a depth below `targetQuantity` of the target. -/
def floatNeedAt (db : List Blueprint) (target : TypeId) (buildSet : Finset TypeId)
    (targetQuantity : ℤ) (depth : ℕ) (typeId : TypeId) : ℤ :=
  spreadAt db target buildSet (floatRuns db target buildSet) targetQuantity depth typeId

/-- The units that a visit asks for and its runs do not make; negative if they make more. -/
def shortfall (productQuantity quantity : ℤ) : ℤ :=
  quantity - max 1 ⌈floatQuotient quantity productQuantity⌉ * productQuantity

theorem levelsRunBy_floatRuns (hproducts : PositiveProducts db) (target : TypeId)
    (buildSet : Finset TypeId) (targetQuantity : ℤ) :
    LevelsRunBy floatCeil db target buildSet (floatRuns db target buildSet) targetQuantity := by
  intro depth typeId _
  constructor
  · intro blueprint quotient hexpansion hquotient
    obtain ⟨_, rfl⟩ :=
      (floatCeil_eq_ok_iff (hproducts blueprint (mem_of_expansion hexpansion))).mp hquotient
    rw [floatRuns, hexpansion, Option.elim]
  · intro hnot
    have hnone : expansion db target buildSet typeId = none := by
      simpa [Expands] using hnot
    rw [floatRuns, hnone, Option.elim]

/-- **Small quantities are rounded up.** -/
theorem shortfall_nonpos {productQuantity quantity : ℤ} (hproduct : 1 ≤ productQuantity)
    (hquantity : quantity ≤ 2 ^ 53) : shortfall productQuantity quantity ≤ 0 := by
  have hone : 1 ≤ max 1 ⌈floatQuotient quantity productQuantity⌉ := le_max_left ..
  rcases le_or_gt quantity 0 with hneg | hpos
  · -- at least one run is made, which is more than nothing
    have := mul_pos (show 0 < max 1 ⌈floatQuotient quantity productQuantity⌉ by omega)
      (show 0 < productQuantity by omega)
    rw [shortfall]
    omega
  · have hp : (0 : ℚ) < productQuantity := by exact_mod_cast hproduct
    have hq : (0 : ℚ) < quantity := by exact_mod_cast hpos
    have hx : (0 : ℚ) < quantity / productQuantity := div_pos hq hp
    -- the quotient is too small by less than a part in `2 ^ 53`
    have herror := abs_sub_round_lt (by norm_num : 1 ≤ 53) hx.ne'
    rw [abs_of_pos hx, ← floatQuotient] at herror
    have hbelow : (quantity : ℚ) / productQuantity - quantity / productQuantity / 2 ^ 53 <
        floatQuotient quantity productQuantity := by
      linarith only [(abs_lt.mp herror).2]
    have hceil : floatQuotient quantity productQuantity ≤
        (max 1 ⌈floatQuotient quantity productQuantity⌉ : ℤ) :=
      (Int.le_ceil _).trans (by exact_mod_cast le_max_right ..)
    have hmade : (quantity : ℚ) - 1 <
        (max 1 ⌈floatQuotient quantity productQuantity⌉ : ℤ) * productQuantity := by
      calc (quantity : ℚ) - 1 ≤ quantity - quantity / 2 ^ 53 := by
            have : (quantity : ℚ) / 2 ^ 53 ≤ 1 := by
              rw [div_le_one (by positivity)]
              exact_mod_cast hquantity
            linarith
        _ = (quantity / productQuantity - quantity / productQuantity / 2 ^ 53) *
              productQuantity := by
            field_simp
        _ < floatQuotient quantity productQuantity * productQuantity :=
            mul_lt_mul_of_pos_right hbelow hp
        _ ≤ (max 1 ⌈floatQuotient quantity productQuantity⌉ : ℤ) * productQuantity :=
            mul_le_mul_of_nonneg_right hceil hp.le
    -- whole units, so that less than one is missing means that none is
    have hunits : quantity - 1 < max 1 ⌈floatQuotient quantity productQuantity⌉ *
        productQuantity := by exact_mod_cast hmade
    rw [shortfall]
    omega

/-! ## Enough for every quantity -/

/-- The chain resolves, and the runs of each returned step make what is needed of it. -/
def ReturnsEnough (db : List Blueprint) (target : TypeId) (buildSet : Finset TypeId)
    (typeName : TypeId → Option String) (targetQuantity : ℤ) : Prop :=
  ∃ resolution, resolveBuildChain floatCeil db target buildSet typeName targetQuantity =
      .ok resolution ∧
    ∀ step ∈ resolution.steps, step.quantityNeeded ≤ step.runs * step.productQuantity

/-- No quotient of a level is too large for a float. -/
def QuotientsFit (db : List Blueprint) (target : TypeId) (buildSet : Finset TypeId)
    (targetQuantity : ℤ) : Prop :=
  ∀ depth < maxDepth, ∀ typeId ∈ typesAt db target buildSet depth, ∀ blueprint,
    expansion db target buildSet typeId = some blueprint →
    |floatQuotient (floatNeedAt db target buildSet targetQuantity depth typeId)
      blueprint.productQuantity| < 2 ^ 1024

/-- What the visits of a type at some depths lack, those at others have too much. -/
def ShortfallsMadeUp (db : List Blueprint) (target : TypeId) (buildSet : Finset TypeId)
    (targetQuantity : ℤ) : Prop :=
  ∀ typeId blueprint, expansion db target buildSet typeId = some blueprint →
    ∑ depth ∈ (Finset.range maxDepth).filter (typeId ∈ typesAt db target buildSet ·),
      shortfall blueprint.productQuantity
        (floatNeedAt db target buildSet targetQuantity depth typeId) ≤ 0

/-- The walk resolves where its quotients fit. -/
theorem resolveLevels_returns_iff (hproducts : PositiveProducts db) :
    (∃ result, resolveLevels floatCeil db target buildSet targetQuantity = .ok result) ↔
      QuotientsFit db target buildSet targetQuantity := by
  rw [resolveLevels, levelLoop_returns_iff
    (levelsRunBy_floatRuns hproducts target buildSet targetQuantity) maxDepth .start
    holdsSpread_single]
  refine forall₂_congr fun depth _ => ?_
  rw [Nat.zero_add]
  refine forall₄_congr fun typeId _ blueprint hexpansion => ?_
  have hproduct := hproducts blueprint (mem_of_expansion hexpansion)
  constructor
  · rintro ⟨quotient, hquotient⟩
    exact ((floatCeil_eq_ok_iff hproduct).mp hquotient).1
  · intro hsmall
    exact ⟨_, (floatCeil_eq_ok_iff hproduct).mpr ⟨hsmall, rfl⟩⟩

/-- What a step has too few is the sum of what its visits have. -/
theorem sum_shortfall {walk : Walk} {leftover : Dict TypeId ℤ} (hproducts : PositiveProducts db)
    (hlevels : resolveLevels floatCeil db target buildSet targetQuantity = .ok (walk, leftover))
    {typeId : TypeId} {blueprint : Blueprint}
    (hexpansion : expansion db target buildSet typeId = some blueprint) :
    ∑ depth ∈ (Finset.range maxDepth).filter (typeId ∈ typesAt db target buildSet ·),
      shortfall blueprint.productQuantity
        (floatNeedAt db target buildSet targetQuantity depth typeId) =
      walk.needed typeId - walk.runsOf typeId * blueprint.productQuantity := by
  have hruns := levelsRunBy_floatRuns hproducts target buildSet targetQuantity
  have hexpands : Expands db target buildSet typeId := by simp [Expands, hexpansion]
  have hneeded := levelLoop_needed hruns maxDepth holdsSpread_single hlevels typeId
  have hmade := (levelLoop_spreads hruns maxDepth holdsSpread_single hlevels).2.2 typeId
  have hstart : Walk.start.needed typeId = 0 ∧ Walk.start.runsOf typeId = 0 := ⟨rfl, rfl⟩
  rw [hneeded, hmade, hstart.1, hstart.2, Finset.sum_filter, zero_add, zero_add, Finset.sum_mul,
    ← Finset.sum_sub_distrib]
  refine Finset.sum_congr rfl fun depth _ => ?_
  rw [Nat.zero_add, neededAt, if_pos hexpands, runsSpreadAt]
  by_cases hmet : typeId ∈ typesAt db target buildSet depth
  · rw [if_pos hmet, if_pos hmet, shortfall, floatNeedAt, floatRuns, hexpansion, Option.elim]
  · rw [if_neg hmet, if_neg hmet, spreadAt_eq_zero hmet, zero_mul, sub_zero]

theorem enough_steps_iff {walk : Walk} {leftover : Dict TypeId ℤ} (hproducts : PositiveProducts db)
    (hlevels : resolveLevels floatCeil db target buildSet targetQuantity = .ok (walk, leftover))
    {typeName : TypeId → Option String} {resolution : BuildResolution}
    (hsteps : resolution.steps = topologicalOrder target (nameSteps typeName walk.stepsByTypeId)) :
    (∀ step ∈ resolution.steps, step.quantityNeeded ≤ step.runs * step.productQuantity) ↔
      ShortfallsMadeUp db target buildSet targetQuantity := by
  have hunmet : ∀ productQuantity : ℤ, 0 ≤ 0 * productQuantity := by simp
  have hall := @forall_steps_iff _ _ _ _ _ _ (resolveLevels_accounted hlevels) typeName
    resolution hsteps (fun needed runs productQuantity => needed ≤ runs * productQuantity) hunmet
  rw [hall]
  refine forall₃_congr fun typeId blueprint hexpansion => ?_
  rw [sum_shortfall hproducts hlevels hexpansion, sub_nonpos]

theorem returnsEnough_iff (typeName : TypeId → Option String) (hproducts : PositiveProducts db) :
    ReturnsEnough db target buildSet typeName targetQuantity ↔
      QuotientsFit db target buildSet targetQuantity ∧
        ShortfallsMadeUp db target buildSet targetQuantity := by
  rw [← resolveLevels_returns_iff hproducts]
  constructor
  · rintro ⟨resolution, hresolve, hsteps⟩
    obtain ⟨walk, leftover, hlevels, horder, _⟩ := resolveBuildChain_cases hresolve
    exact ⟨⟨_, hlevels⟩, (enough_steps_iff hproducts hlevels horder).mp hsteps⟩
  · rintro ⟨⟨⟨walk, leftover⟩, hlevels⟩, hmadeUp⟩
    refine ⟨_, bind_eq_ok.mpr ⟨_, hlevels, rfl⟩, ?_⟩
    exact (enough_steps_iff hproducts hlevels (by rw [stepsByTypeId_addLeftover])).mpr hmadeUp

/-! ## In terms of the exact expansion -/

/-- The quotients of the expansion with exact quotients fit into floats, and are rounded up to the
same runs as floats. -/
def CeilingsKept (db : List Blueprint) (target : TypeId) (buildSet : Finset TypeId)
    (targetQuantity : ℤ) : Prop :=
  ∀ depth < maxDepth, ∀ typeId ∈ typesAt db target buildSet depth, ∀ blueprint,
    expansion db target buildSet typeId = some blueprint →
    |floatQuotient (quantityAt db target buildSet targetQuantity depth typeId)
        blueprint.productQuantity| < 2 ^ 1024 ∧
      max 1 ⌈floatQuotient (quantityAt db target buildSet targetQuantity depth typeId)
          blueprint.productQuantity⌉ =
        max 1 (Batches.runsFor blueprint.productQuantity
          (quantityAt db target buildSet targetQuantity depth typeId))

/-- All quantities that the expansion with exact quotients divides are small. -/
def SmallNeeds (db : List Blueprint) (target : TypeId) (buildSet : Finset TypeId)
    (targetQuantity : ℤ) : Prop :=
  ∀ depth < maxDepth, ∀ typeId ∈ typesAt db target buildSet depth,
    Expands db target buildSet typeId →
    |quantityAt db target buildSet targetQuantity depth typeId| ≤ 2 ^ 53

/-- Where the ceilings are kept, the walk is the exact expansion. -/
theorem CeilingsKept.floatNeedAt_eq (hkept : CeilingsKept db target buildSet targetQuantity)
    {depth : ℕ} (hdepth : depth < maxDepth) (typeId : TypeId) :
    floatNeedAt db target buildSet targetQuantity depth typeId =
      quantityAt db target buildSet targetQuantity depth typeId := by
  refine spread_congr (fun higher hhigher user huser => ?_) typeId
  rw [floatRuns, clampedRuns]
  cases hexpansion : expansion db target buildSet user with
  | none => rfl
  | some blueprint => exact (hkept higher (by omega) user huser blueprint hexpansion).2

/-- Kept ceilings make enough. -/
theorem CeilingsKept.returnsEnough (hproducts : PositiveProducts db)
    (typeName : TypeId → Option String) (hkept : CeilingsKept db target buildSet targetQuantity) :
    ReturnsEnough db target buildSet typeName targetQuantity := by
  refine (returnsEnough_iff typeName hproducts).mpr ⟨fun depth hdepth typeId htypeId blueprint
    hexpansion => ?_, fun typeId blueprint hexpansion => ?_⟩
  · rw [hkept.floatNeedAt_eq hdepth]
    exact (hkept depth hdepth typeId htypeId blueprint hexpansion).1
  · -- no depth has a shortfall
    refine Finset.sum_nonpos fun depth hmem => ?_
    obtain ⟨hrange, hmet⟩ := Finset.mem_filter.mp hmem
    have hdepth := Finset.mem_range.mp hrange
    have hproduct : 0 < blueprint.productQuantity :=
      hproducts blueprint (mem_of_expansion hexpansion)
    rw [hkept.floatNeedAt_eq hdepth, shortfall,
      (hkept depth hdepth typeId hmet blueprint hexpansion).2, sub_nonpos]
    exact (Batches.runsFor_le_iff hproduct).mp (le_max_right ..)

/-- A quotient of a small quantity is not rounded above its ceiling. -/
theorem ceil_floatQuotient_le {productQuantity quantity : ℤ} (hproduct : 1 ≤ productQuantity)
    (hpos : 0 < quantity) (hquantity : quantity ≤ 2 ^ 53) :
    ⌈floatQuotient quantity productQuantity⌉ ≤ Batches.runsFor productQuantity quantity := by
  have hp : (0 : ℚ) < productQuantity := by exact_mod_cast hproduct
  have hq : (0 : ℚ) < quantity := by exact_mod_cast hpos
  have hx : (0 : ℚ) < quantity / productQuantity := div_pos hq hp
  rw [Int.ceil_le]
  have hceil : (quantity : ℚ) / productQuantity ≤ Batches.runsFor productQuantity quantity :=
    Int.le_ceil _
  rcases hceil.eq_or_lt with hexact | hbelow
  · -- an integer of at most 53 digits is not rounded
    have hruns : Batches.runsFor productQuantity quantity ≤ 2 ^ 53 := by
      refine (Batches.runsFor_le_iff hproduct).mpr (hquantity.trans ?_)
      exact le_mul_of_one_le_right (by norm_num) hproduct
    obtain ⟨runs, hcast⟩ := Int.eq_ofNat_of_zero_le
      (Batches.runsFor_pos (show 0 < productQuantity by omega) hpos).le
    rw [floatQuotient, hexact, hcast, Int.cast_natCast,
      Significand.round_natCast (by norm_num) (by exact_mod_cast hcast ▸ hruns)]
  · -- the ceiling is at least one part of `productQuantity` away
    have hunits : quantity + 1 ≤ Batches.runsFor productQuantity quantity * productQuantity := by
      rw [div_lt_iff₀ hp] at hbelow
      exact_mod_cast hbelow
    have herror := abs_sub_round_lt (by norm_num : 1 ≤ 53) hx.ne'
    rw [abs_of_pos hx, ← floatQuotient] at herror
    have habove : floatQuotient quantity productQuantity <
        quantity / productQuantity + quantity / productQuantity / 2 ^ 53 := by
      linarith only [(abs_lt.mp herror).1]
    have hsmall : (quantity : ℚ) / 2 ^ 53 ≤ 1 := by
      rw [div_le_one (by positivity)]
      exact_mod_cast hquantity
    calc floatQuotient quantity productQuantity
        ≤ quantity / productQuantity + quantity / productQuantity / 2 ^ 53 := habove.le
      _ = (quantity + quantity / 2 ^ 53) / productQuantity := by ring
      _ ≤ (quantity + 1) / productQuantity := by gcongr
      _ ≤ Batches.runsFor productQuantity quantity := by
          rw [div_le_iff₀ hp]
          exact_mod_cast hunits

/-- No runs are needed for nothing, with or without floats. -/
theorem ceil_floatQuotient_nonpos {productQuantity quantity : ℤ} (hproduct : 1 ≤ productQuantity)
    (hquantity : quantity ≤ 0) : ⌈floatQuotient quantity productQuantity⌉ ≤ 0 := by
  have hp : (0 : ℚ) < productQuantity := by exact_mod_cast hproduct
  have hx : (quantity : ℚ) / productQuantity ≤ 0 :=
    div_nonpos_of_nonpos_of_nonneg (by exact_mod_cast hquantity) hp.le
  rw [Int.ceil_le, Int.cast_zero]
  rcases hx.eq_or_lt with hzero | hneg
  · have hround := abs_round_le (by norm_num : 1 ≤ 53) ((quantity : ℚ) / productQuantity)
    rw [hzero, abs_zero, mul_zero, abs_nonpos_iff] at hround
    rw [floatQuotient, hzero, hround]
  · have herror := abs_sub_round_lt (by norm_num : 1 ≤ 53) hneg.ne
    rw [abs_of_neg hneg, ← floatQuotient] at herror
    have habove := (abs_lt.mp herror).1
    have hpart : -((quantity : ℚ) / productQuantity) / 2 ^ 53 ≤ -(quantity / productQuantity) :=
      div_le_self (by linarith) (by norm_num)
    linarith

/-- **Small quantities keep their ceilings.** -/
theorem SmallNeeds.ceilingsKept (hproducts : PositiveProducts db)
    (hsmall : SmallNeeds db target buildSet targetQuantity) :
    CeilingsKept db target buildSet targetQuantity := by
  intro depth hdepth typeId htypeId blueprint hexpansion
  have hneed := hsmall depth hdepth typeId htypeId (expands_of_expansion hexpansion)
  have hproduct := hproducts blueprint (mem_of_expansion hexpansion)
  generalize quantityAt db target buildSet targetQuantity depth typeId = quantity at hneed ⊢
  constructor
  · -- the quotient is nowhere near the largest double
    have hone : (1 : ℚ) ≤ blueprint.productQuantity := by exact_mod_cast hproduct
    calc |floatQuotient quantity blueprint.productQuantity|
        ≤ 2 * |(quantity : ℚ) / blueprint.productQuantity| := abs_round_le (by norm_num) _
      _ ≤ 2 * |(quantity : ℚ)| := by
          rw [abs_div, abs_of_pos (by linarith : (0 : ℚ) < blueprint.productQuantity)]
          exact mul_le_mul_of_nonneg_left (div_le_self (abs_nonneg _) hone) two_pos.le
      _ ≤ 2 * 2 ^ 53 := by
          refine mul_le_mul_of_nonneg_left ?_ two_pos.le
          exact_mod_cast hneed
      _ = 2 ^ 54 := by norm_num
      _ < 2 ^ 1024 := pow_lt_pow_right₀ one_lt_two (by norm_num)
  · rcases le_or_gt quantity 0 with hneg | hpos
    · have hruns : Batches.runsFor blueprint.productQuantity quantity ≤ 0 := by
        refine (Batches.runsFor_le_iff hproduct).mpr ?_
        rwa [zero_mul]
      have hfloat := ceil_floatQuotient_nonpos hproduct hneg
      rw [max_eq_left (by omega), max_eq_left (by omega)]
    · have hquantity : quantity ≤ 2 ^ 53 := (le_abs_self _).trans hneed
      refine le_antisymm (max_le_max le_rfl (ceil_floatQuotient_le hproduct hpos hquantity)) ?_
      refine max_le (le_max_left ..) ((Batches.runsFor_le_iff hproduct).mpr ?_)
      exact sub_nonpos.mp (shortfall_nonpos hproduct hquantity)

/-! ## For every target quantity -/

theorem floatNeedAt_zero (target : TypeId) (buildSet : Finset TypeId) (targetQuantity : ℤ) :
    floatNeedAt db target buildSet targetQuantity 0 target = targetQuantity := if_pos rfl

/-- So much of the target is asked for that its quotient does not fit into a float. -/
theorem not_returnsEnough_of_large {blueprint : Blueprint} (hproducts : PositiveProducts db)
    (hblueprint : blueprintForProduct db target = some blueprint)
    (typeName : TypeId → Option String) :
    ¬ ReturnsEnough db target buildSet typeName (2 ^ 1024 * blueprint.productQuantity) := by
  intro henough
  have hexpansion : expansion db target buildSet target = some blueprint := by
    rw [expansion, if_neg (by simp), hblueprint]
  have hproduct : (blueprint.productQuantity : ℚ) ≠ 0 := by
    have := hproducts blueprint (mem_of_expansion hexpansion)
    exact_mod_cast (by omega : blueprint.productQuantity ≠ 0)
  have hfits := ((returnsEnough_iff typeName hproducts).mp henough).1 0 (by decide) target
    (mem_layer_zero.mpr rfl) blueprint hexpansion
  rw [floatNeedAt_zero, floatQuotient, Int.cast_mul, mul_div_cancel_right₀ _ hproduct, Int.cast_pow,
    Int.cast_ofNat, round_two_pow (by norm_num), abs_of_pos (by positivity)] at hfits
  exact lt_irrefl _ hfits

/-- A target that has no blueprint is bought, and nothing is divided. -/
theorem returnsEnough_of_none (hproducts : PositiveProducts db)
    (hnone : blueprintForProduct db target = none) (typeName : TypeId → Option String)
    (targetQuantity : ℤ) : ReturnsEnough db target buildSet typeName targetQuantity := by
  have hexpansion : expansion db target buildSet target = none := by
    rw [expansion, if_neg (by simp), hnone]
  have hbelow : materialsBelow db target buildSet target = ∅ := by
    rw [materialsBelow, hexpansion]
    rfl
  refine CeilingsKept.returnsEnough hproducts typeName ?_
  intro depth hdepth typeId htypeId blueprint hsome
  have hempty : typesAt db target buildSet 1 = ∅ := by
    rw [typesAt, layer, layer, Finset.singleton_biUnion, hbelow]
  obtain rfl : depth = 0 := by
    have := lt_of_mem_layer hempty htypeId
    omega
  rw [mem_layer_zero.mp htypeId, hexpansion] at hsome
  cases hsome

/-- **When enough is built.**  It is if every quotient of the expansion with exact quotients has the
same ceiling as a float, in particular if none of its quantities is above `2 ^ 53`; and it is for
all target quantities only if the target is not built at all. -/
theorem builds_enough (db : List Blueprint) (target : TypeId) (buildSet : Finset TypeId)
    (typeName : TypeId → Option String) (hproducts : PositiveProducts db) :
    (∀ targetQuantity, CeilingsKept db target buildSet targetQuantity →
      ReturnsEnough db target buildSet typeName targetQuantity) ∧
    (∀ targetQuantity, SmallNeeds db target buildSet targetQuantity →
      CeilingsKept db target buildSet targetQuantity) ∧
    ((∀ targetQuantity, 1 ≤ targetQuantity →
        ReturnsEnough db target buildSet typeName targetQuantity) ↔
      blueprintForProduct db target = none) := by
  refine ⟨fun _ hkept => hkept.returnsEnough hproducts typeName,
    fun _ hsmall => hsmall.ceilingsKept hproducts, fun hall => ?_,
    fun hnone targetQuantity _ => returnsEnough_of_none hproducts hnone typeName targetQuantity⟩
  by_contra hsome
  obtain ⟨blueprint, hblueprint⟩ := Option.ne_none_iff_exists'.mp hsome
  refine @not_returnsEnough_of_large db target buildSet blueprint hproducts hblueprint typeName
    (hall _ ?_)
  have hproduct := hproducts blueprint (List.mem_of_find?_eq_some hblueprint)
  exact one_le_mul_of_one_le_of_one_le (one_le_pow₀ one_le_two) hproduct

/-! ## A quantity that has too many digits -/

/-- One unit of the target takes a `2`. -/
def oneUnit : List Blueprint := [⟨1, some 1, [⟨2, 1⟩]⟩]

theorem positiveProducts_oneUnit : PositiveProducts oneUnit := by
  simp [PositiveProducts, oneUnit, Blueprint.productQuantity]

theorem met_oneUnit {depth : ℕ} (hdepth : depth < maxDepth) :
    1 ∈ typesAt oneUnit 1 ∅ depth ↔ depth = 0 := by
  revert depth
  decide

theorem expands_oneUnit {typeId : TypeId} (hexpands : Expands oneUnit 1 ∅ typeId) :
    typeId = 1 := by
  by_contra hother
  simp [Expands, expansion, hother] at hexpands

theorem builds_enough_oneUnit :
    ReturnsEnough oneUnit 1 ∅ (fun _ => none) 10 ∧
      ¬ ∀ targetQuantity, 1 ≤ targetQuantity →
        ReturnsEnough oneUnit 1 ∅ (fun _ => none) targetQuantity := by
  obtain ⟨hkept, hsmall, hall⟩ :=
    builds_enough oneUnit 1 ∅ (fun _ => none) positiveProducts_oneUnit
  refine ⟨hkept 10 (hsmall 10 fun depth hdepth typeId hmet hexpands => ?_), fun henough => ?_⟩
  · obtain rfl := expands_oneUnit hexpands
    obtain rfl := (met_oneUnit hdepth).mp hmet
    show |(10 : ℤ)| ≤ 2 ^ 53
    norm_num
  · exact absurd (hall.mp henough) (by decide)

/-- The quotient is rounded down to `2 ^ 53`, and so are the runs. -/
theorem shortfall_two_pow_add_one : shortfall 1 (2 ^ 53 + 1) = 1 := by
  have hquotient : floatQuotient (2 ^ 53 + 1) 1 = (2 ^ 53 : ℤ) := by
    rw [floatQuotient, Int.cast_one, div_one, Int.cast_add, Int.cast_one, Int.cast_pow,
      Int.cast_ofNat]
    exact round_two_pow_add_one (by norm_num)
  rw [shortfall, hquotient, Int.ceil_intCast]
  norm_num

theorem not_returnsEnough_oneUnit :
    ¬ ReturnsEnough oneUnit 1 ∅ (fun _ => none) (2 ^ 53 + 1) := by
  intro henough
  obtain ⟨_, hmadeUp⟩ := (returnsEnough_iff _ positiveProducts_oneUnit).mp henough
  have hsum := hmadeUp 1 ⟨1, some 1, [⟨2, 1⟩]⟩ rfl
  have hproduct : Blueprint.productQuantity ⟨1, some 1, [⟨2, 1⟩]⟩ = 1 := rfl
  have hdepths : (Finset.range maxDepth).filter (1 ∈ typesAt oneUnit 1 ∅ ·) = {0} := by
    ext depth
    rw [Finset.mem_filter, Finset.mem_range, Finset.mem_singleton]
    constructor
    · rintro ⟨hdepth, hmet⟩
      exact (met_oneUnit hdepth).mp hmet
    · rintro rfl
      exact ⟨by decide, (met_oneUnit (by decide)).mpr rfl⟩
  rw [hdepths, Finset.sum_singleton, hproduct, floatNeedAt_zero, shortfall_two_pow_add_one] at hsum
  exact absurd hsum (by norm_num)

end EveBuild.BuildChain
