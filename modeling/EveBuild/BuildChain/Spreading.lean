import EveBuild.BuildChain.Levels
import EveBuild.BuildChain.Steps

/-!
# The quantities of the levels

However the quotients are rounded, as long as they depend on the type and the quantity
only (`RunsBy`), the walk spreads the target quantity down the layers: the level at depth
`i` holds `spreadAt i` of each of its types.  What is not expanded adds up to the raw
totals, and the runs of what is expanded to the runs of the steps (`levelLoop_spreads`).
-/

namespace EveBuild.BuildChain

variable {ceilQuotient : ℤ → ℤ → Except ArithmeticError ℤ} {db : List Blueprint}
  {target : TypeId} {buildSet : Finset TypeId} {runs : TypeId → ℤ → ℤ}

/-- What one run of an expanded type uses of a material. -/
def usePerRun (db : List Blueprint) (target : TypeId) (buildSet : Finset TypeId)
    (user material : TypeId) : ℤ :=
  (expansion db target buildSet user).elim 0 fun blueprint => blueprint.perRun material

/-- A run uses the types below only. -/
theorem usePerRun_eq_zero (user material : TypeId)
    (hmaterial : material ∉ materialsBelow db target buildSet user) :
    usePerRun db target buildSet user material = 0 := by
  unfold usePerRun
  cases hexpansion : expansion db target buildSet user with
  | none => rfl
  | some blueprint =>
      refine Dict.tally_eq_zero fun hmem => hmaterial ?_
      obtain ⟨pair, hpair, rfl⟩ := List.mem_map.mp hmem
      obtain ⟨entry, hentry, rfl⟩ := List.mem_map.mp hpair
      exact mem_materialsBelow.mpr ⟨blueprint, hexpansion, entry, hentry, rfl⟩

theorem one_le_tally {entries : List (TypeId × ℤ)} {typeId : TypeId}
    (hentries : ∀ entry ∈ entries, 1 ≤ entry.2) (hkey : typeId ∈ entries.map Prod.fst) :
    1 ≤ Dict.tally entries typeId := by
  induction entries with
  | nil => cases hkey
  | cons entry rest ih =>
      obtain ⟨hfirst, hrest⟩ := List.forall_mem_cons.mp hentries
      rw [Dict.tally_cons]
      by_cases hmem : typeId ∈ rest.map Prod.fst
      · have htally := ih hrest hmem
        split
        · omega
        · omega
      · rw [List.map_cons, List.mem_cons, or_iff_left hmem] at hkey
        rw [if_pos hkey.symm, Dict.tally_eq_zero hmem, add_zero]
        exact hfirst

/-- A run takes at least one unit of each type below, if the blueprint says so. -/
theorem one_le_usePerRun_of_expansion {user material : TypeId} {blueprint : Blueprint}
    (hexpansion : expansion db target buildSet user = some blueprint)
    (hquantities : ∀ entry ∈ blueprint.materials, 1 ≤ entry.quantity)
    (hbelow : material ∈ materialsBelow db target buildSet user) :
    1 ≤ usePerRun db target buildSet user material := by
  obtain ⟨other, hother, entry, hentry, rfl⟩ := mem_materialsBelow.mp hbelow
  obtain rfl := Option.some_inj.mp (hexpansion.symm.trans hother)
  rw [usePerRun, hexpansion, Option.elim, Blueprint.perRun]
  refine one_le_tally (fun pair hpair => ?_) ?_
  · obtain ⟨other, hother, rfl⟩ := List.mem_map.mp hpair
    exact hquantities other hother
  · rw [List.map_map]
    exact List.mem_map_of_mem (f := Material.typeId) hentry

/-- A quantity of the type takes `runs`, and a type that is not expanded none. -/
structure RunsBy (ceilQuotient : ℤ → ℤ → Except ArithmeticError ℤ) (db : List Blueprint)
    (target : TypeId) (buildSet : Finset TypeId) (runs : TypeId → ℤ → ℤ) (typeId : TypeId)
    (quantity : ℤ) : Prop where
  built : ∀ blueprint quotient, expansion db target buildSet typeId = some blueprint →
    ceilQuotient quantity blueprint.productQuantity = .ok quotient →
    runs typeId quantity = max 1 quotient
  bought : ¬ Expands db target buildSet typeId → runs typeId quantity = 0

/-! ## One level -/

/-- A sum over the entries of a dictionary is one over its keys. -/
theorem sum_entries {level : Dict TypeId ℤ} {types : Finset TypeId}
    (hkeys : ∀ typeId, typeId ∈ level.keys ↔ typeId ∈ types) (f : TypeId → ℤ → ℤ) :
    (level.entries.map fun entry => f entry.1 entry.2).sum =
      ∑ typeId ∈ types, f typeId (level.getD typeId 0) := by
  have htypes : types = level.keys.toFinset := by
    ext typeId
    rw [List.mem_toFinset, hkeys]
  rw [htypes, Dict.keys, List.sum_toFinset _ level.nodup_keys, List.map_map]
  congr 1
  refine List.map_congr_left fun entry hentry => ?_
  rw [Function.comp_apply, Dict.getD_of_get? (Dict.get?_eq_some_iff.mpr hentry)]

/-- What a list of entries adds to the raw total of a type. -/
def rawFrom (db : List Blueprint) (target : TypeId) (buildSet : Finset TypeId)
    (entries : List (TypeId × ℤ)) (typeId : TypeId) : ℤ :=
  if Expands db target buildSet typeId then 0 else Dict.tally entries typeId

/-- What a list of entries adds to the runs of a type's step. -/
def addedRuns (runs : TypeId → ℤ → ℤ) (entries : List (TypeId × ℤ)) (typeId : TypeId) : ℤ :=
  (entries.map fun entry => if entry.1 = typeId then runs typeId entry.2 else 0).sum

/-- What a list of entries adds to the next level's quantity of a material. -/
def addedUses (db : List Blueprint) (target : TypeId) (buildSet : Finset TypeId)
    (runs : TypeId → ℤ → ℤ) (entries : List (TypeId × ℤ)) (material : TypeId) : ℤ :=
  (entries.map fun entry =>
    runs entry.1 entry.2 * usePerRun db target buildSet entry.1 material).sum

/-- **What one visit adds.** -/
theorem visitType_spreads {walk walk' : Walk} {nextLevel nextLevel' : Dict TypeId ℤ}
    {item : TypeId × ℤ} (hruns : RunsBy ceilQuotient db target buildSet runs item.1 item.2)
    (hvisit : visitType ceilQuotient db target buildSet (walk, nextLevel) item =
      .ok (walk', nextLevel')) (typeId : TypeId) :
    walk'.raw typeId = walk.raw typeId + rawFrom db target buildSet [item] typeId ∧
    walk'.runsOf typeId = walk.runsOf typeId + addedRuns runs [item] typeId ∧
    nextLevel'.getD typeId 0 = nextLevel.getD typeId 0 +
      addedUses db target buildSet runs [item] typeId := by
  obtain ⟨visited, quantity⟩ := item
  simp only [rawFrom, addedRuns, addedUses, Dict.tally_cons, Dict.tally_nil, List.map_cons,
    List.map_nil, List.sum_cons, List.sum_nil, add_zero]
  rcases visitType_cases hvisit with
    ⟨hnone, rfl, rfl⟩ | ⟨blueprint, quotient, hsome, hquotient, rfl, rfl⟩
  · -- the type is bought: all of it is raw, and nothing is needed below
    have hbought : runs visited quantity = 0 := hruns.bought (by simp [Expands, hnone])
    refine ⟨?_, ?_, by simp [hbought]⟩
    · rw [raw_buy]
      by_cases heq : visited = typeId
      · subst heq
        simp [Expands, hnone]
      · simp [heq, Ne.symm heq]
    · by_cases heq : visited = typeId
      · subst heq
        simp [hbought, Walk.runsOf, Walk.buy]
      · simp [heq, Walk.runsOf, Walk.buy]
  · -- the type is built, by the runs of its blueprint
    have hbuilt : runs visited quantity = max 1 quotient :=
      hruns.built blueprint quotient hsome hquotient
    refine ⟨?_, ?_, ?_⟩
    · rw [raw_build]
      by_cases heq : visited = typeId
      · subst heq
        simp [Expands, hsome]
      · simp [heq]
    · rw [runsOf_build]
      by_cases heq : visited = typeId
      · subst heq
        simp [hbuilt]
      · simp [heq, Ne.symm heq]
    · rw [getD_addNeeds, ← Blueprint.perRun, hbuilt, usePerRun, hsome, Option.elim]

theorem visitEntries_spreads (typeId : TypeId) :
    ∀ (entries : List (TypeId × ℤ)) {walk walk' : Walk} {nextLevel nextLevel' : Dict TypeId ℤ},
      (∀ entry ∈ entries, RunsBy ceilQuotient db target buildSet runs entry.1 entry.2) →
      entries.foldlM (visitType ceilQuotient db target buildSet) (walk, nextLevel) =
        .ok (walk', nextLevel') →
      walk'.raw typeId = walk.raw typeId + rawFrom db target buildSet entries typeId ∧
      walk'.runsOf typeId = walk.runsOf typeId + addedRuns runs entries typeId ∧
      nextLevel'.getD typeId 0 = nextLevel.getD typeId 0 +
        addedUses db target buildSet runs entries typeId := by
  intro entries
  induction entries with
  | nil =>
      intro walk walk' nextLevel nextLevel' _ hrun
      cases hrun
      simp [rawFrom, addedRuns, addedUses]
  | cons entry rest ih =>
      intro walk walk' nextLevel nextLevel' hall hrun
      obtain ⟨hentry, hrestRuns⟩ := List.forall_mem_cons.mp hall
      rw [List.foldlM_cons] at hrun
      obtain ⟨⟨middle, nextMiddle⟩, hvisit, hrest⟩ := bind_eq_ok.mp hrun
      obtain ⟨hraw, hruns, hnext⟩ := visitType_spreads hentry hvisit typeId
      obtain ⟨hraw', hruns', hnext'⟩ := ih hrestRuns hrest
      refine ⟨?_, ?_, ?_⟩
      · rw [hraw', hraw]
        unfold rawFrom
        split
        · ring
        · simp only [Dict.tally_cons, Dict.tally_nil]
          ring
      · rw [hruns', hruns]
        simp only [addedRuns, List.map_cons, List.map_nil, List.sum_cons, List.sum_nil]
        ring
      · rw [hnext', hnext]
        simp only [addedUses, List.map_cons, List.map_nil, List.sum_cons, List.sum_nil]
        ring

/-- The quantity of a type in the level at a depth below `targetQuantity` of the target. -/
def spreadAt (db : List Blueprint) (target : TypeId) (buildSet : Finset TypeId)
    (runs : TypeId → ℤ → ℤ) (targetQuantity : ℤ) (depth : ℕ) (typeId : TypeId) : ℤ :=
  spread (materialsBelow db target buildSet) target runs (usePerRun db target buildSet)
    targetQuantity depth typeId

/-- A level's dictionary holds the quantities of a depth. -/
structure HoldsSpread (db : List Blueprint) (target : TypeId) (buildSet : Finset TypeId)
    (runs : TypeId → ℤ → ℤ) (targetQuantity : ℤ) (level : Dict TypeId ℤ) (depth : ℕ) :
    Prop where
  types : HoldsTypes db target buildSet level depth
  quantity : ∀ typeId,
    level.getD typeId 0 = spreadAt db target buildSet runs targetQuantity depth typeId

variable {targetQuantity : ℤ}

theorem holdsSpread_single :
    HoldsSpread db target buildSet runs targetQuantity (.single target targetQuantity) 0 where
  types := holdsTypes_single targetQuantity
  quantity := by
    intro typeId
    rw [Dict.getD_eq_tally, Dict.entries_single, Dict.tally_cons, Dict.tally_nil, add_zero]
    simp only [spreadAt, spread, eq_comm]

theorem spreadAt_eq_zero {depth : ℕ} {typeId : TypeId}
    (htypeId : typeId ∉ typesAt db target buildSet depth) :
    spreadAt db target buildSet runs targetQuantity depth typeId = 0 :=
  spread_eq_zero usePerRun_eq_zero htypeId

/-- What the level at a depth adds to the raw total of a type. -/
def rawSpreadAt (db : List Blueprint) (target : TypeId) (buildSet : Finset TypeId)
    (runs : TypeId → ℤ → ℤ) (targetQuantity : ℤ) (depth : ℕ) (typeId : TypeId) : ℤ :=
  if Expands db target buildSet typeId then 0
  else spreadAt db target buildSet runs targetQuantity depth typeId

/-- What the level at a depth adds to the runs of a type's step. -/
def runsSpreadAt (db : List Blueprint) (target : TypeId) (buildSet : Finset TypeId)
    (runs : TypeId → ℤ → ℤ) (targetQuantity : ℤ) (depth : ℕ) (typeId : TypeId) : ℤ :=
  if typeId ∈ typesAt db target buildSet depth then
    runs typeId (spreadAt db target buildSet runs targetQuantity depth typeId)
  else 0

/-- The quantities that the levels hold take `runs`. -/
def LevelsRunBy (ceilQuotient : ℤ → ℤ → Except ArithmeticError ℤ) (db : List Blueprint)
    (target : TypeId) (buildSet : Finset TypeId) (runs : TypeId → ℤ → ℤ) (targetQuantity : ℤ) :
    Prop :=
  ∀ depth, ∀ typeId ∈ typesAt db target buildSet depth,
    RunsBy ceilQuotient db target buildSet runs typeId
      (spreadAt db target buildSet runs targetQuantity depth typeId)

/-- **What one level adds.** -/
theorem visitLevel_spreads
    (hruns : LevelsRunBy ceilQuotient db target buildSet runs targetQuantity)
    {walk walk' : Walk} {level nextLevel : Dict TypeId ℤ} {depth : ℕ}
    (hlevel : HoldsSpread db target buildSet runs targetQuantity level depth)
    (hvisit : visitLevel ceilQuotient db target buildSet walk level = .ok (walk', nextLevel)) :
    HoldsSpread db target buildSet runs targetQuantity nextLevel (depth + 1) ∧
    (∀ typeId, walk'.raw typeId =
      walk.raw typeId + rawSpreadAt db target buildSet runs targetQuantity depth typeId) ∧
    ∀ typeId, walk'.runsOf typeId =
      walk.runsOf typeId + runsSpreadAt db target buildSet runs targetQuantity depth typeId := by
  -- the quantity of an entry is that of its type at the depth
  have hentries : ∀ entry ∈ level.entries,
      RunsBy ceilQuotient db target buildSet runs entry.1 entry.2 := by
    intro entry hentry
    have htypeId := (hlevel.types entry.1).mp (Dict.mem_keys_of_mem hentry)
    have hquantity := hlevel.quantity entry.1
    rw [Dict.getD_of_get? (Dict.get?_eq_some_iff.mpr hentry)] at hquantity
    rw [hquantity]
    exact hruns depth entry.1 htypeId
  have hadds := fun typeId => visitEntries_spreads typeId level.entries hentries hvisit
  refine ⟨⟨hlevel.types.next (enters_visitLevel hvisit), fun typeId => ?_⟩, fun typeId => ?_,
    fun typeId => ?_⟩
  · rw [(hadds typeId).2.2, Dict.getD_empty, zero_add, addedUses, sum_entries hlevel.types
      fun user quantity => runs user quantity * usePerRun db target buildSet user typeId]
    refine Finset.sum_congr rfl fun user _ => ?_
    rw [hlevel.quantity]
    rfl
  · rw [(hadds typeId).1, rawFrom, rawSpreadAt, ← Dict.getD_eq_tally, hlevel.quantity]
  · rw [(hadds typeId).2.1, addedRuns, runsSpreadAt, sum_entries hlevel.types
      fun other quantity => if other = typeId then runs typeId quantity else 0,
      Finset.sum_ite_eq', hlevel.quantity]

/-- **What the loop adds.**  Levels below an empty one add nothing, so it does not matter
where the loop stops. -/
theorem levelLoop_spreads
    (hruns : LevelsRunBy ceilQuotient db target buildSet runs targetQuantity) :
    ∀ (passes : ℕ) {depth : ℕ} {walk walk' : Walk} {level leftover : Dict TypeId ℤ},
      HoldsSpread db target buildSet runs targetQuantity level depth →
      levelLoop ceilQuotient db target buildSet passes walk level = .ok (walk', leftover) →
      (∀ typeId, leftover.getD typeId 0 =
        spreadAt db target buildSet runs targetQuantity (depth + passes) typeId) ∧
      (∀ typeId, walk'.raw typeId = walk.raw typeId + ∑ pass ∈ Finset.range passes,
        rawSpreadAt db target buildSet runs targetQuantity (depth + pass) typeId) ∧
      ∀ typeId, walk'.runsOf typeId = walk.runsOf typeId + ∑ pass ∈ Finset.range passes,
        runsSpreadAt db target buildSet runs targetQuantity (depth + pass) typeId := by
  intro passes
  induction passes with
  | zero =>
      intro depth walk walk' level leftover hlevel hloop
      cases hloop
      exact ⟨hlevel.quantity, by simp, by simp⟩
  | succ passes ih =>
      intro depth walk walk' level leftover hlevel hloop
      rw [levelLoop] at hloop
      split at hloop
      · -- the loop stops at an empty level, and there is nothing below it
        rename_i hentries
        cases hloop
        have hnothing : ∀ deeper typeId, typeId ∉ typesAt db target buildSet (depth + deeper) := by
          intro deeper typeId
          rw [typesAt, layer_eq_empty_of_le (hlevel.types.eq_empty hentries)
            (Nat.le_add_right depth deeper)]
          exact Finset.notMem_empty typeId
        refine ⟨fun typeId => ?_, fun typeId => ?_, fun typeId => ?_⟩
        · rw [spreadAt_eq_zero (hnothing _ typeId), Dict.getD_eq_tally, hentries, Dict.tally_nil]
        · rw [Finset.sum_eq_zero, add_zero]
          intro pass _
          rw [rawSpreadAt, spreadAt_eq_zero (hnothing pass typeId), ite_self]
        · rw [Finset.sum_eq_zero, add_zero]
          intro pass _
          exact if_neg (hnothing pass typeId)
      · -- one level, and the sums of the others by one pass later
        obtain ⟨⟨middle, nextLevel⟩, hvisit, hrest⟩ := bind_eq_ok.mp hloop
        obtain ⟨hnext, hraw, hruns⟩ := visitLevel_spreads hruns hlevel hvisit
        obtain ⟨hleftover, hraw', hruns'⟩ := ih hnext hrest
        have hshift : ∀ pass, depth + 1 + pass = depth + (pass + 1) := by omega
        refine ⟨fun typeId => ?_, fun typeId => ?_, fun typeId => ?_⟩
        · rw [hleftover, hshift]
        · simp only [hraw', hraw, hshift, Finset.sum_range_succ', Nat.add_zero]
          ring
        · simp only [hruns', hruns, hshift, Finset.sum_range_succ', Nat.add_zero]
          ring

/-! ## What the steps need -/

/-- What a list of entries adds to the quantity needed of a type's step. -/
def neededFrom (db : List Blueprint) (target : TypeId) (buildSet : Finset TypeId)
    (entries : List (TypeId × ℤ)) (typeId : TypeId) : ℤ :=
  if (expansion db target buildSet typeId).isSome then Dict.tally entries typeId else 0

theorem neededFrom_cons (target : TypeId) (buildSet : Finset TypeId) (entry : TypeId × ℤ)
    (rest : List (TypeId × ℤ)) (typeId : TypeId) :
    neededFrom db target buildSet (entry :: rest) typeId =
      neededFrom db target buildSet [entry] typeId + neededFrom db target buildSet rest typeId := by
  unfold neededFrom
  rw [Dict.tally_cons, Dict.tally_cons, Dict.tally_nil]
  split <;> simp

theorem visitType_needed {walk walk' : Walk} {nextLevel nextLevel' : Dict TypeId ℤ}
    {entry : TypeId × ℤ}
    (hvisit : visitType ceilQuotient db target buildSet (walk, nextLevel) entry =
      .ok (walk', nextLevel')) (typeId : TypeId) :
    walk'.needed typeId = walk.needed typeId + neededFrom db target buildSet [entry] typeId := by
  obtain ⟨visited, quantity⟩ := entry
  rw [neededFrom, Dict.tally_cons, Dict.tally_nil, add_zero]
  rcases visitType_cases hvisit with
    ⟨hnone, rfl, rfl⟩ | ⟨blueprint, quotient, hsome, _, rfl, rfl⟩
  · rw [needed_buy]
    by_cases heq : visited = typeId
    · subst heq
      simp [hnone]
    · simp [heq]
  · rw [needed_build]
    by_cases heq : visited = typeId
    · subst heq
      simp [hsome]
    · simp [heq, Ne.symm heq]

theorem visitEntries_needed (typeId : TypeId) :
    ∀ (entries : List (TypeId × ℤ)) {walk walk' : Walk} {nextLevel nextLevel' : Dict TypeId ℤ},
      entries.foldlM (visitType ceilQuotient db target buildSet) (walk, nextLevel) =
        .ok (walk', nextLevel') →
      walk'.needed typeId = walk.needed typeId + neededFrom db target buildSet entries typeId := by
  intro entries
  induction entries with
  | nil =>
      intro walk walk' nextLevel nextLevel' hrun
      cases hrun
      simp [neededFrom]
  | cons entry rest ih =>
      intro walk walk' nextLevel nextLevel' hrun
      obtain ⟨⟨middle, nextMiddle⟩, hvisit, hrest⟩ := bind_eq_ok.mp hrun
      rw [ih hrest, visitType_needed hvisit, neededFrom_cons target buildSet entry rest, add_assoc]

/-- What the level at a depth adds to the quantity needed of a type's step. -/
def neededAt (db : List Blueprint) (target : TypeId) (buildSet : Finset TypeId)
    (runs : TypeId → ℤ → ℤ) (targetQuantity : ℤ) (depth : ℕ) (typeId : TypeId) : ℤ :=
  if Expands db target buildSet typeId then
    spreadAt db target buildSet runs targetQuantity depth typeId
  else 0

theorem levelLoop_needed
    (hruns : LevelsRunBy ceilQuotient db target buildSet runs targetQuantity) :
    ∀ (passes : ℕ) {depth : ℕ} {walk walk' : Walk} {level leftover : Dict TypeId ℤ},
      HoldsSpread db target buildSet runs targetQuantity level depth →
      levelLoop ceilQuotient db target buildSet passes walk level = .ok (walk', leftover) →
      ∀ typeId, walk'.needed typeId = walk.needed typeId + ∑ pass ∈ Finset.range passes,
        neededAt db target buildSet runs targetQuantity (depth + pass) typeId := by
  intro passes
  induction passes with
  | zero =>
      intro depth walk walk' level leftover _ hloop typeId
      cases hloop
      simp
  | succ passes ih =>
      intro depth walk walk' level leftover hlevel hloop typeId
      rw [levelLoop] at hloop
      split at hloop
      · -- the loop stops at an empty level, and there is nothing below it
        rename_i hentries
        cases hloop
        rw [Finset.sum_eq_zero, add_zero]
        intro pass _
        rw [neededAt, spreadAt_eq_zero, ite_self]
        rw [typesAt, layer_eq_empty_of_le (hlevel.types.eq_empty hentries)
          (Nat.le_add_right depth pass)]
        exact Finset.notMem_empty typeId
      · obtain ⟨⟨middle, nextLevel⟩, hvisit, hrest⟩ := bind_eq_ok.mp hloop
        have hnext := (visitLevel_spreads hruns hlevel hvisit).1
        -- the first level is this one, and the others are those of the rest of the loop
        have hshift : ∀ pass, depth + 1 + pass = depth + (pass + 1) := by omega
        have hfirst : neededFrom db target buildSet level.entries typeId =
            neededAt db target buildSet runs targetQuantity depth typeId := by
          rw [neededFrom, ← Dict.getD_eq_tally, hlevel.quantity]
          rfl
        rw [ih hnext hrest, visitEntries_needed typeId _ hvisit, hfirst]
        simp only [hshift, Finset.sum_range_succ', Nat.add_zero]
        ring

/-! ## What a resolution needs -/

/-- The runs of the returned step for a type, `0` if there is none. -/
def BuildResolution.runsOf (resolution : BuildResolution) (typeId : TypeId) : ℤ :=
  (resolution.steps.find? fun step => step.typeId = typeId).elim 0 BuildStep.runs

/-- **The quantities of a resolution.**  Its raw materials are what the levels do not expand
and what the guard leaves, and its runs are those of the levels. -/
theorem resolveBuildChain_spreads
    (hruns : LevelsRunBy ceilQuotient db target buildSet runs targetQuantity)
    {typeName : TypeId → Option String} {resolution : BuildResolution}
    (hresolve : resolveBuildChain ceilQuotient db target buildSet typeName targetQuantity =
      .ok resolution) :
    (∀ typeId, resolution.rawOf typeId =
      ∑ depth ∈ Finset.range maxDepth,
        rawSpreadAt db target buildSet runs targetQuantity depth typeId +
        spreadAt db target buildSet runs targetQuantity maxDepth typeId) ∧
    ∀ typeId, resolution.runsOf typeId = ∑ depth ∈ Finset.range maxDepth,
      runsSpreadAt db target buildSet runs targetQuantity depth typeId := by
  obtain ⟨walk, leftover, hlevels, hsteps, hrawMaterials⟩ := resolveBuildChain_cases hresolve
  obtain ⟨hleftover, hraw, hruns⟩ := levelLoop_spreads hruns maxDepth holdsSpread_single hlevels
  have haccounted := resolveLevels_accounted hlevels
  constructor
  · intro typeId
    rw [BuildResolution.rawOf, hrawMaterials, find?_rawMaterials, raw_addLeftover, hraw,
      ← Dict.getD_eq_tally, hleftover]
    simp [Walk.raw, Walk.start]
  · intro typeId
    rw [BuildResolution.runsOf, hsteps,
      find?_topologicalOrder haccounted typeName typeId fun _ _ => rfl, ← Walk.runsOf, hruns]
    simp [Walk.runsOf, Walk.start]

end EveBuild.BuildChain
