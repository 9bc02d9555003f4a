import EveBuild.BuildChain.Spreading
import EveBuild.BuildChain.Toggle
import EveBuild.Data.Paths

/-!
# The naive expansion

Expanding a target naively follows every path of expanded types down from it and multiplies
the quantities of the blueprints along the path; the same type can be reached by many
paths, of different lengths.  The walk does not follow paths: it merges the demand for a
type at each depth.

Where every expanded blueprint makes one unit and the division by one rounds nothing, the
walk takes as many runs of a type as it needs units of it (`naiveRuns`).  Then the level at
a depth holds the target quantity times the sum over the paths of that length, and what the
walk adds up over its levels is the sum over all paths (`agrees_with_naive_expansion`).
-/

namespace EveBuild.BuildChain

variable {ceilQuotient : ℤ → ℤ → Except ArithmeticError ℤ} {db : List Blueprint}
  {target : TypeId} {buildSet : Finset TypeId}

/-- A path of materials from the target to a type, on which all types before the last one
are expanded. -/
def ExpansionPath (db : List Blueprint) (target : TypeId) (buildSet : Finset TypeId)
    (typeId : TypeId) (path : List TypeId) : Prop :=
  IsPath (materialsBelow db target buildSet) target typeId path

/-- The product of the per-run quantities along a path. -/
def perRunAlong (db : List Blueprint) (target : TypeId) (buildSet : Finset TypeId)
    (path : List TypeId) : ℤ :=
  along (usePerRun db target buildSet) path

/-- What one unit of the target takes of a type, over all paths. -/
noncomputable def naiveQuantity (db : List Blueprint) (target : TypeId)
    (buildSet : Finset TypeId) (typeId : TypeId) : ℤ :=
  ∑ᶠ path ∈ {path | ExpansionPath db target buildSet typeId path},
    perRunAlong db target buildSet path

/-- What one unit of the target takes of a type, over the paths of one length. -/
def naiveQuantityAt (db : List Blueprint) (target : TypeId) (buildSet : Finset TypeId)
    (depth : ℕ) (typeId : TypeId) : ℤ :=
  ∑ path ∈ pathsTo (materialsBelow db target buildSet) target depth typeId,
    perRunAlong db target buildSet path

/-- Every expanded blueprint makes one unit a run, and takes some of all its materials. -/
def MakesUnits (db : List Blueprint) (target : TypeId) (buildSet : Finset TypeId) : Prop :=
  ∀ typeId blueprint, Met db target buildSet typeId →
    expansion db target buildSet typeId = some blueprint →
    blueprint.productQuantity = 1 ∧ ∀ material ∈ blueprint.materials, 1 ≤ material.quantity

/-- Nothing is rounded when the demand of a depth for an expanded type is divided by one. -/
def Unrounded (ceilQuotient : ℤ → ℤ → Except ArithmeticError ℤ) (db : List Blueprint)
    (target : TypeId) (buildSet : Finset TypeId) (targetQuantity : ℤ) : Prop :=
  ∀ depth typeId, Expands db target buildSet typeId →
    ceilQuotient (targetQuantity * naiveQuantityAt db target buildSet depth typeId) 1 =
      .ok (targetQuantity * naiveQuantityAt db target buildSet depth typeId)

theorem unrounded_exactCeil (targetQuantity : ℤ) :
    Unrounded exactCeil db target buildSet targetQuantity := by
  intro depth typeId _
  rw [exactCeil, if_neg one_ne_zero]
  simp

/-- The resolution is the naive expansion: the paths are finitely many; what is raw and the
runs of the steps are the target quantity times the sums over them. -/
structure NaiveExpansion (db : List Blueprint) (target : TypeId) (buildSet : Finset TypeId)
    (targetQuantity : ℤ) (resolution : BuildResolution) : Prop where
  finite : ∀ typeId, {path | ExpansionPath db target buildSet typeId path}.Finite
  raw : ∀ raw ∈ resolution.rawMaterials, ¬ Expands db target buildSet raw.typeId ∧
    raw.quantity = targetQuantity * naiveQuantity db target buildSet raw.typeId
  rawOf : ∀ typeId, ¬ Expands db target buildSet typeId →
    resolution.rawOf typeId = targetQuantity * naiveQuantity db target buildSet typeId
  runs : ∀ step ∈ resolution.steps, Expands db target buildSet step.typeId ∧
    step.runs = targetQuantity * naiveQuantity db target buildSet step.typeId
  runsOf : ∀ typeId, Expands db target buildSet typeId →
    resolution.runsOf typeId = targetQuantity * naiveQuantity db target buildSet typeId

/-! ## One run for each unit -/

/-- An expanded type takes as many runs as units are needed. -/
def naiveRuns (db : List Blueprint) (target : TypeId) (buildSet : Finset TypeId)
    (typeId : TypeId) (quantity : ℤ) : ℤ :=
  if Expands db target buildSet typeId then quantity else 0

theorem naiveRuns_of_below {user material : TypeId}
    (hbelow : material ∈ materialsBelow db target buildSet user) (quantity : ℤ) :
    naiveRuns db target buildSet user quantity = quantity :=
  if_pos (mem_materialsBelow_iff.mp hbelow).1

/-- A run of an expanded type takes some of every material. -/
theorem MakesUnits.one_le_usePerRun (hunits : MakesUnits db target buildSet)
    {user material : TypeId} (hmet : Met db target buildSet user)
    (hbelow : material ∈ materialsBelow db target buildSet user) :
    1 ≤ usePerRun db target buildSet user material := by
  obtain ⟨blueprint, hexpansion, -⟩ := mem_materialsBelow.mp hbelow
  exact one_le_usePerRun_of_expansion hexpansion (hunits user blueprint hmet hexpansion).2 hbelow

variable {targetQuantity : ℤ}

/-- The levels hold the sums over the paths of their length. -/
theorem spreadAt_naiveRuns (depth : ℕ) (typeId : TypeId) :
    spreadAt db target buildSet (naiveRuns db target buildSet) targetQuantity depth typeId =
      targetQuantity * naiveQuantityAt db target buildSet depth typeId :=
  spread_eq_sum_paths usePerRun_eq_zero
    (fun _ _ quantity hbelow => naiveRuns_of_below hbelow quantity) targetQuantity depth typeId

/-- **No run is rounded up.**  The demand for a type that is met is positive, and so its
runs are not raised to one either. -/
theorem levelsRunBy_naiveRuns (hunits : MakesUnits db target buildSet)
    (hquantity : 1 ≤ targetQuantity)
    (hunrounded : Unrounded ceilQuotient db target buildSet targetQuantity) :
    LevelsRunBy ceilQuotient db target buildSet (naiveRuns db target buildSet)
      targetQuantity := by
  intro depth typeId htypeId
  refine ⟨fun blueprint quotient hexpansion hquotient => ?_, fun hnot => if_neg hnot⟩
  have hexpands : Expands db target buildSet typeId := by simp [Expands, hexpansion]
  have hpos : 1 ≤ spreadAt db target buildSet (naiveRuns db target buildSet) targetQuantity
      depth typeId := by
    refine one_le_spread usePerRun_eq_zero (fun above user huser material hbelow => ?_)
      (fun user material quantity hbelow hle => ?_) hquantity htypeId
    · exact hunits.one_le_usePerRun ⟨above, huser⟩ hbelow
    · rwa [naiveRuns_of_below hbelow]
  rw [naiveRuns, if_pos hexpands]
  rw [(hunits typeId blueprint ⟨depth, htypeId⟩ hexpansion).1, spreadAt_naiveRuns,
    hunrounded depth typeId hexpands, Except.ok.injEq] at hquotient
  rw [spreadAt_naiveRuns, hquotient] at hpos ⊢
  exact (max_eq_right hpos).symm

/-! ## The sums over all paths -/

/-- Reading a quantity by its type off returned entries that have different types. -/
theorem find?_typeId {α : Type} {entries : List α} {typeIdOf : α → TypeId}
    (hnodup : (entries.map typeIdOf).Nodup) {entry : α} (hentry : entry ∈ entries) :
    entries.find? (fun other => typeIdOf other = typeIdOf entry) = some entry := by
  induction entries with
  | nil => cases hentry
  | cons first rest ih =>
      obtain ⟨hfirst, hrest⟩ := List.nodup_cons.mp hnodup
      rcases List.mem_cons.mp hentry with rfl | hentry
      · exact List.find?_cons_of_pos (by simp)
      · rw [List.find?_cons_of_neg]
        · exact ih hrest hentry
        · have hne : typeIdOf first ≠ typeIdOf entry := fun heq =>
            hfirst (heq ▸ List.mem_map_of_mem hentry)
          simpa using hne

/-- The paths have at most as many steps as there are levels. -/
theorem mul_naiveQuantity (hempty : typesAt db target buildSet maxDepth = ∅) (typeId : TypeId) :
    targetQuantity * naiveQuantity db target buildSet typeId =
      ∑ depth ∈ Finset.range maxDepth,
        targetQuantity * naiveQuantityAt db target buildSet depth typeId := by
  have hpaths := sum_paths hempty (usePerRun db target buildSet) typeId
  rw [← Finset.mul_sum]
  exact congrArg (targetQuantity * ·) hpaths.2

section Resolved

variable {typeName : TypeId → Option String} {resolution : BuildResolution}
  (hempty : typesAt db target buildSet maxDepth = ∅)
  (hruns : LevelsRunBy ceilQuotient db target buildSet (naiveRuns db target buildSet)
    targetQuantity)
  (hresolve : resolveBuildChain ceilQuotient db target buildSet typeName targetQuantity =
    .ok resolution)

include hempty hruns hresolve

/-- What is not expanded is raw, as often as there are units at the ends of the paths. -/
theorem rawOf_eq_naive {typeId : TypeId} (hnot : ¬ Expands db target buildSet typeId) :
    resolution.rawOf typeId = targetQuantity * naiveQuantity db target buildSet typeId := by
  have hnothing : typeId ∉ typesAt db target buildSet maxDepth := by
    rw [hempty]
    exact Finset.notMem_empty typeId
  rw [(resolveBuildChain_spreads hruns hresolve).1, mul_naiveQuantity hempty,
    spreadAt_eq_zero hnothing, add_zero]
  refine Finset.sum_congr rfl fun depth _ => ?_
  rw [rawSpreadAt, if_neg hnot, spreadAt_naiveRuns]

/-- What is expanded is run once for each unit at the ends of the paths. -/
theorem runsOf_eq_naive {typeId : TypeId} (hexpands : Expands db target buildSet typeId) :
    resolution.runsOf typeId = targetQuantity * naiveQuantity db target buildSet typeId := by
  rw [(resolveBuildChain_spreads hruns hresolve).2, mul_naiveQuantity hempty]
  refine Finset.sum_congr rfl fun depth _ => ?_
  rw [runsSpreadAt]
  split
  · rw [naiveRuns, if_pos hexpands, spreadAt_naiveRuns]
  · rename_i hnothing
    rw [← spreadAt_naiveRuns, spreadAt_eq_zero hnothing]

end Resolved

/-- **The walk is the naive expansion.**  If the expanded blueprints make one unit each, if
the loop ends with an empty level, and if nothing is rounded, the raw quantity of a type is
the target quantity times the sum over all paths to it, and so are the runs of a step. -/
theorem agrees_with_naive_expansion (typeName : TypeId → Option String)
    (hunits : MakesUnits db target buildSet) (hquantity : 1 ≤ targetQuantity)
    (hends : EndsEmpty ceilQuotient db target buildSet targetQuantity)
    (hunrounded : Unrounded ceilQuotient db target buildSet targetQuantity) :
    ∃ resolution, resolveBuildChain ceilQuotient db target buildSet typeName targetQuantity =
        .ok resolution ∧
      NaiveExpansion db target buildSet targetQuantity resolution := by
  obtain ⟨walk, hlevels⟩ := hends
  obtain ⟨resolution, hresolve⟩ : ∃ resolution,
      resolveBuildChain ceilQuotient db target buildSet typeName targetQuantity = .ok resolution :=
    ⟨_, bind_eq_ok.mpr ⟨_, hlevels, rfl⟩⟩
  -- no path is as long as the guard, so that there are finitely many
  have hempty : typesAt db target buildSet maxDepth = ∅ :=
    (resolveLevels_charted hlevels).2.eq_empty rfl
  obtain ⟨hbuilt, hbought, _⟩ := chosen_of_endsEmpty ⟨walk, hlevels⟩ hresolve
  have hruns := levelsRunBy_naiveRuns hunits hquantity hunrounded
  have hdistinct := distinct_of_resolve hresolve
  refine ⟨resolution, hresolve, ?_⟩
  exact {
    finite := fun typeId => (sum_paths hempty (usePerRun db target buildSet) typeId).1
    raw := by
      intro raw hmem
      have hnot := ((hbought raw.typeId).mp ⟨raw, hmem, rfl⟩).2
      refine ⟨hnot, ?_⟩
      rw [← rawOf_eq_naive hempty hruns hresolve hnot, BuildResolution.rawOf,
        find?_typeId hdistinct.2 hmem]
      rfl
    rawOf := fun typeId hnot => rawOf_eq_naive hempty hruns hresolve hnot
    runs := by
      intro step hmem
      have hexpands := ((hbuilt step.typeId).mp ⟨step, hmem, rfl⟩).2
      refine ⟨hexpands, ?_⟩
      rw [← runsOf_eq_naive hempty hruns hresolve hexpands, BuildResolution.runsOf,
        find?_typeId hdistinct.1 hmem]
      rfl
    runsOf := fun typeId hexpands => runsOf_eq_naive hempty hruns hresolve hexpands }

/-- A component that the target takes by itself and by way of another one. -/
def sharedUnits : List Blueprint :=
  [⟨1, some 1, [⟨2, 1⟩, ⟨3, 5⟩]⟩, ⟨2, none, [⟨3, 5⟩]⟩, ⟨3, some 1, [⟨4, 2⟩]⟩]

theorem makesUnits_sharedUnits : MakesUnits sharedUnits 1 {2, 3} := by
  have hall : ∀ blueprint ∈ sharedUnits,
      blueprint.productQuantity = 1 ∧ ∀ material ∈ blueprint.materials, 1 ≤ material.quantity := by
    decide
  exact fun _ blueprint _ hexpansion => hall blueprint (mem_of_expansion hexpansion)

theorem agrees_with_naive_expansion_sharedUnits :
    ∃ resolution, resolveBuildChain exactCeil sharedUnits 1 {2, 3} (fun _ => none) 4 =
      .ok resolution ∧ NaiveExpansion sharedUnits 1 {2, 3} 4 resolution :=
  agrees_with_naive_expansion (fun _ => none) makesUnits_sharedUnits (by decide) ⟨_, rfl⟩
    (unrounded_exactCeil 4)

end EveBuild.BuildChain
