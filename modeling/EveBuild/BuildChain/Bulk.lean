import EveBuild.BuildChain.Spreading

/-!
# Building in bulk

With an exact quotient, an expanded type takes `max 1` of the rounded quotient
(`clampedRuns`), and the level at depth `i` holds what these runs spread down to it
(`spreadAt i`).  Which types the levels hold does not depend on the quantity, so that
a type whose quantity is zero is still run once, for every target quantity.

Clamped runs are monotone and subadditive, and so is everything the walk adds up from
them: the raw totals, what the depth guard leaves included, and the runs of the steps
(`bulk_needs_no_more`).
-/

namespace EveBuild.BuildChain

variable {db : List Blueprint} {target : TypeId} {buildSet : Finset TypeId}

/-- No blueprint gives a material back. -/
def NonnegativeMaterials (db : List Blueprint) : Prop :=
  ∀ blueprint ∈ db, ∀ material ∈ blueprint.materials, 0 ≤ material.quantity

/-- `additional_runs` with an exact quotient, for a type that is expanded. -/
def clampedRuns (db : List Blueprint) (target : TypeId) (buildSet : Finset TypeId)
    (typeId : TypeId) (quantity : ℤ) : ℤ :=
  (expansion db target buildSet typeId).elim 0 fun blueprint =>
    max 1 (Batches.runsFor blueprint.productQuantity quantity)

/-! ## Runs and uses -/

theorem clampedRuns_mono (hproducts : PositiveProducts db) (typeId : TypeId) (small large : ℤ)
    (hle : small ≤ large) :
    clampedRuns db target buildSet typeId small ≤ clampedRuns db target buildSet typeId large := by
  unfold clampedRuns
  cases hexpansion : expansion db target buildSet typeId with
  | none => exact le_rfl
  | some blueprint =>
      have hproduct : 0 < blueprint.productQuantity :=
        hproducts blueprint (mem_of_expansion hexpansion)
      exact max_le_max le_rfl (Batches.runsFor_mono hproduct hle)

theorem clampedRuns_add_le (typeId : TypeId) (first second : ℤ) :
    clampedRuns db target buildSet typeId (first + second) ≤
      clampedRuns db target buildSet typeId first +
        clampedRuns db target buildSet typeId second := by
  unfold clampedRuns
  cases expansion db target buildSet typeId with
  | none => exact le_rfl
  | some blueprint =>
      have hadd : Batches.runsFor blueprint.productQuantity (first + second) ≤
          Batches.runsFor blueprint.productQuantity first +
            Batches.runsFor blueprint.productQuantity second := Batches.runsFor_add_le first second
      simp only [Option.elim]
      omega

theorem tally_nonneg {entries : List (TypeId × ℤ)} (hentries : ∀ entry ∈ entries, 0 ≤ entry.2)
    (typeId : TypeId) : 0 ≤ Dict.tally entries typeId := by
  induction entries with
  | nil => exact le_rfl
  | cons entry rest ih =>
      have hfirst := hentries entry (List.mem_cons_self ..)
      have hrest := ih fun other hother => hentries other (List.mem_cons_of_mem _ hother)
      rw [Dict.tally_cons]
      split
      · exact add_nonneg hfirst hrest
      · rwa [zero_add]

theorem usePerRun_nonneg (hmaterials : NonnegativeMaterials db) (user material : TypeId) :
    0 ≤ usePerRun db target buildSet user material := by
  unfold usePerRun
  cases hexpansion : expansion db target buildSet user with
  | none => exact le_rfl
  | some blueprint =>
      refine tally_nonneg (fun entry hentry => ?_) material
      obtain ⟨first, hfirst, rfl⟩ := List.mem_map.mp hentry
      exact hmaterials blueprint (mem_of_expansion hexpansion) first hfirst

/-- With an exact quotient, the walk takes clamped runs of every quantity. -/
theorem runsBy_clampedRuns (hproducts : PositiveProducts db) (typeId : TypeId) (quantity : ℤ) :
    RunsBy exactCeil db target buildSet (clampedRuns db target buildSet) typeId quantity where
  built := by
    intro blueprint quotient hexpansion hquotient
    have hproduct := hproducts blueprint (mem_of_expansion hexpansion)
    rw [exactCeil_eq_runsFor hproduct, Except.ok.injEq] at hquotient
    rw [clampedRuns, hexpansion, Option.elim, hquotient]
  bought := by
    intro hnot
    have hnone : expansion db target buildSet typeId = none := by
      simpa [Expands] using hnot
    rw [clampedRuns, hnone, Option.elim]

theorem levelsRunBy_clampedRuns (hproducts : PositiveProducts db) (target : TypeId)
    (buildSet : Finset TypeId) (targetQuantity : ℤ) :
    LevelsRunBy exactCeil db target buildSet (clampedRuns db target buildSet) targetQuantity :=
  fun _ typeId _ => runsBy_clampedRuns hproducts typeId _

/-! ## What a resolution needs -/

/-- **The quantities of a resolution.**  With an exact quotient the chain resolves, its raw
materials are what the levels do not expand and what the guard leaves, and its runs are
those of the levels. -/
theorem resolveBuildChain_adds (hproducts : PositiveProducts db) (target : TypeId)
    (buildSet : Finset TypeId) (typeName : TypeId → Option String) (targetQuantity : ℤ) :
    ∃ resolution, resolveBuildChain exactCeil db target buildSet typeName targetQuantity =
        .ok resolution ∧
      (∀ typeId, resolution.rawOf typeId =
        ∑ depth ∈ Finset.range maxDepth,
          rawSpreadAt db target buildSet (clampedRuns db target buildSet) targetQuantity depth
            typeId +
          spreadAt db target buildSet (clampedRuns db target buildSet) targetQuantity maxDepth
            typeId) ∧
      ∀ typeId, resolution.runsOf typeId = ∑ depth ∈ Finset.range maxDepth,
        runsSpreadAt db target buildSet (clampedRuns db target buildSet) targetQuantity depth
          typeId := by
  have hdivides : ∀ depth < 0 + maxDepth, ∀ typeId ∈ typesAt db target buildSet depth,
      ∀ blueprint, expansion db target buildSet typeId = some blueprint →
        Divides exactCeil blueprint := fun depth _ typeId _ blueprint hexpansion =>
    ⟨0, _, exactCeil_eq_runsFor (hproducts blueprint (mem_of_expansion hexpansion)) 0⟩
  obtain ⟨levels, hlevels⟩ := levelLoop_returns raisesByDivisor_exactCeil maxDepth
    .start (holdsTypes_single targetQuantity) hdivides
  obtain ⟨resolution, hresolve⟩ : ∃ resolution,
      resolveBuildChain exactCeil db target buildSet typeName targetQuantity = .ok resolution :=
    ⟨_, bind_eq_ok.mpr ⟨levels, hlevels, rfl⟩⟩
  exact ⟨resolution, hresolve,
    resolveBuildChain_spreads
      (levelsRunBy_clampedRuns hproducts target buildSet targetQuantity) hresolve⟩

section Compare

variable {runs : TypeId → ℤ → ℤ}
  (hruns : ∀ typeId small large, small ≤ large → runs typeId small ≤ runs typeId large)
  (hadd : ∀ typeId first second,
    runs typeId (first + second) ≤ runs typeId first + runs typeId second)
  (hmaterials : NonnegativeMaterials db) (depth : ℕ) (typeId : TypeId)

include hruns hmaterials

theorem spreadAt_mono {small large : ℤ} (hle : small ≤ large) :
    spreadAt db target buildSet runs small depth typeId ≤
      spreadAt db target buildSet runs large depth typeId :=
  spread_le hruns (usePerRun_nonneg hmaterials) depth typeId hle

theorem rawSpreadAt_mono {small large : ℤ} (hle : small ≤ large) :
    rawSpreadAt db target buildSet runs small depth typeId ≤
      rawSpreadAt db target buildSet runs large depth typeId := by
  unfold rawSpreadAt
  split
  · exact le_rfl
  · exact spreadAt_mono hruns hmaterials depth typeId hle

theorem runsSpreadAt_mono {small large : ℤ} (hle : small ≤ large) :
    runsSpreadAt db target buildSet runs small depth typeId ≤
      runsSpreadAt db target buildSet runs large depth typeId := by
  unfold runsSpreadAt
  split
  · exact hruns typeId _ _ (spreadAt_mono hruns hmaterials depth typeId hle)
  · exact le_rfl

include hadd

theorem spreadAt_add_le (first second : ℤ) :
    spreadAt db target buildSet runs (first + second) depth typeId ≤
      spreadAt db target buildSet runs first depth typeId +
        spreadAt db target buildSet runs second depth typeId :=
  spread_add_le hruns hadd (usePerRun_nonneg hmaterials) first second depth typeId

theorem rawSpreadAt_add_le (first second : ℤ) :
    rawSpreadAt db target buildSet runs (first + second) depth typeId ≤
      rawSpreadAt db target buildSet runs first depth typeId +
        rawSpreadAt db target buildSet runs second depth typeId := by
  unfold rawSpreadAt
  split
  · exact le_rfl
  · exact spreadAt_add_le hruns hadd hmaterials depth typeId first second

end Compare

/-- **Building in bulk never needs more.**  For tables with positive product quantities and
no negative materials, the three resolutions exist; a larger target quantity needs at least
as much of every raw material and as many runs of every step; and both quantities together
need at most what they need separately. -/
theorem bulk_needs_no_more (hproducts : PositiveProducts db) (hmaterials : NonnegativeMaterials db)
    (typeName : TypeId → Option String) (first second : ℤ) :
    ∃ one other both,
      resolveBuildChain exactCeil db target buildSet typeName first = .ok one ∧
      resolveBuildChain exactCeil db target buildSet typeName second = .ok other ∧
      resolveBuildChain exactCeil db target buildSet typeName (first + second) = .ok both ∧
      (first ≤ second → ∀ typeId,
        one.rawOf typeId ≤ other.rawOf typeId ∧ one.runsOf typeId ≤ other.runsOf typeId) ∧
      ∀ typeId, both.rawOf typeId ≤ one.rawOf typeId + other.rawOf typeId := by
  obtain ⟨one, hone, honeRaw, honeRuns⟩ :=
    resolveBuildChain_adds hproducts target buildSet typeName first
  obtain ⟨other, hother, hotherRaw, hotherRuns⟩ :=
    resolveBuildChain_adds hproducts target buildSet typeName second
  obtain ⟨both, hboth, hbothRaw, _⟩ :=
    resolveBuildChain_adds hproducts target buildSet typeName (first + second)
  have hruns := @clampedRuns_mono db target buildSet hproducts
  refine ⟨one, other, both, hone, hother, hboth, fun hle typeId => ⟨?_, ?_⟩, fun typeId => ?_⟩
  · rw [honeRaw, hotherRaw]
    exact add_le_add (Finset.sum_le_sum fun depth _ =>
      rawSpreadAt_mono hruns hmaterials depth typeId hle)
      (spreadAt_mono hruns hmaterials maxDepth typeId hle)
  · rw [honeRuns, hotherRuns]
    exact Finset.sum_le_sum fun depth _ => runsSpreadAt_mono hruns hmaterials depth typeId hle
  · -- raw material is what the levels buy and what is left over after the last one
    have hadd := @clampedRuns_add_le db target buildSet
    have hlevels := Finset.sum_le_sum (s := Finset.range maxDepth) fun depth _ =>
      @rawSpreadAt_add_le db target buildSet _ hruns hadd hmaterials depth typeId first second
    have hleftover :=
      @spreadAt_add_le db target buildSet _ hruns hadd hmaterials maxDepth typeId first second
    rw [Finset.sum_add_distrib] at hlevels
    rw [honeRaw, hotherRaw, hbothRaw]
    linarith

theorem bulk_needs_no_more_mutualNeed :
    ∃ one other both,
      resolveBuildChain exactCeil mutualNeed 1 {2} (fun _ => none) 3 = .ok one ∧
      resolveBuildChain exactCeil mutualNeed 1 {2} (fun _ => none) 4 = .ok other ∧
      resolveBuildChain exactCeil mutualNeed 1 {2} (fun _ => none) (3 + 4) = .ok both ∧
      ((3 : ℤ) ≤ 4 → ∀ typeId,
        one.rawOf typeId ≤ other.rawOf typeId ∧ one.runsOf typeId ≤ other.runsOf typeId) ∧
      ∀ typeId, both.rawOf typeId ≤ one.rawOf typeId + other.rawOf typeId :=
  bulk_needs_no_more (by simp [PositiveProducts, mutualNeed, Blueprint.productQuantity])
    (by simp [NonnegativeMaterials, mutualNeed]) _ 3 4

end EveBuild.BuildChain
