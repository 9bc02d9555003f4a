import EveBuild.BuildChain.Toggle

/-!
# The flags of the raw materials

A raw material that the walk has met is flagged by what the look-up of its blueprint found
(`Charted.flags`).  What the depth guard leaves is flagged as not buildable without a look-up,
unless the walk has met the type as a raw material before (`flag_addLeftover`).  So the flags are
right exactly if each type `maxDepth` levels below the target that has a blueprint is one of
these.
-/

namespace EveBuild.BuildChain

variable {ceilQuotient : ℤ → ℤ → Except ArithmeticError ℤ} {db : List Blueprint}
  {target : TypeId} {buildSet : Finset TypeId} {targetQuantity : ℤ}
  {typeName : TypeId → Option String}

/-! ## What has no flag -/

/-- Only raw materials have a flag. -/
def FlagsRaw (walk : Walk) : Prop :=
  ∀ typeId, typeId ∉ walk.rawTotals.keys → walk.rawBuildable.get? typeId = none

theorem FlagsRaw.enters {typeIds : List TypeId} {walk walk' : Walk}
    {nextLevel nextLevel' : Dict TypeId ℤ} (hflags : FlagsRaw walk)
    (henters : Enters ceilQuotient db target buildSet typeIds walk nextLevel walk' nextLevel') :
    FlagsRaw walk' := by
  intro typeId hraw
  rw [henters.raw, not_or] at hraw
  rw [henters.flags, if_neg hraw.2]
  exact hflags typeId hraw.1

theorem FlagsRaw.levelLoop : ∀ (passes : ℕ) {walk walk' : Walk} {level leftover : Dict TypeId ℤ},
    FlagsRaw walk → levelLoop ceilQuotient db target buildSet passes walk level =
      .ok (walk', leftover) → FlagsRaw walk' := by
  intro passes
  induction passes with
  | zero =>
      intro walk walk' level leftover hflags hloop
      cases hloop
      exact hflags
  | succ passes ih =>
      intro walk walk' level leftover hflags hloop
      rw [BuildChain.levelLoop] at hloop
      split at hloop
      · cases hloop
        exact hflags
      · obtain ⟨⟨middle, nextLevel⟩, hvisit, hrest⟩ := bind_eq_ok.mp hloop
        exact ih (hflags.enters (enters_visitLevel hvisit)) hrest

/-! ## What the guard leaves -/

/-- A default that is what a missing key reads as changes no reading. -/
theorem getD_setDefault_self (flags : Dict TypeId Bool) (typeId other : TypeId) (flag : Bool) :
    (flags.setDefault typeId flag).getD other flag = flags.getD other flag := by
  unfold Dict.getD
  rw [Dict.get?_setDefault]
  by_cases heq : other = typeId
  · subst heq
    cases hget : flags.get? other <;> simp
  · simp [heq]

theorem flag_addLeftover (walk : Walk) (leftover : Dict TypeId ℤ) (typeId : TypeId) :
    (addLeftover walk leftover).rawBuildable.getD typeId false =
      walk.rawBuildable.getD typeId false := by
  unfold addLeftover
  generalize leftover.entries = entries
  induction entries generalizing walk with
  | nil => rfl
  | cons entry rest ih => rw [List.foldl_cons, ih, getD_setDefault_self]

theorem mem_raw_addLeftover {walk : Walk} {leftover : Dict TypeId ℤ} {typeId : TypeId} :
    typeId ∈ (addLeftover walk leftover).rawTotals.keys ↔
      typeId ∈ walk.rawTotals.keys ∨ typeId ∈ leftover.keys := by
  unfold addLeftover Dict.keys
  generalize leftover.entries = entries
  induction entries generalizing walk with
  | nil => simp
  | cons entry rest ih =>
      rw [List.foldl_cons, ih, ← Dict.keys, Dict.mem_keys_add, List.map_cons, List.mem_cons]
      tauto

/-- The flag that is returned for a type, and what the flag says is right for it. -/
theorem flag_iff {walk : Walk} {depth : ℕ}
    (hcharted : Charted ceilQuotient db target buildSet walk depth) (hflags : FlagsRaw walk)
    (typeId : TypeId) :
    walk.rawBuildable.getD typeId false = true ↔
      typeId ∈ walk.rawTotals.keys ∧ HasBlueprint db typeId := by
  by_cases hraw : typeId ∈ walk.rawTotals.keys
  · rw [Dict.getD_of_get? (hcharted.flags typeId hraw)]
    simp [hraw, HasBlueprint]
  · rw [Dict.getD, hflags typeId hraw]
    simp [hraw]

/-- The flags of a resolution, in the terms of its walk. -/
theorem flagsRight_iff {walk : Walk} {leftover : Dict TypeId ℤ} {depth : ℕ}
    (hcharted : Charted ceilQuotient db target buildSet walk depth) (hflags : FlagsRaw walk) :
    (∀ raw ∈ rawMaterials typeName (addLeftover walk leftover),
        raw.isBuildable = true ↔ HasBlueprint db raw.typeId) ↔
      ∀ typeId ∈ leftover.keys, HasBlueprint db typeId → typeId ∈ walk.rawTotals.keys := by
  have hperm := typeIds_rawMaterials_perm typeName (addLeftover walk leftover)
  have hflag : ∀ raw ∈ rawMaterials typeName (addLeftover walk leftover),
      raw.isBuildable = true ↔ raw.typeId ∈ walk.rawTotals.keys ∧ HasBlueprint db raw.typeId := by
    intro raw hraw
    obtain ⟨entry, -, rfl⟩ := List.mem_map.mp hraw
    show (addLeftover walk leftover).rawBuildable.getD entry.1 false = true ↔ _
    rw [flag_addLeftover]
    exact flag_iff hcharted hflags entry.1
  constructor
  · intro hright typeId hleftover hblueprint
    obtain ⟨raw, hraw, rfl⟩ :=
      List.mem_map.mp (hperm.symm.subset (mem_raw_addLeftover.mpr (.inr hleftover)))
    exact ((hflag raw hraw).mp ((hright raw hraw).mpr hblueprint)).1
  · intro hmet raw hraw
    rw [hflag raw hraw]
    refine ⟨And.right, fun hblueprint => ⟨?_, hblueprint⟩⟩
    rcases mem_raw_addLeftover.mp (hperm.subset (List.mem_map_of_mem hraw)) with hkey | hleftover
    · exact hkey
    · exact hmet raw.typeId hleftover hblueprint

/-- Every flag of a resolution says whether its type has a blueprint if and only if each type
with a blueprint that the depth guard leaves is a raw material of an earlier level. -/
theorem flags_right_iff {resolution : BuildResolution}
    (hresolve : resolveBuildChain ceilQuotient db target buildSet typeName targetQuantity =
      .ok resolution) :
    (∀ raw ∈ resolution.rawMaterials, raw.isBuildable = true ↔ HasBlueprint db raw.typeId) ↔
      ∀ typeId ∈ typesAt db target buildSet maxDepth, HasBlueprint db typeId →
        typeId ≠ target ∧ typeId ∉ buildSet ∧
          ∃ depth < maxDepth, typeId ∈ typesAt db target buildSet depth := by
  obtain ⟨walk, leftover, hlevels, -, hraw⟩ := resolveBuildChain_cases hresolve
  obtain ⟨hcharted, hleftover⟩ := resolveLevels_charted hlevels
  have hflags : FlagsRaw walk := FlagsRaw.levelLoop maxDepth (fun _ _ => rfl) hlevels
  rw [hraw, flagsRight_iff hcharted hflags]
  refine forall_congr' fun typeId => ?_
  rw [hleftover]
  refine imp_congr_right fun _ => imp_congr_right fun hblueprint => ?_
  rw [hcharted.raw]
  simp only [expands_iff, hblueprint, and_true, not_or]
  constructor
  · rintro ⟨depth, hdepth, hmem, htarget, hbuildSet⟩
    exact ⟨htarget, hbuildSet, depth, hdepth, hmem⟩
  · rintro ⟨htarget, hbuildSet, depth, hdepth, hmem⟩
    exact ⟨depth, hdepth, hmem, htarget, hbuildSet⟩

theorem flags_right_sharedComponent :
    ∃ resolution, resolveBuildChain exactCeil sharedComponent 1 {2} (fun _ => none) 1 =
        .ok resolution ∧
      ((∀ raw ∈ resolution.rawMaterials,
          raw.isBuildable = true ↔ HasBlueprint sharedComponent raw.typeId) ↔
        ∀ typeId ∈ typesAt sharedComponent 1 {2} maxDepth, HasBlueprint sharedComponent typeId →
          typeId ≠ 1 ∧ typeId ∉ ({2} : Finset TypeId) ∧
            ∃ depth < maxDepth, typeId ∈ typesAt sharedComponent 1 {2} depth) := by
  obtain ⟨resolution, hresolve⟩ : ∃ resolution,
      resolveBuildChain exactCeil sharedComponent 1 {2} (fun _ => none) 1 = .ok resolution :=
    ⟨_, rfl⟩
  exact ⟨resolution, hresolve, flags_right_iff hresolve⟩

/-- Each of sixteen items is made of the next one. -/
def sixteenLevels : List Blueprint :=
  (List.range 16).map fun i => ⟨i + 1, some 1, [⟨i + 2, 1⟩]⟩

/-- The item that the guard leaves has a blueprint, and is shown as one that can only be bought. -/
theorem flag_wrong_sixteenLevels :
    ¬ ∀ (db : List Blueprint) (target : TypeId) (targetQuantity : ℤ) (buildSet : Finset TypeId)
        (resolution : BuildResolution), 1 ≤ targetQuantity →
      resolveBuildChain exactCeil db target buildSet (fun _ => none) targetQuantity =
        .ok resolution →
      ∀ raw ∈ resolution.rawMaterials,
        raw.isBuildable = true ↔ HasBlueprint db raw.typeId := by
  intro hright
  have hraw := hright sixteenLevels 1 1 ((List.range 14).map fun i => (i + 2 : ℤ)).toFinset _
    le_rfl rfl ⟨16, nameOf (fun _ => none) 16, 1, false⟩ (by decide +kernel)
  have hblueprint : HasBlueprint sixteenLevels 16 := by
    unfold HasBlueprint
    decide
  exact Bool.false_ne_true (hraw.mpr hblueprint)

end EveBuild.BuildChain
