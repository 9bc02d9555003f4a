import EveBuild.BuildChain.Levels
import Mathlib.Order.Bounds.Basic

/-!
# What is built, what is bought, and the page's toggles

When the level loop ends with an empty level, the types of the returned steps are
the least set that holds the target and the chosen materials of its members, as far
as blueprints produce them; the raw materials are what the members need beside
(`BuildsChosen`).  No type is both, at whatever levels it appears, because whether a
type is expanded does not depend on the level.

The page of `app/routes/build.py` offers to build a raw material that has a
blueprint and to buy a step's product instead.  Choosing more types only adds to the
layers, and a type that is taken out of the build set is still met where a chain of
other types first led to it (`typesAt_erase`), so both links do what they say
(`TogglesWork`).
-/

namespace EveBuild.BuildChain

variable {ceilQuotient : ℤ → ℤ → Except ArithmeticError ℤ} {db : List Blueprint}
  {target : TypeId} {buildSet : Finset TypeId}

/-- The build set of the link that `_build_toggle_href` makes. -/
def toggled (buildSet : Finset TypeId) (toggledTypeId : TypeId) (adding : Bool) : Finset TypeId :=
  if adding then insert toggledTypeId buildSet else buildSet.erase toggledTypeId

/-! ## What is to be built -/

/-- A blueprint produces the type. -/
def HasBlueprint (db : List Blueprint) (typeId : TypeId) : Prop :=
  (blueprintForProduct db typeId).isSome

/-- `material` is among the materials of the blueprint that produces `user`. -/
def MaterialOf (db : List Blueprint) (user material : TypeId) : Prop :=
  ∃ blueprint, blueprintForProduct db user = some blueprint ∧
    ∃ entry ∈ blueprint.materials, entry.typeId = material

/-- A set of types that holds the target and the chosen materials of its members, as
far as they have blueprints. -/
structure ChoiceClosed (db : List Blueprint) (target : TypeId) (buildSet : Finset TypeId)
    (types : Set TypeId) : Prop where
  target : HasBlueprint db target → target ∈ types
  material : ∀ user ∈ types, ∀ material, MaterialOf db user material → material ∈ buildSet →
    HasBlueprint db material → material ∈ types

/-- The types of the returned steps. -/
def BuildResolution.builtTypes (resolution : BuildResolution) : Set TypeId :=
  { typeId | ∃ step ∈ resolution.steps, step.typeId = typeId }

/-- The types of the returned raw materials. -/
def BuildResolution.rawTypes (resolution : BuildResolution) : Set TypeId :=
  { typeId | ∃ raw ∈ resolution.rawMaterials, raw.typeId = typeId }

/-- **What is built and what is bought.**  The steps are the least set that is closed
under the choice; the raw materials are the other materials of the steps, or just the
target if there are no steps; and a raw material is flagged if it could be built. -/
structure BuildsChosen (db : List Blueprint) (target : TypeId) (buildSet : Finset TypeId)
    (resolution : BuildResolution) : Prop where
  built : IsLeast { types | ChoiceClosed db target buildSet types } resolution.builtTypes
  raw : ∀ typeId, typeId ∈ resolution.rawTypes ↔
    (typeId ∉ resolution.builtTypes ∧
      ∃ user ∈ resolution.builtTypes, MaterialOf db user typeId) ∨
    (resolution.builtTypes = ∅ ∧ typeId = target)
  flagged : ∀ raw ∈ resolution.rawMaterials, raw.isBuildable = true ↔ HasBlueprint db raw.typeId

/-- The level loop ends with `current_level` empty. -/
def EndsEmpty (ceilQuotient : ℤ → ℤ → Except ArithmeticError ℤ) (db : List Blueprint)
    (target : TypeId) (buildSet : Finset TypeId) (targetQuantity : ℤ) : Prop :=
  ∃ walk, resolveLevels ceilQuotient db target buildSet targetQuantity = .ok (walk, .empty)

/-! ## Layers and expansion -/

theorem expansion_eq_some_iff {typeId : TypeId} {blueprint : Blueprint} :
    expansion db target buildSet typeId = some blueprint ↔
      (typeId = target ∨ typeId ∈ buildSet) ∧ blueprintForProduct db typeId = some blueprint := by
  unfold expansion
  split
  · rename_i hnot
    simp [hnot]
  · rename_i hchosen
    have hchosen : typeId = target ∨ typeId ∈ buildSet := by tauto
    simp [hchosen]

theorem expands_iff {typeId : TypeId} : Expands db target buildSet typeId ↔
    (typeId = target ∨ typeId ∈ buildSet) ∧ HasBlueprint db typeId := by
  simp only [Expands, HasBlueprint, Option.isSome_iff_exists, expansion_eq_some_iff,
    exists_and_left]

/-- Below an expanded type are its materials. -/
theorem mem_materialsBelow_iff {user material : TypeId} :
    material ∈ materialsBelow db target buildSet user ↔
      Expands db target buildSet user ∧ MaterialOf db user material := by
  rw [mem_materialsBelow, expands_iff]
  constructor
  · rintro ⟨blueprint, hexpansion, hentry⟩
    obtain ⟨hchosen, hblueprint⟩ := expansion_eq_some_iff.mp hexpansion
    exact ⟨⟨hchosen, by simp [HasBlueprint, hblueprint]⟩, blueprint, hblueprint, hentry⟩
  · rintro ⟨⟨hchosen, _⟩, blueprint, hblueprint, hentry⟩
    exact ⟨blueprint, expansion_eq_some_iff.mpr ⟨hchosen, hblueprint⟩, hentry⟩

/-- Choosing more types expands more. -/
theorem materialsBelow_subset {larger : Finset TypeId} (hsubset : buildSet ⊆ larger)
    (typeId : TypeId) :
    materialsBelow db target buildSet typeId ⊆ materialsBelow db target larger typeId := by
  intro material hmaterial
  rw [mem_materialsBelow_iff, expands_iff] at hmaterial ⊢
  obtain ⟨⟨hchosen, hblueprint⟩, hmaterial⟩ := hmaterial
  exact ⟨⟨hchosen.imp_right fun hmem => hsubset hmem, hblueprint⟩, hmaterial⟩

/-- The walk meets the type in some level. -/
def Met (db : List Blueprint) (target : TypeId) (buildSet : Finset TypeId) (typeId : TypeId) :
    Prop :=
  ∃ depth, typeId ∈ typesAt db target buildSet depth

theorem met_target : Met db target buildSet target := ⟨0, mem_layer_zero.mpr rfl⟩

theorem Met.material {user material : TypeId} (hmet : Met db target buildSet user)
    (hexpands : Expands db target buildSet user) (hmaterial : MaterialOf db user material) :
    Met db target buildSet material := by
  obtain ⟨depth, hdepth⟩ := hmet
  exact ⟨depth + 1, mem_layer_succ.mpr
    ⟨user, hdepth, mem_materialsBelow_iff.mpr ⟨hexpands, hmaterial⟩⟩⟩

/-- Reasoning about a type that is met: it is the target, or a material of a type that
is met and expanded. -/
theorem Met.cases {typeId : TypeId} (hmet : Met db target buildSet typeId) :
    typeId = target ∨ ∃ user, Met db target buildSet user ∧ Expands db target buildSet user ∧
      MaterialOf db user typeId := by
  obtain ⟨depth, hdepth⟩ := hmet
  cases depth with
  | zero => exact Or.inl (mem_layer_zero.mp hdepth)
  | succ depth =>
      obtain ⟨user, huser, hbelow⟩ := mem_layer_succ.mp hdepth
      obtain ⟨hexpands, hmaterial⟩ := mem_materialsBelow_iff.mp hbelow
      exact Or.inr ⟨user, ⟨depth, huser⟩, hexpands, hmaterial⟩

theorem Met.mono {larger : Finset TypeId} (hsubset : buildSet ⊆ larger) {typeId : TypeId}
    (hmet : Met db target buildSet typeId) : Met db target larger typeId := by
  obtain ⟨depth, hdepth⟩ := hmet
  exact ⟨depth, layer_subset (materialsBelow_subset hsubset) hdepth⟩

/-- A type that is met is still met when another one is bought, or else that one is met:
on a chain that leads to the type, the one that is bought comes first somewhere. -/
theorem typesAt_erase {bought typeId : TypeId} {depth : ℕ}
    (hdepth : typeId ∈ typesAt db target buildSet depth) :
    Met db target (buildSet.erase bought) typeId ∨
      Met db target (buildSet.erase bought) bought := by
  induction depth generalizing typeId with
  | zero =>
      rw [mem_layer_zero.mp hdepth]
      exact Or.inl met_target
  | succ depth ih =>
      obtain ⟨user, huser, hbelow⟩ := mem_layer_succ.mp hdepth
      obtain ⟨hexpands, hmaterial⟩ := mem_materialsBelow_iff.mp hbelow
      rcases ih huser with huser | hbought
      · by_cases heq : user = bought
        · exact Or.inr (heq ▸ huser)
        · refine Or.inl (huser.material ?_ hmaterial)
          rw [expands_iff] at hexpands ⊢
          exact ⟨hexpands.1.imp_right fun hmem => Finset.mem_erase.mpr ⟨heq, hmem⟩, hexpands.2⟩
      · exact Or.inr hbought

/-- **The least choice.**  The types that are met and expanded are the least set that is
closed under the choice. -/
theorem isLeast_met : IsLeast { types | ChoiceClosed db target buildSet types }
    { typeId | Met db target buildSet typeId ∧ Expands db target buildSet typeId } := by
  constructor
  · refine ⟨fun hblueprint => ⟨met_target, expands_iff.mpr ⟨Or.inl rfl, hblueprint⟩⟩, ?_⟩
    intro user huser material hmaterial hmem hblueprint
    exact ⟨huser.1.material huser.2 hmaterial, expands_iff.mpr ⟨Or.inr hmem, hblueprint⟩⟩
  · rintro types hclosed typeId ⟨⟨depth, hdepth⟩, hexpands⟩
    induction depth generalizing typeId with
    | zero =>
        obtain rfl := mem_layer_zero.mp hdepth
        exact hclosed.target (expands_iff.mp hexpands).2
    | succ depth ih =>
        obtain ⟨user, huser, hbelow⟩ := mem_layer_succ.mp hdepth
        obtain ⟨huserExpands, hmaterial⟩ := mem_materialsBelow_iff.mp hbelow
        obtain ⟨rfl | hmem, hblueprint⟩ := expands_iff.mp hexpands
        · exact hclosed.target hblueprint
        · exact hclosed.material user (ih huserExpands huser) typeId hmaterial hmem hblueprint

/-! ## The returned steps and raw materials -/

variable {targetQuantity : ℤ} {typeName : TypeId → Option String}

/-- The types of the returned steps are the keys of the walk's steps. -/
theorem mem_builtTypes_iff {walk : Walk} {leftover : Dict TypeId ℤ} {resolution : BuildResolution}
    (hlevels : resolveLevels ceilQuotient db target buildSet targetQuantity = .ok (walk, leftover))
    (hsteps : resolution.steps = topologicalOrder target (nameSteps typeName walk.stepsByTypeId))
    {typeId : TypeId} : typeId ∈ resolution.builtTypes ↔ typeId ∈ walk.stepsByTypeId.keys := by
  have haccounted := resolveLevels_accounted hlevels
  have hperm := steps_perm haccounted typeName
  rw [← hsteps] at hperm
  constructor
  · rintro ⟨step, hstep, rfl⟩
    obtain ⟨original, horiginal, rfl⟩ := List.mem_map.mp (hperm.subset hstep)
    obtain ⟨⟨typeId, original⟩, hentry, rfl⟩ := List.mem_map.mp horiginal
    rw [haccounted.keyed typeId original (Dict.get?_eq_some_iff.mpr hentry)]
    exact Dict.mem_keys_of_mem hentry
  · intro hkey
    obtain ⟨step, hget⟩ := Dict.mem_keys_iff.mp hkey
    refine ⟨_, hperm.symm.subset (List.mem_map_of_mem (List.mem_map_of_mem
      (Dict.get?_eq_some_iff.mp hget))), ?_⟩
    exact haccounted.keyed typeId step hget

/-- **What the walk of a loop that ends empty has entered.** -/
theorem chosen_of_endsEmpty {resolution : BuildResolution}
    (hends : EndsEmpty ceilQuotient db target buildSet targetQuantity)
    (hresolve : resolveBuildChain ceilQuotient db target buildSet typeName targetQuantity =
      .ok resolution) :
    (∀ typeId, typeId ∈ resolution.builtTypes ↔
      Met db target buildSet typeId ∧ Expands db target buildSet typeId) ∧
    (∀ typeId, typeId ∈ resolution.rawTypes ↔
      Met db target buildSet typeId ∧ ¬ Expands db target buildSet typeId) ∧
    ∀ raw ∈ resolution.rawMaterials, raw.isBuildable = true ↔ HasBlueprint db raw.typeId := by
  obtain ⟨walk, hlevels⟩ := hends
  obtain ⟨walk', leftover, hlevels', hsteps, hraw⟩ := resolveBuildChain_cases hresolve
  obtain ⟨rfl, rfl⟩ := Prod.mk.inj (Except.ok.inj (hlevels.symm.trans hlevels'))
  obtain ⟨hcharted, hleftover⟩ := resolveLevels_charted hlevels
  have hempty : typesAt db target buildSet maxDepth = ∅ := hleftover.eq_empty rfl
  -- the levels from the guard on are empty, so that the loop meets all that is met
  have hmet : ∀ (typeId : TypeId) (flag : Prop), (∃ depth < maxDepth,
      typeId ∈ typesAt db target buildSet depth ∧ flag) ↔ Met db target buildSet typeId ∧ flag := by
    intro typeId flag
    constructor
    · rintro ⟨depth, _, hdepth, hflag⟩
      exact ⟨⟨depth, hdepth⟩, hflag⟩
    · rintro ⟨⟨depth, hdepth⟩, hflag⟩
      exact ⟨depth, lt_of_mem_layer hempty hdepth, hdepth, hflag⟩
  have hperm := typeIds_rawMaterials_perm typeName walk
  refine ⟨fun typeId => ?_, fun typeId => ?_, fun raw hmem => ?_⟩
  · rw [mem_builtTypes_iff hlevels hsteps, hcharted.steps, hmet]
  · rw [← hmet, ← hcharted.raw, ← hperm.mem_iff, BuildResolution.rawTypes, hraw]
    exact List.mem_map.symm
  · rw [hraw] at hmem
    have hkey := hperm.subset (List.mem_map_of_mem hmem)
    obtain ⟨entry, _, rfl⟩ := List.mem_map.mp hmem
    show walk.rawBuildable.getD entry.1 false = true ↔ _
    rw [Dict.getD_of_get? (hcharted.flags entry.1 hkey)]
    exact Iff.rfl

theorem buildsChosen {resolution : BuildResolution}
    (hends : EndsEmpty ceilQuotient db target buildSet targetQuantity)
    (hresolve : resolveBuildChain ceilQuotient db target buildSet typeName targetQuantity =
      .ok resolution) : BuildsChosen db target buildSet resolution := by
  obtain ⟨hbuilt, hraw, hflagged⟩ := chosen_of_endsEmpty hends hresolve
  have hset : resolution.builtTypes =
      { typeId | Met db target buildSet typeId ∧ Expands db target buildSet typeId } :=
    Set.ext hbuilt
  refine ⟨hset ▸ isLeast_met, fun typeId => ?_, hflagged⟩
  rw [hraw, hbuilt]
  constructor
  · rintro ⟨hmet, hnot⟩
    rcases hmet.cases with rfl | ⟨user, huser, hexpands, hmaterial⟩
    · refine Or.inr ⟨?_, rfl⟩
      -- without a blueprint for the target the empty set is closed
      have hnone : ¬ HasBlueprint db typeId := fun hblueprint =>
        hnot (expands_iff.mpr ⟨Or.inl rfl, hblueprint⟩)
      have hclosed : ChoiceClosed db typeId buildSet ∅ :=
        ⟨fun hblueprint => absurd hblueprint hnone, fun _ huser => absurd huser (by simp)⟩
      rw [hset]
      exact Set.subset_empty_iff.mp (isLeast_met.2 hclosed)
    · exact Or.inl ⟨fun hboth => hnot hboth.2, user, (hbuilt user).mpr ⟨huser, hexpands⟩,
        hmaterial⟩
  · rintro (⟨hnot, user, huser, hmaterial⟩ | ⟨hnothing, rfl⟩)
    · obtain ⟨hmet, hexpands⟩ := (hbuilt user).mp huser
      exact ⟨hmet.material hexpands hmaterial, fun hboth =>
        hnot ⟨hmet.material hexpands hmaterial, hboth⟩⟩
    · refine ⟨met_target, fun hexpands => ?_⟩
      have hmem := (hbuilt typeId).mpr ⟨met_target, hexpands⟩
      rw [hnothing] at hmem
      exact hmem

/-! ## The toggles -/

/-- **The page's links work.**  A raw material that could be built is built by the link
that adds it, and is then no raw material.  A step that is not the target's is bought by
the link that takes it out, and the link that puts it back gives the old resolution. -/
structure TogglesWork (ceilQuotient : ℤ → ℤ → Except ArithmeticError ℤ) (db : List Blueprint)
    (target : TypeId) (buildSet : Finset TypeId) (typeName : TypeId → Option String)
    (targetQuantity : ℤ) (resolution : BuildResolution) : Prop where
  build : ∀ raw ∈ resolution.rawMaterials, raw.isBuildable = true → ∀ changed,
    EndsEmpty ceilQuotient db target (toggled buildSet raw.typeId true) targetQuantity →
    resolveBuildChain ceilQuotient db target (toggled buildSet raw.typeId true) typeName
      targetQuantity = .ok changed →
    raw.typeId ∈ changed.builtTypes ∧ raw.typeId ∉ changed.rawTypes
  buy : ∀ step ∈ resolution.steps, step.typeId ≠ target → ∀ changed,
    resolveBuildChain ceilQuotient db target (toggled buildSet step.typeId false) typeName
      targetQuantity = .ok changed →
    (∃ raw ∈ changed.rawMaterials, raw.typeId = step.typeId ∧ raw.isBuildable = true) ∧
      resolveBuildChain ceilQuotient db target
        (toggled (toggled buildSet step.typeId false) step.typeId true) typeName
        targetQuantity = .ok resolution
  buys : RaisesByDivisor ceilQuotient → ∀ step ∈ resolution.steps, step.typeId ≠ target →
    ∃ changed, resolveBuildChain ceilQuotient db target (toggled buildSet step.typeId false)
      typeName targetQuantity = .ok changed

/-- Buying more leaves fewer types in every level. -/
theorem typesAt_subset {smaller : Finset TypeId} (hsubset : smaller ⊆ buildSet) (depth : ℕ) :
    typesAt db target smaller depth ⊆ typesAt db target buildSet depth :=
  layer_subset (materialsBelow_subset hsubset)

theorem endsEmpty_of_subset {smaller : Finset TypeId} (hsubset : smaller ⊆ buildSet)
    (hends : EndsEmpty ceilQuotient db target buildSet targetQuantity) {walk : Walk}
    {leftover : Dict TypeId ℤ}
    (hlevels : resolveLevels ceilQuotient db target smaller targetQuantity =
      .ok (walk, leftover)) : EndsEmpty ceilQuotient db target smaller targetQuantity := by
  obtain ⟨larger, hlarger⟩ := hends
  have hempty : typesAt db target buildSet maxDepth = ∅ :=
    (resolveLevels_charted hlarger).2.eq_empty rfl
  have hleftover := (resolveLevels_charted hlevels).2
  refine ⟨walk, ?_⟩
  rw [hlevels]
  suffices leftover = .empty by rw [this]
  apply Dict.ext
  cases hentries : leftover.entries with
  | nil => rfl
  | cons entry rest =>
      have hkey : entry.1 ∈ leftover.keys := by simp [Dict.keys, hentries]
      have hmem := typesAt_subset hsubset maxDepth ((hleftover entry.1).mp hkey)
      rw [hempty] at hmem
      cases hmem

/-- A resolution with a smaller build set divides by fewer product quantities. -/
theorem resolves_of_subset (hraises : RaisesByDivisor ceilQuotient) {smaller : Finset TypeId}
    (hsubset : smaller ⊆ buildSet)
    (hends : EndsEmpty ceilQuotient db target buildSet targetQuantity) :
    ∃ changed, resolveBuildChain ceilQuotient db target smaller typeName targetQuantity =
      .ok changed := by
  obtain ⟨walk, hlevels⟩ := hends
  have hcharted := (resolveLevels_charted hlevels).1
  have hdivides : ∀ below < 0 + maxDepth, ∀ typeId ∈ typesAt db target smaller below,
      ∀ blueprint, expansion db target smaller typeId = some blueprint →
        Divides ceilQuotient blueprint := by
    intro below hbelow typeId htypeId blueprint hexpansion
    refine hcharted.divides below (by omega) typeId (typesAt_subset hsubset below htypeId)
      blueprint ?_
    rw [expansion_eq_some_iff] at hexpansion ⊢
    exact ⟨hexpansion.1.imp_right fun hmem => hsubset hmem, hexpansion.2⟩
  obtain ⟨result, hresult⟩ :=
    levelLoop_returns hraises maxDepth .start (holdsTypes_single targetQuantity) hdivides
  exact ⟨_, bind_eq_ok.mpr ⟨result, hresult, rfl⟩⟩

theorem togglesWork {resolution : BuildResolution}
    (hends : EndsEmpty ceilQuotient db target buildSet targetQuantity)
    (hresolve : resolveBuildChain ceilQuotient db target buildSet typeName targetQuantity =
      .ok resolution) :
    TogglesWork ceilQuotient db target buildSet typeName targetQuantity resolution := by
  obtain ⟨hbuilt, hraw, hflagged⟩ := chosen_of_endsEmpty hends hresolve
  refine ⟨fun raw hmem hbuildable changed hchangedEnds hchanged => ?_,
    fun step hstep hne changed hchanged => ?_, fun hraises step _ _ => ?_⟩
  · obtain ⟨hchangedBuilt, hchangedRaw, _⟩ := chosen_of_endsEmpty hchangedEnds hchanged
    -- with the type in the set it is met as before, and expands
    have hmet := ((hraw raw.typeId).mp ⟨raw, hmem, rfl⟩).1
    have hexpands : Expands db target (toggled buildSet raw.typeId true) raw.typeId :=
      expands_iff.mpr ⟨Or.inr (Finset.mem_insert_self _ _), (hflagged raw hmem).mp hbuildable⟩
    rw [hchangedBuilt, hchangedRaw]
    exact ⟨⟨hmet.mono (Finset.subset_insert _ _), hexpands⟩, fun hboth => hboth.2 hexpands⟩
  · obtain ⟨⟨depth, hdepth⟩, hexpands⟩ := (hbuilt step.typeId).mp ⟨step, hstep, rfl⟩
    obtain ⟨hchosen, hblueprint⟩ := expands_iff.mp hexpands
    obtain ⟨walk, leftover, hlevels, _⟩ := resolveBuildChain_cases hchanged
    have hchangedEnds := endsEmpty_of_subset (Finset.erase_subset _ _) hends hlevels
    obtain ⟨_, hchangedRaw, hchangedFlagged⟩ := chosen_of_endsEmpty hchangedEnds hchanged
    -- without the type in the set it is met as before, and does not expand
    have hmet : Met db target (buildSet.erase step.typeId) step.typeId :=
      (typesAt_erase hdepth).elim id id
    have hbought : ¬ Expands db target (buildSet.erase step.typeId) step.typeId := by
      rw [expands_iff]
      rintro ⟨heq | hmem, _⟩
      · exact hne heq
      · exact Finset.notMem_erase _ _ hmem
    obtain ⟨raw, hmem, htypeId⟩ := (hchangedRaw step.typeId).mpr ⟨hmet, hbought⟩
    refine ⟨⟨raw, hmem, htypeId, (hchangedFlagged raw hmem).mpr (htypeId ▸ hblueprint)⟩, ?_⟩
    have hback : toggled (toggled buildSet step.typeId false) step.typeId true = buildSet :=
      Finset.insert_erase (hchosen.resolve_left hne)
    rw [hback, hresolve]
  · exact resolves_of_subset hraises (Finset.erase_subset _ _) hends

/-- **What `resolve_build_chain` builds, what it leaves raw, and the page's toggles.** -/
theorem builds_chosen_and_toggles {resolution : BuildResolution}
    (hends : EndsEmpty ceilQuotient db target buildSet targetQuantity)
    (hresolve : resolveBuildChain ceilQuotient db target buildSet typeName targetQuantity =
      .ok resolution) :
    BuildsChosen db target buildSet resolution ∧
      TogglesWork ceilQuotient db target buildSet typeName targetQuantity resolution :=
  ⟨buildsChosen hends hresolve, togglesWork hends hresolve⟩

/-- The target takes a `2` and `3`s, and a `2` takes more `3`s; all three have blueprints. -/
def sharedComponent : List Blueprint :=
  [⟨1, some 1, [⟨2, 1⟩, ⟨3, 5⟩]⟩, ⟨2, none, [⟨3, 5⟩]⟩, ⟨3, some 10, [⟨4, 1⟩]⟩]

theorem builds_chosen_and_toggles_sharedComponent :
    ∃ resolution, resolveBuildChain exactCeil sharedComponent 1 {2} (fun _ => none) 1 =
      .ok resolution ∧ BuildsChosen sharedComponent 1 {2} resolution ∧
      TogglesWork exactCeil sharedComponent 1 {2} (fun _ => none) 1 resolution := by
  have hends : EndsEmpty exactCeil sharedComponent 1 {2} 1 := ⟨_, rfl⟩
  obtain ⟨resolution, hresolve⟩ : ∃ resolution,
      resolveBuildChain exactCeil sharedComponent 1 {2} (fun _ => none) 1 = .ok resolution :=
    ⟨_, rfl⟩
  exact ⟨resolution, hresolve, builds_chosen_and_toggles hends hresolve⟩

end EveBuild.BuildChain
