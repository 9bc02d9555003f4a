import EveBuild.Data.Acyclic
import EveBuild.Data.Loops
import EveBuild.Planetary.Model
import Mathlib.Algebra.BigOperators.Ring.List
import Mathlib.Tactic.FieldSimp
import Mathlib.Tactic.Linarith
import Mathlib.Tactic.Ring

/-!
# Tier expansions compose

The quantities of an expansion are merged at every level, so that the result of a nested
call cannot be found again in the whole.  What can be followed through all merges is the
worth of a dictionary, for any worth of the types: when a schematic's output is worth as
much as the inputs of one run (`Conserves`), expanding a type leaves the worth as it was
(`worth_expandToTier`).

On a table without cycles there is for every floor and every type `counted` a worth that
schematics above the floor conserve, and in which a type where the expansion stops is worth
something only if it is `counted` (`exists_share`).  The quantity of `counted` in an
expansion to the floor is the quantity times this worth.  As the schematics above a higher
floor conserve it too, expanding to the higher floor first changes nothing
(`tier_expansions_compose`).
-/

namespace EveBuild.Planetary

open Migrations (Quantity SchematicDocument)

variable {byOutput : Dict TypeId SchematicDocument} {tiers : Dict TypeId ℤ} {floorTier : ℤ}

/-- `material` is an input of the schematic that makes `typeId`. -/
def Takes (byOutput : Dict TypeId SchematicDocument) (typeId material : TypeId) : Prop :=
  ∃ schematic, byOutput.get? typeId = some schematic ∧
    material ∈ schematic.inputs.map Quantity.typeId

/-- The schematics make something in every run. -/
def PositiveOutputs (byOutput : Dict TypeId SchematicDocument) : Prop :=
  ∀ typeId schematic, byOutput.get? typeId = some schematic → 1 ≤ schematic.output.quantity

/-! ## Worth -/

/-- What the quantities of a dictionary are worth. -/
def worth (unitWorth : TypeId → ℚ) (quantities : Dict TypeId ℚ) : ℚ :=
  (quantities.entries.map fun entry => entry.2 * unitWorth entry.1).sum

variable {unitWorth : TypeId → ℚ}

@[simp] theorem worth_empty : worth unitWorth .empty = 0 := rfl

@[simp] theorem worth_single (typeId : TypeId) (quantity : ℚ) :
    worth unitWorth (.single typeId quantity) = quantity * unitWorth typeId := by
  simp [worth]

theorem worth_add (quantities : Dict TypeId ℚ) (typeId : TypeId) (quantity : ℚ) :
    worth unitWorth (quantities.add typeId quantity) =
      worth unitWorth quantities + quantity * unitWorth typeId := by
  have hsum := quantities.sum_entries_set typeId (quantities.getD typeId 0 + quantity)
    fun typeId quantity => quantity * unitWorth typeId
  have hold : (quantities.get? typeId).elim 0 (fun quantity => quantity * unitWorth typeId) =
      quantities.getD typeId 0 * unitWorth typeId := by
    rw [Dict.getD]
    cases quantities.get? typeId <;> simp
  rw [hold] at hsum
  unfold worth Dict.add
  linarith

theorem worth_merge (result sub : Dict TypeId ℚ) :
    worth unitWorth (merge result sub) = worth unitWorth result + worth unitWorth sub := by
  unfold merge
  rw [worth.eq_def unitWorth sub]
  generalize sub.entries = entries
  induction entries generalizing result with
  | nil => simp
  | cons entry rest ih =>
      rw [List.foldl_cons, ih, worth_add, List.map_cons, List.sum_cons, add_assoc]

theorem mem_keys_merge {result sub : Dict TypeId ℚ} {typeId : TypeId} :
    typeId ∈ (merge result sub).keys ↔ typeId ∈ result.keys ∨ typeId ∈ sub.keys := by
  unfold merge Dict.keys
  rw [← Dict.keys, ← Dict.keys]
  generalize sub.entries = entries
  induction entries generalizing result with
  | nil => simp
  | cons entry rest ih =>
      rw [List.foldl_cons, ih, Dict.mem_keys_add, List.map_cons, List.mem_cons]
      tauto

/-! ## Loops over materials -/

section Loop

variable {expand : TypeId → ℚ → Except ExpansionError (Dict TypeId ℚ)}

/-- One pass of the loop. -/
theorem expandEach_step {entry : TypeId × ℚ} {start result : Dict TypeId ℚ}
    (hstep : (do return merge start (← expand entry.1 entry.2) :
      Except ExpansionError (Dict TypeId ℚ)) = .ok result) :
    ∃ sub, expand entry.1 entry.2 = .ok sub ∧ merge start sub = result := by
  obtain ⟨sub, hsub, hresult⟩ := bind_eq_ok.mp hstep
  exact ⟨sub, hsub, Except.ok.inj hresult⟩

/-- A loop over expansions that keep a worth keeps it. -/
theorem worth_expandEach
    (hkeeps : ∀ typeId quantity result, expand typeId quantity = .ok result →
      worth unitWorth result = quantity * unitWorth typeId)
    {entries : List (TypeId × ℚ)} {result : Dict TypeId ℚ}
    (hexpand : expandEach expand entries = .ok result) :
    worth unitWorth result = (entries.map fun entry => entry.2 * unitWorth entry.1).sum := by
  have hend := foldlM_ok_invariant
    (motive := fun start rest => worth unitWorth start +
      (rest.map fun entry => entry.2 * unitWorth entry.1).sum =
        (entries.map fun entry => entry.2 * unitWorth entry.1).sum)
    (fun start entry rest middle hstart hstep => ?_) entries .empty result (by simp) hexpand
  · simpa using hend
  · obtain ⟨sub, hsub, rfl⟩ := expandEach_step hstep
    rw [List.map_cons, List.sum_cons, ← add_assoc] at hstart
    rw [worth_merge, hkeeps _ _ _ hsub]
    exact hstart

/-- What holds of the types of each expansion holds of those of the loop. -/
theorem forall_keys_expandEach {good : TypeId → Prop}
    (hgood : ∀ typeId quantity result, expand typeId quantity = .ok result →
      ∀ key ∈ result.keys, good key)
    {entries : List (TypeId × ℚ)} {result : Dict TypeId ℚ}
    (hexpand : expandEach expand entries = .ok result) : ∀ key ∈ result.keys, good key := by
  unfold expandEach at hexpand
  refine foldlM_ok_invariant (motive := fun start _ => ∀ key ∈ start.keys, good key)
    (fun start entry rest middle hstart hstep => ?_) entries .empty result (by simp) hexpand
  obtain ⟨sub, hsub, rfl⟩ := expandEach_step hstep
  intro key hkey
  rcases mem_keys_merge.mp hkey with hkey | hkey
  · exact hstart key hkey
  · exact hgood _ _ _ hsub key hkey

theorem expandEach_ok {entries : List (TypeId × ℚ)}
    (hok : ∀ entry ∈ entries, ∃ result, expand entry.1 entry.2 = .ok result) :
    ∃ result, expandEach expand entries = .ok result := by
  refine foldlM_ok (fun entry hentry start => ?_) Dict.empty
  obtain ⟨sub, hsub⟩ := hok entry hentry
  exact ⟨merge start sub, by rw [hsub]; rfl⟩

end Loop

/-! ## Expansions -/

/-- **The outcomes of an expansion**: it stops at the type, or it goes on to the inputs of
the schematic that makes it. -/
theorem expandToTier_cases {fuel : ℕ} {typeId : TypeId} {quantity : ℚ} {result : Dict TypeId ℚ}
    (hexpand : expandToTier byOutput tiers floorTier fuel typeId quantity = .ok result) :
    Stops byOutput tiers floorTier typeId ∧ result = .single typeId quantity ∨
      ∃ schematic below, byOutput.get? typeId = some schematic ∧
        ¬ Stops byOutput tiers floorTier typeId ∧ schematic.output.quantity ≠ 0 ∧
        fuel = below + 1 ∧
        expandEach (expandToTier byOutput tiers floorTier below)
          (needs schematic (quantity / schematic.output.quantity)) = .ok result := by
  cases fuel with
  | zero => cases hexpand
  | succ below =>
      rw [expandToTier] at hexpand
      cases hget : byOutput.get? typeId with
      | none =>
          rw [hget] at hexpand
          cases hexpand
          exact Or.inl ⟨Or.inl hget, rfl⟩
      | some schematic =>
          simp only [hget] at hexpand
          split at hexpand
          · -- the tier is low enough
            rename_i hlow
            cases hexpand
            exact Or.inl ⟨Or.inr hlow, rfl⟩
          · rename_i hhigh
            split at hexpand
            · -- a division by zero raises
              cases hexpand
            · rename_i hzero
              refine Or.inr ⟨schematic, below, rfl, ?_, hzero, rfl, hexpand⟩
              rintro (hnone | hlow)
              · cases hget.symm.trans hnone
              · exact hhigh hlow

/-- The output of a schematic above the floor is worth as much as its inputs. -/
def Conserves (byOutput : Dict TypeId SchematicDocument) (tiers : Dict TypeId ℤ)
    (floorTier : ℤ) (unitWorth : TypeId → ℚ) : Prop :=
  ∀ typeId schematic, byOutput.get? typeId = some schematic →
    ¬ Stops byOutput tiers floorTier typeId →
    unitWorth typeId * schematic.output.quantity =
      (schematic.inputs.map fun material => material.quantity * unitWorth material.typeId).sum

/-- Above a higher floor there are fewer schematics. -/
theorem Conserves.higher {higher : ℤ} (hle : floorTier ≤ higher)
    (hconserves : Conserves byOutput tiers floorTier unitWorth) :
    Conserves byOutput tiers higher unitWorth := by
  intro typeId schematic hget hgoes
  refine hconserves typeId schematic hget fun hstops => hgoes ?_
  exact hstops.imp_right fun hlow => hlow.trans hle

theorem worth_needs (schematic : SchematicDocument) (runsNeeded : ℚ) :
    ((needs schematic runsNeeded).map fun entry => entry.2 * unitWorth entry.1).sum =
      runsNeeded * (schematic.inputs.map fun material =>
        material.quantity * unitWorth material.typeId).sum := by
  rw [needs, List.map_map, ← List.sum_map_mul_left]
  simp only [Function.comp_def, mul_assoc]

/-- **An expansion keeps the worth.** -/
theorem worth_expandToTier (hconserves : Conserves byOutput tiers floorTier unitWorth)
    {fuel : ℕ} {typeId : TypeId} {quantity : ℚ} {result : Dict TypeId ℚ}
    (hexpand : expandToTier byOutput tiers floorTier fuel typeId quantity = .ok result) :
    worth unitWorth result = quantity * unitWorth typeId := by
  induction fuel generalizing typeId quantity result with
  | zero => cases hexpand
  | succ fuel ih =>
      rcases expandToTier_cases hexpand with
        ⟨_, rfl⟩ | ⟨schematic, below, hget, hgoes, hzero, heq, hloop⟩
      · exact worth_single typeId quantity
      · -- the runs make the quantity, and their inputs are worth what their output is
        obtain rfl := Nat.succ.inj heq
        have hquantity : (schematic.output.quantity : ℚ) ≠ 0 := by exact_mod_cast hzero
        rw [worth_expandEach (fun _ _ _ hsub => ih hsub) hloop, worth_needs,
          ← hconserves typeId schematic hget hgoes]
        field_simp

/-- **The types of an expansion** are made by no schematic, or their tier is low enough. -/
theorem stops_of_mem_expandToTier {fuel : ℕ} {typeId : TypeId} {quantity : ℚ}
    {result : Dict TypeId ℚ}
    (hexpand : expandToTier byOutput tiers floorTier fuel typeId quantity = .ok result) :
    ∀ key ∈ result.keys, Stops byOutput tiers floorTier key := by
  induction fuel generalizing typeId quantity result with
  | zero => cases hexpand
  | succ fuel ih =>
      rcases expandToTier_cases hexpand with
        ⟨hstops, rfl⟩ | ⟨schematic, below, _, _, _, heq, hloop⟩
      · intro key hkey
        obtain rfl : key = typeId := by simpa [Dict.keys] using hkey
        exact hstops
      · obtain rfl := Nat.succ.inj heq
        exact forall_keys_expandEach (fun _ _ _ hsub => ih hsub) hloop

/-! ## Tables without cycles -/

theorem Takes.mem_keys {typeId material : TypeId} (htakes : Takes byOutput typeId material) :
    typeId ∈ byOutput.keys.toFinset := by
  obtain ⟨schematic, hget, _⟩ := htakes
  exact List.mem_toFinset.mpr (Dict.mem_keys_iff.mpr ⟨schematic, hget⟩)

/-- **The recursion ends.** -/
theorem expandToTier_ok (hacyclic : NoCycle (Takes byOutput))
    (hpositive : PositiveOutputs byOutput) {fuel : ℕ} {typeId : TypeId}
    (hfuel : height (Takes byOutput) byOutput.keys.toFinset typeId < fuel) (quantity : ℚ) :
    ∃ result, expandToTier byOutput tiers floorTier fuel typeId quantity = .ok result := by
  induction fuel generalizing typeId quantity with
  | zero => exact absurd hfuel (Nat.not_lt_zero _)
  | succ fuel ih =>
      rw [expandToTier]
      cases hget : byOutput.get? typeId with
      | none => exact ⟨_, rfl⟩
      | some schematic =>
          have hone := hpositive typeId schematic hget
          simp only
          split
          · exact ⟨_, rfl⟩
          · -- the inputs are lower in the table, so that less fuel is enough for them
            rw [if_neg (by omega)]
            refine expandEach_ok fun entry hentry => ?_
            obtain ⟨material, hmaterial, rfl⟩ := List.mem_map.mp hentry
            have htakes : Takes byOutput typeId material.typeId :=
              ⟨schematic, hget, List.mem_map_of_mem hmaterial⟩
            have hless := height_lt hacyclic htakes.mem_keys htakes
            refine ih ?_ _
            dsimp only
            omega

theorem expandToTier_ok_of_lt (hacyclic : NoCycle (Takes byOutput))
    (hpositive : PositiveOutputs byOutput) {fuel : ℕ} (hfuel : byOutput.keys.length < fuel)
    (floorTier : ℤ) (typeId : TypeId) (quantity : ℚ) :
    ∃ result, expandToTier byOutput tiers floorTier fuel typeId quantity = .ok result := by
  refine expandToTier_ok hacyclic hpositive ?_ quantity
  exact ((height_le typeId).trans (List.toFinset_card_le _)).trans_lt hfuel

/-- **The worth that counts one type.**  It is conserved above the floor, and where the
expansion stops only the type itself is worth something. -/
theorem exists_share (hacyclic : NoCycle (Takes byOutput))
    (hpositive : PositiveOutputs byOutput) (tiers : Dict TypeId ℤ) (floorTier : ℤ)
    (counted : TypeId) :
    ∃ share : TypeId → ℚ, Conserves byOutput tiers floorTier share ∧
      ∀ typeId, Stops byOutput tiers floorTier typeId →
        share typeId = if typeId = counted then 1 else 0 := by
  have hwf := wellFounded_of_noCycle hacyclic fun _ _ htakes => htakes.mem_keys
  -- the share of a type by the shares of what it takes
  let shareBy : (typeId : TypeId) → ((material : TypeId) → Takes byOutput typeId material → ℚ) →
      ℚ := fun typeId share =>
    if Stops byOutput tiers floorTier typeId then if typeId = counted then 1 else 0
    else match hget : byOutput.get? typeId with
      | none => 0
      | some schematic => (schematic.inputs.attach.map fun material =>
          material.1.quantity * share material.1.typeId
            ⟨schematic, hget, List.mem_map_of_mem material.2⟩).sum / schematic.output.quantity
  refine ⟨hwf.fix shareBy, fun typeId schematic hget hgoes => ?_, fun typeId hstops => ?_⟩
  · have hquantity : (schematic.output.quantity : ℚ) ≠ 0 := by
      have hone := hpositive typeId schematic hget
      exact_mod_cast (by omega : schematic.output.quantity ≠ 0)
    have hshare : hwf.fix shareBy typeId = (schematic.inputs.attach.map fun material =>
        material.1.quantity * hwf.fix shareBy material.1.typeId).sum /
          schematic.output.quantity := by
      rw [hwf.fix_eq]
      simp only [shareBy]
      rw [if_neg hgoes]
      split
      · rename_i hnone
        cases hget.symm.trans hnone
      · rename_i other hother
        obtain rfl := Option.some_inj.mp (hget.symm.trans hother)
        rfl
    rw [hshare, div_mul_cancel₀ _ hquantity]
    exact congrArg List.sum (List.attach_map_val
      (f := fun material : Quantity => material.quantity * hwf.fix shareBy material.typeId))
  · rw [hwf.fix_eq]
    simp only [shareBy]
    rw [if_pos hstops]

/-- Where only the counted type is worth something, the worth is its quantity. -/
theorem worth_eq_getD {share : TypeId → ℚ} {counted : TypeId} {result : Dict TypeId ℚ}
    (hshare : ∀ key ∈ result.keys, share key = if key = counted then 1 else 0) :
    worth share result = result.getD counted 0 := by
  rw [Dict.getD_eq_tally, worth, Dict.tally]
  congr 1
  refine List.map_congr_left fun entry hentry => ?_
  rw [hshare entry.1 (Dict.mem_keys_of_mem hentry), mul_ite, mul_one, mul_zero]

/-! ## Expanding in two steps -/

/-- The breakdowns by tier describe one demand.  An expansion ends, at types that are made
by no schematic or whose tier is low enough; it is linear in the quantity; and expanding
each of its types further down gives what expanding down at once gives, for a single type
and for the inputs of a schematic. -/
structure TiersCompose (byOutput : Dict TypeId SchematicDocument) (tiers : Dict TypeId ℤ)
    (fuel : ℕ) : Prop where
  ends : ∀ floorTier typeId quantity, ∃ result,
    expandToTier byOutput tiers floorTier fuel typeId quantity = .ok result
  stops : ∀ floorTier typeId quantity result,
    expandToTier byOutput tiers floorTier fuel typeId quantity = .ok result →
    ∀ key ∈ result.keys, Stops byOutput tiers floorTier key
  linear : ∀ floorTier typeId (a b first second : ℚ) firstResult secondResult result,
    expandToTier byOutput tiers floorTier fuel typeId first = .ok firstResult →
    expandToTier byOutput tiers floorTier fuel typeId second = .ok secondResult →
    expandToTier byOutput tiers floorTier fuel typeId (a * first + b * second) = .ok result →
    ∀ key, result.getD key 0 = a * firstResult.getD key 0 + b * secondResult.getD key 0
  composes : ∀ lower higher, lower ≤ higher → ∀ typeId quantity upper direct,
    expandToTier byOutput tiers higher fuel typeId quantity = .ok upper →
    expandToTier byOutput tiers lower fuel typeId quantity = .ok direct →
    ∃ composed, expandEach (expandToTier byOutput tiers lower fuel) upper.entries = .ok composed ∧
      ∀ key, composed.getD key 0 = direct.getD key 0
  breakdown_ends : ∀ floorTier schematic, ∃ result,
    breakdown byOutput tiers fuel floorTier schematic = .ok result
  breakdowns_agree : ∀ lower higher, lower ≤ higher → ∀ schematic upper direct,
    breakdown byOutput tiers fuel higher schematic = .ok upper →
    breakdown byOutput tiers fuel lower schematic = .ok direct →
    ∃ composed, expandEach (expandToTier byOutput tiers lower fuel) upper.entries = .ok composed ∧
      ∀ key, composed.getD key 0 = direct.getD key 0

section Compose

variable (hacyclic : NoCycle (Takes byOutput)) (hpositive : PositiveOutputs byOutput) {fuel : ℕ}

include hacyclic hpositive

/-- The quantity of a type in what a loop of expansions gives. -/
theorem getD_expandEach (tiers : Dict TypeId ℤ) (floorTier : ℤ) (counted : TypeId) :
    ∃ share : TypeId → ℚ, Conserves byOutput tiers floorTier share ∧
      (∀ typeId quantity result,
        expandToTier byOutput tiers floorTier fuel typeId quantity = .ok result →
        result.getD counted 0 = quantity * share typeId) ∧
      ∀ entries result,
        expandEach (expandToTier byOutput tiers floorTier fuel) entries = .ok result →
        result.getD counted 0 = (entries.map fun entry => entry.2 * share entry.1).sum := by
  obtain ⟨share, hconserves, hshare⟩ := exists_share hacyclic hpositive tiers floorTier counted
  refine ⟨share, hconserves, fun typeId quantity result hexpand => ?_,
    fun entries result hexpand => ?_⟩
  · rw [← worth_eq_getD fun key hkey => hshare key (stops_of_mem_expandToTier hexpand key hkey)]
    exact worth_expandToTier hconserves hexpand
  · have hstops := forall_keys_expandEach (fun _ _ _ => stops_of_mem_expandToTier) hexpand
    rw [← worth_eq_getD fun key hkey => hshare key (hstops key hkey)]
    exact worth_expandEach (fun _ _ _ => worth_expandToTier hconserves) hexpand

variable (hfuel : byOutput.keys.length < fuel)

include hfuel

theorem expandEach_ends (tiers : Dict TypeId ℤ) (floorTier : ℤ) (entries : List (TypeId × ℚ)) :
    ∃ result, expandEach (expandToTier byOutput tiers floorTier fuel) entries = .ok result :=
  expandEach_ok fun entry _ =>
    expandToTier_ok_of_lt hacyclic hpositive hfuel floorTier entry.1 entry.2

/-- **Going on from a higher floor.**  Where the loop to the higher floor gives `upper`, the
loop over `upper` to the lower floor gives what the loop to the lower floor gives at once. -/
theorem expandEach_composes {lower higher : ℤ} (hle : lower ≤ higher)
    {entries : List (TypeId × ℚ)} {upper direct : Dict TypeId ℚ}
    (hupper : expandEach (expandToTier byOutput tiers higher fuel) entries = .ok upper)
    (hdirect : expandEach (expandToTier byOutput tiers lower fuel) entries = .ok direct) :
    ∃ composed, expandEach (expandToTier byOutput tiers lower fuel) upper.entries =
        .ok composed ∧
      ∀ key, composed.getD key 0 = direct.getD key 0 := by
  obtain ⟨composed, hcomposed⟩ :=
    expandEach_ends hacyclic hpositive hfuel tiers lower upper.entries
  refine ⟨composed, hcomposed, fun key => ?_⟩
  obtain ⟨share, hconserves, _, hquantity⟩ := getD_expandEach hacyclic hpositive tiers lower key
  calc composed.getD key 0 = worth share upper := hquantity _ _ hcomposed
    _ = (entries.map fun entry => entry.2 * share entry.1).sum :=
        worth_expandEach (fun _ _ _ => worth_expandToTier (hconserves.higher hle)) hupper
    _ = direct.getD key 0 := (hquantity _ _ hdirect).symm

end Compose

/-- **Tier expansions compose.** -/
theorem tier_expansions_compose (tiers : Dict TypeId ℤ)
    (hacyclic : NoCycle (Takes byOutput)) (hpositive : PositiveOutputs byOutput) {fuel : ℕ}
    (hfuel : byOutput.keys.length < fuel) : TiersCompose byOutput tiers fuel where
  ends := expandToTier_ok_of_lt hacyclic hpositive hfuel
  stops := fun _ _ _ _ => stops_of_mem_expandToTier
  linear := by
    intro floorTier typeId a b first second firstResult secondResult result hfirst hsecond
      hresult key
    obtain ⟨share, _, hone, _⟩ := getD_expandEach hacyclic hpositive tiers floorTier key
    rw [hone _ _ _ hfirst, hone _ _ _ hsecond, hone _ _ _ hresult]
    ring
  composes := by
    intro lower higher hle typeId quantity upper direct hupper hdirect
    obtain ⟨composed, hcomposed⟩ :=
      expandEach_ends hacyclic hpositive hfuel tiers lower upper.entries
    refine ⟨composed, hcomposed, fun key => ?_⟩
    obtain ⟨share, hconserves, hone, hquantity⟩ :=
      getD_expandEach hacyclic hpositive tiers lower key
    calc composed.getD key 0 = worth share upper := hquantity _ _ hcomposed
      _ = quantity * share typeId := worth_expandToTier (hconserves.higher hle) hupper
      _ = direct.getD key 0 := (hone _ _ _ hdirect).symm
  breakdown_ends := fun floorTier _ => expandEach_ends hacyclic hpositive hfuel tiers floorTier _
  breakdowns_agree := fun _ _ hle _ _ _ => expandEach_composes hacyclic hpositive hfuel hle

/-- Four schematics, one of which takes an input of its own tier less two. -/
def sampleSchematics : List (ℤ × SchematicDocument) :=
  [(1, ⟨"Water", 1800, ⟨10, 20⟩, [⟨1, 3000⟩]⟩),
    (2, ⟨"Electrolytes", 1800, ⟨11, 20⟩, [⟨2, 3000⟩]⟩),
    (3, ⟨"Coolant", 3600, ⟨20, 5⟩, [⟨10, 40⟩, ⟨11, 40⟩]⟩),
    (4, ⟨"Condensates", 3600, ⟨30, 3⟩, [⟨20, 10⟩, ⟨10, 10⟩]⟩)]

def sampleTiers : Dict TypeId ℤ :=
  tierIndexByTypeId (fun typeId => [(10, 1042), (11, 1042), (20, 1034), (30, 1040)].lookup typeId)
    (schematicByOutputTypeId sampleSchematics)

theorem tier_expansions_compose_sample :
    NoCycle (Takes (schematicByOutputTypeId sampleSchematics)) ∧
    PositiveOutputs (schematicByOutputTypeId sampleSchematics) ∧
    TiersCompose (schematicByOutputTypeId sampleSchematics) sampleTiers 5 := by
  have hless : ∀ entry ∈ (schematicByOutputTypeId sampleSchematics).entries,
      1 ≤ entry.2.output.quantity ∧
        ∀ material ∈ entry.2.inputs.map Quantity.typeId, material < entry.1 := by
    decide
  have hacyclic : NoCycle (Takes (schematicByOutputTypeId sampleSchematics)) := by
    refine noCycle_of_lt ?_
    rintro typeId material ⟨schematic, hget, hmaterial⟩
    exact (hless _ (Dict.get?_eq_some_iff.mp hget)).2 material hmaterial
  have hpositive : PositiveOutputs (schematicByOutputTypeId sampleSchematics) :=
    fun _ _ hget => (hless _ (Dict.get?_eq_some_iff.mp hget)).1
  exact ⟨hacyclic, hpositive, tier_expansions_compose sampleTiers hacyclic hpositive (by decide)⟩

end EveBuild.Planetary
