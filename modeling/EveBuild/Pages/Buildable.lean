import Mathlib.Algebra.Order.BigOperators.Group.List
import EveBuild.Data.Capacity
import EveBuild.Data.Grouping
import EveBuild.Pages.Blueprints

/-!
# The buildable counts of a blueprint

The loop of `blueprint_detail` over the materials, with its two minimums that start at infinity
and the cells of the cards.  A run needs a product of floats of each material, rounded up and at
least 1; what the product is does not matter here, so it is a parameter.

Each minimum is a `capacity` (`countMaterials_eq`), so that what is shown is the greatest number
of runs for which the stock is enough.  A cell shows a shortage if the stock is not enough for
one run (`isShort_stockCell_iff`).
-/

namespace EveBuild.Pages

open Markup Text
open Assets (AssetEntry)
open Migrations (Quantity)

/-- `global_totals`. -/
def globalTotals (assets : List AssetEntry) : Dict ℤ ℤ :=
  Dict.sumBy AssetEntry.typeId AssetEntry.quantity assets

/-- `on_site_totals`. -/
def onSiteTotals (blueprint : BlueprintEntry) (assets : List AssetEntry) : Dict ℤ ℤ :=
  Dict.sumBy AssetEntry.typeId AssetEntry.quantity
    (assets.filter fun asset => asset.locationId = blueprint.locationId)

/-! ## The loop over the materials -/

section Model

-- `math.ceil(base_quantity * (1 - material_efficiency / 100))`
variable (ceilProduct : ℤ → ℤ → ℤ)

/-- `_material_quantity_per_run`. -/
def neededPerRun (baseQuantity materialEfficiency : ℤ) : ℤ :=
  max 1 (ceilProduct baseQuantity materialEfficiency)

/-- What a card of `material_cards` shows of a material. -/
structure StockCard where
  typeId : ℤ
  needed : ℤ
  onSiteCell : Text
  globalCell : Text

/-- The card of a material. -/
def stockCard (materialEfficiency : ℤ) (onSiteTotals globalTotals : Dict ℤ ℤ)
    (material : Quantity) : StockCard :=
  let needed := neededPerRun ceilProduct material.quantity materialEfficiency
  { typeId := material.typeId
    needed
    onSiteCell := stockCell (onSiteTotals.getD material.typeId 0) needed
    globalCell := stockCell (globalTotals.getD material.typeId 0) needed }

/-- What the loop over the materials writes to. -/
structure Counting where
  onSiteBuildable : WithTop ℤ
  globalBuildable : WithTop ℤ
  materialCards : List StockCard

/-- The body of `for material in materials`.  What a run needs is positive, so the quotient is
rounded down. -/
def countMaterial (materialEfficiency : ℤ) (onSiteTotals globalTotals : Dict ℤ ℤ)
    (counting : Counting) (material : Quantity) : Counting :=
  let needed := neededPerRun ceilProduct material.quantity materialEfficiency
  let onSiteHave := onSiteTotals.getD material.typeId 0
  let globalHave := globalTotals.getD material.typeId 0
  { onSiteBuildable := min counting.onSiteBuildable (onSiteHave / needed : ℤ)
    globalBuildable := min counting.globalBuildable (globalHave / needed : ℤ)
    materialCards := counting.materialCards ++
      [stockCard ceilProduct materialEfficiency onSiteTotals globalTotals material] }

/-- `int` of a number that may be `math.inf`. -/
def intOfCount : WithTop ℤ → Except PageError ℤ
  | some n => pure n
  | none => throw .overflow

/-- What `blueprint_detail` shows of the materials. -/
structure BuildableCounts where
  onSite : ℤ
  all : ℤ
  materialCards : List StockCard

/-- The part of `blueprint_detail` that is about the materials. -/
def buildableCounts (blueprint : BlueprintEntry) (assets : List AssetEntry)
    (materials : List Quantity) : Except PageError BuildableCounts := do
  let counting := materials.foldl (countMaterial ceilProduct blueprint.materialEfficiency
    (onSiteTotals blueprint assets) (globalTotals assets)) ⟨⊤, ⊤, []⟩
  let onSite ← intOfCount (if materials = [] then 0 else counting.onSiteBuildable)
  let all ← intOfCount (if materials = [] then 0 else counting.globalBuildable)
  return { onSite, all, materialCards := counting.materialCards }

end Model

/-! ## Stock and shortages -/

/-- How much of a type a list of assets has. -/
def stockOf (assets : List AssetEntry) (typeId : ℤ) : ℤ :=
  ((assets.filter fun asset => asset.typeId = typeId).map AssetEntry.quantity).sum

/-- How much of a type is where the blueprint is. -/
def onSiteStock (blueprint : BlueprintEntry) (assets : List AssetEntry) (typeId : ℤ) : ℤ :=
  stockOf (assets.filter fun asset => asset.locationId = blueprint.locationId) typeId

/-- The cell shows how much is missing. -/
def IsShort (cell : Text) : Prop :=
  ∃ owned missing,
    cell = concat [str owned, r#" <span class="short">(-"#, str missing, ")</span>"]

theorem getD_globalTotals (assets : List AssetEntry) (typeId : ℤ) :
    (globalTotals assets).getD typeId 0 = stockOf assets typeId := Dict.getD_sumBy assets typeId

theorem getD_onSiteTotals (blueprint : BlueprintEntry) (assets : List AssetEntry) (typeId : ℤ) :
    (onSiteTotals blueprint assets).getD typeId 0 = onSiteStock blueprint assets typeId :=
  Dict.getD_sumBy _ typeId

theorem isShort_stockCell_iff {owned needed : ℤ} :
    IsShort (stockCell owned needed) ↔ owned < needed := by
  unfold stockCell
  by_cases hshort : owned < needed
  · have hmissing : max 0 (needed - owned) ≠ 0 := by omega
    simp only [hmissing, ne_eq, not_false_eq_true, if_true, hshort, iff_true]
    exact ⟨owned, max 0 (needed - owned), rfl⟩
  · have hmissing : max 0 (needed - owned) = 0 := by omega
    simp only [hmissing, ne_eq, not_true_eq_false, if_false, hshort, iff_false]
    -- a number alone is one part of a text, a shortage is four
    rintro ⟨other, missing, heq⟩
    have hlength := congrArg (fun cell : Text => cell.parts.length) heq
    simp [concat, markup] at hlength

/-- What is on site is a part of the stock. -/
theorem onSiteStock_le {assets : List AssetEntry}
    (hquantities : ∀ asset ∈ assets, 0 ≤ asset.quantity)
    (blueprint : BlueprintEntry) (typeId : ℤ) :
    onSiteStock blueprint assets typeId ≤ stockOf assets typeId := by
  unfold onSiteStock stockOf
  rw [List.filter_comm]
  refine List.Sublist.sum_le_sum (List.filter_sublist.map _) fun quantity hquantity => ?_
  obtain ⟨asset, hasset, rfl⟩ := List.mem_map.mp hquantity
  exact hquantities asset (List.mem_of_mem_filter hasset)

/-! ## What the loop counts -/

section Counts

variable {ceilProduct : ℤ → ℤ → ℤ}

theorem neededPerRun_pos (baseQuantity materialEfficiency : ℤ) :
    0 < neededPerRun ceilProduct baseQuantity materialEfficiency :=
  lt_of_lt_of_le one_pos (le_max_left _ _)

/-- **The loop** has the two capacities and a card of each material. -/
theorem countMaterials_eq (materialEfficiency : ℤ) (onSiteTotals globalTotals : Dict ℤ ℤ)
    (materials : List Quantity) :
    materials.foldl (countMaterial ceilProduct materialEfficiency onSiteTotals globalTotals)
        ⟨⊤, ⊤, []⟩ =
      { onSiteBuildable := capacity (fun material => onSiteTotals.getD material.typeId 0)
          (fun material => neededPerRun ceilProduct material.quantity materialEfficiency) materials
        globalBuildable := capacity (fun material => globalTotals.getD material.typeId 0)
          (fun material => neededPerRun ceilProduct material.quantity materialEfficiency) materials
        materialCards := materials.map
          (stockCard ceilProduct materialEfficiency onSiteTotals globalTotals) } := by
  induction materials using List.reverseRecOn with
  | nil => rfl
  | append_singleton materials material ih =>
      rw [List.foldl_append, ih, List.map_append]
      simp [countMaterial, capacity]

/-- A column of the page is right for a list of materials: `count` is the greatest number of
runs that the stock is enough for, and a cell is short unless it is enough for one. -/
structure ColumnExact (needed : Quantity → ℤ) (stock : ℤ → ℤ) (materials : List Quantity)
    (count : ℤ) (cells : List Text) : Prop where
  greatest : materials ≠ [] →
    IsGreatest {n | ∀ material ∈ materials, n * needed material ≤ stock material.typeId} count
  nothing : materials = [] → count = 0
  short : materials ≠ [] → (1 ≤ count ↔ ∀ cell ∈ cells, ¬ IsShort cell)

/-- A minimum of the loop and the cells beside it. -/
theorem columnExact_of_capacity {needed : Quantity → ℤ} {stock : ℤ → ℤ}
    {materials : List Quantity} {count : ℤ} {cells : List Text} (hneeded : ∀ m, 0 < needed m)
    (hempty : materials = [] → count = 0)
    (hcount : materials ≠ [] →
      capacity (fun material => stock material.typeId) needed materials = count)
    (hcells : cells = materials.map fun material =>
      stockCell (stock material.typeId) (needed material)) :
    ColumnExact needed stock materials count cells where
  greatest := fun hne => isGreatest_of_capacity hneeded (hcount hne)
  nothing := hempty
  short := by
    intro hne
    calc 1 ≤ count
        ↔ ((1 : ℤ) : WithTop ℤ) ≤ capacity (fun material => stock material.typeId) needed
            materials := by rw [hcount hne, WithTop.coe_le_coe]
      _ ↔ ∀ material ∈ materials, 1 * needed material ≤ stock material.typeId :=
          le_capacity_iff hneeded
      _ ↔ ∀ cell ∈ cells, ¬ IsShort cell := by
          rw [hcells, List.forall_mem_map]
          simp only [isShort_stockCell_iff, not_lt, one_mul]

/-- `int` of a count that is 0 or a capacity. -/
theorem intOfCount_capacity (stock need : Quantity → ℤ) (materials : List Quantity) :
    ∃ count, intOfCount (if materials = [] then 0 else capacity stock need materials) = .ok count ∧
      (materials = [] → count = 0) ∧
      (materials ≠ [] → capacity stock need materials = count) := by
  by_cases hempty : materials = []
  · exact ⟨0, by simp [hempty]; rfl, fun _ => rfl, fun hne => absurd hempty hne⟩
  · have htop : capacity stock need materials ≠ ⊤ := capacity_ne_top hempty
    obtain ⟨count, hcount⟩ := WithTop.ne_top_iff_exists.mp htop
    refine ⟨count, ?_, fun heq => absurd heq hempty, fun _ => hcount.symm⟩
    rw [if_neg hempty, ← hcount]
    rfl

/-- The two counts of `blueprint_detail` are shown, they are the greatest numbers of runs that
the stock at the place of the blueprint and that of all assets are enough for, and the first is
not greater than the second. -/
theorem buildableCounts_exact (ceilProduct : ℤ → ℤ → ℤ) (blueprint : BlueprintEntry)
    (assets : List AssetEntry) (materials : List Quantity)
    (hquantities : ∀ asset ∈ assets, 0 ≤ asset.quantity) :
    ∃ counts, buildableCounts ceilProduct blueprint assets materials = .ok counts ∧
      (counts.materialCards.map fun card => (card.typeId, card.needed)) =
        (materials.map fun material => (material.typeId,
          neededPerRun ceilProduct material.quantity blueprint.materialEfficiency)) ∧
      ColumnExact
        (fun material => neededPerRun ceilProduct material.quantity blueprint.materialEfficiency)
        (onSiteStock blueprint assets) materials counts.onSite
        (counts.materialCards.map StockCard.onSiteCell) ∧
      ColumnExact
        (fun material => neededPerRun ceilProduct material.quantity blueprint.materialEfficiency)
        (stockOf assets) materials counts.all (counts.materialCards.map StockCard.globalCell) ∧
      counts.onSite ≤ counts.all := by
  obtain ⟨onSite, honSite, hnoneOnSite, hsomeOnSite⟩ := intOfCount_capacity
    (fun material => onSiteStock blueprint assets material.typeId)
    (fun material => neededPerRun ceilProduct material.quantity blueprint.materialEfficiency)
    materials
  obtain ⟨all, hall, hnoneAll, hsomeAll⟩ := intOfCount_capacity
    (fun material => stockOf assets material.typeId)
    (fun material => neededPerRun ceilProduct material.quantity blueprint.materialEfficiency)
    materials
  -- each column is exact for its own stock
  have honSiteExact := columnExact_of_capacity
    (fun material : Quantity => neededPerRun_pos material.quantity blueprint.materialEfficiency)
    hnoneOnSite hsomeOnSite rfl
  have hallExact := columnExact_of_capacity
    (fun material : Quantity => neededPerRun_pos material.quantity blueprint.materialEfficiency)
    hnoneAll hsomeAll rfl
  refine ⟨⟨onSite, all, materials.map (stockCard ceilProduct blueprint.materialEfficiency
    (onSiteTotals blueprint assets) (globalTotals assets))⟩, ?_, ?_, ?_, ?_, ?_⟩
  · unfold buildableCounts
    simp only [countMaterials_eq, getD_onSiteTotals, getD_globalTotals, honSite, hall]
    rfl
  · simp [stockCard]
  · simpa [stockCard, getD_onSiteTotals, Function.comp_def] using honSiteExact
  · simpa [stockCard, getD_globalTotals, Function.comp_def] using hallExact
  · by_cases hempty : materials = []
    · rw [hnoneOnSite hempty, hnoneAll hempty]
    · -- what is on site is enough for its count, so all assets are enough for it, too
      refine (hallExact.greatest hempty).2 fun material hmaterial => ?_
      exact ((honSiteExact.greatest hempty).1 material hmaterial).trans
        (onSiteStock_le hquantities blueprint material.typeId)

/-- The product of the exact numbers, rounded up. -/
def exactProduct (baseQuantity materialEfficiency : ℤ) : ℤ :=
  ((baseQuantity : ℚ) * (1 - materialEfficiency / 100)).ceil

/-- A blueprint with its assets on site and elsewhere. -/
def rifterBlueprint : BlueprintEntry := ⟨1000000001, 691, 60003760, -1, -1, 10, 0⟩

def rifterAssets : List AssetEntry :=
  [⟨1, 34, 60003760, "station", 46⟩, ⟨2, 35, 60003760, "station", 9⟩,
    ⟨3, 35, 60008494, "station", 90⟩]

/-- Pyerite is what runs out on site, tritanium what runs out of all assets. -/
theorem buildableCounts_exact_tritanium :
    ∃ counts, buildableCounts exactProduct rifterBlueprint rifterAssets [⟨34, 10⟩, ⟨35, 5⟩] =
        .ok counts ∧
      (counts.onSite, counts.all) = (1, 5) ∧ counts.onSite ≤ counts.all := by
  obtain ⟨counts, hcounts, -, -, -, hle⟩ := buildableCounts_exact exactProduct rifterBlueprint
    rifterAssets [⟨34, 10⟩, ⟨35, 5⟩] (by decide)
  have hpair : (buildableCounts exactProduct rifterBlueprint rifterAssets
      [⟨34, 10⟩, ⟨35, 5⟩]).map (fun counts => (counts.onSite, counts.all)) = .ok (1, 5) := by
    decide +kernel
  rw [hcounts] at hpair
  exact ⟨counts, hcounts, Except.ok.inj hpair, hle⟩

/-- With the products of exact numbers, the counts are those of the model of the page. -/
theorem buildableCounts_eq_page (blueprint : BlueprintEntry) (assets : List AssetEntry)
    (materials : List Quantity) :
    buildableCounts exactProduct blueprint assets materials =
      .ok {
        onSite := buildable (onSiteTotals blueprint assets) blueprint.materialEfficiency materials
        all := buildable (globalTotals assets) blueprint.materialEfficiency materials
        materialCards := materials.map (stockCard exactProduct blueprint.materialEfficiency
          (onSiteTotals blueprint assets) (globalTotals assets)) } := by
  have hpage : ∀ totals : Dict ℤ ℤ, intOfCount (if materials = [] then 0 else
      capacity (fun material : Quantity => totals.getD material.typeId 0)
        (fun material => neededPerRun exactProduct material.quantity
          blueprint.materialEfficiency) materials) =
        .ok (buildable totals blueprint.materialEfficiency materials) := by
    intro totals
    by_cases hempty : materials = []
    · subst hempty
      rfl
    · rw [if_neg hempty, capacity_eq_min? hempty]
      rfl
  unfold buildableCounts
  simp only [countMaterials_eq, hpage]
  rfl

end Counts

end EveBuild.Pages
