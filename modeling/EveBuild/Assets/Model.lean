import EveBuild.Data.Grouping
import Mathlib.Data.Finset.Card

/-!
# The asset pages

The list of a character's assets, with those of the corporation merged into it, as the three
handlers of `app/routes/assets.py` group it, and the walk up a chain of containers of
`app/services/locations.py`.

What is left out are the volumes and the values, which are floats, and the names; the cards of
the overview are kept with their quantity and their number of locations.
-/

namespace EveBuild.Assets

/-- `esi.AssetEntry`, without the two fields that no page reads. -/
structure AssetEntry where
  itemId : ℤ
  typeId : ℤ
  locationId : ℤ
  locationType : String
  quantity : ℤ
deriving DecidableEq

/-- `assets_by_item_id`. -/
def assetsByItemId (assets : List AssetEntry) : Dict ℤ AssetEntry :=
  Dict.indexBy AssetEntry.itemId id assets

/-! ## Containers -/

theorem card_unvisited_lt {keys : List ℤ} {current : ℤ} {visited : Finset ℤ}
    (hkey : current ∈ keys) (hnew : current ∉ visited) :
    (keys.toFinset \ insert current visited).card < (keys.toFinset \ visited).card := by
  refine Finset.card_lt_card (Finset.ssubset_iff_subset_ne.mpr
    ⟨Finset.sdiff_subset_sdiff subset_rfl (Finset.subset_insert _ _), fun heq => ?_⟩)
  have hmem : current ∈ keys.toFinset \ visited :=
    Finset.mem_sdiff.mpr ⟨List.mem_toFinset.mpr hkey, hnew⟩
  rw [← heq] at hmem
  exact (Finset.mem_sdiff.mp hmem).2 (Finset.mem_insert_self _ _)

/-- The loop of `resolve_container_chain`.  An item that is visited stays visited, and only
items of the dictionary are visited. -/
def walkChain (byItemId : Dict ℤ AssetEntry) (current : ℤ) (visited : Finset ℤ) : ℤ :=
  if _hnew : current ∈ byItemId.keys ∧ current ∉ visited then
    match byItemId.get? current with
    | some asset =>
        if asset.locationType ≠ "item" then asset.locationId
        else walkChain byItemId asset.locationId (insert current visited)
    | none => current
  else current
termination_by (byItemId.keys.toFinset \ visited).card
decreasing_by exact card_unvisited_lt _hnew.1 _hnew.2

/-- `resolve_container_chain`. -/
def resolveContainerChain (locationId : ℤ) (byItemId : Dict ℤ AssetEntry) : ℤ :=
  walkChain byItemId locationId ∅

/-! ## The overview -/

/-- A card of a section of the overview. -/
structure CategoryRow where
  typeId : ℤ
  quantity : ℤ
  locationCount : ℕ
deriving DecidableEq

structure Overview where
  totalQuantity : ℤ
  totalLocations : ℕ
  /-- The cards of the category that a predicate on types describes. -/
  rows : (ℤ → Bool) → List CategoryRow

/-- `resolved_location_by_item_id`. -/
def resolvedLocationByItemId (assets : List AssetEntry) : Dict ℤ ℤ :=
  Dict.indexBy AssetEntry.itemId
    (fun asset => resolveContainerChain asset.locationId (assetsByItemId assets)) assets

/-- `_category_rows`, in the order in which the types occur.  The page sorts the cards by
their volume.  Every asset of the list has its location in `resolved`. -/
def categoryRows (assets : List AssetEntry) (resolved : Dict ℤ ℤ) (isOf : ℤ → Bool) :
    List CategoryRow :=
  let matching := assets.filter fun asset => isOf asset.typeId
  let quantityByType := Dict.sumBy AssetEntry.typeId AssetEntry.quantity matching
  let locationsByType := Dict.collectBy AssetEntry.typeId
    (fun asset => resolved.getD asset.itemId 0) matching
  quantityByType.entries.map fun (typeId, quantity) =>
    { typeId, quantity, locationCount := (locationsByType.getD typeId ∅).card }

/-- `list_assets`, which has no numbers to show where there are no assets. -/
def listAssets (assets : List AssetEntry) : Option Overview :=
  if assets = [] then none
  else
    let resolved := resolvedLocationByItemId assets
    some {
      totalQuantity := (assets.map AssetEntry.quantity).sum
      totalLocations := resolved.values.toFinset.card
      rows := categoryRows assets resolved }

/-! ## The page of an item -/

structure ItemPage where
  quantityByLocation : Dict ℤ ℤ
  totalQuantity : ℤ

/-- `item_detail`, where `none` is a 404. -/
def itemDetail (assets : List AssetEntry) (typeId : ℤ) : Option ItemPage :=
  let byItemId := assetsByItemId assets
  let matching := assets.filter fun asset => asset.typeId = typeId
  if matching = [] then none
  else
    let quantityByLocation := Dict.sumBy
      (fun asset => resolveContainerChain asset.locationId byItemId) AssetEntry.quantity matching
    some { quantityByLocation, totalQuantity := quantityByLocation.values.sum }

/-! ## The page of a location -/

structure LocationPage where
  quantityByType : Dict ℤ ℤ
  totalQuantity : ℤ

/-- The assets that `location_detail` counts. -/
def assetsAt (assets : List AssetEntry) (locationId : ℤ) : List AssetEntry :=
  let byItemId := assetsByItemId assets
  assets.filter fun asset => resolveContainerChain asset.locationId byItemId = locationId

/-- `location_detail`, where `none` is a 404. -/
def locationDetail (assets : List AssetEntry) (locationId : ℤ) : Option LocationPage :=
  let matching := assetsAt assets locationId
  if matching = [] then none
  else
    let quantityByType := Dict.sumBy AssetEntry.typeId AssetEntry.quantity matching
    some {
      quantityByType
      totalQuantity := (quantityByType.entries.map fun (_, quantity) => quantity).sum }

end EveBuild.Assets
