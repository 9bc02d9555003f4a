import EveBuild.Assets.Model

/-!
# The asset pages agree

Each of the three handlers groups the list of assets in its own way: by location within a
type, by type within a location, and the overview not at all.  Whatever location a chain of
containers leads to, an asset has one type and one resolved location, so that each page is
made of a group of the list.  What the two detail pages show for a type and a location is
the sum of the assets that are in both groups (`shownOnItemPage_eq`, `shownOnLocationPage_eq`),
and the totals of the groups add up to the total of the list.

That item ids are distinct matters for the overview alone, which keeps the resolved locations
under the item ids.
-/

namespace EveBuild.Assets

open Dict (group)

variable (assets : List AssetEntry)

/-- The location that an asset is counted at. -/
def resolvedLocation (asset : AssetEntry) : ℤ :=
  resolveContainerChain asset.locationId (assetsByItemId assets)

/-- The types that have a page. -/
def pageTypes : Finset ℤ := (assets.map AssetEntry.typeId).toFinset

/-- The locations that have a page. -/
def pageLocations : Finset ℤ := (assets.map (resolvedLocation assets)).toFinset

/-- What the page of an item shows for a location, if it shows the location. -/
def shownOnItemPage (typeId locationId : ℤ) : Option ℤ :=
  (itemDetail assets typeId).bind fun page => page.quantityByLocation.get? locationId

/-- What the page of a location shows for an item, if it shows the item. -/
def shownOnLocationPage (locationId typeId : ℤ) : Option ℤ :=
  (locationDetail assets locationId).bind fun page => page.quantityByType.get? typeId

/-- The total of the page of an item; a page that does not exist has none. -/
def itemTotal (typeId : ℤ) : ℤ := (itemDetail assets typeId).elim 0 ItemPage.totalQuantity

def locationTotal (locationId : ℤ) : ℤ :=
  (locationDetail assets locationId).elim 0 LocationPage.totalQuantity

/-- The three pages describe the same assets. -/
structure PagesAgree : Prop where
  quantities : ∀ typeId locationId,
    shownOnItemPage assets typeId locationId = shownOnLocationPage assets locationId typeId
  counted : ∀ asset ∈ assets, ∃ locationId, ∀ other,
    (assetsAt assets other).count asset = if other = locationId then 1 else 0
  itemPages : ∀ typeId, typeId ∈ pageTypes assets ↔ (itemDetail assets typeId).isSome
  locationPages : ∀ locationId,
    locationId ∈ pageLocations assets ↔ (locationDetail assets locationId).isSome
  totals : ∑ typeId ∈ pageTypes assets, itemTotal assets typeId =
    ∑ locationId ∈ pageLocations assets, locationTotal assets locationId
  overview : ∀ overview, listAssets assets = some overview →
    overview.totalQuantity = ∑ typeId ∈ pageTypes assets, itemTotal assets typeId ∧
      overview.totalLocations = (pageLocations assets).card
  noOverview : listAssets assets = none ↔ assets = []

/-! ## The pages as groups of the list -/

theorem itemDetail_cases (typeId : ℤ) :
    group AssetEntry.typeId assets typeId = [] ∧ itemDetail assets typeId = none ∨
      group AssetEntry.typeId assets typeId ≠ [] ∧ ∃ page, itemDetail assets typeId = some page ∧
        page.quantityByLocation = Dict.sumBy (resolvedLocation assets) AssetEntry.quantity
          (group AssetEntry.typeId assets typeId) ∧
        page.totalQuantity =
          ((group AssetEntry.typeId assets typeId).map AssetEntry.quantity).sum := by
  by_cases hnone : group AssetEntry.typeId assets typeId = []
  · exact .inl ⟨hnone, if_pos hnone⟩
  · exact .inr ⟨hnone, _, if_neg hnone, rfl, Dict.sum_values_sumBy _⟩

theorem locationDetail_cases (locationId : ℤ) :
    group (resolvedLocation assets) assets locationId = [] ∧
        locationDetail assets locationId = none ∨
      group (resolvedLocation assets) assets locationId ≠ [] ∧
        ∃ page, locationDetail assets locationId = some page ∧
          page.quantityByType = Dict.sumBy AssetEntry.typeId AssetEntry.quantity
            (group (resolvedLocation assets) assets locationId) ∧
          page.totalQuantity =
            ((group (resolvedLocation assets) assets locationId).map AssetEntry.quantity).sum := by
  by_cases hnone : group (resolvedLocation assets) assets locationId = []
  · exact .inl ⟨hnone, if_pos hnone⟩
  · exact .inr ⟨hnone, _, if_neg hnone, rfl, Dict.sum_values_sumBy _⟩

/-- The assets of one type at one location. -/
def cell (typeId locationId : ℤ) : List AssetEntry :=
  group (resolvedLocation assets) (group AssetEntry.typeId assets typeId) locationId

theorem shownOnItemPage_eq (typeId locationId : ℤ) :
    shownOnItemPage assets typeId locationId =
      if cell assets typeId locationId = [] then none
      else some ((cell assets typeId locationId).map AssetEntry.quantity).sum := by
  unfold shownOnItemPage
  obtain ⟨hempty, hnone⟩ | ⟨-, page, hpage, hquantities, -⟩ := itemDetail_cases assets typeId
  · have hcell : cell assets typeId locationId = [] := by
      rw [cell, hempty]
      rfl
    rw [hnone, if_pos hcell]
    rfl
  · rw [hpage, Option.bind_some, hquantities, Dict.get?_sumBy]
    rfl

theorem shownOnLocationPage_eq (typeId locationId : ℤ) :
    shownOnLocationPage assets locationId typeId =
      if cell assets typeId locationId = [] then none
      else some ((cell assets typeId locationId).map AssetEntry.quantity).sum := by
  have hcomm : cell assets typeId locationId =
      group AssetEntry.typeId (group (resolvedLocation assets) assets locationId) typeId :=
    Dict.group_comm _ assets typeId locationId
  unfold shownOnLocationPage
  obtain ⟨hempty, hnone⟩ | ⟨-, page, hpage, hquantities, -⟩ :=
    locationDetail_cases assets locationId
  · have hcell : cell assets typeId locationId = [] := by
      rw [hcomm, hempty]
      rfl
    rw [hnone, if_pos hcell]
    rfl
  · rw [hpage, Option.bind_some, hquantities, Dict.get?_sumBy, hcomm]

/-! ## Which pages there are -/

theorem mem_pageTypes_iff (typeId : ℤ) :
    typeId ∈ pageTypes assets ↔ (itemDetail assets typeId).isSome := by
  have hgroup : typeId ∈ pageTypes assets ↔ group AssetEntry.typeId assets typeId ≠ [] := by
    rw [pageTypes, List.mem_toFinset, List.mem_map, ne_eq, Dict.group_eq_nil_iff]
    simp
  obtain ⟨hempty, hnone⟩ | ⟨hsome, page, hpage, -⟩ := itemDetail_cases assets typeId
  · simp [hgroup, hempty, hnone]
  · simp [hgroup, hsome, hpage]

theorem mem_pageLocations_iff (locationId : ℤ) :
    locationId ∈ pageLocations assets ↔ (locationDetail assets locationId).isSome := by
  have hgroup : locationId ∈ pageLocations assets ↔
      group (resolvedLocation assets) assets locationId ≠ [] := by
    rw [pageLocations, List.mem_toFinset, List.mem_map, ne_eq, Dict.group_eq_nil_iff]
    simp
  obtain ⟨hempty, hnone⟩ | ⟨hsome, page, hpage, -⟩ := locationDetail_cases assets locationId
  · simp [hgroup, hempty, hnone]
  · simp [hgroup, hsome, hpage]

/-! ## The totals -/

theorem itemTotal_eq (typeId : ℤ) :
    itemTotal assets typeId =
      ((group AssetEntry.typeId assets typeId).map AssetEntry.quantity).sum := by
  unfold itemTotal
  obtain ⟨hempty, hnone⟩ | ⟨-, page, hpage, -, htotal⟩ := itemDetail_cases assets typeId
  · rw [hnone, hempty]
    rfl
  · rw [hpage]
    exact htotal

theorem locationTotal_eq (locationId : ℤ) :
    locationTotal assets locationId =
      ((group (resolvedLocation assets) assets locationId).map AssetEntry.quantity).sum := by
  unfold locationTotal
  obtain ⟨hempty, hnone⟩ | ⟨-, page, hpage, -, htotal⟩ := locationDetail_cases assets locationId
  · rw [hnone, hempty]
    rfl
  · rw [hpage]
    exact htotal

/-- **The totals of the item pages** add up to the total of the list. -/
theorem sum_itemTotal :
    ∑ typeId ∈ pageTypes assets, itemTotal assets typeId =
      (assets.map AssetEntry.quantity).sum := by
  simp only [itemTotal_eq]
  exact Dict.sum_groups _ fun asset hasset => List.mem_toFinset.mpr (List.mem_map_of_mem hasset)

/-- **The totals of the location pages** add up to the total of the list. -/
theorem sum_locationTotal :
    ∑ locationId ∈ pageLocations assets, locationTotal assets locationId =
      (assets.map AssetEntry.quantity).sum := by
  simp only [locationTotal_eq]
  exact Dict.sum_groups _ fun asset hasset => List.mem_toFinset.mpr (List.mem_map_of_mem hasset)

variable {assets}

/-- Where no two assets have one item id, the overview keeps the location of each of them. -/
theorem values_resolvedLocationByItemId (hdistinct : (assets.map AssetEntry.itemId).Nodup) :
    (resolvedLocationByItemId assets).values = assets.map (resolvedLocation assets) := by
  rw [resolvedLocationByItemId, Dict.values, Dict.entries_indexBy _ hdistinct, List.map_map]
  rfl

/-- An asset is counted once, at its resolved location. -/
theorem count_assetsAt (hdistinct : (assets.map AssetEntry.itemId).Nodup) {asset : AssetEntry}
    (hasset : asset ∈ assets) (locationId : ℤ) :
    (assetsAt assets locationId).count asset =
      if locationId = resolvedLocation assets asset then 1 else 0 := by
  have hone : assets.count asset = 1 := List.count_eq_one_of_mem hdistinct.of_map hasset
  split
  · rename_i heq
    rw [assetsAt, List.count_filter, hone]
    exact decide_eq_true heq.symm
  · rename_i hne
    rw [List.count_eq_zero]
    intro hmem
    exact hne (Dict.mem_group.mp hmem).2.symm

/-- **The cards of the overview.**  A card shows the total of the page of its item and counts
the locations of that page. -/
theorem categoryRows_agree (hdistinct : (assets.map AssetEntry.itemId).Nodup) {isOf : ℤ → Bool}
    {row : CategoryRow}
    (hrow : row ∈ categoryRows assets (resolvedLocationByItemId assets) isOf) :
    ∃ page, itemDetail assets row.typeId = some page ∧ row.quantity = page.totalQuantity ∧
      row.locationCount = page.quantityByLocation.keys.length := by
  obtain ⟨⟨typeId, quantity⟩, hentry, rfl⟩ := List.mem_map.mp hrow
  have hget := Dict.get?_eq_some_iff.mpr hentry
  rw [Dict.get?_sumBy] at hget
  obtain ⟨hsome, hsum⟩ := Option.ite_none_left_eq_some.mp hget
  -- the group of a type that is in the category is the whole group of the type
  have hgroup : group AssetEntry.typeId (assets.filter fun asset => isOf asset.typeId) typeId =
      group AssetEntry.typeId assets typeId := by
    obtain ⟨asset, hasset⟩ := List.exists_mem_of_ne_nil _ hsome
    obtain ⟨hmatches, rfl⟩ := Dict.mem_group.mp hasset
    have hisOf : isOf asset.typeId = true := (List.mem_filter.mp hmatches).2
    unfold group
    rw [List.filter_filter]
    refine List.filter_congr fun other _ => ?_
    by_cases heq : other.typeId = asset.typeId
    · rw [heq, hisOf, Bool.and_true]
    · simp [heq]
  rw [hgroup] at hsome hsum
  obtain ⟨hempty, -⟩ | ⟨-, page, hpage, hquantities, htotal⟩ := itemDetail_cases assets typeId
  · exact absurd hempty hsome
  refine ⟨page, hpage, ?_, ?_⟩
  · rw [htotal, ← Option.some.inj hsum]
  · rw [hquantities, Dict.length_keys_sumBy]
    show ((Dict.collectBy AssetEntry.typeId _ _).getD typeId ∅).card = _
    rw [Dict.getD_collectBy, hgroup]
    congr 2
    refine List.map_congr_left fun asset hasset => ?_
    exact Dict.getD_of_get? (Dict.get?_indexBy_of_mem _ hdistinct (Dict.mem_group.mp hasset).1) 0

/-- **The asset pages agree.**  Whatever containers the assets are in, the pages of the items
and of the locations show the same quantities, each asset is counted at one location, and the
numbers of the overview are those of the pages. -/
theorem asset_pages_agree (hdistinct : (assets.map AssetEntry.itemId).Nodup) :
    PagesAgree assets where
  quantities typeId locationId := by rw [shownOnItemPage_eq, shownOnLocationPage_eq]
  counted asset hasset := ⟨resolvedLocation assets asset, count_assetsAt hdistinct hasset⟩
  itemPages := mem_pageTypes_iff assets
  locationPages := mem_pageLocations_iff assets
  totals := by rw [sum_itemTotal, sum_locationTotal]
  overview overview hoverview := by
    obtain ⟨-, heq⟩ := Option.ite_none_left_eq_some.mp hoverview
    cases heq
    refine ⟨(sum_itemTotal assets).symm, ?_⟩
    show (resolvedLocationByItemId assets).values.toFinset.card = _
    rw [values_resolvedLocationByItemId hdistinct]
    rfl
  noOverview := by
    unfold listAssets
    split
    · rename_i hnone
      exact iff_of_true rfl hnone
    · rename_i hsome
      exact iff_of_false (Option.some_ne_none _) hsome

/-- Ore of the character in a container at a station and, for the corporation, in two
containers that are in each other. -/
def nestedAssets : List AssetEntry :=
  [⟨1, 34, 60003760, "station", 5⟩, ⟨2, 34, 1, "item", 7⟩, ⟨3, 35, 2, "item", 2⟩,
    ⟨4, 34, 5, "item", 1⟩, ⟨5, 35, 4, "item", 3⟩]

theorem asset_pages_agree_nestedAssets : PagesAgree nestedAssets :=
  asset_pages_agree (by decide)

end EveBuild.Assets
