import EveBuild.Assets.Model
import EveBuild.Pages.Web

/-!
# The asset pages

The handlers of `app/routes/assets.py`, with the quantities of `EveBuild.Assets.Model`.

Volumes and values are exact rationals.  A type without a price has no value, and one without a
volume takes no room.
-/

namespace EveBuild.Pages

open Markup Text
open Assets (AssetEntry)

/-! ## Categories -/

def groupMatcher (groupId : ℤ) (typeDoc : TypeDoc) : Bool := typeDoc.groupId = some groupId

def categoriesMatcher (categoryIds : List ℤ) (typeDoc : TypeDoc) : Bool :=
  typeDoc.categoryId.any fun categoryId => categoryId ∈ categoryIds

/-- `_is_compressed_ore` and `_is_uncompressed_ore`. -/
def isOre (methods : StringMethods) (compressed : Bool) (typeDoc : TypeDoc) : Bool :=
  if typeDoc.categoryId ≠ some 25 then false
  else isIn "compressed" (methods.lower (typeDoc.name.getD "")) == compressed

/-- `_CATEGORIES`. -/
def categories (methods : StringMethods) : List (String × (TypeDoc → Bool)) :=
  [("Minerals", groupMatcher 18), ("Planetary Materials", categoriesMatcher [42, 43]),
    ("Compressed Ore", isOre methods true), ("Ore", isOre methods false),
    ("Datacores", groupMatcher 333), ("Decrypters", groupMatcher 1304)]

/-- `_HIDE_IF_EMPTY`. -/
def hideIfEmpty : List String := ["Compressed Ore"]

/-- `_LIST_STYLE`. -/
def assetsListStyle : List String := ["/static/card.css", "/static/assets-list.css"]

/-- `_DETAIL_STYLE`. -/
def assetsDetailStyle : List String := ["/static/card.css", "/static/assets-detail.css"]

section Handlers

variable (services : Services) (methods : StringMethods) (character : Option CharacterDocument)

/-- A card, and the volume that it is sorted by. -/
structure AssetCard where
  volume : ℚ
  html : Text

/-- `_unit_volume` of a type's document. -/
def unitVolume (typeId : ℤ) : ℚ := ((services.typeDocs typeId).bind TypeDoc.volume).getD 0

/-- A card of the overview, which counts locations, or of a location.  Only the indentation is
another one. -/
def assetCard (typeId quantity : ℤ) (locationCount : Option ℕ) : AssetCard :=
  let name := escape (data (services.typeName typeId))
  let rowVolume := unitVolume services typeId * quantity
  let rowValue := services.unitPrice typeId * quantity
  let icon := escape (itemIconUrl typeId)
  let itemHref := escape (concat ["/assets/", str typeId])
  let locationLine : Text := match locationCount with
    | some count => concat [itemLineHtml "Locations" (str count), "\n              "]
    | none => ""
  let html := concat [r#"
          <a class="item-card" href=""#, itemHref, r#"">
            <img class="item-card-center-icon" src=""#, icon, r#"" alt="" aria-hidden="true"
              onerror="this.style.visibility='hidden'">
            <div class="item-card-content">
              <div class="item-title">
                <img class="item-title-icon" src=""#, icon, r#"" alt=""
                  onerror="this.style.visibility='hidden'">
                "#, name, r#"
              </div>
              "#, itemLineHtml "Quantity" (formatNumber quantity), r#"
              "#, itemLineHtml "Volume" (concat [formatNumber rowVolume, " m3"]), r#"
              "#, locationLine, itemLineHtml "Est. value" (formatIsk rowValue), r#"
            </div>
          </a>
        "#]
  { volume := rowVolume, html }

/-- The cards, those of the largest volume first. -/
def assetCards (cards : List AssetCard) : Text :=
  concat ((sortedByDesc AssetCard.volume cards).map AssetCard.html)

/-! ## The overview -/

/-- `stats` of `list_assets` and of `location_detail`, which counts items, not locations. -/
def assetStats (corpNote : Text) (totalQuantity count : ℤ) (countLabel : String)
    (totalVolume totalValue : ℚ) : Text :=
  concat [r#"
      "#, corpNote, r#"<div class="summary">
        "#, summaryStat (formatNumber totalQuantity) "Total items", r#"
        "#, summaryStat (str count) countLabel, r#"
        "#, summaryStat (concat [formatNumber totalVolume, " m3"]) "Total volume", r#"
        "#, summaryStat (formatIsk totalValue) "Est. total value", r#"
      </div>
    "#]

/-- An entry of `sections_html`. -/
def categorySection (title : String) (cardsHtml : Text) : Text :=
  if cardsHtml.toString = "" then
    if title ∈ hideIfEmpty then "" else sectionBox title r#"<p class="empty">None found.</p>"#
  else sectionBox title cardsHtml

/-- `list_assets`, with the merged list and whether it includes the corporation's. -/
def listAssets (assets : List AssetEntry × Bool) : Text :=
  match Assets.listAssets assets.1 with
  | none =>
      let body := concat [r#"<div class="page"><h1>Assets</h1>"#,
        r#"<p class="empty">No assets found.</p></div>"#]
      renderPage "Assets" body assetsListStyle character
  | some overview =>
      let totalVolume := (assets.1.map fun asset =>
        unitVolume services asset.typeId * asset.quantity).sum
      let totalValue := (assets.1.map fun asset =>
        services.unitPrice asset.typeId * asset.quantity).sum
      let corpNote : Text :=
        if assets.2 then r#"<p class="empty">Includes corporation assets.</p>"# else ""
      let stats := assetStats (concat [corpNote, "\n      "]) overview.totalQuantity
        overview.totalLocations "Locations" totalVolume totalValue
      let sectionsHtml := concat ((categories methods).map fun (title, isMatch) =>
        let rows := overview.rows fun typeId => (services.typeDocs typeId).any isMatch
        categorySection title (assetCards (rows.map fun row =>
          assetCard services row.typeId row.quantity (some row.locationCount))))
      let body := concat [r#"<div class="page">
      <h1>Assets</h1>
      "#, stats, r#"
      <div class="section-grid">"#, sectionsHtml, r#"</div>
    </div>"#]
      renderPage "Assets" body assetsListStyle character

/-! ## The page of an item -/

/-- The card of a location, with what is owned there. -/
def locationCard (locationId quantity : ℤ) : Text :=
  let href := escape (concat ["/assets/locations/", str locationId])
  let label := locationLabelHtml locationId (services.locationInfo locationId)
  concat [r#"
          <a class="item-card" href=""#, href, r#"">
            <div class="item-card-content">
              <div class="item-title">
                <span>"#, label, r#"</span>
              </div>
              "#, itemLineHtml "Quantity" (formatNumber quantity), r#"
            </div>
          </a>
        "#]

/-- `item_detail`. -/
def itemDetail (assets : List AssetEntry) (typeId : ℤ) : Except PageError Text :=
  match Assets.itemDetail assets typeId with
  | none => throw (.notFound "No assets of this type found")
  | some owned =>
      let name := escape (data (services.typeName typeId))
      let unitVolume := unitVolume services typeId
      let adjustedPrice := ((services.marketPrices typeId).bind PriceDoc.adjustedPrice).getD 0
      let averagePrice := services.unitPrice typeId
      let totalQuantity := owned.totalQuantity
      let totalVolume := unitVolume * totalQuantity
      let totalValue := averagePrice * totalQuantity
      let icon := escape (itemIconUrl typeId)
      let header := concat [r#"
      <div class="header">
        <img class="icon" src=""#, icon, r#"" alt=""#, name, r#""
          onerror="this.style.visibility='hidden'">
        <div>
          <div class="name">"#, name, r#"</div>
          <div class="meta">"#, formatNumber unitVolume, r#" m3 / unit</div>
        </div>
      </div>
    "#]
      let marketSection := concat [r#"
      <h2>Market data</h2>
      <div class="summary">
        "#, summaryStat (formatIsk averagePrice) "Average price", r#"
        "#, summaryStat (formatIsk adjustedPrice) "Adjusted price", r#"
      </div>
    "#]
      let ownedSection := concat [r#"
      <h2>What you own</h2>
      <div class="summary">
        "#, summaryStat (formatNumber totalQuantity) "Total quantity", r#"
        "#, summaryStat (concat [formatNumber totalVolume, " m3"]) "Total volume", r#"
        "#, summaryStat (formatIsk totalValue) "Est. total value", r#"
      </div>
    "#]
      let locationCards := concat ((sortedByDesc Prod.snd owned.quantityByLocation.entries).map
        fun entry => locationCard services entry.1 entry.2)
      let locationsSection := sectionBox "Locations" locationCards
      let body := concat [r#"<div class="page">"#, header, r#"
      "#, marketSection, r#"
      "#, ownedSection, r#"
      "#, locationsSection, r#"
      <a class="btn btn-secondary back" href="/assets">Back to assets</a>
    </div>"#]
      return renderPage (concat [name, " - eve-build"]) body assetsDetailStyle character

/-! ## The page of a location -/

/-- `location_detail`. -/
def locationDetail (assets : List AssetEntry) (locationId : ℤ) : Except PageError Text :=
  match Assets.locationDetail assets locationId with
  | none => throw (.notFound "No assets at this location")
  | some held =>
      let locationHeading := locationLabelHtml locationId (services.locationInfo locationId)
      let locationTitle := locationLabelText locationId (services.locationInfo locationId)
      let entries := held.quantityByType.entries
      let totalVolume := (entries.map fun entry => unitVolume services entry.1 * entry.2).sum
      let totalValue := (entries.map fun entry => services.unitPrice entry.1 * entry.2).sum
      let cardsHtml := assetCards (entries.map fun entry =>
        assetCard services entry.1 entry.2 none)
      let stats := assetStats "" held.totalQuantity entries.length "Distinct items" totalVolume
        totalValue
      let body := concat [r#"<div class="page">
      <h1>"#, locationHeading, r#"</h1>
      "#, stats, r#"
      <div class="item-grid">"#, cardsHtml, r#"</div>
      <a class="btn btn-secondary back" href="/assets">Back to assets</a>
    </div>"#]
      return renderPage (concat [locationTitle, " - eve-build"]) body assetsListStyle character

/-! ## Where the names are escaped -/

variable {services methods character}

@[simp] theorem escapedOnce_assetCard (typeId quantity : ℤ) (locationCount : Option ℕ) :
    (assetCard services typeId quantity locationCount).html.EscapedOnce := by
  cases locationCount <;> simp [assetCard]

@[simp] theorem escapedOnce_assetCards {Item : Type} {items : List Item} {card : Item → AssetCard} :
    (assetCards (items.map card)).EscapedOnce ↔ ∀ item ∈ items, (card item).html.EscapedOnce := by
  simp [assetCards]

@[simp] theorem escapedOnce_locationCard (locationId quantity : ℤ) :
    (locationCard services locationId quantity).EscapedOnce := by
  simp [locationCard]

@[simp] theorem escapedOnce_assetStats {corpNote : Text} {totalQuantity count : ℤ}
    {countLabel : String} {totalVolume totalValue : ℚ} :
    (assetStats corpNote totalQuantity count countLabel totalVolume totalValue).EscapedOnce ↔
      corpNote.EscapedOnce := by
  simp [assetStats]

@[simp] theorem escapedOnce_categorySection {title : String} {cardsHtml : Text}
    (hcards : cardsHtml.EscapedOnce) : (categorySection title cardsHtml).EscapedOnce := by
  simp [categorySection, hcards]

theorem escapedOnce_listAssets (assets : List AssetEntry × Bool) :
    (listAssets services methods character assets).EscapedOnce := by
  unfold listAssets
  split
  · simp [escapedOnce_renderPage]
  · dsimp only
    rw [escapedOnce_renderPage]
    simp [categories]

/-- **The page of an item.**  The name is escaped once in the body, and twice in the title. -/
theorem escapedOnce_itemDetail_iff {assets : List AssetEntry} {typeId : ℤ} {page : Text}
    (hpage : itemDetail services character assets typeId = .ok page) :
    page.EscapedOnce ↔ Plain (services.typeName typeId) := by
  unfold itemDetail at hpage
  split at hpage
  · cases hpage
  · obtain rfl := Except.ok.inj hpage
    exact escapedOnce_titledPage_iff (by simp)

/-- **The page of a location**, whose title is a plain text until it is escaped. -/
theorem escapedOnce_locationDetail {assets : List AssetEntry} {locationId : ℤ} {page : Text}
    (hpage : locationDetail services character assets locationId = .ok page) :
    page.EscapedOnce := by
  unfold locationDetail at hpage
  split at hpage
  · cases hpage
  · obtain rfl := Except.ok.inj hpage
    rw [escapedOnce_renderPage]
    simp

end Handlers

end EveBuild.Pages
