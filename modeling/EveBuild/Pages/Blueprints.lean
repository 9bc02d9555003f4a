import EveBuild.Assets.Model
import EveBuild.Pages.Web

/-!
# The blueprint pages

The handlers of `app/routes/blueprints.py`.

* Volumes, prices and costs are exact rationals, and so is the product of a quantity with the
  material efficiency; `EveBuild.Pages.Buildable` has the counts for any product.
* A blueprint is shown with its own resolved location.
* The texts of a query are bytes in UTF-8, as `urlencode` writes them.
-/

namespace EveBuild.Pages

open Markup Text
open Assets (AssetEntry resolveContainerChain assetsByItemId)

structure BlueprintEntry where
  itemId : ℤ
  typeId : ℤ
  locationId : ℤ
  quantity : ℤ
  runs : ℤ
  materialEfficiency : ℤ
  timeEfficiency : ℤ

/-- `is_copy`. -/
def BlueprintEntry.isCopy (blueprint : BlueprintEntry) : Bool :=
  blueprint.quantity = -2 || blueprint.runs ≠ -1

/-- A document of `search_blueprints_by_name`. -/
structure FoundBlueprint where
  id : ℤ
  name : String
  productTypeId : Option ℤ
  techLevel : Option ℤ

def materialQuantityPerRun (baseQuantity materialEfficiency : ℤ) : ℤ :=
  max 1 ((baseQuantity : ℚ) * (1 - materialEfficiency / 100)).ceil

def techLevelLabel (isReaction isT2 : Bool) : String :=
  if isReaction then "Reaction formula" else if isT2 then "T2" else "T1"

/-! ## The list -/

def filterOptions : List String := ["original", "copy", "t2"]

def sortColumns : List String := ["name", "me", "te"]

/-- `_SORT_LABELS`. -/
def sortLabel (column : String) : String :=
  if column = "me" then "ME" else if column = "te" then "TE" else "Blueprint"

/-- A byte as `urlencode` writes it. -/
def quoteByte (byte : UInt8) : String :=
  let c := Char.ofNat byte.toNat
  if byte < 128 ∧ (c.isAlphanum ∨ c ∈ ['_', '.', '-', '~']) then .singleton c
  else if c = ' ' then "+"
  else .ofList ['%', (Nat.digitChar (byte.toNat / 16)).toUpper,
    (Nat.digitChar (byte.toNat % 16)).toUpper]

def quotePlus (text : String) : String := .join (text.toUTF8.toList.map quoteByte)

def urlencode (params : List (String × String)) : String :=
  "&".intercalate (params.map fun (name, value) => quotePlus name ++ "=" ++ quotePlus value)

/-- `_query_string`. -/
def queryString (selected : List String) (sort direction location search : String) : String :=
  urlencode ([("f", "1")] ++ selected.map (fun value => ("show", value)) ++
    [("sort", sort), ("dir", direction)] ++
    (if location = "" then [] else [("location", location)]) ++
    (if search = "" then [] else [("search", search)]))

/-- `_Row`. -/
structure BlueprintRow where
  name : Text
  searchName : String
  isCopy : Bool
  isT2 : Bool
  me : ℤ
  te : ℤ
  locationId : ℤ
  html : Text

/-- The `params` of `list_blueprints`. -/
structure BlueprintFilter where
  f : Option String
  shown : List String
  sort : String
  dir : String
  location : String
  search : String

/-- `selected`, in the order of the form. -/
def BlueprintFilter.selected (filter : BlueprintFilter) : List String :=
  if filter.f.isSome then filterOptions.filter (· ∈ filter.shown) else ["original"]

/-- The `sort` that is used. -/
def BlueprintFilter.column (filter : BlueprintFilter) : String :=
  if filter.sort ∈ sortColumns then filter.sort else "name"

def BlueprintFilter.direction (filter : BlueprintFilter) : String :=
  if filter.dir ∈ ["asc", "desc"] then filter.dir else "asc"

/-- `_sort_link`, for the filter that is used. -/
def sortLink (filter : BlueprintFilter) (column : String) : Text :=
  let active := column = filter.column
  let nextDir := if active ∧ filter.direction = "asc" then "desc" else "asc"
  let arrow :=
    if ¬active then "" else if filter.direction = "asc" then " &#9650;" else " &#9660;"
  let href := escape (concat ["?",
    data (queryString filter.selected column nextDir filter.location filter.search)])
  let cssClass := if active then r#" class="active""# else ""
  concat [r#"<a href=""#, href, "\"", cssClass, ">", sortLabel column, arrow, "</a>"]

/-- `_render_filters_form`, for the filter that is used. -/
def renderFiltersForm (methods : StringMethods) (filter : BlueprintFilter)
    (locationOptions : List (ℤ × Text)) : Text :=
  let checkboxesHtml := concat (filterOptions.map fun option : String => concat [r#"<label>
          <input type="checkbox" name="show" value=""#, option, r#""
            "#, if option ∈ filter.selected then "checked" else "",
    r#" onchange="this.form.submit()">
          "#, if option ≠ "t2" then methods.capitalize option else "T2", r#"
        </label>"#])
  let locationOptionTags := concat (locationOptions.map fun (locId, locName) =>
    concat [r#"<option value=""#, escape (str locId), r#"" "#,
      if str locId = filter.location then "selected" else "", ">", escape locName, "</option>"])
  concat [r#"
      <form method="get" class="filters">
        <input type="hidden" name="f" value="1">
        <input type="hidden" name="sort" value=""#, escape (data filter.column), r#"">
        <input type="hidden" name="dir" value=""#, escape (data filter.direction), r#"">
        <input type="text" name="search" value=""#, escape (data filter.search),
    r#"" placeholder="Search by name">
        "#, checkboxesHtml, r#"
        <select name="location" onchange="this.form.submit()">
          <option value="">All locations</option>
          "#, locationOptionTags, r#"
        </select>
      </form>
    "#]

/-- `_LIST_STYLE`. -/
def blueprintsListStyle : List String := ["/static/card.css", "/static/blueprints-list.css"]

/-- `_DETAIL_STYLE`. -/
def blueprintsDetailStyle : List String := ["/static/card.css", "/static/blueprints-detail.css"]

section Handlers

variable (services : Services) (methods : StringMethods) (character : Option CharacterDocument)

/-- The body of `for bp in blueprints`. -/
def blueprintRow (resolvedLocationId : ℤ) (bp : BlueprintEntry) : BlueprintRow :=
  let rawName := services.typeName bp.typeId
  let name := escape (data rawName)
  let isT2 : Bool := (services.typeDocs bp.typeId).bind TypeDoc.techLevel = some 2
  let sub : Text :=
    if bp.isCopy then concat ["Copy &middot; ", str bp.runs, " runs"] else "Original"
  let productTypeId := (services.blueprintDocs bp.typeId).bind BlueprintDoc.productTypeId
  let meGauge := gaugeCellHtml (100 * bp.materialEfficiency / 10)
    (some (concat [str bp.materialEfficiency, "/10"]))
  let teGauge := gaugeCellHtml (100 * bp.timeEfficiency / 20)
    (some (concat [str bp.timeEfficiency, "/20"]))
  let locationLabel := locationLabelHtml resolvedLocationId
    (services.locationInfo resolvedLocationId)
  let itemHref := escape (concat ["/blueprints/", str bp.itemId])
  let bgIconUrl := escape (itemIconUrl (productTypeId.getD bp.typeId))
  { name
    searchName := methods.lower rawName
    isCopy := bp.isCopy
    isT2
    me := bp.materialEfficiency
    te := bp.timeEfficiency
    locationId := resolvedLocationId
    html := concat [r#"
          <a class="item-card" href=""#, itemHref, r#"">
            <div class="item-card-content">
              <div class="item-title">
                <img class="item-title-icon" src=""#, bgIconUrl, r#"" alt=""
                  onerror="this.style.visibility='hidden'">
                "#, name, r#"
              </div>
              "#, itemLineHtml "Status" sub, r#"
              "#, itemLineHtml "Location" locationLabel, r#"
              "#, itemLineHtml "ME" meGauge, r#"
              "#, itemLineHtml "TE" teGauge, r#"
            </div>
          </a>
        "#] }

/-- The condition of `visible_rows`. -/
def BlueprintRow.isVisible (filter : BlueprintFilter) (row : BlueprintRow) : Bool :=
  let searchQuery := methods.lower (methods.strip filter.search)
  decide ((if row.isCopy then "copy" else "original") ∈ filter.selected) &&
    (!row.isT2 || decide ("t2" ∈ filter.selected)) &&
    (filter.location = "" || str row.locationId = filter.location) &&
    (searchQuery = "" || isIn searchQuery row.searchName)

/-- `visible_rows.sort`. -/
def sortRows (filter : BlueprintFilter) (rows : List BlueprintRow) : List BlueprintRow :=
  let sorted {Key : Type} [LE Key] [DecidableLE Key] (key : BlueprintRow → Key) :=
    if filter.direction = "desc" then sortedByDesc key rows else sortedBy key rows
  if filter.column = "me" then sorted BlueprintRow.me
  else if filter.column = "te" then sorted BlueprintRow.te
  else sorted fun row => methods.lower row.name.toString

def catalogLink : Text :=
  concat [r#"<a class="btn btn-secondary catalog-link" href="/blueprints/catalog">"#,
    "Search all blueprints</a>"]

/-- `location_options`, from the distinct locations. -/
def locationOptions (locIds : List ℤ) : List (ℤ × Text) :=
  sortedBy (fun option : ℤ × Text => methods.lower option.2.toString)
    (locIds.map fun locId => (locId, locationLabelText locId (services.locationInfo locId)))

/-- `sections` of `list_blueprints`. -/
def blueprintSections (visibleRows : List BlueprintRow) : Text :=
  if visibleRows.isEmpty then r#"<p class="empty">No blueprints match the current filters.</p>"#
  else concat [r#"
          <div class="item-grid">
            "#, concat (visibleRows.map BlueprintRow.html), r#"
          </div>
        "#]

/-- `list_blueprints`, with the merged lists and whether they include the corporation's. -/
def listBlueprints (blueprints : List BlueprintEntry × Bool) (assets : List AssetEntry × Bool)
    (filter : BlueprintFilter) : Text :=
  if blueprints.1.isEmpty then
    let body := concat [r#"<div class="page"><h1>Blueprints</h1>"#, catalogLink,
      renderFiltersForm methods filter [], r#"<p class="empty">No blueprints found.</p></div>"#]
    renderPage "Blueprints" body blueprintsListStyle character
  else
    let byItemId := assetsByItemId assets.1
    let resolvedLocation := fun bp : BlueprintEntry => resolveContainerChain bp.locationId byItemId
    let parsedRows := blueprints.1.map fun bp =>
      blueprintRow services methods (resolvedLocation bp) bp
    let filtersForm := renderFiltersForm methods filter
      (locationOptions services methods (blueprints.1.map resolvedLocation).dedup)
    let visibleRows := sortRows methods filter
      (parsedRows.filter (BlueprintRow.isVisible methods filter))
    let sortLinks := concat ["Sort by: ",
      join " &middot; " (sortColumns.map (sortLink filter))]
    let corpNote : Text :=
      if blueprints.2 || assets.2 then
        r#"<p class="empty">Includes corporation blueprints and/or assets.</p>"#
      else ""
    let body := concat [r#"<div class="page">
      <h1>Blueprints</h1>
      "#, catalogLink, r#"
      "#, corpNote, r#"
      "#, filtersForm, r#"
      "#, concat [r#"<div class="sort-links">"#, sortLinks, "</div>"], r#"
      "#, blueprintSections visibleRows, r#"
    </div>"#]
    renderPage "Blueprints" body blueprintsListStyle character

/-! ## The catalog -/

/-- `blueprint_catalog`, with what the search for a query finds. -/
def blueprintCatalog (search : String → List FoundBlueprint) (q : String) : Text :=
  let query := methods.strip q
  let card := fun doc : FoundBlueprint =>
    let bgTypeId := (doc.productTypeId.filter (· ≠ 0)).getD doc.id
    let bgIconUrl := escape (itemIconUrl bgTypeId)
    concat [r#"
                      <a class="item-card" href="/blueprints/catalog/"#, str doc.id, r#"">
                        <div class="item-card-content">
                          <div class="item-title">
                            <img class="item-title-icon" src=""#, bgIconUrl, r#"" alt=""
                              onerror="this.style.visibility='hidden'">
                            "#, escape (data doc.name), r#"
                          </div>
                          "#, if doc.techLevel = some 2 then itemLineHtml "Tech level" "T2" else "",
      r#"
                        </div>
                      </a>
                    "#]
  let resultsHtml : Text :=
    if 2 ≤ query.length then
      if search query = [] then r#"<p class="empty">No blueprints match your search.</p>"#
      else concat [r#"<div class="item-grid">"#, concat ((search query).map card), "</div>"]
    else if query ≠ "" then
      r#"<p class="empty">Keep typing - search needs at least 2 characters.</p>"#
    else ""
  let searchForm := concat [r#"
      <form method="get" class="filters">
        <input type="text" name="q" value=""#, escape (data query), r#""
          placeholder="Search all blueprints by name" autofocus>
      </form>
    "#]
  let body := concat [r#"<div class="page">
      <h1>Blueprint Catalog</h1>
      "#, searchForm, r#"
      "#, resultsHtml, r#"
    </div>"#]
  renderPage "Blueprint Catalog" body blueprintsListStyle character

/-- `price_figures`: the cost of a run and, where a product is known, what it is worth. -/
def priceFigures (costPerRun : ℚ) (outputPerRun : Option ℚ) : Text :=
  match outputPerRun with
  | none => summaryStat (formatIsk costPerRun) "Cost / run"
  | some outputPerRun => concat [summaryStat (formatIsk costPerRun) "Cost / run",
      summaryStat (formatIsk outputPerRun) "Output / run",
      summaryStat (formatIsk (outputPerRun - costPerRun)) "Profit / run"]

/-- `catalog_blueprint_detail`. -/
def catalogBlueprintDetail (typeId : ℤ) : Except PageError Text :=
  match services.blueprintDocs typeId, services.typeDocs typeId with
  | some sdeBlueprint, some blueprintTypeDoc =>
      let blueprintName := escape (data (services.typeName typeId))
      let isReaction : Bool := sdeBlueprint.activityId = some 11
      let isT2 : Bool := blueprintTypeDoc.techLevel = some 2
      let blueprintIconUrl := escape (iconUrl typeId false)
      let pageTitle := concat [blueprintName, " - eve-build"]
      let productQuantity := sdeBlueprint.productQuantity.getD 1
      let costPerRun := (sdeBlueprint.materials.map fun material =>
        material.quantity * services.unitPrice material.typeId).sum
      let productName := match sdeBlueprint.productTypeId with
        | none => ""
        | some productTypeId => ((services.typeDocs productTypeId).bind TypeDoc.name).getD ""
      let figures := priceFigures costPerRun (sdeBlueprint.productTypeId.map fun productTypeId =>
        productQuantity * services.unitPrice productTypeId)
      let producedText : Text :=
        if productName ≠ "" then
          concat ["&middot; Produces ", escape (data productName), " &times;", str productQuantity]
        else ""
      let techLevelFlagClass := if isT2 || isReaction then "flag-build" else "flag-buy"
      let header := concat [r#"
      <div class="header">
        <img class="icon" src=""#, blueprintIconUrl, r#"" alt=""#, blueprintName, r#""
          onerror="this.style.visibility='hidden'">
        <div>
          <div class="name">"#, blueprintName, r#"
            <span class="flag "#, techLevelFlagClass, r#"">
              "#, escape (techLevelLabel isReaction isT2), r#"
            </span>
          </div>
          <div class="meta">"#, producedText, r#"</div>
        </div>
      </div>
    "#]
      let materialsCards := concat (sdeBlueprint.materials.map fun material => concat [r#"
          <div class="item-card">
            <img class="item-card-center-icon" src=""#, escape (itemIconUrl material.typeId), r#""
              alt="" aria-hidden="true" onerror="this.style.visibility='hidden'">
            <div class="item-card-content">
              <div class="item-title">"#, escape (data (services.typeName material.typeId)),
        r#"</div>
              "#, itemLineHtml "Quantity / run" (str material.quantity), r#"
            </div>
          </div>
        "#])
      let materialsSection := sectionBox "Materials" materialsCards
      let buildCta : Text := match sdeBlueprint.productTypeId with
        | some productTypeId => concat [r#"<a class="btn btn-primary" href="/build/items/"#,
            str productTypeId, r#"">Build this</a>"#]
        | none => ""
      let body := concat [r#"<div class="page">"#, header, r#"
      <div class="summary">"#, figures, r#"</div>
      "#, buildCta, r#"
      "#, materialsSection, r#"
      <a class="btn btn-secondary back" href="/blueprints/catalog">Back to search</a>
    </div>"#]
      return renderPage pageTitle body blueprintsDetailStyle character
  | _, _ => throw (.notFound "Blueprint not found")

/-! ## A blueprint of the character -/

/-- `str(name or f"Type {type_id}")`: here an empty name is no name, either. -/
def nameOrType (typeId : ℤ) : String :=
  (((services.typeDocs typeId).bind TypeDoc.name).filter (· ≠ "")).getD ("Type " ++ str typeId)

/-- `header` of `blueprint_detail`, the same in both branches but for the indentation. -/
def blueprintHeader (blueprint : BlueprintEntry) (blueprintName locationLabel : Text) : Text :=
  let blueprintIconUrl := escape (iconUrl blueprint.typeId blueprint.isCopy)
  concat [r#"
      <div class="header">
        <img class="icon" src=""#, blueprintIconUrl, r#"" alt=""#, blueprintName, r#""
          onerror="this.style.visibility='hidden'">
        <div>
          <div class="name">"#, blueprintName, r#"</div>
          <div class="meta">ME "#, str blueprint.materialEfficiency, " / TE ",
    str blueprint.timeEfficiency, r#"
            &middot; "#, if blueprint.isCopy then "Copy" else "Original", r#"
            "#, if blueprint.isCopy then concat ["(", str blueprint.runs, " runs)"] else "",
    r#"</div>
          <div class="meta">"#, locationLabel, r#"</div>
        </div>
      </div>
    "#]

/-- A quantity that an asset list has, and how much of it is missing. -/
def stockCell (owned needed : ℤ) : Text :=
  let missing := max 0 (needed - owned)
  if missing ≠ 0 then
    concat [str owned, r#" <span class="short">(-"#, str missing, ")</span>"]
  else str owned

/-- The card of a material of `blueprint_detail`. -/
def materialCard (onSiteTotals globalTotals : Dict ℤ ℤ) (materialEfficiency : ℤ)
    (material : Migrations.Quantity) : Text :=
  let needed := materialQuantityPerRun material.quantity materialEfficiency
  let onSiteCell := stockCell (onSiteTotals.getD material.typeId 0) needed
  let globalCell := stockCell (globalTotals.getD material.typeId 0) needed
  let name := escape (data (nameOrType services material.typeId))
  concat [r#"
          <div class="item-card">
            <img class="item-card-center-icon" src=""#, escape (itemIconUrl material.typeId), r#""
              alt="" aria-hidden="true" onerror="this.style.visibility='hidden'">
            <div class="item-card-content">
              <div class="item-title">"#, name, r#"</div>
              "#, itemLineHtml "Needed / run" (str needed), r#"
              "#, itemLineHtml "On-site" onSiteCell, r#"
              "#, itemLineHtml "All assets" globalCell, r#"
            </div>
          </div>
        "#]

/-- How many runs the totals are enough for. -/
def buildable (totals : Dict ℤ ℤ) (materialEfficiency : ℤ)
    (materials : List Migrations.Quantity) : ℤ :=
  ((materials.map fun material => totals.getD material.typeId 0 /
    materialQuantityPerRun material.quantity materialEfficiency).min?).getD 0

/-- `blueprint_detail`. -/
def blueprintDetail (blueprints : List BlueprintEntry) (assets : List AssetEntry) (itemId : ℤ) :
    Except PageError Text :=
  match blueprints.find? fun bp => bp.itemId = itemId with
  | none => throw (.notFound "Blueprint not found")
  | some blueprint =>
      let resolvedLocationId := resolveContainerChain blueprint.locationId (assetsByItemId assets)
      let locationLabel := locationLabelHtml resolvedLocationId
        (services.locationInfo resolvedLocationId)
      let blueprintName := escape (data (nameOrType services blueprint.typeId))
      let header := blueprintHeader blueprint blueprintName locationLabel
      let pageTitle := concat [blueprintName, " - eve-build"]
      match services.blueprintDocs blueprint.typeId with
      | none =>
          let body := concat [r#"<div class="page">"#, header, r#"
          <p class="empty">No manufacturing data available for this blueprint.</p>
          <a class="btn btn-secondary back" href="/blueprints">Back to blueprints</a>
        </div>"#]
          return renderPage pageTitle body blueprintsDetailStyle character
      | some sdeBlueprint =>
          let materials := sdeBlueprint.materials
          let productQuantity := sdeBlueprint.productQuantity.getD 1
          let costPerRun := (materials.map fun material =>
            materialQuantityPerRun material.quantity blueprint.materialEfficiency *
              services.unitPrice material.typeId).sum
          let figures := priceFigures costPerRun
            (sdeBlueprint.productTypeId.map fun productTypeId =>
              productQuantity * services.unitPrice productTypeId)
          let globalTotals := Dict.sumBy AssetEntry.typeId AssetEntry.quantity assets
          let onSiteTotals := Dict.sumBy AssetEntry.typeId AssetEntry.quantity
            (assets.filter fun asset => asset.locationId = blueprint.locationId)
          let materialsSection := sectionBox "Materials" (concat (materials.map
            (materialCard services onSiteTotals globalTotals blueprint.materialEfficiency)))
          let onSiteBuildable := buildable onSiteTotals blueprint.materialEfficiency materials
          let globalBuildable := buildable globalTotals blueprint.materialEfficiency materials
          let body := concat [r#"<div class="page">"#, header, r#"
      <div class="summary">
        "#, summaryStat (str onSiteBuildable) "Buildable on-site", r#"
        "#, summaryStat (str globalBuildable) "Buildable (all assets)", r#"
        "#, figures, r#"
      </div>
      "#, materialsSection, r#"
      <a class="btn btn-secondary back" href="/blueprints">Back to blueprints</a>
    </div>"#]
          return renderPage pageTitle body blueprintsDetailStyle character

/-! ## Where the names are escaped -/

variable {services methods character}

@[simp] theorem escapedOnce_sortLink (filter : BlueprintFilter) (column : String) :
    (sortLink filter column).EscapedOnce := by
  simp [sortLink]

theorem escapedOnce_renderFiltersForm {filter : BlueprintFilter}
    {locationOptions : List (ℤ × Text)}
    (hoptions : ∀ option ∈ locationOptions, option.2.escape.EscapedOnce) :
    (renderFiltersForm methods filter locationOptions).EscapedOnce := by
  simp only [renderFiltersForm, escapedOnce_concat, List.forall_mem_cons, List.forall_mem_map]
  simpa using fun locId locName hoption => hoptions (locId, locName) hoption

theorem mem_sortRows {filter : BlueprintFilter} {rows : List BlueprintRow} {row : BlueprintRow} :
    row ∈ sortRows methods filter rows ↔ row ∈ rows := by
  unfold sortRows
  split_ifs <;> simp

@[simp] theorem escapedOnce_blueprintRow (resolvedLocationId : ℤ) (bp : BlueprintEntry) :
    (blueprintRow services methods resolvedLocationId bp).html.EscapedOnce := by
  simp [blueprintRow]

theorem escapedOnce_blueprintSections {rows : List BlueprintRow}
    (hrows : ∀ row ∈ rows, row.html.EscapedOnce) : (blueprintSections rows).EscapedOnce := by
  simpa [blueprintSections] using fun _ => hrows

theorem escapedOnce_listBlueprints (blueprints : List BlueprintEntry × Bool)
    (assets : List AssetEntry × Bool) (filter : BlueprintFilter) :
    (listBlueprints services methods character blueprints assets filter).EscapedOnce := by
  unfold listBlueprints
  split
  · simp [escapedOnce_renderPage, catalogLink, escapedOnce_renderFiltersForm]
  · dsimp only
    rw [escapedOnce_renderPage]
    refine ⟨by simp, ?_⟩
    -- the form escapes the labels of the locations, which are plain texts
    have hform : ∀ locIds, (renderFiltersForm methods filter
        (locationOptions services methods locIds)).EscapedOnce := by
      refine fun locIds => escapedOnce_renderFiltersForm fun option hoption => ?_
      obtain ⟨locId, -, rfl⟩ := List.mem_map.mp (mem_sortedBy.mp hoption)
      exact escapedOnce_escape_locationLabelText locId _
    have hsections : ∀ rows : List BlueprintRow, (∀ row ∈ rows, row.html.EscapedOnce) →
        (blueprintSections (sortRows methods filter
          (rows.filter (BlueprintRow.isVisible methods filter)))).EscapedOnce := fun rows hrows =>
      escapedOnce_blueprintSections fun row hrow =>
        hrows row (List.mem_of_mem_filter (mem_sortRows.mp hrow))
    simp [catalogLink, hform, hsections, escapedOnce_join]

theorem escapedOnce_blueprintCatalog (search : String → List FoundBlueprint) (q : String) :
    (blueprintCatalog methods character search q).EscapedOnce := by
  unfold blueprintCatalog
  rw [escapedOnce_renderPage]
  simp

@[simp] theorem escapedOnce_priceFigures (costPerRun : ℚ) (outputPerRun : Option ℚ) :
    (priceFigures costPerRun outputPerRun).EscapedOnce := by
  cases outputPerRun <;> simp [priceFigures]

/-- **A blueprint of the catalog.**  The name is escaped once in the body, and twice in the
title. -/
theorem escapedOnce_catalogBlueprintDetail_iff {typeId : ℤ} {page : Text}
    (hpage : catalogBlueprintDetail services character typeId = .ok page) :
    page.EscapedOnce ↔ Plain (services.typeName typeId) := by
  unfold catalogBlueprintDetail at hpage
  split at hpage
  · rename_i sdeBlueprint blueprintTypeDoc _ _
    obtain rfl := Except.ok.inj hpage
    refine escapedOnce_titledPage_iff ?_
    cases sdeBlueprint.productTypeId <;> simp
  · cases hpage

@[simp] theorem escapedOnce_blueprintHeader {blueprint : BlueprintEntry}
    {blueprintName locationLabel : Text} :
    (blueprintHeader blueprint blueprintName locationLabel).EscapedOnce ↔
      blueprintName.EscapedOnce ∧ locationLabel.EscapedOnce := by
  simp [blueprintHeader]

@[simp] theorem escapedOnce_materialCard (onSiteTotals globalTotals : Dict ℤ ℤ)
    (materialEfficiency : ℤ) (material : Migrations.Quantity) :
    (materialCard services onSiteTotals globalTotals materialEfficiency material).EscapedOnce := by
  simp [materialCard, stockCell]

/-- **A blueprint of the character.**  Here, too, the name is escaped twice in the title. -/
theorem escapedOnce_blueprintDetail_iff {blueprints : List BlueprintEntry}
    {assets : List AssetEntry} {itemId : ℤ} {page : Text}
    (hpage : blueprintDetail services character blueprints assets itemId = .ok page) :
    page.EscapedOnce ↔ ∀ bp ∈ blueprints.find? (fun bp => bp.itemId = itemId),
      Plain (nameOrType services bp.typeId) := by
  unfold blueprintDetail at hpage
  split at hpage
  · cases hpage
  · rename_i blueprint hfound
    rw [hfound]
    simp only [Option.mem_some_iff, forall_eq']
    dsimp only at hpage
    split at hpage
    · -- a blueprint without materials in the dumps
      obtain rfl := Except.ok.inj hpage
      exact escapedOnce_titledPage_iff (by simp)
    · obtain rfl := Except.ok.inj hpage
      exact escapedOnce_titledPage_iff (by simp)

end Handlers

end EveBuild.Pages
