import EveBuild.Pages.Elements
import EveBuild.Pages.Home

/-!
# The pages as documents

Every page is a document, whatever the services return, and every link on it is one of those that
its lemma has a hypothesis for.
-/

set_option maxRecDepth 20000

namespace EveBuild.Pages

open Markup Text
open Assets (AssetEntry resolveContainerChain assetsByItemId)
open Migrations (Quantity SchematicDocument)

variable {leads : String → Prop} {services : Services} {methods : StringMethods}
  {character : Option CharacterDocument}

/-- A link to a number. -/
theorem toString_concat_pair (first second : String) :
    (concat [first, second]).toString = first ++ second := by
  simp [toString_concat, String.join_cons]

theorem leads_of_public (hlinks : ∀ href ∈ linksFor character, leads href) :
    ∀ href ∈ publicLinks, leads href := by
  intro href hhref
  refine hlinks href ?_
  unfold linksFor
  split_ifs
  · exact List.mem_append_left _ hhref
  · exact hhref

theorem leads_of_character (hlinks : ∀ href ∈ characterLinks, leads href) :
    ∀ href ∈ linksFor character, leads href := by
  intro href hhref
  unfold linksFor at hhref
  split_ifs at hhref
  · exact hlinks href hhref
  · exact hlinks href (List.mem_append_left _ hhref)

/-- The stylesheets of the pages. -/
theorem plain_stylesheets {stylesheets : List String} (hstylesheets : stylesheets ∈
      [blueprintsListStyle, blueprintsDetailStyle, assetsListStyle, assetsDetailStyle,
        buildListStyle, buildDetailStyle, planetaryListStyle, planetaryDetailStyle, piListStyle,
        piDetailStyle]) : ∀ href ∈ stylesheets, Plain href := by
  have hcard : Plain "/static/card.css" := plain_of_chars rfl (by decide)
  revert stylesheets
  simp only [blueprintsListStyle, blueprintsDetailStyle, assetsListStyle, assetsDetailStyle,
    buildListStyle, buildDetailStyle, planetaryListStyle, planetaryDetailStyle, piListStyle,
    piDetailStyle, List.forall_mem_cons, hcard, true_and]
  refine ⟨⟨?_, by simp⟩, ⟨?_, by simp⟩, ⟨?_, by simp⟩, ⟨?_, by simp⟩, ⟨?_, by simp⟩,
    ⟨?_, by simp⟩, ⟨?_, by simp⟩, ⟨?_, by simp⟩, ⟨?_, by simp⟩, ⟨?_, by simp⟩, by simp⟩ <;>
    exact plain_of_chars rfl (by decide)

theorem plain_stylesheet {stylesheet : String} (hstylesheet : stylesheet ∈
      ["/static/jobs-detail.css", "/static/health-login.css", "/static/health-dashboard.css",
        "/static/settings.css"]) : ∀ href ∈ [stylesheet], Plain href := by
  rw [List.forall_mem_singleton]
  revert stylesheet
  simp only [List.forall_mem_cons]
  refine ⟨?_, ?_, ?_, ?_, by simp⟩ <;> exact plain_of_chars rfl (by decide)

/-! ## The blueprint pages -/

theorem wellFormed_sortLink {filter : BlueprintFilter} {column : String}
    (hlabel : Plain (sortLabel column)) (hleads : ∀ query, leads ("?" ++ query)) :
    WellFormed leads (sortLink filter column) := by
  have hhref (query : String) : (concat ["?", data query]).toString = "?" ++ query := by
    simp [toString_concat, String.join_cons]
  unfold sortLink
  dsimp only
  split_ifs
  all_goals
    exact wellFormed_concat (.markup rfl <| .link (hhref _) (hleads _) <| .markup rfl <|
      .markup rfl <| .markup rfl <| .fragment (wellFormed_of_plain hlabel) <| .markup rfl <|
      .markup rfl .nil) (by decide)

/-- What `str.capitalize` makes of the names of the filters has nothing to escape. -/
def CapitalizesPlainly (methods : StringMethods) : Prop :=
  ∀ option ∈ filterOptions, Plain (methods.capitalize option)

theorem plain_of_mem_filterOptions {option : String} (hoption : option ∈ filterOptions) :
    Plain option := by
  simp only [filterOptions, List.mem_cons, List.not_mem_nil, or_false] at hoption
  rcases hoption with rfl | rfl | rfl <;> exact plain_of_chars rfl (by decide)

theorem wellFormed_renderFiltersForm {filter : BlueprintFilter}
    {locationOptions : List (ℤ × Text)} (hcapitalize : CapitalizesPlainly methods) :
    WellFormed leads (renderFiltersForm methods filter locationOptions) := by
  have hcheckboxes : WellFormed leads (concat (filterOptions.map fun option : String =>
      concat [r#"<label>
          <input type="checkbox" name="show" value=""#, option, r#""
            "#, if option ∈ filter.selected then "checked" else "",
        r#" onchange="this.form.submit()">
          "#, if option ≠ "t2" then methods.capitalize option else "T2", r#"
        </label>"#])) := by
    refine wellFormed_concat_map fun option hoption => ?_
    have hvalue := inValue_of_plain (plain_of_mem_filterOptions hoption)
    have hlabel : WellFormed leads (markup (methods.capitalize option)) :=
      wellFormed_of_plain (hcapitalize option hoption)
    split_ifs
    · exact wellFormed_concat (.markup rfl <| .value hvalue <| .markup rfl <| .markup rfl <|
        .markup rfl <| .fragment hlabel <| .markup rfl .nil) (by decide)
    · exact wellFormed_concat (.markup rfl <| .value hvalue <| .markup rfl <| .markup rfl <|
        .markup rfl <| .markup rfl <| .markup rfl .nil) (by decide)
    · exact wellFormed_concat (.markup rfl <| .value hvalue <| .markup rfl <| .markup rfl <|
        .markup rfl <| .fragment hlabel <| .markup rfl .nil) (by decide)
    · exact wellFormed_concat (.markup rfl <| .value hvalue <| .markup rfl <| .markup rfl <|
        .markup rfl <| .markup rfl <| .markup rfl .nil) (by decide)
  have hlocations : WellFormed leads (concat (locationOptions.map fun option =>
      concat [r#"<option value=""#, escape (str option.1), r#"" "#,
        if str option.1 = filter.location then "selected" else "", ">", escape option.2,
        "</option>"])) := by
    refine wellFormed_concat_map fun option _ => ?_
    split_ifs
    all_goals
      exact wellFormed_concat (.markup rfl <| .value (inValue_escape _) <| .markup rfl <|
        .markup rfl <| .markup rfl <| .fragment (wellFormed_escape _) <| .markup rfl .nil)
        (by decide)
  exact wellFormed_concat (.markup rfl <| .value (inValue_escape _) <| .markup rfl <|
    .value (inValue_escape _) <| .markup rfl <| .value (inValue_escape _) <| .markup rfl <|
    .fragment hcheckboxes <| .markup rfl <| .fragment hlocations <| .markup rfl .nil)
    (by decide)

theorem wellFormed_blueprintRow {resolvedLocationId : ℤ} {bp : BlueprintEntry}
    (hleads : leads ("/blueprints/" ++ str bp.itemId)) :
    WellFormed leads (blueprintRow services methods resolvedLocationId bp).html := by
  have hsub : WellFormed leads
      (if bp.isCopy then concat ["Copy &middot; ", str bp.runs, " runs"] else "Original") := by
    split_ifs
    · exact wellFormed_concat (.markup rfl <| .fragment (wellFormed_str _) <| .markup rfl .nil)
        (by decide)
    · exact wellFormed_markup rfl (by decide)
  have hgauge (percentage : ℚ) (level : ℤ) {most : String} (hmost : Plain most) :
      WellFormed leads (gaugeCellHtml percentage (some (concat [str level, most]))) := by
    refine wellFormed_gaugeCellHtml fun text htext => ?_
    obtain rfl := Option.some_inj.mp htext
    exact wellFormed_concat (.fragment (wellFormed_str level) <|
      .fragment (wellFormed_of_plain hmost) .nil) (by decide)
  exact wellFormed_concat (.markup rfl <| .link (toString_concat_pair ..) hleads <| .markup rfl <|
    .value (inValue_escape _) <| .markup rfl <| .fragment (wellFormed_escape _) <| .markup rfl <|
    .fragment (wellFormed_itemLineHtml hsub) <| .markup rfl <|
    .fragment (wellFormed_itemLineHtml (wellFormed_locationLabelHtml ..)) <| .markup rfl <|
    .fragment (wellFormed_itemLineHtml (hgauge _ _ (plain_of_chars rfl (by decide)))) <|
    .markup rfl <|
    .fragment (wellFormed_itemLineHtml (hgauge _ _ (plain_of_chars rfl (by decide)))) <|
    .markup rfl .nil) (by decide)

theorem isDocument_listBlueprints {blueprints : List BlueprintEntry × Bool}
    {assets : List AssetEntry × Bool} {filter : BlueprintFilter}
    (hcapitalize : CapitalizesPlainly methods) (hlinks : ∀ href ∈ characterLinks, leads href)
    (hsort : ∀ query, leads ("?" ++ query))
    (hleads : ∀ bp ∈ blueprints.1, leads ("/blueprints/" ++ str bp.itemId)) :
    IsDocument leads (listBlueprints services methods character blueprints assets filter) := by
  have hcatalog : WellFormed leads catalogLink :=
    wellFormed_concat_of_links hlinks (.markup rfl <| .markup rfl .nil) (by decide)
  have hform (locationOptions : List (ℤ × Text)) :
      WellFormed leads (renderFiltersForm methods filter locationOptions) :=
    wellFormed_renderFiltersForm hcapitalize
  unfold listBlueprints
  split
  · have hbody : WellFormed leads (concat [r#"<div class="page"><h1>Blueprints</h1>"#, catalogLink,
        renderFiltersForm methods filter [],
        r#"<p class="empty">No blueprints found.</p></div>"#]) :=
      wellFormed_concat (.markup rfl <| .fragment hcatalog <| .fragment (hform _) <|
        .markup rfl .nil) (by decide)
    exact document_renderPage (leads_of_character hlinks) hbody (plain_stylesheets (by simp))
  · have hnote : WellFormed leads (if blueprints.2 || assets.2 then
        (r#"<p class="empty">Includes corporation blueprints and/or assets.</p>"# : Text)
        else "") := by
      split_ifs
      · exact wellFormed_markup rfl (by decide)
      · exact wellFormed_empty
    have hsortLinks : WellFormed leads (concat ["Sort by: ",
        join " &middot; " (sortColumns.map (sortLink filter))]) := by
      have hjoin : WellFormed leads (join " &middot; " (sortColumns.map (sortLink filter))) := by
        refine wellFormed_join (wellFormed_markup rfl (by decide)) ?_
        refine List.forall_mem_map.mpr fun column hcolumn => wellFormed_sortLink ?_ hsort
        simp only [sortColumns, List.mem_cons, List.not_mem_nil, or_false] at hcolumn
        rcases hcolumn with rfl | rfl | rfl <;> exact plain_of_chars rfl (by decide)
      exact wellFormed_concat (.markup rfl <| .fragment hjoin .nil) (by decide)
    have hsections (rows : List BlueprintRow) (hrows : ∀ row ∈ rows, WellFormed leads row.html) :
        WellFormed leads (blueprintSections rows) := by
      unfold blueprintSections
      split_ifs
      · exact wellFormed_markup rfl (by decide)
      · exact wellFormed_concat (.markup rfl <| .fragment (wellFormed_concat_map hrows) <|
          .markup rfl .nil) (by decide)
    refine document_renderPage (leads_of_character hlinks) ?_ (plain_stylesheets (by simp))
    refine wellFormed_concat (.markup rfl <| .fragment hcatalog <| .markup rfl <|
      .fragment hnote <| .markup rfl <| .fragment (hform _) <| .markup rfl <|
      .fragment (wellFormed_concat (.markup rfl <| .fragment hsortLinks <| .markup rfl .nil)
        (by decide)) <| .markup rfl <| .fragment (hsections _ ?_) <| .markup rfl .nil)
      (by decide)
    intro row hrow
    rw [mem_sortRows, List.mem_filter, List.mem_map] at hrow
    obtain ⟨⟨bp, hbp, rfl⟩, -⟩ := hrow
    exact wellFormed_blueprintRow (hleads bp hbp)

theorem isDocument_blueprintCatalog {search : String → List FoundBlueprint} {q : String}
    (hlinks : ∀ href ∈ linksFor character, leads href)
    (hleads : ∀ doc ∈ search (methods.strip q), leads ("/blueprints/catalog/" ++ str doc.id)) :
    IsDocument leads (blueprintCatalog methods character search q) := by
  have hlevel (doc : FoundBlueprint) : WellFormed leads
      (if doc.techLevel = some 2 then itemLineHtml "Tech level" "T2" else "") := by
    split_ifs
    · exact wellFormed_itemLineHtml (wellFormed_markup rfl (by decide))
    · exact wellFormed_empty
  unfold blueprintCatalog
  refine document_renderPage hlinks ?_ (plain_stylesheets (by simp))
  refine wellFormed_concat (.markup rfl <| .fragment (wellFormed_concat (.markup rfl <|
    .value (inValue_escape _) <| .markup rfl .nil) (by decide)) <| .markup rfl <|
    .fragment ?_ <| .markup rfl .nil) (by decide)
  split_ifs
  · exact wellFormed_markup rfl (by decide)
  · refine wellFormed_concat (.markup rfl <| .fragment (wellFormed_concat_map fun doc hdoc => ?_) <|
      .markup rfl .nil) (by decide)
    exact wellFormed_concat (.markup rfl <| .linkTo (by decide) (hleads doc hdoc) <| .markup rfl <|
      .value (inValue_escape _) <| .markup rfl <| .fragment (wellFormed_escape _) <| .markup rfl <|
      .fragment (hlevel doc) <| .markup rfl .nil) (by decide)
  · exact wellFormed_markup rfl (by decide)
  · exact wellFormed_empty

theorem wellFormed_priceFigures (costPerRun : ℚ) (outputPerRun : Option ℚ) :
    WellFormed leads (priceFigures costPerRun outputPerRun) := by
  have hstat (value : ℚ) (label : Text) : WellFormed leads (summaryStat (formatIsk value) label) :=
    wellFormed_summaryStat (wellFormed_formatIsk value)
  cases outputPerRun with
  | none => exact hstat _ _
  | some outputPerRun =>
      exact wellFormed_concat (.fragment (hstat _ _) <| .fragment (hstat _ _) <|
        .fragment (hstat _ _) .nil) (by decide)

theorem isDocument_catalogBlueprintDetail {typeId : ℤ} {page : Text}
    (hlinks : ∀ href ∈ linksFor character, leads href)
    (hleads : ∀ sdeBlueprint ∈ services.blueprintDocs typeId,
      ∀ productTypeId ∈ sdeBlueprint.productTypeId, leads ("/build/items/" ++ str productTypeId))
    (hpage : catalogBlueprintDetail services character typeId = .ok page) :
    IsDocument leads page := by
  unfold catalogBlueprintDetail at hpage
  split at hpage
  · rename_i sdeBlueprint blueprintTypeDoc hdoc _
    obtain rfl := Except.ok.inj hpage
    have hmaterials : WellFormed leads (concat (sdeBlueprint.materials.map fun material => concat [r#"
          <div class="item-card">
            <img class="item-card-center-icon" src=""#, escape (itemIconUrl material.typeId), r#""
              alt="" aria-hidden="true" onerror="this.style.visibility='hidden'">
            <div class="item-card-content">
              <div class="item-title">"#, escape (data (services.typeName material.typeId)),
        r#"</div>
              "#, itemLineHtml "Quantity / run" (str material.quantity), r#"
            </div>
          </div>
        "#])) :=
      wellFormed_concat_map fun material _ => wellFormed_concat (.markup rfl <|
        .value (inValue_escape _) <| .markup rfl <| .fragment (wellFormed_escape _) <|
        .markup rfl <| .fragment (wellFormed_itemLineHtml (wellFormed_str _)) <| .markup rfl .nil)
        (by decide)
    have hproduced (productName : String) (productQuantity : ℤ) : WellFormed leads
        (if productName ≠ "" then concat ["&middot; Produces ", escape (data productName),
          " &times;", str productQuantity] else "") := by
      split_ifs
      · exact wellFormed_concat (.markup rfl <| .fragment (wellFormed_escape _) <| .markup rfl <|
          .fragment (wellFormed_str _) .nil) (by decide)
      · exact wellFormed_empty
    have hflag (condition : Bool) :
        InValue (Text.markup (if condition then "flag-build" else "flag-buy")) := by
      split_ifs <;> exact inValue_of_plain (plain_of_chars rfl (by decide))
    refine document_renderPage hlinks ?_ (plain_stylesheets (by simp))
    refine wellFormed_concat_of_links (leads_of_public hlinks) (.markup rfl <|
      .fragment (wellFormed_concat (.markup rfl <| .value (inValue_escape _) <| .markup rfl <|
        .value (inValue_escape _) <| .markup rfl <| .fragment (wellFormed_escape _) <|
        .markup rfl <| .value (hflag _) <| .markup rfl <| .fragment (wellFormed_escape _) <|
        .markup rfl <| .fragment (hproduced _ _) <| .markup rfl .nil) (by decide)) <|
      .markup rfl <| .fragment (wellFormed_priceFigures ..) <| .markup rfl <| .fragment ?_ <|
      .markup rfl <| .fragment (wellFormed_sectionBox hmaterials) <| .markup rfl .nil)
      (by decide)
    cases hproduct : sdeBlueprint.productTypeId with
    | none => exact wellFormed_empty
    | some productTypeId =>
        exact wellFormed_concat (.markup rfl <| .linkTo (by decide)
          (hleads sdeBlueprint hdoc productTypeId hproduct) <| .markup rfl .nil) (by decide)
  · cases hpage

theorem wellFormed_blueprintHeader {blueprint : BlueprintEntry} {blueprintName locationLabel : Text}
    (hname : WellFormed leads (escape blueprintName)) (hlabel : WellFormed leads locationLabel) :
    WellFormed leads (blueprintHeader blueprint (escape blueprintName) locationLabel) := by
  have hkind : WellFormed leads (if blueprint.isCopy then ("Copy" : Text) else "Original") := by
    split_ifs <;> exact wellFormed_markup rfl (by decide)
  have hruns : WellFormed leads
      (if blueprint.isCopy then concat ["(", str blueprint.runs, " runs)"] else "") := by
    split_ifs
    · exact wellFormed_concat (.markup rfl <| .fragment (wellFormed_str _) <| .markup rfl .nil)
        (by decide)
    · exact wellFormed_empty
  exact wellFormed_concat (.markup rfl <| .value (inValue_escape _) <| .markup rfl <|
    .value (inValue_escape _) <| .markup rfl <| .fragment hname <| .markup rfl <|
    .fragment (wellFormed_str _) <| .markup rfl <| .fragment (wellFormed_str _) <| .markup rfl <|
    .fragment hkind <| .markup rfl <| .fragment hruns <| .markup rfl <| .fragment hlabel <|
    .markup rfl .nil) (by decide)

theorem wellFormed_stockCell (owned needed : ℤ) : WellFormed leads (stockCell owned needed) := by
  unfold stockCell
  dsimp only
  split_ifs
  · exact wellFormed_concat (.fragment (wellFormed_str _) <| .markup rfl <|
      .fragment (wellFormed_str _) <| .markup rfl .nil) (by decide)
  · exact wellFormed_str _

theorem wellFormed_materialCard (onSiteTotals globalTotals : Dict ℤ ℤ) (materialEfficiency : ℤ)
    (material : Quantity) : WellFormed leads
      (materialCard services onSiteTotals globalTotals materialEfficiency material) :=
  wellFormed_concat (.markup rfl <| .value (inValue_escape _) <| .markup rfl <|
    .fragment (wellFormed_escape _) <| .markup rfl <|
    .fragment (wellFormed_itemLineHtml (wellFormed_str _)) <| .markup rfl <|
    .fragment (wellFormed_itemLineHtml (wellFormed_stockCell _ _)) <| .markup rfl <|
    .fragment (wellFormed_itemLineHtml (wellFormed_stockCell _ _)) <| .markup rfl .nil)
    (by decide)

theorem isDocument_blueprintDetail {blueprints : List BlueprintEntry} {assets : List AssetEntry}
    {itemId : ℤ} {page : Text} (hlinks : ∀ href ∈ characterLinks, leads href)
    (hpage : blueprintDetail services character blueprints assets itemId = .ok page) :
    IsDocument leads page := by
  unfold blueprintDetail at hpage
  split at hpage
  · cases hpage
  · rename_i blueprint _
    dsimp only at hpage
    have hheader (blueprintName : Text) (locationId : ℤ) (info : Option LocationInfo) :
        WellFormed leads (blueprintHeader blueprint (escape blueprintName)
          (locationLabelHtml locationId info)) :=
      wellFormed_blueprintHeader (wellFormed_escape _) (wellFormed_locationLabelHtml ..)
    split at hpage
    · -- a blueprint without materials in the dumps
      obtain rfl := Except.ok.inj hpage
      refine document_renderPage (leads_of_character hlinks) ?_ (plain_stylesheets (by simp))
      exact wellFormed_concat_of_links hlinks (.markup rfl <| .fragment (hheader ..) <|
        .markup rfl .nil) (by decide)
    · obtain rfl := Except.ok.inj hpage
      refine document_renderPage (leads_of_character hlinks) ?_ (plain_stylesheets (by simp))
      exact wellFormed_concat_of_links hlinks (.markup rfl <| .fragment (hheader ..) <|
        .markup rfl <| .fragment (wellFormed_summaryStat (wellFormed_str _)) <| .markup rfl <|
        .fragment (wellFormed_summaryStat (wellFormed_str _)) <| .markup rfl <|
        .fragment (wellFormed_priceFigures ..) <| .markup rfl <|
        .fragment (wellFormed_sectionBox (wellFormed_concat_map fun material _ =>
          wellFormed_materialCard ..)) <| .markup rfl .nil) (by decide)

/-! ## The asset pages -/

theorem wellFormed_assetCard {typeId quantity : ℤ} {locationCount : Option ℕ}
    (hleads : leads ("/assets/" ++ str typeId)) :
    WellFormed leads (assetCard services typeId quantity locationCount).html := by
  have hvolume (volume : ℚ) : WellFormed leads (concat [formatNumber volume, " m3"]) :=
    wellFormed_concat (.fragment (wellFormed_formatNumber _) <| .markup rfl .nil)
      (by decide)
  refine wellFormed_concat (.markup rfl <| .link (toString_concat_pair ..) hleads <| .markup rfl <|
    .value (inValue_escape _) <| .markup rfl <| .value (inValue_escape _) <| .markup rfl <|
    .fragment (wellFormed_escape _) <| .markup rfl <|
    .fragment (wellFormed_itemLineHtml (wellFormed_formatNumber _)) <| .markup rfl <|
    .fragment (wellFormed_itemLineHtml (hvolume _)) <| .markup rfl <| .fragment ?_ <|
    .fragment (wellFormed_itemLineHtml (wellFormed_formatIsk _)) <| .markup rfl .nil)
    (by decide)
  cases locationCount with
  | none => exact wellFormed_empty
  | some count =>
      exact wellFormed_concat (.fragment (wellFormed_itemLineHtml (wellFormed_str _)) <|
        .markup rfl .nil) (by decide)

theorem wellFormed_assetCards {Item : Type} {items : List Item} {card : Item → AssetCard}
    (hcards : ∀ item ∈ items, WellFormed leads (card item).html) :
    WellFormed leads (assetCards (items.map card)) := by
  refine wellFormed_concat_map fun shown hshown => ?_
  obtain ⟨item, hitem, rfl⟩ := List.mem_map.mp (mem_sortedByDesc.mp hshown)
  exact hcards item hitem

theorem wellFormed_assetStats {corpNote : Text} (hnote : WellFormed leads corpNote)
    (totalQuantity count : ℤ) (countLabel : String) (totalVolume totalValue : ℚ) :
    WellFormed leads
      (assetStats corpNote totalQuantity count countLabel totalVolume totalValue) := by
  have hvolume : WellFormed leads (concat [formatNumber totalVolume, " m3"]) :=
    wellFormed_concat (.fragment (wellFormed_formatNumber _) <| .markup rfl .nil)
      (by decide)
  exact wellFormed_concat (.markup rfl <| .fragment hnote <| .markup rfl <|
    .fragment (wellFormed_summaryStat (wellFormed_formatNumber _)) <| .markup rfl <|
    .fragment (wellFormed_summaryStat (wellFormed_str _)) <| .markup rfl <|
    .fragment (wellFormed_summaryStat hvolume) <| .markup rfl <|
    .fragment (wellFormed_summaryStat (wellFormed_formatIsk _)) <| .markup rfl .nil)
    (by decide)

theorem wellFormed_categorySection {title : String} {cardsHtml : Text}
    (hcards : WellFormed leads cardsHtml) : WellFormed leads (categorySection title cardsHtml) := by
  unfold categorySection
  split_ifs
  · exact wellFormed_empty
  · exact wellFormed_sectionBox (wellFormed_markup rfl (by decide))
  · exact wellFormed_sectionBox hcards

theorem isDocument_listAssets {assets : List AssetEntry × Bool}
    (hlinks : ∀ href ∈ characterLinks, leads href)
    (hleads : ∀ overview ∈ Assets.listAssets assets.1, ∀ isMatch,
      ∀ row ∈ overview.rows isMatch, leads ("/assets/" ++ str row.typeId)) :
    IsDocument leads (listAssets services methods character assets) := by
  unfold listAssets
  split
  · refine document_renderPage (leads_of_character hlinks) ?_ (plain_stylesheets (by simp))
    exact wellFormed_concat (.markup rfl <| .markup rfl .nil) (by decide)
  · rename_i overview hoverview
    have hnote : WellFormed leads (concat [if assets.2 then
        r#"<p class="empty">Includes corporation assets.</p>"# else "", "\n      "]) := by
      split_ifs
      · exact wellFormed_concat (.markup rfl <| .markup rfl .nil) (by decide)
      · exact wellFormed_concat (.markup rfl <| .markup rfl .nil) (by decide)
    have hsections : WellFormed leads (concat ((categories methods).map fun category =>
        categorySection category.1 (assetCards ((overview.rows fun typeId =>
          (services.typeDocs typeId).any category.2).map fun row =>
            assetCard services row.typeId row.quantity (some row.locationCount))))) :=
      wellFormed_concat_map fun category _ => wellFormed_categorySection <|
        wellFormed_assetCards fun row hrow =>
          wellFormed_assetCard (hleads overview hoverview _ row hrow)
    refine document_renderPage (leads_of_character hlinks) ?_ (plain_stylesheets (by simp))
    exact wellFormed_concat (.markup rfl <| .fragment (wellFormed_assetStats hnote ..) <|
      .markup rfl <| .fragment hsections <| .markup rfl .nil) (by decide)

theorem wellFormed_locationCard {locationId quantity : ℤ}
    (hleads : leads ("/assets/locations/" ++ str locationId)) :
    WellFormed leads (locationCard services locationId quantity) :=
  wellFormed_concat (.markup rfl <| .link (toString_concat_pair ..) hleads <| .markup rfl <|
    .fragment (wellFormed_locationLabelHtml ..) <| .markup rfl <|
    .fragment (wellFormed_itemLineHtml (wellFormed_formatNumber _)) <| .markup rfl .nil)
    (by decide)

theorem isDocument_itemDetail {assets : List AssetEntry} {typeId : ℤ} {page : Text}
    (hlinks : ∀ href ∈ characterLinks, leads href)
    (hleads : ∀ owned ∈ Assets.itemDetail assets typeId,
      ∀ entry ∈ owned.quantityByLocation.entries, leads ("/assets/locations/" ++ str entry.1))
    (hpage : itemDetail services character assets typeId = .ok page) : IsDocument leads page := by
  unfold itemDetail at hpage
  split at hpage
  · cases hpage
  · rename_i owned howned
    obtain rfl := Except.ok.inj hpage
    have hvolume (volume : ℚ) : WellFormed leads (concat [formatNumber volume, " m3"]) :=
      wellFormed_concat (.fragment (wellFormed_formatNumber _) <| .markup rfl .nil)
        (by decide)
    have hcards : WellFormed leads (concat ((sortedByDesc Prod.snd
        owned.quantityByLocation.entries).map fun entry =>
          locationCard services entry.1 entry.2)) :=
      wellFormed_concat_map fun entry hentry =>
        wellFormed_locationCard (hleads owned howned entry (mem_sortedByDesc.mp hentry))
    refine document_renderPage (leads_of_character hlinks) ?_ (plain_stylesheets (by simp))
    exact wellFormed_concat_of_links hlinks (.markup rfl <|
      .fragment (wellFormed_concat (.markup rfl <| .value (inValue_escape _) <| .markup rfl <|
        .value (inValue_escape _) <| .markup rfl <| .fragment (wellFormed_escape _) <|
        .markup rfl <| .fragment (wellFormed_formatNumber _) <| .markup rfl .nil)
        (by decide)) <| .markup rfl <|
      .fragment (wellFormed_concat (.markup rfl <|
        .fragment (wellFormed_summaryStat (wellFormed_formatIsk _)) <| .markup rfl <|
        .fragment (wellFormed_summaryStat (wellFormed_formatIsk _)) <| .markup rfl .nil)
        (by decide)) <| .markup rfl <|
      .fragment (wellFormed_concat (.markup rfl <|
        .fragment (wellFormed_summaryStat (wellFormed_formatNumber _)) <| .markup rfl <|
        .fragment (wellFormed_summaryStat (hvolume _)) <| .markup rfl <|
        .fragment (wellFormed_summaryStat (wellFormed_formatIsk _)) <| .markup rfl .nil)
        (by decide)) <| .markup rfl <|
      .fragment (wellFormed_sectionBox hcards) <| .markup rfl .nil) (by decide)

theorem isDocument_locationDetail {assets : List AssetEntry} {locationId : ℤ} {page : Text}
    (hlinks : ∀ href ∈ characterLinks, leads href)
    (hleads : ∀ held ∈ Assets.locationDetail assets locationId,
      ∀ entry ∈ held.quantityByType.entries, leads ("/assets/" ++ str entry.1))
    (hpage : locationDetail services character assets locationId = .ok page) :
    IsDocument leads page := by
  unfold locationDetail at hpage
  split at hpage
  · cases hpage
  · rename_i held hheld
    obtain rfl := Except.ok.inj hpage
    refine document_renderPage (leads_of_character hlinks) ?_ (plain_stylesheets (by simp))
    exact wellFormed_concat_of_links hlinks (.markup rfl <|
      .fragment (wellFormed_locationLabelHtml ..) <| .markup rfl <|
      .fragment (wellFormed_assetStats wellFormed_empty ..) <| .markup rfl <|
      .fragment (wellFormed_assetCards fun entry hentry =>
        wellFormed_assetCard (hleads held hheld entry hentry)) <| .markup rfl .nil)
      (by decide)

/-! ## The build pages -/

theorem isDocument_buildChooser (hlinks : ∀ href ∈ linksFor character, leads href) :
    IsDocument leads (buildChooser character) := by
  refine document_renderPage hlinks ?_ (plain_stylesheets (by simp))
  exact wellFormed_markup_of_links (leads_of_public hlinks) rfl (by decide)

theorem isDocument_itemSearch {search : String → List FoundItem} {q : String}
    (hlinks : ∀ href ∈ linksFor character, leads href)
    (hleads : ∀ doc ∈ search (methods.strip q), leads ("/build/items/" ++ str doc.id)) :
    IsDocument leads (itemSearch methods character search q) := by
  unfold itemSearch
  refine document_renderPage hlinks ?_ (plain_stylesheets (by simp))
  refine wellFormed_concat (.markup rfl <| .fragment (wellFormed_concat (.markup rfl <|
    .value (inValue_escape _) <| .markup rfl .nil) (by decide)) <| .markup rfl <|
    .fragment ?_ <| .markup rfl .nil) (by decide)
  split_ifs
  · exact wellFormed_markup rfl (by decide)
  · refine wellFormed_concat (.markup rfl <| .fragment (wellFormed_concat_map fun doc hdoc => ?_) <|
      .markup rfl .nil) (by decide)
    exact wellFormed_concat (.markup rfl <| .linkTo (by decide) (hleads doc hdoc) <| .markup rfl <|
      .value (inValue_escape _) <| .markup rfl <| .fragment (wellFormed_escape _) <|
      .markup rfl .nil) (by decide)
  · exact wellFormed_markup rfl (by decide)
  · exact wellFormed_empty

/-- A link that adds a type to the build set, or removes it, leads to the page it is on. -/
theorem toString_buildToggleHref (targetTypeId qty : ℤ) (buildSet : Finset ℤ) (toggledTypeId : ℤ)
    (adding : Bool) : ∃ query, (buildToggleHref targetTypeId qty buildSet toggledTypeId
      adding).toString = "/build/items/" ++ str targetTypeId ++ "?" ++ query := by
  have hquery (query : Text) :
      (concat [markup "/build/items/", str targetTypeId, "?", query]).toString =
        "/build/items/" ++ str targetTypeId ++ "?" ++ query.toString := by
    simp [toString_concat, String.join_cons, String.append_assoc]
  exact ⟨_, hquery _⟩

theorem wellFormed_stepCard {typeId qty : ℤ} {buildSet : Finset ℤ} {step : BuildChain.BuildStep}
    (hleads : ∀ query, leads ("/build/items/" ++ str typeId ++ "?" ++ query)) :
    WellFormed leads (stepCard typeId qty buildSet step) := by
  have hflag : WellFormed leads (if step.typeId = typeId then "" else
      concat [r#"<a class="flag flag-buy" href=""#,
        escape (buildToggleHref typeId qty buildSet step.typeId false), r#"">Buy instead</a>"#]) := by
    split_ifs
    · exact wellFormed_empty
    · obtain ⟨query, hhref⟩ := toString_buildToggleHref typeId qty buildSet step.typeId false
      exact wellFormed_concat (.markup rfl <| .link hhref (hleads query) <| .markup rfl .nil)
        (by decide)
  exact wellFormed_concat (.markup rfl <| .value (inValue_escape _) <| .markup rfl <|
    .fragment (wellFormed_escape _) <| .markup rfl <| .fragment hflag <| .markup rfl <|
    .fragment (wellFormed_itemLineHtml (wellFormed_str _)) <| .markup rfl <|
    .fragment (wellFormed_itemLineHtml (wellFormed_str _)) <| .markup rfl .nil) (by decide)

theorem wellFormed_rawCard {typeId qty : ℤ} {buildSet : Finset ℤ}
    {material : BuildChain.RawMaterial}
    (hleads : ∀ query, leads ("/build/items/" ++ str typeId ++ "?" ++ query)) :
    WellFormed leads (rawCard services typeId qty buildSet material) := by
  have hflag : WellFormed leads (if !material.isBuildable then
      r#"<span class="flag flag-buy">Bought</span>"# else
      concat [r#"<a class="flag flag-build" href=""#,
        escape (buildToggleHref typeId qty buildSet material.typeId true), r#"">Build</a>"#]) := by
    split_ifs
    · exact wellFormed_markup rfl (by decide)
    · obtain ⟨query, hhref⟩ := toString_buildToggleHref typeId qty buildSet material.typeId true
      exact wellFormed_concat (.markup rfl <| .link hhref (hleads query) <| .markup rfl .nil)
        (by decide)
  exact wellFormed_concat (.markup rfl <| .value (inValue_escape _) <| .markup rfl <|
    .fragment (wellFormed_escape _) <| .markup rfl <| .fragment hflag <| .markup rfl <|
    .fragment (wellFormed_itemLineHtml (wellFormed_str _)) <| .markup rfl <|
    .fragment (wellFormed_itemLineHtml (wellFormed_formatIsk _)) <| .markup rfl .nil)
    (by decide)

theorem isDocument_chainPage {typeId qty : ℤ} {buildSet : Finset ℤ}
    {resolution : BuildChain.BuildResolution} (hlinks : ∀ href ∈ linksFor character, leads href)
    (hleads : ∀ query, leads ("/build/items/" ++ str typeId ++ "?" ++ query)) :
    IsDocument leads (chainPage services character typeId qty buildSet resolution) := by
  have hheader : WellFormed leads (concat [r#"
      <div class="header">
        <img class="icon" src=""#, escape (itemIconUrl typeId), r#"" alt=""#,
      escape (data resolution.targetName), r#""
          onerror="this.style.visibility='hidden'">
        <div>
          <div class="name">"#, escape (data resolution.targetName), r#"</div>
          <div class="meta">Building "#, escape (str qty), r#" &times;</div>
        </div>
      </div>
    "#]) :=
    wellFormed_concat (.markup rfl <| .value (inValue_escape _) <| .markup rfl <|
      .value (inValue_escape _) <| .markup rfl <| .fragment (wellFormed_escape _) <| .markup rfl <|
      .fragment (wellFormed_escape _) <| .markup rfl .nil) (by decide)
  unfold chainPage
  dsimp only
  split
  · refine document_renderPage hlinks ?_ (plain_stylesheets (by simp))
    exact wellFormed_concat_of_links (leads_of_public hlinks)
      (.markup rfl <| .fragment hheader <| .markup rfl .nil) (by decide)
  · refine document_renderPage hlinks ?_ (plain_stylesheets (by simp))
    exact wellFormed_concat_of_links (leads_of_public hlinks) (.markup rfl <| .fragment hheader <|
      .markup rfl <| .fragment (wellFormed_concat (
        .fragment (wellFormed_summaryStat (wellFormed_formatIsk _)) <|
        .fragment (wellFormed_summaryStat (wellFormed_formatIsk _)) <|
        .fragment (wellFormed_summaryStat (wellFormed_formatIsk _)) <|
        .fragment (wellFormed_summaryStat (wellFormed_str _)) .nil) (by decide)) <|
      .markup rfl <| .fragment (wellFormed_sectionBox (wellFormed_concat_map fun material _ =>
        wellFormed_rawCard hleads)) <| .markup rfl <|
      .fragment (wellFormed_sectionBox (wellFormed_concat_map fun step _ =>
        wellFormed_stepCard hleads)) <| .markup rfl .nil) (by decide)

theorem isDocument_itemBuildChain {ceilQuotient : ℤ → ℤ → Except BuildChain.ArithmeticError ℤ}
    {products : List BuildChain.Blueprint} {typeId qty : ℤ} {buildSet : Finset ℤ} {page : Text}
    (hlinks : ∀ href ∈ linksFor character, leads href)
    (hleads : ∀ query, leads ("/build/items/" ++ str typeId ++ "?" ++ query))
    (hpage : itemBuildChain services character ceilQuotient products typeId qty buildSet =
      .ok page) : IsDocument leads page := by
  unfold itemBuildChain at hpage
  split at hpage
  · cases hpage
  · split at hpage
    · cases hpage
    · obtain rfl := Except.ok.inj hpage
      exact isDocument_chainPage hlinks hleads

/-! ## The page of a job -/

theorem isDocument_jobDetail {jobs : List IndustryJobEntry} {jobId : ℤ} {page : Text}
    (hlinks : ∀ href ∈ linksFor character, leads href)
    (hleads : ∀ job ∈ jobs, job.jobId = jobId → leads ("/blueprints/" ++ str job.blueprintId))
    (hpage : jobDetail services methods character jobs jobId = .ok page) :
    IsDocument leads page := by
  unfold jobDetail at hpage
  split at hpage
  · cases hpage
  · rename_i job hfound
    split at hpage
    · cases hpage
    · obtain rfl := Except.ok.inj hpage
      have hblueprint : leads ("/blueprints/" ++ str job.blueprintId) :=
        hleads job (List.mem_of_find?_eq_some hfound) (by simpa using List.find?_some hfound)
      refine document_renderPage hlinks ?_ (plain_stylesheet (by simp))
      refine wellFormed_concat_of_links (leads_of_public hlinks) (.markup rfl <|
        .fragment (wellFormed_concat (.markup rfl <| .value (inValue_escape _) <| .markup rfl <|
          .value (inValue_escape _) <| .markup rfl <| .fragment (wellFormed_escape _) <|
          .markup rfl <| .fragment (wellFormed_escape _) <| .markup rfl <|
          .fragment (wellFormed_escape _) <| .markup rfl .nil) (by decide)) <| .markup rfl <|
        .fragment (wellFormed_locationLabelHtml ..) <| .markup rfl <|
        .fragment (wellFormed_str _) <| .markup rfl <|
        .fragment (wellFormed_gaugeCellHtml (by simp)) <| .markup rfl <|
        .fragment (wellFormed_escape _) <| .markup rfl <| .fragment (wellFormed_escape _) <|
        .markup rfl <| .fragment ?_ <| .markup rfl <|
        .link (toString_concat_pair ..) hblueprint <| .markup rfl .nil) (by decide)
      cases job.productTypeId with
      | none => exact wellFormed_empty
      | some productTypeId =>
          exact wellFormed_concat (.markup rfl <| .fragment (wellFormed_escape _) <|
            .markup rfl .nil) (by decide)

/-! ## The dashboard and the settings -/

theorem isDocument_renderLogin (hlinks : ∀ href ∈ publicLinks, leads href) :
    IsDocument leads renderLogin := by
  refine document_renderPage hlinks ?_ (plain_stylesheet (by simp))
  exact wellFormed_markup_of_links hlinks rfl (by decide)

theorem wellFormed_jobRow {job : IndustryJobEntry} {progress secondsUntilEnd : ℚ}
    (hleads : leads ("/jobs/" ++ str job.jobId)) :
    WellFormed leads (jobRow services job progress secondsUntilEnd) :=
  wellFormed_concat (.markup rfl <| .link (toString_concat_pair ..) hleads <| .markup rfl <|
    .value (inValue_escape _) <| .markup rfl <| .value (inValue_escape _) <| .markup rfl <|
    .fragment (wellFormed_escape _) <| .markup rfl <| .fragment (wellFormed_escape _) <|
    .markup rfl <| .fragment (wellFormed_locationLabelHtml ..) <| .markup rfl <|
    .fragment (wellFormed_str _) <| .markup rfl <|
    .fragment (wellFormed_gaugeCellHtml (by simp)) <| .markup rfl <| .value (inValue_escape _) <|
    .markup rfl <| .fragment (wellFormed_humanizeRelativeTime _) <| .markup rfl .nil)
    (by decide)

theorem isDocument_renderDashboard {character : CharacterDocument} {blueprintCount assetCount : ℕ}
    {activeJobs : List IndustryJobEntry} {page : Text}
    (hlinks : ∀ href ∈ characterLinks, leads href)
    (hleads : ∀ job ∈ activeJobs, leads ("/jobs/" ++ str job.jobId))
    (hpage : renderDashboard services character blueprintCount assetCount activeJobs = .ok page) :
    IsDocument leads page := by
  obtain ⟨rows, hrows, hresult⟩ := bind_eq_ok.mp hpage
  obtain rfl := Except.ok.inj hresult
  have hrow : ∀ row ∈ rows, WellFormed leads row := by
    intro row hmem
    obtain ⟨job, hjob, hrow⟩ := exists_mem_of_mem_mapM hrows row hmem
    obtain ⟨progress, -, hrow⟩ := bind_eq_ok.mp hrow
    split at hrow
    · obtain rfl := Except.ok.inj hrow
      exact wellFormed_jobRow (hleads job hjob)
    · cases hrow
  have hjobRows : WellFormed leads (if rows.isEmpty then
      r#"<tr><td colspan="6" class="empty">No running industry jobs.</td></tr>"#
      else concat rows) := by
    split_ifs
    · exact wellFormed_markup rfl (by decide)
    · rw [← List.map_id rows]
      exact wellFormed_concat_map hrow
  refine document_renderPage hlinks ?_ (plain_stylesheet (by simp))
  exact wellFormed_concat_of_links hlinks (.markup rfl <| .fragment (wellFormed_str _) <|
    .markup rfl <| .fragment (wellFormed_str _) <| .markup rfl <| .fragment (wellFormed_str _) <|
    .markup rfl <| .fragment hjobRows <| .markup rfl .nil) (by decide)

theorem plain_formatTimestamp (value : Timestamp) : Plain (formatTimestamp value) := by
  have htwo (number : ℕ) : Plain (twoDigits number) := by
    unfold twoDigits
    split_ifs
    · exact plain_append.mpr ⟨plain_of_chars rfl (by decide), plain_repr number⟩
    · exact plain_repr number
  have htext {text : String} {chars : List Char} (htext : String.ofList chars = text)
      (hall : chars.all (· ∉ special)) : Plain text := plain_of_chars htext hall
  simp only [formatTimestamp, plain_append]
  exact ⟨⟨⟨⟨⟨⟨⟨⟨⟨plain_repr _, htext rfl (by decide)⟩, htwo _⟩, htext rfl (by decide)⟩,
    htwo _⟩, htext rfl (by decide)⟩, htwo _⟩, htext rfl (by decide)⟩, htwo _⟩,
    htext rfl (by decide)⟩

theorem wellFormed_renderAccountSection (character : CharacterDocument) (account : Account) :
    WellFormed leads (renderAccountSection character account) :=
  wellFormed_concat (.markup rfl <| .value (inValue_escape _) <| .markup rfl <|
    .value (inValue_escape _) <| .markup rfl <| .fragment (wellFormed_escape _) <| .markup rfl <|
    .fragment (wellFormed_str _) <| .markup rfl <|
    .fragment (wellFormed_of_plain (plain_formatTimestamp _)) <| .markup rfl <|
    .fragment (wellFormed_of_plain (plain_formatTimestamp _)) <| .markup rfl <|
    .fragment (wellFormed_escape _) <| .markup rfl .nil) (by decide)

theorem wellFormed_sourceRow (source : CachedDataSource) :
    WellFormed leads (sourceRow source) := by
  have hshared : WellFormed leads (if source.shared then
      r#" <span class="status-shared">(shared with your corp)</span>"# else "") := by
    split_ifs
    · exact wellFormed_markup rfl (by decide)
    · exact wellFormed_empty
  refine wellFormed_concat (.markup rfl <| .fragment (wellFormed_escape _) <| .fragment hshared <|
    .markup rfl <| .fragment (wellFormed_str _) <| .markup rfl <| .fragment ?_ <|
    .markup rfl .nil) (by decide)
  cases source.cachedAt with
  | none => exact wellFormed_markup rfl (by decide)
  | some cachedAt => exact wellFormed_of_plain (plain_formatTimestamp cachedAt)

theorem wellFormed_statusRow (source : String × Option ℕ × String) :
    WellFormed leads (statusRow source) := by
  refine wellFormed_concat (.markup rfl <| .fragment (wellFormed_escape _) <| .markup rfl <|
    .fragment ?_ <| .markup rfl .nil) (by decide)
  cases source.2.1 with
  | none =>
      exact wellFormed_concat (.markup rfl <| .fragment (wellFormed_escape _) <| .markup rfl .nil)
        (by decide)
  | some count =>
      exact wellFormed_concat (.markup rfl <| .fragment (wellFormed_str _) <| .markup rfl .nil)
        (by decide)

theorem wellFormed_renderCorpSection (hlinks : ∀ href ∈ characterLinks, leads href)
    (corporation : Option Corporation) : WellFormed leads (renderCorpSection corporation) := by
  cases corporation with
  | none => exact wellFormed_markup_of_links hlinks rfl (by decide)
  | some corporation =>
      exact wellFormed_concat_of_links hlinks (.markup rfl <| .fragment (wellFormed_escape _) <|
        .markup rfl <| .fragment (wellFormed_concat_map fun source _ => wellFormed_statusRow _) <|
        .markup rfl .nil) (by decide)

theorem isDocument_showSettings {character : CharacterDocument} {account : Account}
    (hlinks : ∀ href ∈ characterLinks, leads href) :
    IsDocument leads (showSettings character account) := by
  have hdata : WellFormed leads (renderDataSection account.sources) :=
    wellFormed_concat_of_links hlinks (.markup rfl <|
      .fragment (wellFormed_concat_map fun source _ => wellFormed_sourceRow source) <|
      .markup rfl .nil) (by decide)
  have hdanger : WellFormed leads renderDangerSection :=
    wellFormed_markup_of_links hlinks rfl (by decide)
  refine document_renderPage hlinks ?_ (plain_stylesheet (by simp))
  exact wellFormed_concat (.markup rfl <| .fragment (wellFormed_renderAccountSection ..) <|
    .markup rfl <| .fragment hdata <| .markup rfl <|
    .fragment (wellFormed_renderCorpSection hlinks _) <| .markup rfl <| .fragment hdanger <|
    .markup rfl .nil) (by decide)

end EveBuild.Pages
