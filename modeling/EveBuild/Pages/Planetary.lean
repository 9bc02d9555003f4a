import EveBuild.Data.Grouping
import EveBuild.Data.Loops
import EveBuild.Pages.Web
import EveBuild.Planetary.Model

/-!
# The pages of the planetary schematics

The handlers of `app/routes/planetary.py`, with the expansions of `EveBuild.Planetary.Model`.

Prices, quantities and profits are exact rationals.  A price is looked up where it is shown; the
source asks for all prices of a page at once, which makes no difference to what is shown.
-/

namespace EveBuild.Pages

open Markup Text
open Migrations (Quantity SchematicDocument)
open Planetary (ExpansionError schematicByOutputTypeId tierIndexByTypeId breakdown)

/-- `_TIER_LABELS`. -/
def tierLabels : List (ℤ × String) :=
  [(1042, "Tier 1 - Basic Commodities"), (1034, "Tier 2 - Refined Commodities"),
    (1040, "Tier 3 - Specialized Commodities"), (1041, "Tier 4 - Advanced Commodities")]

/-- `_TIER_ORDER`. -/
def tierOrder : List ℤ := [1042, 1034, 1040, 1041]

/-- `_OTHER_GROUP_ID`. -/
def otherGroupId : ℤ := 0

/-- `_P0_LABEL`. -/
def p0Label : String := "P0 - Raw Materials"

/-- `_LIST_STYLE`. -/
def planetaryListStyle : List String := ["/static/card.css", "/static/planetary-list.css"]

/-- `_DETAIL_STYLE`. -/
def planetaryDetailStyle : List String := ["/static/card.css", "/static/planetary-detail.css"]

def profitPerDay (profit : ℚ) (cycleTimeSeconds : ℤ) : Except PageError ℚ :=
  if cycleTimeSeconds = 0 then throw .zeroDivision
  else return profit * 86400 / cycleTimeSeconds

/-- What an error of an expansion comes to. -/
def PageError.ofExpansion : ExpansionError → PageError
  | .zeroDivision => .zeroDivision
  | .recursion => .recursion

/-- `_Row`. -/
structure SchematicRow where
  tierGroupId : Option ℤ
  name : String
  html : Text

/-- The group that a row is shown in. -/
def SchematicRow.groupId (row : SchematicRow) : ℤ :=
  (row.tierGroupId.filter fun groupId => groupId ∈ tierOrder).getD otherGroupId

/-- A section of the list: its `id`, its label and its rows. -/
structure TierSection where
  id : String
  label : String
  html : Text

section Handlers

variable (services : Services) (methods : StringMethods) (character : Option CharacterDocument)

/-! ## The list -/

/-- `inputs_text`. -/
def inputsText (inputs : List Quantity) : Text :=
  join ", " (inputs.map fun material =>
    concat [data (services.typeName material.typeId), " &times;", str material.quantity])

/-- The body of `for schematic in schematics`. -/
def schematicRow (schematic : ℤ × SchematicDocument) : Except PageError SchematicRow := do
  let (schematicId, schematic) := schematic
  let output := schematic.output
  let outputValue := output.quantity * services.unitPrice output.typeId
  let inputCost := (schematic.inputs.map fun material =>
    material.quantity * services.unitPrice material.typeId).sum
  let profit := outputValue - inputCost
  let profitPerDay ← profitPerDay profit schematic.cycleTimeSeconds
  let icon := escape (itemIconUrl output.typeId)
  let outputName := escape (data (services.typeName output.typeId))
  let schematicName := escape (data schematic.name)
  let cycleMinutes := schematic.cycleTimeSeconds / 60
  let detailHref := escape (concat ["/planetary/", str schematicId])
  return {
    tierGroupId := (services.typeDocs output.typeId).bind TypeDoc.groupId
    name := schematic.name
    html := concat [r#"
          <tr>
            <td>
              <a class="pi-link" href=""#, detailHref, r#"">
                <img class="icon" src=""#, icon, r#"" alt=""#, outputName, r#""
                  onerror="this.style.visibility='hidden'">
                <div>"#, schematicName, r#"</div>
              </a>
            </td>
            <td>"#, outputName, " &times;", str output.quantity, r#"</td>
            <td class="pi-inputs">"#, inputsText services schematic.inputs, r#"</td>
            <td>"#, str cycleMinutes, r#" min</td>
            <td class="num">"#, formatIsk inputCost, r#"</td>
            <td class="num">"#, formatIsk outputValue, r#"</td>
            <td class="num">"#, formatIsk profit, r#"</td>
            <td class="num">"#, formatIsk profitPerDay, r#"</td>
          </tr>
        "#] }

/-- The section of the raw materials, which no schematic makes. -/
def rawSection (rawMaterialTypeIds : List ℤ) : TierSection :=
  let rawRows := sortedBy (fun typeId => methods.lower (services.typeName typeId))
    rawMaterialTypeIds
  let rawRowsHtml := concat (rawRows.map fun typeId => concat [r#"
              <tr>
                <td>
                  <div class="pi-link">
                    <img class="icon" src=""#, escape (itemIconUrl typeId), r#""
                      alt=""#, escape (data (services.typeName typeId)),
    r#"" onerror="this.style.visibility='hidden'">
                    <div>"#, escape (data (services.typeName typeId)), r#"</div>
                  </div>
                </td>
                <td class="num">"#, formatIsk (services.unitPrice typeId), r#"</td>
              </tr>
            "#])
  { id := "tier-p0"
    label := p0Label
    html := concat [r#"
          <div id="tier-p0">
            <h2>"#, escape p0Label, r#"</h2>
            <table class="pi-table pi-table-narrow">
              <thead><tr><th>Material</th><th>Price</th></tr></thead>
              <tbody>"#, rawRowsHtml, r#"</tbody>
            </table>
          </div>
        "#] }

/-- The section of a group. -/
def tierSection (rowsByGroupId : Dict ℤ (List SchematicRow)) (groupId : ℤ) : TierSection :=
  let tierRows := sortedBy (fun row : SchematicRow => methods.lower row.name)
    (rowsByGroupId.getD groupId [])
  let tierName := (tierLabels.lookup groupId).getD "Other"
  let sectionId := if groupId = otherGroupId then "tier-other" else "tier-" ++ str groupId
  { id := sectionId
    label := tierName
    html := concat [r#"
          <div id=""#, sectionId, r#"">
            <h2>"#, escape tierName, r#"</h2>
            <table class="pi-table">
              <thead>
      <tr>
        <th>Schematic</th><th>Output</th><th>Inputs</th><th>Cycle</th>
        <th>Input cost</th><th>Output value</th><th>Profit / cycle</th><th>Profit / day</th>
      </tr>
    </thead>
              <tbody>"#, concat (tierRows.map SchematicRow.html), r#"</tbody>
            </table>
          </div>
        "#] }

/-- `sections`. -/
def tierSections (rows : List SchematicRow) (rawMaterialTypeIds : List ℤ) : List TierSection :=
  let rowsByGroupId := Dict.appendBy SchematicRow.groupId id rows
  let sectionGroupIds :=
    (tierOrder ++ [otherGroupId]).filter fun groupId => groupId ∈ rowsByGroupId.keys
  (if rawMaterialTypeIds = [] then [] else [rawSection services methods rawMaterialTypeIds]) ++
    sectionGroupIds.map (tierSection methods rowsByGroupId)

/-- `raw_material_type_ids`. -/
def rawMaterialTypeIds (schematics : List (ℤ × SchematicDocument)) : List ℤ :=
  let outputTypeIds := schematics.map fun schematic => schematic.2.output.typeId
  let inputTypeIds := schematics.flatMap fun schematic => schematic.2.inputs.map Quantity.typeId
  (inputTypeIds.filter (· ∉ outputTypeIds)).dedup

/-- `list_planet_schematics`. -/
def listPlanetSchematics : Except PageError Text :=
  if services.planetSchematics = [] then
    let body := concat [r#"<div class="page"><h1>Planetary Industry</h1>"#,
      r#"<p class="empty">No planetary schematics found.</p></div>"#]
    return renderPage "Planetary Industry" body planetaryListStyle character
  else do
    let rows ← services.planetSchematics.mapM (schematicRow services)
    let sections := tierSections services methods rows
      (rawMaterialTypeIds services.planetSchematics)
    let filtersHtml := concat (sections.map fun tier => concat [r#"<label>
          <input type="checkbox" checked onchange="pi_toggle('"#, tier.id, r#"', this.checked)">
          "#, escape tier.label, r#"
        </label>"#])
    let body := concat [r#"<div class="page">
      <h1>Planetary Industry</h1>
      <div class="pi-filters">"#, filtersHtml, r#"</div>
      "#, concat (sections.map TierSection.html), "
      <script>
        function pi_toggle(id, show) \x7b
          document.getElementById(id).style.display = show ? '' : 'none';
        \x7d
      </script>
    </div>"]
    return renderPage "Planetary Industry" body planetaryListStyle character

/-! ## The page of a schematic -/

/-- `summary_rows_html` and `detail_sections_html` for a floor. -/
structure TierBreakdown where
  summaryRow : Text
  detailSection : Text

/-- The row of a material. -/
def materialRow (typeId : ℤ) (quantity : ℚ) : Text :=
  let unitPrice := services.unitPrice typeId
  concat [r#"
              <tr>
                <td>
                  <div class="material-cell">
                    <img class="icon" src=""#, escape (itemIconUrl typeId), r#""
                      alt=""#, escape (data (services.typeName typeId)),
    r#"" onerror="this.style.visibility='hidden'">
                    <div>"#, escape (data (services.typeName typeId)), r#"</div>
                  </div>
                </td>
                <td>"#, fixed true 2 quantity, r#"</td>
                <td>"#, formatIsk unitPrice, r#"</td>
                <td>"#, formatIsk (quantity * unitPrice), r#"</td>
              </tr>
            "#]

/-- The body of `for floor in range(own_tier)`, after the expansion. -/
def tierBreakdown (outputValue : ℚ) (cycleTimeSeconds : ℤ) (floor : ℕ) (expanded : Dict ℤ ℚ) :
    Except PageError TierBreakdown := do
  let cost := (expanded.entries.map fun entry => entry.2 * services.unitPrice entry.1).sum
  let profit := outputValue - cost
  let profitPerDay ← profitPerDay profit cycleTimeSeconds
  let tierLabel := "From P" ++ str floor
  let materialLines := sortedBy (fun entry : ℤ × ℚ => methods.lower (services.typeName entry.1))
    expanded.entries
  let materialRowsHtml := concat (materialLines.map fun entry =>
    materialRow services entry.1 entry.2)
  return {
    summaryRow := concat [r#"
          <tr>
            <td>"#, escape tierLabel, r#"</td>
            <td>"#, formatIsk cost, r#"</td>
            <td>"#, formatIsk outputValue, r#"</td>
            <td>"#, formatIsk profit, r#"</td>
            <td>"#, formatIsk profitPerDay, r#"</td>
          </tr>
        "#]
    detailSection := concat [r#"
          <h2>"#, escape tierLabel, r#"</h2>
          <table>
            <thead>
              <tr><th>Material</th><th>Quantity</th><th>Unit price</th><th>Subtotal</th></tr>
            </thead>
            <tbody>"#, materialRowsHtml, r#"</tbody>
          </table>
        "#] }

/-- `header` of `planet_schematic_detail`. -/
def schematicHeader (schematic : SchematicDocument) : Text :=
  let output := schematic.output
  let schematicName := escape (data schematic.name)
  let outputName := escape (data (services.typeName output.typeId))
  let icon := escape (itemIconUrl output.typeId)
  let cycleMinutes := schematic.cycleTimeSeconds / 60
  concat [r#"
      <div class="header">
        <img class="icon" src=""#, icon, r#"" alt=""#, outputName,
    r#"" onerror="this.style.visibility='hidden'">
        <div>
          <div class="name">"#, schematicName, r#"</div>
          <div class="meta">Produces "#, outputName, " &times;", str output.quantity, r#" &middot;
            "#, str cycleMinutes, r#" min cycle</div>
        </div>
      </div>
    "#]

/-- `planet_schematic_detail`, where `fuel` is the number of nested calls that Python allows. -/
def planetSchematicDetail (fuel : ℕ) (schematicId : ℤ) : Except PageError Text :=
  match services.planetSchematics.lookup schematicId with
  | none => throw (.notFound "Planetary schematic not found")
  | some schematic => do
      let pageTitle := concat [data schematic.name, " - eve-build"]
      let byOutput := schematicByOutputTypeId services.planetSchematics
      let tiers := tierIndexByTypeId
        (fun typeId => (services.typeDocs typeId).bind TypeDoc.groupId) byOutput
      let output := schematic.output
      let outputValue := output.quantity * services.unitPrice output.typeId
      let header := schematicHeader services schematic
      let ownTier := tiers.getD output.typeId 0
      if ownTier < 1 then
        let body := concat [r#"<div class="page">"#, header, r#"
          <p class="empty">No tier data available for this schematic.</p>
          <a class="btn btn-secondary back" href="/planetary">Back to planetary industry</a>
        </div>"#]
        return renderPage pageTitle body planetaryDetailStyle character
      else
        let floors ← (List.range ownTier.toNat).mapM fun floor : ℕ => do
          let expanded ← (breakdown byOutput tiers fuel floor schematic).mapError .ofExpansion
          tierBreakdown services methods outputValue schematic.cycleTimeSeconds floor expanded
        let body := concat [r#"<div class="page">"#, header, r#"
      <table>
        <thead>
          <tr>
            <th>Starting tier</th><th>Material cost</th><th>Output value</th>
            <th>Profit</th><th>Profit / day</th>
          </tr>
        </thead>
        <tbody>"#, concat (floors.map TierBreakdown.summaryRow), r#"</tbody>
      </table>
      "#, concat (floors.map TierBreakdown.detailSection), r#"
      <a class="btn btn-secondary back" href="/planetary">Back to planetary industry</a>
    </div>"#]
        return renderPage pageTitle body planetaryDetailStyle character

/-! ## Where the names are escaped -/

variable {services methods character}

/-- The names of the inputs are not escaped at all. -/
theorem escapedOnce_inputsText_iff {inputs : List Quantity} :
    (inputsText services inputs).EscapedOnce ↔
      ∀ material ∈ inputs, Plain (services.typeName material.typeId) := by
  rw [inputsText, escapedOnce_join, List.forall_mem_map]
  simp

theorem escapedOnce_schematicRow_iff {schematic : ℤ × SchematicDocument} {row : SchematicRow}
    (hrow : schematicRow services schematic = .ok row) :
    row.html.EscapedOnce ↔
      ∀ material ∈ schematic.2.inputs, Plain (services.typeName material.typeId) := by
  obtain ⟨_, _, hresult⟩ := bind_eq_ok.mp hrow
  cases hresult
  simp [escapedOnce_inputsText_iff]

@[simp] theorem escapedOnce_rawSection (rawMaterialTypeIds : List ℤ) :
    (rawSection services methods rawMaterialTypeIds).html.EscapedOnce := by
  simp [rawSection]

theorem escapedOnce_tierSection_iff {rowsByGroupId : Dict ℤ (List SchematicRow)} {groupId : ℤ} :
    (tierSection methods rowsByGroupId groupId).html.EscapedOnce ↔
      ∀ row ∈ rowsByGroupId.getD groupId [], row.html.EscapedOnce := by
  simp [tierSection]

theorem groupId_mem (row : SchematicRow) : row.groupId ∈ tierOrder ++ [otherGroupId] := by
  unfold SchematicRow.groupId
  cases hgroup : row.tierGroupId.filter fun groupId => groupId ∈ tierOrder with
  | none => simp
  | some groupId =>
      have hmem := Option.filter_eq_some_iff.mp hgroup
      simp_all

/-- **Every row is in a section.**  So the sections are right when the rows are. -/
theorem escapedOnce_tierSections_iff {rows : List SchematicRow} {rawMaterialTypeIds : List ℤ} :
    (∀ tier ∈ tierSections services methods rows rawMaterialTypeIds, tier.html.EscapedOnce) ↔
      ∀ row ∈ rows, row.html.EscapedOnce := by
  have hgroup : ∀ groupId row,
      row ∈ (Dict.appendBy SchematicRow.groupId id rows).getD groupId [] ↔
        row ∈ rows ∧ row.groupId = groupId := by
    intro groupId row
    rw [Dict.getD_appendBy, List.map_id, Dict.mem_group]
  have hraw : ∀ tier ∈ (if rawMaterialTypeIds = [] then []
      else [rawSection services methods rawMaterialTypeIds]), tier.html.EscapedOnce := by
    split <;> simp
  rw [tierSections, List.forall_mem_append, and_iff_right hraw, List.forall_mem_map]
  simp only [escapedOnce_tierSection_iff, hgroup, List.mem_filter, decide_eq_true_iff]
  constructor
  · intro hsections row hrow
    -- the group of a row is a key, and it is one of those that have a section
    have hkey : row.groupId ∈ (Dict.appendBy SchematicRow.groupId id rows).keys := by
      have hmem := (hgroup row.groupId row).mpr ⟨hrow, rfl⟩
      by_contra hkey
      rw [Dict.getD, Dict.get?_eq_none_iff.mpr hkey] at hmem
      cases hmem
    exact hsections row.groupId ⟨groupId_mem row, hkey⟩ row ⟨hrow, rfl⟩
  · intro hall groupId _ row hrow
    exact hall row hrow.1

/-- **The list of schematics** is right when all names of inputs are plain, and only then. -/
theorem escapedOnce_listPlanetSchematics_iff {page : Text}
    (hpage : listPlanetSchematics services methods character = .ok page) :
    page.EscapedOnce ↔ ∀ schematic ∈ services.planetSchematics, ∀ material ∈ schematic.2.inputs,
      Plain (services.typeName material.typeId) := by
  unfold listPlanetSchematics at hpage
  split at hpage
  · -- there are no schematics, and so no inputs
    rename_i hnone
    obtain rfl := Except.ok.inj hpage
    simp [escapedOnce_renderPage, hnone]
  · obtain ⟨rows, hrows, hresult⟩ := bind_eq_ok.mp hpage
    obtain rfl := Except.ok.inj hresult
    rw [escapedOnce_renderPage]
    simp only [escapedOnce_concat_cons, escapedOnce_concat_nil, escapedOnce_concat_map,
      escapedOnce_tierSections_iff, escape_markup, escapedOnce_markup, true_and, and_true,
      implies_true]
    exact forall_mem_mapM_iff (fun _ _ => escapedOnce_schematicRow_iff) hrows

@[simp] theorem escapedOnce_schematicHeader (schematic : SchematicDocument) :
    (schematicHeader services schematic).EscapedOnce := by
  simp [schematicHeader]

@[simp] theorem escapedOnce_materialRow (typeId : ℤ) (quantity : ℚ) :
    (materialRow services typeId quantity).EscapedOnce := by
  simp [materialRow]

theorem escapedOnce_tierBreakdown {outputValue : ℚ} {cycleTimeSeconds : ℤ} {floor : ℕ}
    {expanded : Dict ℤ ℚ} {tier : TierBreakdown}
    (htier : tierBreakdown services methods outputValue cycleTimeSeconds floor expanded =
      .ok tier) : tier.summaryRow.EscapedOnce ∧ tier.detailSection.EscapedOnce := by
  obtain ⟨_, _, hresult⟩ := bind_eq_ok.mp htier
  cases hresult
  simp

/-- **The page of a schematic**, whose title is a plain text until it is escaped. -/
theorem escapedOnce_planetSchematicDetail {fuel : ℕ} {schematicId : ℤ} {page : Text}
    (hpage : planetSchematicDetail services methods character fuel schematicId = .ok page) :
    page.EscapedOnce := by
  unfold planetSchematicDetail at hpage
  split at hpage
  · cases hpage
  · dsimp only at hpage
    split at hpage
    · -- the tier of the output is not known
      obtain rfl := Except.ok.inj hpage
      simp [escapedOnce_renderPage]
    · obtain ⟨floors, hfloors, hresult⟩ := bind_eq_ok.mp hpage
      obtain rfl := Except.ok.inj hresult
      have hall : ∀ tier ∈ floors,
          tier.summaryRow.EscapedOnce ∧ tier.detailSection.EscapedOnce := by
        refine forall_mem_of_mapM (fun floor tier htier => ?_) hfloors
        obtain ⟨expanded, _, htier⟩ := bind_eq_ok.mp htier
        exact escapedOnce_tierBreakdown htier
      rw [escapedOnce_renderPage]
      simpa using ⟨fun tier htier => (hall tier htier).1, fun tier htier => (hall tier htier).2⟩

end Handlers

end EveBuild.Pages
