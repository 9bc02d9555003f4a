import EveBuild.BuildChain.Toggle
import EveBuild.Data.Numerals
import EveBuild.Pages.Web
import Mathlib.Data.Finset.Sort

/-!
# The build pages

The handlers of `app/routes/build.py`, with the chain of `EveBuild.BuildChain.Model`.  The
build set is the one that the handler has read from its query.

`buildToggleHref` writes integers of any length, as the rest of the page does; `toggleHref` raises
the error of `str` for one that is too long (`EveBuild.Pages.Query`).  Prices are rationals.
-/

namespace EveBuild.Pages

open Markup Text
open BuildChain (Blueprint BuildResolution BuildStep RawMaterial ArithmeticError toggled)
open Numerals (ValueError strOf)

/-- A document of `search_items_by_name`. -/
structure FoundItem where
  id : ℤ
  name : String

/-- `_CHOOSER_STYLE` and `_LIST_STYLE`. -/
def buildListStyle : List String := ["/static/card.css", "/static/build.css"]

/-- `_DETAIL_STYLE`. -/
def buildDetailStyle : List String := ["/static/card.css", "/static/build-detail.css"]

def buildToggleHref (targetTypeId qty : ℤ) (buildSet : Finset ℤ) (toggledTypeId : ℤ)
    (adding : Bool) : Text :=
  let updated := toggled buildSet toggledTypeId adding
  let query : Text := concat ["qty=", str qty,
    if updated = ∅ then "" else "&build=" ++ ",".intercalate (updated.sort.map str)]
  concat ["/build/items/", str targetTypeId, "?", query]

/-- `_build_toggle_href`, where `str` may raise. -/
def toggleHref (targetTypeId qty : ℤ) (buildSet : Finset ℤ) (toggledTypeId : ℤ) (adding : Bool) :
    Except ValueError String := do
  let updated := toggled buildSet toggledTypeId adding
  let qtyText ← strOf qty
  let ids ← updated.sort.mapM strOf
  let targetText ← strOf targetTypeId
  let query := "qty=" ++ qtyText ++
    if updated = ∅ then "" else "&build=" ++ ",".intercalate ids
  return "/build/items/" ++ targetText ++ "?" ++ query

/-- What an arithmetic error of the chain comes to. -/
def PageError.ofArithmetic : ArithmeticError → PageError
  | .zeroDivision => .zeroDivision
  | .overflow => .overflow

section Handlers

variable (services : Services) (methods : StringMethods) (character : Option CharacterDocument)

def buildChooser : Text :=
  let body : Text := r#"<div class="page">
      <h1>What do you want to do?</h1>
      <div class="chooser-grid">
        <a class="chooser-card" href="/build/items">
          <div class="chooser-title">I know what I want to build</div>
          <div class="chooser-description">
            Search for an item - we'll work out the blueprint and material chain needed
            to build it, including any sub-components that need building first.
          </div>
        </a>
        <a class="chooser-card" href="/blueprints/catalog">
          <div class="chooser-title">I know which blueprint I want</div>
          <div class="chooser-description">
            Search the blueprint catalog directly and see its materials, cost, and
            output for a single run.
          </div>
        </a>
      </div>
    </div>"#
  renderPage "Build" body buildListStyle character

/-- `item_search`, with what the search for a query finds. -/
def itemSearch (search : String → List FoundItem) (q : String) : Text :=
  let query := methods.strip q
  let card := fun doc : FoundItem => concat [r#"
                  <a class="item-card" href="/build/items/"#, str doc.id, r#"">
                    <div class="item-card-content">
                      <div class="item-title">
                        <img class="item-title-icon"
                          src=""#, escape (itemIconUrl doc.id), r#""
                          alt="" onerror="this.style.visibility='hidden'">
                        "#, escape (data doc.name), r#"
                      </div>
                    </div>
                  </a>
                "#]
  let resultsHtml : Text :=
    if 2 ≤ query.length then
      if (search query).isEmpty then r#"<p class="empty">No items match your search.</p>"#
      else concat [r#"<div class="item-grid">"#, concat ((search query).map card), "</div>"]
    else if query ≠ "" then
      r#"<p class="empty">Keep typing - search needs at least 2 characters.</p>"#
    else ""
  let searchForm := concat [r#"
      <form method="get" class="filters">
        <input type="text" name="q" value=""#, escape (data query), r#""
          placeholder="Search for an item to build" autofocus>
      </form>
    "#]
  let body := concat [r#"<div class="page">
      <h1>What do you want to build?</h1>
      "#, searchForm, r#"
      "#, resultsHtml, r#"
    </div>"#]
  renderPage "Build an item" body buildListStyle character

/-! ## The chain of an item -/

/-- The card of a build step; all steps but the one of the target can be bought instead. -/
def stepCard (typeId qty : ℤ) (buildSet : Finset ℤ) (step : BuildStep) : Text :=
  let buyFlag : Text :=
    if step.typeId = typeId then ""
    else
      let href := escape (buildToggleHref typeId qty buildSet step.typeId false)
      concat [r#"<a class="flag flag-buy" href=""#, href, r#"">Buy instead</a>"#]
  concat [r#"
          <div class="item-card">
            <div class="item-card-content">
              <div class="item-title">
                <img class="item-title-icon" src=""#, escape (itemIconUrl step.typeId), r#"" alt=""
                  onerror="this.style.visibility='hidden'">
                "#, escape (data step.name), r#"
                "#, buyFlag, r#"
              </div>
              "#, itemLineHtml "Runs" (str step.runs), r#"
              "#, itemLineHtml "Produces" (str step.quantityNeeded), r#"
            </div>
          </div>
        "#]

/-- The card of a raw material, which is built instead if it can be. -/
def rawCard (typeId qty : ℤ) (buildSet : Finset ℤ) (material : RawMaterial) : Text :=
  let materialFlag : Text :=
    if !material.isBuildable then r#"<span class="flag flag-buy">Bought</span>"#
    else
      let href := escape (buildToggleHref typeId qty buildSet material.typeId true)
      concat [r#"<a class="flag flag-build" href=""#, href, r#"">Build</a>"#]
  let cost := material.quantity * services.unitPrice material.typeId
  concat [r#"
          <div class="item-card">
            <div class="item-card-content">
              <div class="item-title">
                <img class="item-title-icon" src=""#, escape (itemIconUrl material.typeId), r#""
                  alt="" onerror="this.style.visibility='hidden'">
                "#, escape (data material.name), r#"
                "#, materialFlag, r#"
              </div>
              "#, itemLineHtml "Quantity" (str material.quantity), r#"
              "#, itemLineHtml "Est. cost" (formatIsk cost), r#"
            </div>
          </div>
        "#]

/-- The page of a resolved chain. -/
def chainPage (typeId qty : ℤ) (buildSet : Finset ℤ) (resolution : BuildResolution) : Text :=
  let itemName := escape (data resolution.targetName)
  let itemIcon := escape (itemIconUrl typeId)
  let qtyText := escape (str qty)
  let pageTitle := concat [itemName, " - eve-build"]
  let header := concat [r#"
      <div class="header">
        <img class="icon" src=""#, itemIcon, r#"" alt=""#, itemName, r#""
          onerror="this.style.visibility='hidden'">
        <div>
          <div class="name">"#, itemName, r#"</div>
          <div class="meta">Building "#, qtyText, r#" &times;</div>
        </div>
      </div>
    "#]
  if !resolution.isBuildable then
    let body := concat [r#"<div class="page">"#, header, r#"
          <p class="empty">No blueprint or reaction formula produces this item - it can only
            be bought, not built.</p>
          <a class="btn btn-secondary back" href="/build/items">Back to search</a>
        </div>"#]
    renderPage pageTitle body buildDetailStyle character
  else
    let rawMaterialCost := (resolution.rawMaterials.map fun material =>
      material.quantity * services.unitPrice material.typeId).sum
    let outputValue := qty * services.unitPrice typeId
    let profit := outputValue - rawMaterialCost
    let stats := concat [summaryStat (formatIsk rawMaterialCost) "Raw material cost",
      summaryStat (formatIsk outputValue) "Output value",
      summaryStat (formatIsk profit) "Profit",
      summaryStat (str resolution.steps.length) "Build steps"]
    let stepCards := concat (resolution.steps.map (stepCard typeId qty buildSet))
    let stepsSection := sectionBox "Build steps" stepCards
    let rawCards := concat (resolution.rawMaterials.map (rawCard services typeId qty buildSet))
    let rawSection := sectionBox "Materials" rawCards
    let body := concat [r#"<div class="page">"#, header, r#"
      <div class="summary">"#, stats, r#"</div>
      "#, rawSection, r#"
      "#, stepsSection, r#"
      <a class="btn btn-secondary back" href="/build/items">Back to search</a>
    </div>"#]
    renderPage pageTitle body buildDetailStyle character

/-- `item_build_chain`, with the documents of `sde_blueprints` that the chain is made of. -/
def itemBuildChain (ceilQuotient : ℤ → ℤ → Except ArithmeticError ℤ) (products : List Blueprint)
    (typeId qty : ℤ) (buildSet : Finset ℤ) : Except PageError Text :=
  match services.typeDocs typeId with
  | none => throw (.notFound "Item not found")
  | some _ =>
      match BuildChain.resolveBuildChain ceilQuotient products typeId buildSet
        (fun typeId => (services.typeDocs typeId).bind TypeDoc.name) qty with
      | .error error => throw (.ofArithmetic error)
      | .ok resolution => return chainPage services character typeId qty buildSet resolution

/-! ## Where the names are escaped -/

variable {services methods character}

theorem escapedOnce_buildChooser : (buildChooser character).EscapedOnce := by
  simp [buildChooser, escapedOnce_renderPage]

theorem escapedOnce_itemSearch (search : String → List FoundItem) (q : String) :
    (itemSearch methods character search q).EscapedOnce := by
  unfold itemSearch
  rw [escapedOnce_renderPage]
  simp

@[simp] theorem escapedOnce_escape_buildToggleHref (targetTypeId qty : ℤ) (buildSet : Finset ℤ)
    (toggledTypeId : ℤ) (adding : Bool) :
    (escape (buildToggleHref targetTypeId qty buildSet toggledTypeId adding)).EscapedOnce := by
  simp [buildToggleHref]

@[simp] theorem escapedOnce_stepCard (typeId qty : ℤ) (buildSet : Finset ℤ) (step : BuildStep) :
    (stepCard typeId qty buildSet step).EscapedOnce := by
  simp [stepCard]

@[simp] theorem escapedOnce_rawCard (typeId qty : ℤ) (buildSet : Finset ℤ)
    (material : RawMaterial) : (rawCard services typeId qty buildSet material).EscapedOnce := by
  simp [rawCard]

theorem escapedOnce_chainPage_iff {typeId qty : ℤ} {buildSet : Finset ℤ}
    {resolution : BuildResolution} :
    (chainPage services character typeId qty buildSet resolution).EscapedOnce ↔
      Plain resolution.targetName := by
  unfold chainPage
  dsimp only
  split
  · exact escapedOnce_titledPage_iff (by simp)
  · exact escapedOnce_titledPage_iff (by simp)

/-- The chain names its target as the pages do. -/
theorem targetName_resolveBuildChain {ceilQuotient : ℤ → ℤ → Except ArithmeticError ℤ}
    {products : List Blueprint} {typeId qty : ℤ} {buildSet : Finset ℤ}
    {resolution : BuildResolution}
    (hresolve : BuildChain.resolveBuildChain ceilQuotient products typeId buildSet
      (fun typeId => (services.typeDocs typeId).bind TypeDoc.name) qty = .ok resolution) :
    resolution.targetName = services.typeName typeId := by
  obtain ⟨_, _, hresult⟩ := bind_eq_ok.mp hresolve
  cases hresult
  simp only [BuildChain.nameOf, Services.typeName, str, Int.toString_eq_repr]
  rfl

/-- **The chain of an item.**  Its name is escaped once in the body, and twice in the title. -/
theorem escapedOnce_itemBuildChain_iff {ceilQuotient : ℤ → ℤ → Except ArithmeticError ℤ}
    {products : List Blueprint} {typeId qty : ℤ} {buildSet : Finset ℤ} {page : Text}
    (hpage : itemBuildChain services character ceilQuotient products typeId qty buildSet =
      .ok page) : page.EscapedOnce ↔ Plain (services.typeName typeId) := by
  unfold itemBuildChain at hpage
  split at hpage
  · cases hpage
  · split at hpage
    · cases hpage
    · rename_i resolution hresolve
      obtain rfl := Except.ok.inj hpage
      rw [escapedOnce_chainPage_iff, targetName_resolveBuildChain hresolve]

end Handlers

end EveBuild.Pages
