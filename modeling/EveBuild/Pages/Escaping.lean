import EveBuild.Pages.Assets
import EveBuild.Pages.Blueprints
import EveBuild.Pages.Build
import EveBuild.Pages.Jobs
import EveBuild.Pages.Planetary
import EveBuild.Pages.Planets

/-!
# Names on the pages

All blueprint, asset, build, job, planetary and planet pages, for whatever the services return.
A helper that puts a name on a page expects it escaped or escapes it, and each page hands most
names on as they are expected: those are escaped once, whatever characters they have.

There are three exceptions.  The list of planetary schematics does not escape the names of the
inputs.  Five pages hand a name that is escaped already on as the title, and the page of a
colony does so with the title of a factory's card; there it is escaped twice.  These pages are
right exactly when the names have no characters to escape (`data_escaped_once_iff`).
-/

namespace EveBuild.Pages

open Markup Text
open Assets (AssetEntry)
open BuildChain (ArithmeticError Blueprint exactCeil)
open Migrations (SchematicDocument)
open Planets (schematicById)

/-- What the pages are made of, whichever of them is asked for. -/
structure Site where
  services : Services
  methods : StringMethods
  /-- The merged blueprints, and whether they include those of the corporation. -/
  blueprints : List BlueprintEntry × Bool
  assets : List AssetEntry × Bool
  jobs : List IndustryJobEntry
  /-- The colonies, unless they may not be read. -/
  colonies : Option (List ColonyRecord)
  searchBlueprints : String → List FoundBlueprint
  searchItems : String → List FoundItem
  /-- The documents of `sde_blueprints` that a chain is made of. -/
  products : List Blueprint
  ceilQuotient : ℤ → ℤ → Except ArithmeticError ℤ
  /-- The number of nested calls that Python allows. -/
  fuel : ℕ

/-- The routes, with their parameters. -/
inductive PageRequest
  | listBlueprints (filter : BlueprintFilter)
  | blueprintCatalog (q : String)
  | catalogBlueprintDetail (typeId : ℤ)
  | blueprintDetail (itemId : ℤ)
  | listAssets
  | itemDetail (typeId : ℤ)
  | locationDetail (locationId : ℤ)
  | buildChooser
  | itemSearch (q : String)
  | itemBuildChain (typeId qty : ℤ) (buildSet : Finset ℤ)
  | jobDetail (jobId : ℤ)
  | listPlanetSchematics
  | planetSchematicDetail (schematicId : ℤ)
  | listColonies
  | colonyDetail (planetId : ℤ)

/-- The page that a request gets. -/
def respond (site : Site) (character : Option CharacterDocument) :
    PageRequest → Except PageError Text
  | .listBlueprints filter =>
      return listBlueprints site.services site.methods character site.blueprints site.assets filter
  | .blueprintCatalog q => return blueprintCatalog site.methods character site.searchBlueprints q
  | .catalogBlueprintDetail typeId => catalogBlueprintDetail site.services character typeId
  | .blueprintDetail itemId =>
      blueprintDetail site.services character site.blueprints.1 site.assets.1 itemId
  | .listAssets => return listAssets site.services site.methods character site.assets
  | .itemDetail typeId => itemDetail site.services character site.assets.1 typeId
  | .locationDetail locationId =>
      locationDetail site.services character site.assets.1 locationId
  | .buildChooser => return buildChooser character
  | .itemSearch q => return itemSearch site.methods character site.searchItems q
  | .itemBuildChain typeId qty buildSet =>
      itemBuildChain site.services character site.ceilQuotient site.products typeId qty buildSet
  | .jobDetail jobId => jobDetail site.services site.methods character site.jobs jobId
  | .listPlanetSchematics => listPlanetSchematics site.services site.methods character
  | .planetSchematicDetail schematicId =>
      planetSchematicDetail site.services site.methods character site.fuel schematicId
  | .listColonies => listColonies site.services site.methods character site.colonies
  | .colonyDetail planetId =>
      colonyDetail site.services site.methods character site.colonies planetId

/-- The names that a page does not escape, or escapes twice, have no characters to escape. -/
def NamesPlain (site : Site) : PageRequest → Prop
  | .catalogBlueprintDetail typeId | .itemDetail typeId | .itemBuildChain typeId _ _ =>
      Plain (site.services.typeName typeId)
  | .blueprintDetail itemId => ∀ bp ∈ site.blueprints.1.find? (fun bp => bp.itemId = itemId),
      Plain (nameOrType site.services bp.typeId)
  | .jobDetail jobId => ∀ job ∈ site.jobs.find? (fun job => job.jobId = jobId),
      Plain (site.services.typeName job.blueprintTypeId)
  | .listPlanetSchematics =>
      ∀ schematic ∈ site.services.planetSchematics, ∀ material ∈ schematic.2.inputs,
        Plain (site.services.typeName material.typeId)
  | .colonyDetail planetId =>
      ∀ colony ∈ (site.colonies.getD []).find? (fun colony => colony.planetId = planetId),
        ∀ pin ∈ colony.pins,
          ∀ schematic ∈ factorySchematic? (schematicById site.services.planetSchematics) pin,
            Plain schematic.name
  | .listBlueprints _ | .blueprintCatalog _ | .listAssets | .locationDetail _ | .buildChooser
  | .itemSearch _ | .planetSchematicDetail _ | .listColonies => True

/-- **Where data is escaped once.**  On a page, all data is escaped once, begins no tag, ends no
attribute value and is displayed as it is, exactly when the names that the page does not escape
or escapes twice are plain. -/
theorem data_escaped_once_iff {site : Site} {character : Option CharacterDocument}
    {request : PageRequest} {page : Text} (hpage : respond site character request = .ok page) :
    page.EscapedOnce ↔ NamesPlain site request := by
  cases request with
  | listBlueprints filter =>
      obtain rfl := Except.ok.inj hpage
      exact iff_of_true (escapedOnce_listBlueprints _ _ filter) trivial
  | blueprintCatalog q =>
      obtain rfl := Except.ok.inj hpage
      exact iff_of_true (escapedOnce_blueprintCatalog _ q) trivial
  | catalogBlueprintDetail typeId => exact escapedOnce_catalogBlueprintDetail_iff hpage
  | blueprintDetail itemId => exact escapedOnce_blueprintDetail_iff hpage
  | listAssets =>
      obtain rfl := Except.ok.inj hpage
      exact iff_of_true (escapedOnce_listAssets _) trivial
  | itemDetail typeId => exact escapedOnce_itemDetail_iff hpage
  | locationDetail locationId => exact iff_of_true (escapedOnce_locationDetail hpage) trivial
  | buildChooser =>
      obtain rfl := Except.ok.inj hpage
      exact iff_of_true escapedOnce_buildChooser trivial
  | itemSearch q =>
      obtain rfl := Except.ok.inj hpage
      exact iff_of_true (escapedOnce_itemSearch _ q) trivial
  | itemBuildChain typeId qty buildSet => exact escapedOnce_itemBuildChain_iff hpage
  | jobDetail jobId => exact escapedOnce_jobDetail_iff hpage
  | listPlanetSchematics => exact escapedOnce_listPlanetSchematics_iff hpage
  | planetSchematicDetail schematicId =>
      exact iff_of_true (escapedOnce_planetSchematicDetail hpage) trivial
  | listColonies => exact iff_of_true (escapedOnce_listColonies hpage) trivial
  | colonyDetail planetId => exact escapedOnce_colonyDetail_iff hpage

/-! ## Two pages that are not right -/

/-- `str.lower`, `str.strip` and `str.capitalize` of ASCII texts. -/
def asciiMethods : StringMethods where
  lower text := text.map Char.toLower
  strip text := .ofList
    ((text.toList.dropWhile Char.isWhitespace).reverse.dropWhile Char.isWhitespace).reverse
  capitalize text := match text.toList with
    | [] => ""
    | c :: rest => .ofList (c.toUpper :: rest.map Char.toLower)

/-- The schematic of water, made of a material whose name has markup in it, and the blueprint of
a module whose name has an apostrophe. -/
def markedSite : Site where
  services := {
    typeDocs := fun typeId =>
      if typeId = 3645 then some ⟨some "Water", none, some 1042, some 43, some (3 / 8)⟩
      else if typeId = 2268 then
        some ⟨some "<b>Aqueous Liquids</b>", none, none, some 42, some (1 / 100)⟩
      else if typeId = 15852 then
        some ⟨some "Tuvan's Modified Cap Booster Blueprint", some 1, none, none, none⟩
      else none
    blueprintDocs := fun typeId =>
      if typeId = 15852 then some ⟨none, none, some 1, []⟩ else none
    marketPrices := fun _ => none
    locationInfo := fun _ => none
    planetNames := fun _ => none
    systemNames := fun _ => none
    planetSchematics := [(121, ⟨"Water", 1800, ⟨3645, 20⟩, [⟨2268, 3000⟩]⟩)]
    secondsUntil := fun _ => none }
  methods := asciiMethods
  blueprints := ([], false)
  assets := ([], false)
  jobs := []
  colonies := none
  searchBlueprints := fun _ => []
  searchItems := fun _ => []
  products := []
  ceilQuotient := exactCeil
  fuel := 1000

theorem data_escaped_once_iff_markedSite :
    ∃ page, respond markedSite none .listPlanetSchematics = .ok page ∧
      (page.EscapedOnce ↔ NamesPlain markedSite .listPlanetSchematics) :=
  ⟨_, rfl, data_escaped_once_iff rfl⟩

/-- The list has a material's name with its markup, and the page of a blueprint has an
apostrophe that is escaped twice in its title. -/
theorem not_escaped_once_markedSite :
    (∃ page, respond markedSite none .listPlanetSchematics = .ok page ∧ ¬page.EscapedOnce) ∧
      ∃ page, respond markedSite none (.catalogBlueprintDetail 15852) = .ok page ∧
        ¬page.EscapedOnce := by
  have hlist : ∀ page, respond markedSite none .listPlanetSchematics = .ok page →
      ¬page.EscapedOnce := by
    -- the material of the only schematic would have to be plain
    intro page hpage hescaped
    have hplain := (escapedOnce_listPlanetSchematics_iff hpage).mp hescaped _
      (List.mem_singleton_self _) ⟨2268, 3000⟩ (List.mem_singleton_self _)
    have hnot : ¬Plain "<b>Aqueous Liquids</b>" := by simp [Plain, special]
    exact hnot hplain
  have hblueprint : ∀ page, respond markedSite none (.catalogBlueprintDetail 15852) = .ok page →
      ¬page.EscapedOnce := by
    intro page hpage hescaped
    change catalogBlueprintDetail markedSite.services none 15852 = .ok page at hpage
    have hplain := (escapedOnce_catalogBlueprintDetail_iff hpage).mp hescaped
    have hnot : ¬Plain "Tuvan's Modified Cap Booster Blueprint" := by simp [Plain, special]
    exact hnot hplain
  exact ⟨⟨_, rfl, hlist _ rfl⟩, _, rfl, hblueprint _ rfl⟩

end EveBuild.Pages
