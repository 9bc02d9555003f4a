import EveBuild.Data.FloatValue
import EveBuild.Data.Loops
import EveBuild.Pages.Web
import EveBuild.Planets.Model

/-!
# The planet pages

The handlers of `app/routes/pi.py`, with the pins of `EveBuild.Planets.Model`.

* The colonies are what the visitor has, or `none` where ESI refuses them.
* The sums of the resource flow are floats, and what is added to them are the quantities as they
  stand in the details of a pin, so that the addition can raise an error.
* The times are what `secondsUntil` makes of them; the times of one page are read at one moment.
-/

namespace EveBuild.Pages

open Markup Text
open Migrations (SchematicDocument)
open Planets (Content Pin PinCards placePin pinCards schematicById listCounts)

/-- The fields of `esi.ColonyRecord` that the pages show. -/
structure ColonyRecord where
  planetId : ℤ
  solarSystemId : ℤ
  planetType : String
  upgradeLevel : ℤ
  numPins : ℤ
  pins : List Pin

/-- `_FACILITY_TIER_ORDER`. -/
def facilityTierOrder : List (ℤ × ℤ) := [(2470, 0), (2471, 1), (2477, 2)]

/-- `_PLANET_TYPE_LABELS`. -/
def planetTypeLabels : List (String × String) :=
  [("temperate", "Temperate"), ("barren", "Barren"), ("oceanic", "Oceanic"), ("ice", "Ice"),
    ("gas", "Gas"), ("lava", "Lava"), ("storm", "Storm"), ("plasma", "Plasma")]

/-- `_LIST_STYLE`. -/
def piListStyle : List String := ["/static/card.css", "/static/pi-list.css"]

/-- `_DETAIL_STYLE`. -/
def piDetailStyle : List String := ["/static/card.css", "/static/pi-detail.css"]

def scopeNoticeHtml : Text := r#"<div class="page">
  <h1>Planets</h1>
  <div class="scope-notice">
    Planets needs an extra permission this character hasn't granted yet.
    <a href="/auth/logout">Log out</a> and log back in to grant access.
  </div>
</div>"#

/-- `_planet_type_label`. -/
def planetTypeLabel (methods : StringMethods) (planetType : String) : String :=
  (planetTypeLabels.lookup planetType).getD (methods.capitalize planetType)

/-- `name or default`. -/
def nameOr (name : Option String) (default : String) : String :=
  (name.filter (· ≠ "")).getD default

/-- An integer of a pin's details. -/
def intField (details : Document) (name : String) : Option ℤ :=
  match details.field name with
  | .number (.int value) => some value
  | _ => none

section Handlers

variable (services : Services) (methods : StringMethods) (character : Option CharacterDocument)

/-- `planet_name`, before it is escaped. -/
def planetName (colony : ColonyRecord) : String :=
  nameOr (services.planetNames colony.planetId) ("Planet " ++ str colony.planetId)

/-- `system_name`, before it is escaped. -/
def systemName (colony : ColonyRecord) : String :=
  nameOr (services.systemNames colony.solarSystemId) ("System " ++ str colony.solarSystemId)

/-- `status_html`, with the seconds until the pins expire and what is said of those that have. -/
def statusHtml (expiryTimes : List ℚ) (expired : String) : Text :=
  match (expiryTimes.filter (0 < ·)).min? with
  | some soonest => concat [r#"<span class="flag flag-build">Extracting &middot; "#, "ready ",
      escape (humanizeRelativeTime soonest), "</span>"]
  | none =>
      if expiryTimes ≠ [] then concat [r#"<span class="flag flag-buy">"#, expired, "</span>"]
      else r#"<span class="flag flag-buy">Idle</span>"#

/-! ## The list of colonies -/

/-- `_produced_type_ids`. -/
def producedTypeIds (byId : Dict ℤ SchematicDocument) (colony : ColonyRecord) : List ℤ :=
  (colony.pins.filterMap fun pin => match pin.extractorDetails with
    | some details => intField details "product_type_id"
    | none => (pin.schematicId.bind byId.get?).map fun schematic => schematic.output.typeId)
  |>.eraseDups

/-- `produces_html`. -/
def producesHtml (produced : List ℤ) : Text :=
  if produced = [] then ""
  else
    let iconsHtml := concat (produced.map fun typeId => concat [
      r#"<img class="produces-icon" src=""#, escape (itemIconUrl typeId), r#"" "#,
      r#"alt=""#, escape (data (services.typeName typeId)),
      r#"" title=""#, escape (data (services.typeName typeId)), r#"" "#,
      r#"onerror="this.style.visibility='hidden'">"#])
    concat [r#"
              <div class="item-block">
                <div class="item-subhead">Produces</div>
                <div class="produces-row">"#, iconsHtml, r#"</div>
              </div>
            "#]

/-- The body of `for colony in sorted(colonies, …)`. -/
def colonyRow (byId : Dict ℤ SchematicDocument) (colony : ColonyRecord) (expiryTimes : List ℚ) :
    Text :=
  let planetName := escape (data (planetName services colony))
  let systemName := escape (data (systemName services colony))
  let typeLabel := escape (data (planetTypeLabel methods colony.planetType))
  let statusHtml := statusHtml expiryTimes "Idle &middot; extraction expired"
  let counts := listCounts colony.pins
  let detailHref := escape (concat ["/pi/", str colony.planetId])
  concat [r#"
          <a class="item-card" href=""#, detailHref, r#"">
            <div class="item-card-content">
              <div class="item-title">"#, planetName, r#"</div>
              "#, producesHtml services (producedTypeIds byId colony), r#"
              "#, itemLineHtml "Type" typeLabel, r#"
              "#, itemLineHtml "System" systemName, r#"
              "#, itemLineHtml "Upgrade level" (str colony.upgradeLevel), r#"
              "#, itemLineHtml "Extractors" (str counts.extractors), r#"
              "#, itemLineHtml "Factories" (str counts.factories), r#"
              "#, itemLineHtml "Storage" (str counts.storage), r#"
              "#, itemLineHtml "Status" statusHtml, r#"
            </div>
          </a>
        "#]

/-- The seconds until some times, if all of them are times. -/
def secondsUntilEach (times : List String) : Except PageError (List ℚ) :=
  times.mapM fun time => match services.secondsUntil time with
    | some seconds => return seconds
    | none => throw .invalidTime

/-- `list_colonies`, where `none` stands for colonies that may not be read. -/
def listColonies (colonies : Option (List ColonyRecord)) : Except PageError Text :=
  match colonies with
  | none => return renderPage "Planets - eve-build" scopeNoticeHtml piListStyle character
  | some colonies => do
      let byId := schematicById services.planetSchematics
      let sorted := sortedBy (fun colony : ColonyRecord =>
        nameOr (services.planetNames colony.planetId) "") colonies
      let rowsHtml ← sorted.mapM fun colony => do
        let expiryTimes ← secondsUntilEach services (colony.pins.filterMap Pin.expiryTime)
        return colonyRow services methods byId colony expiryTimes
      let emptySlots := List.replicate (6 - rowsHtml.length)
        (markup r#"<div class="item-card item-card-empty">Empty</div>"#)
      let body := concat [r#"<div class="page">
      <h1>Planets</h1>
      <div class="item-grid planet-grid">"#, concat rowsHtml, concat emptySlots, r#"</div>
    </div>"#]
      return renderPage "Planets - eve-build" body piListStyle character

/-! ## The page of a colony -/

/-- `_card`: the title is escaped, the lines and what else is on the card are not. -/
def colonyCard (title : Text) (lines : List (String × Text)) (extraHtml : Text)
    (bgTypeId : Option ℤ) : Text :=
  let linesHtml := concat (lines.map fun line => itemLineHtml line.1 line.2)
  let iconHtml : Text := match bgTypeId with
    | none => ""
    | some typeId => concat [r#"<img class="item-title-icon" src=""#, escape (itemIconUrl typeId),
        r#"" alt="" "#, r#"onerror="this.style.visibility='hidden'">"#]
  concat [r#"
          <div class="item-card">
            <div class="item-card-content">
              <div class="item-title">"#, iconHtml, escape title, r#"</div>
              "#, extraHtml, r#"
              "#, linesHtml, r#"
            </div>
          </div>
        "#]

/-- A row of a `_quantity_table`. -/
def quantityRow (typeId quantity : ℤ) (format : ℤ → String) : Text :=
  concat ["<tr><td>", escape (data (services.typeName typeId)), "</td><td>",
    concat ["&times;", format quantity], "</td></tr>"]

/-- `_quantity_table`. -/
def quantityTable (label : String) (rows : List Text) : Text :=
  concat [r#"
          <div class="item-block">
            <div class="item-subhead">"#, escape label, r#"</div>
            <table class="mini-table"><tbody>"#, concat rows, r#"</tbody></table>
          </div>
        "#]

/-- The card of a pin with extractor details, of which the product may be missing or zero. -/
def extractorCard (pin : Pin) : Text :=
  let productTypeId := (pin.extractorDetails.bind fun details =>
    intField details "product_type_id").filter (· ≠ 0)
  let productName : Text := match productTypeId with
    | some typeId => escape (data (services.typeName typeId))
    | none => "-"
  let expiryLabel : Text := match pin.expiryTime.bind services.secondsUntil with
    | some seconds => if 0 < seconds then escape (humanizeRelativeTime seconds) else "expired"
    | none => "-"
  colonyCard (data (services.typeName pin.typeId))
    [("Product", productName), ("Expires", expiryLabel)] "" none

/-- The card of a factory. -/
def factoryCard (_pin : Pin) (schematic : SchematicDocument) : Text :=
  let inputsTable := quantityTable "Inputs" (schematic.inputs.map fun material =>
    quantityRow services material.typeId material.quantity str)
  let outputTable := quantityTable "Output"
    [quantityRow services schematic.output.typeId schematic.output.quantity str]
  let cycleMinutes := schematic.cycleTimeSeconds / 60
  let schematicName := escape (data schematic.name)
  colonyCard schematicName [("Cycle time", concat [str cycleMinutes, " min"])]
    (concat [inputsTable, outputTable]) (some schematic.output.typeId)

/-- The card of any other pin. -/
def storageCard (pin : Pin) : Text :=
  let title := data (services.typeName pin.typeId)
  match pin.contents.getD [] with
  | [] => colonyCard title [("Contents", "-")] "" none
  | contents => colonyCard title [] (quantityTable "Contents" (contents.map fun item =>
      quantityRow services item.typeId item.amount fun amount => formatNumber amount)) none

/-- `_grouped_section`.  Sorting by the names first, and then by the tiers, is sorting by both. -/
def groupedSection (title : String) (cardsByGroup : Dict ℤ (List Text)) : Text :=
  if cardsByGroup.entries = [] then ""
  else
    let groupTypeIds := sortedBy (fun typeId => (facilityTierOrder.lookup typeId).getD 99)
      (sortedBy services.typeName cardsByGroup.keys)
    let groupsHtml := concat (groupTypeIds.map fun groupTypeId => concat [r#"
              <div class="facility-group">
                <h3>"#, escape (data (services.typeName groupTypeId)), r#"</h3>
                <div class="item-grid">"#, concat (cardsByGroup.getD groupTypeId []), r#"</div>
              </div>
            "#])
    concat [r#"
          <div class="section-box">
            <h2>"#, escape title, r#"</h2>
            "#, groupsHtml, r#"
          </div>
        "#]

/-- The second argument of `_add_flow`. -/
inductive Direction
  | into
  | outOf
deriving DecidableEq

/-- A call of `_add_flow`. -/
structure FlowCall where
  typeId : ℤ
  direction : Direction
  quantity : Value

/-- The calls of `_add_flow` for a pin.  An extractor whose details have no `qty_per_cycle` adds
zero. -/
def flowCalls (byId : Dict ℤ SchematicDocument) (pin : Pin) : List FlowCall :=
  match pin.extractorDetails with
  | some details => match intField details "product_type_id" with
      | some typeId => [⟨typeId, .outOf, details.getD "qty_per_cycle" (.int 0)⟩]
      | none => []
  | none => match pin.schematicId.bind byId.get? with
      | some schematic =>
          schematic.inputs.map (fun material => ⟨material.typeId, .into, .int material.quantity⟩) ++
            [⟨schematic.output.typeId, .outOf, .int schematic.output.quantity⟩]
      | none => []

/-- An entry of `resource_flow`. -/
structure Flow where
  into : FloatValue
  outOf : FloatValue

/-- `{"in": 0.0, "out": 0.0}`. -/
def Flow.zero : Flow := ⟨.finite 0, .finite 0⟩

/-- `entry[direction]`. -/
def Flow.sum (entry : Flow) : Direction → FloatValue
  | .into => entry.into
  | .outOf => entry.outOf

/-- `entry[direction] = sum`. -/
def Flow.setSum (entry : Flow) (direction : Direction) (sum : FloatValue) : Flow :=
  match direction with
  | .into => { entry with into := sum }
  | .outOf => { entry with outOf := sum }

/-- The float that a quantity is where it is added to one. -/
def asFloat : Value → Except PageError FloatValue
  | .number (.int quantity) => (FloatValue.ofInt? quantity).elim (throw .overflow) pure
  | .number (.float bits) => return .ofBits bits
  | .bool quantity => return .finite (if quantity then 1 else 0)
  | _ => throw .typeError

/-- `sum + quantity`. -/
def addQuantity (sum : FloatValue) (quantity : Value) : Except PageError FloatValue :=
  sum.add <$> asFloat quantity

/-- `_add_flow`. -/
def addFlow (resourceFlow : Dict ℤ Flow) (call : FlowCall) : Except PageError (Dict ℤ Flow) := do
  let entry := resourceFlow.getD call.typeId .zero
  let sum ← addQuantity (entry.sum call.direction) call.quantity
  return resourceFlow.set call.typeId (entry.setSum call.direction sum)

/-- `resource_flow` after the loop over the pins. -/
def resourceFlow (byId : Dict ℤ SchematicDocument) (pins : List Pin) :
    Except PageError (Dict ℤ Flow) :=
  (pins.flatMap (flowCalls byId)).foldlM addFlow .empty

/-- `resource_names`. -/
def resourceNames (flows : Dict ℤ Flow) : List ℤ :=
  sortedBy (fun typeId => methods.lower (services.typeName typeId)) flows.keys

/-- `import_type_ids`. -/
def importTypeIds (flows : Dict ℤ Flow) : List ℤ :=
  (resourceNames services methods flows).filter fun typeId =>
    (flows.getD typeId .zero).into.isTrue && !(flows.getD typeId .zero).outOf.isTrue

/-- `export_type_ids`. -/
def exportTypeIds (flows : Dict ℤ Flow) : List ℤ :=
  (resourceNames services methods flows).filter fun typeId =>
    (flows.getD typeId .zero).outOf.isTrue && !(flows.getD typeId .zero).into.isTrue

/-- `format_number` of a sum. -/
def formatSum : FloatValue → String
  | .finite value => formatNumber value
  | .infinite negative => if negative then "-inf" else "inf"
  | .nan => "nan"

/-- `_flow_stat`. -/
def flowStat (flows : Dict ℤ Flow) (typeId : ℤ) (direction : Direction) : Text :=
  let quantity := formatSum ((flows.getD typeId .zero).sum direction)
  let icon := escape (itemIconUrl typeId)
  let name := escape (data (services.typeName typeId))
  let directionText := match direction with
    | .into => "in"
    | .outOf => "out"
  let caretClass := if direction = .into then "flow-caret-in" else "flow-caret-out"
  let caretGlyph := if direction = .into then "&#9660;" else "&#9650;"
  concat [r#"
          <div class="summary-stat summary-stat-icon">
            <img class="icon" src=""#, icon, r#"" alt=""#, name,
    r#"" onerror="this.style.visibility='hidden'">
            <span class="flow-caret "#, caretClass, r#"">"#, caretGlyph, r#"</span>
            <div>
              <div class="value">"#, quantity, r#"</div>
              <div class="label">"#, name, " (", directionText, r#")</div>
            </div>
          </div>
        "#]

/-- `flow_stats_html`: what only comes in, and then what only goes out. -/
def flowStatsHtml (flows : Dict ℤ Flow) : Text :=
  concat [
    concat ((importTypeIds services methods flows).map fun typeId =>
      flowStat services flows typeId .into),
    concat ((exportTypeIds services methods flows).map fun typeId =>
      flowStat services flows typeId .outOf)]

/-- The cards of `colony_detail`. -/
def colonyCards (colony : ColonyRecord) : PinCards Text :=
  pinCards (schematicById services.planetSchematics) (extractorCard services)
    (storageCard services) (factoryCard services) colony.pins

/-- `summary_html`. -/
def colonySummary (colony : ColonyRecord) (flows : Dict ℤ Flow) (status : Text) : Text :=
  let counts := (colonyCards services colony).counts
  let flowStatsHtml := flowStatsHtml services methods flows
  concat [r#"
      <div class="summary">
        <div class="summary-stat">
          <div class="value">"#, str counts.extractors, r#"</div>
          <div class="label">Extractors</div>
        </div>
        <div class="summary-stat">
          <div class="value">"#, str counts.factories, r#"</div>
          <div class="label">Factories</div>
        </div>
        <div class="summary-stat">
          <div class="value">"#, str counts.storage, r#"</div>
          <div class="label">Storage</div>
        </div>
        <div class="summary-stat">
          <div class="value">"#, status, r#"</div>
          <div class="label">Status</div>
        </div>
      </div>
      "#, if flowStatsHtml.toString = "" then ""
      else concat [r#"<div class="summary">"#, flowStatsHtml, "</div>"], r#"
    "#]

/-- The page of a colony. -/
def colonyPage (colony : ColonyRecord) (flows : Dict ℤ Flow) (expiryTimes : List ℚ) : Text :=
  let planetLabel := escape (data (planetName services colony))
  let systemLabel := escape (data (systemName services colony))
  let typeLabel := escape (data (planetTypeLabel methods colony.planetType))
  let status := statusHtml expiryTimes "Extraction expired"
  let header := concat [r#"
      <div class="header">
        <div>
          <div class="name">"#, planetLabel, r#"</div>
          <div class="meta">"#, typeLabel, " &middot; ", systemLabel, r#" &middot;
            Upgrade level "#, str colony.upgradeLevel, " &middot; ", str colony.numPins,
    r#" pins</div>
        </div>
      </div>
    "#]
  let cards := colonyCards services colony
  let body := concat [r#"<div class="page">"#, header, r#"
      "#, colonySummary services methods colony flows status, r#"
      <div class="section-grid">
        "#, sectionBox "Extractors" (concat cards.extractorCards), r#"
        "#, groupedSection services "Factories" cards.factoryCardsByType, r#"
        "#, sectionBox "Storage" (concat cards.storageCards), r#"
      </div>
      <a class="btn btn-secondary back" href="/pi">Back to Planets</a>
    </div>"#]
  -- only the name of a planet that has none is escaped already
  let pageTitle := concat [match (services.planetNames colony.planetId).filter (· ≠ "") with
    | some name => data name
    | none => planetLabel, " - eve-build"]
  renderPage pageTitle body piDetailStyle character

/-- `colony_detail`.  The times of extractors are read even if they are empty.  The source reads
them and adds up the flow in one loop, so that of two pins with an error it raises the first. -/
def colonyDetail (colonies : Option (List ColonyRecord)) (planetId : ℤ) : Except PageError Text :=
  match colonies with
  | none => return renderPage "Planets - eve-build" scopeNoticeHtml piListStyle character
  | some colonies =>
      match colonies.find? fun colony => colony.planetId = planetId with
      | none => throw (.notFound "Colony not found")
      | some colony => do
          let extractors := colony.pins.filter fun pin => pin.extractorDetails.isSome
          let _ ← secondsUntilEach services (extractors.filterMap Pin.expiryTime)
          let flows ← resourceFlow (schematicById services.planetSchematics) colony.pins
          let expiryTimes ← secondsUntilEach services
            ((colony.pins.filterMap Pin.expiryTime).filter (· ≠ ""))
          return colonyPage services methods character colony flows expiryTimes

/-! ## Where the names are escaped -/

variable {services methods character}

@[simp] theorem escapedOnce_scopeNoticeHtml : scopeNoticeHtml.EscapedOnce := by
  simp [scopeNoticeHtml]

@[simp] theorem escapedOnce_statusHtml (expiryTimes : List ℚ) (expired : String) :
    (statusHtml expiryTimes expired).EscapedOnce := by
  unfold statusHtml
  split <;> simp

@[simp] theorem escapedOnce_colonyRow (byId : Dict ℤ SchematicDocument) (colony : ColonyRecord)
    (expiryTimes : List ℚ) :
    (colonyRow services methods byId colony expiryTimes).EscapedOnce := by
  simp [colonyRow, producesHtml]

theorem escapedOnce_listColonies {colonies : Option (List ColonyRecord)} {page : Text}
    (hpage : listColonies services methods character colonies = .ok page) :
    page.EscapedOnce := by
  unfold listColonies at hpage
  split at hpage
  · -- the colonies may not be read
    obtain rfl := Except.ok.inj hpage
    simp [escapedOnce_renderPage]
  · obtain ⟨rows, hrows, hresult⟩ := bind_eq_ok.mp hpage
    obtain rfl := Except.ok.inj hresult
    have hall : (concat rows).EscapedOnce := by
      rw [escapedOnce_concat]
      refine forall_mem_of_mapM (fun colony row hrow => ?_) hrows
      obtain ⟨expiryTimes, _, hrow⟩ := bind_eq_ok.mp hrow
      cases hrow
      exact escapedOnce_colonyRow _ colony expiryTimes
    rw [escapedOnce_renderPage]
    simp [hall, escapedOnce_concat]

/-- A card escapes its title, and expects the rest to be escaped already. -/
@[simp] theorem escapedOnce_colonyCard {title : Text} {lines : List (String × Text)}
    {extraHtml : Text} {bgTypeId : Option ℤ} :
    (colonyCard title lines extraHtml bgTypeId).EscapedOnce ↔
      title.escape.EscapedOnce ∧ extraHtml.EscapedOnce ∧
        (concat (lines.map Prod.snd)).EscapedOnce := by
  cases bgTypeId <;> simp [colonyCard]

@[simp] theorem escapedOnce_quantityRow (typeId quantity : ℤ) (format : ℤ → String) :
    (quantityRow services typeId quantity format).EscapedOnce := by
  simp [quantityRow]

@[simp] theorem escapedOnce_quantityTable {label : String} {rows : List Text} :
    (quantityTable label rows).EscapedOnce ↔ (concat rows).EscapedOnce := by
  simp [quantityTable]

theorem escapedOnce_extractorCard (pin : Pin) : (extractorCard services pin).EscapedOnce := by
  rw [extractorCard, escapedOnce_colonyCard]
  simp only [List.map_cons, List.map_nil, escapedOnce_concat_cons, escapedOnce_concat_nil,
    escapedOnce_escape_data, escapedOnce_markup, true_and, and_true]
  constructor <;> split <;> simp

/-- The name of a schematic is escaped before the card escapes its title. -/
theorem escapedOnce_factoryCard_iff {pin : Pin} {schematic : SchematicDocument} :
    (factoryCard services pin schematic).EscapedOnce ↔ Plain schematic.name := by
  simp [factoryCard]

theorem escapedOnce_storageCard (pin : Pin) : (storageCard services pin).EscapedOnce := by
  unfold storageCard
  split <;> simp

/-! ### The cards of a colony -/

/-- The schematic of a pin that is a factory. -/
def factorySchematic? (byId : Dict ℤ SchematicDocument) (pin : Pin) : Option SchematicDocument :=
  match pin.extractorDetails with
  | some _ => none
  | none => pin.schematicId.bind byId.get?

/-- What is appended to a list of a dictionary is one more value of the lists. -/
theorem forall_mem_appendTo {V : Type} {P : V → Prop} {lists : Dict ℤ (List V)} {key : ℤ}
    {value : V} :
    (∀ k, ∀ v ∈ (Migrations.appendTo lists key value).getD k [], P v) ↔
      (∀ k, ∀ v ∈ lists.getD k [], P v) ∧ P value := by
  unfold Migrations.appendTo
  simp only [Dict.getD_set]
  constructor
  · intro hall
    have hkey := hall key
    rw [if_pos rfl, List.forall_mem_append, List.forall_mem_singleton] at hkey
    refine ⟨fun k v hv => ?_, hkey.2⟩
    -- the list of the key had the same values before, and the others are unchanged
    by_cases hk : k = key
    · exact hkey.1 v (hk ▸ hv)
    · exact hall k v (by rwa [if_neg hk])
  · rintro ⟨hall, hvalue⟩ k
    split
    · exact List.forall_mem_append.mpr ⟨hall key, List.forall_mem_singleton.mpr hvalue⟩
    · exact hall k

/-- The cards of the factories are escaped once. -/
def FactoriesEscaped (cards : PinCards Text) : Prop :=
  ∀ typeId, ∀ card ∈ cards.factoryCardsByType.getD typeId [], card.EscapedOnce

/-- All other cards are escaped once. -/
structure OthersEscaped (cards : PinCards Text) : Prop where
  extractors : ∀ card ∈ cards.extractorCards, card.EscapedOnce
  storage : ∀ card ∈ cards.storageCards, card.EscapedOnce

theorem OthersEscaped.placePin {byId : Dict ℤ SchematicDocument} {cards : PinCards Text}
    (hcards : OthersEscaped cards) (pin : Pin) :
    OthersEscaped (placePin byId (extractorCard services) (storageCard services)
      (factoryCard services) cards pin) := by
  unfold Planets.placePin
  split
  · exact ⟨List.forall_mem_append.mpr ⟨hcards.extractors,
      List.forall_mem_singleton.mpr (escapedOnce_extractorCard pin)⟩, hcards.storage⟩
  · split
    · exact ⟨hcards.extractors, hcards.storage⟩
    · exact ⟨hcards.extractors, List.forall_mem_append.mpr ⟨hcards.storage,
        List.forall_mem_singleton.mpr (escapedOnce_storageCard pin)⟩⟩

/-- A pin adds a card that is not right if it is a factory whose schematic is not named in plain
characters. -/
theorem factoriesEscaped_placePin_iff {byId : Dict ℤ SchematicDocument} {cards : PinCards Text}
    {pin : Pin} :
    FactoriesEscaped (placePin byId (extractorCard services) (storageCard services)
        (factoryCard services) cards pin) ↔
      FactoriesEscaped cards ∧ ∀ schematic ∈ factorySchematic? byId pin, Plain schematic.name := by
  unfold Planets.placePin factorySchematic? FactoriesEscaped
  cases pin.extractorDetails with
  | some details => simp
  | none =>
      cases pin.schematicId.bind byId.get? with
      | some schematic => simp [forall_mem_appendTo, escapedOnce_factoryCard_iff]
      | none => simp

theorem othersEscaped_colonyCards (colony : ColonyRecord) :
    OthersEscaped (colonyCards services colony) := by
  unfold colonyCards pinCards
  refine List.foldlRecOn colony.pins _ ⟨by simp, by simp⟩ fun cards hcards pin _ => ?_
  exact hcards.placePin pin

/-- **The factories of a colony** are right when all their schematics are named in plain
characters, and only then. -/
theorem factoriesEscaped_colonyCards_iff {colony : ColonyRecord} :
    FactoriesEscaped (colonyCards services colony) ↔ ∀ pin ∈ colony.pins,
      ∀ schematic ∈ factorySchematic? (schematicById services.planetSchematics) pin,
        Plain schematic.name := by
  have hfold : ∀ (pins : List Pin) (cards : PinCards Text),
      FactoriesEscaped (pins.foldl (placePin (schematicById services.planetSchematics)
          (extractorCard services) (storageCard services) (factoryCard services)) cards) ↔
        FactoriesEscaped cards ∧ ∀ pin ∈ pins,
          ∀ schematic ∈ factorySchematic? (schematicById services.planetSchematics) pin,
            Plain schematic.name := by
    intro pins
    induction pins with
    | nil => simp
    | cons pin rest ih =>
        intro cards
        rw [List.foldl_cons, ih, factoriesEscaped_placePin_iff, List.forall_mem_cons, and_assoc]
  have hnone : FactoriesEscaped ⟨[], .empty, []⟩ := by
    intro typeId card hcard
    rw [Dict.getD_empty] at hcard
    cases hcard
  rw [colonyCards, pinCards, hfold, and_iff_right hnone]

theorem escapedOnce_groupedSection_iff {title : String} {cardsByGroup : Dict ℤ (List Text)} :
    (groupedSection services title cardsByGroup).EscapedOnce ↔
      ∀ typeId, ∀ card ∈ cardsByGroup.getD typeId [], card.EscapedOnce := by
  have hkeys : ∀ typeId card, card ∈ cardsByGroup.getD typeId [] → typeId ∈ cardsByGroup.keys := by
    intro typeId card hcard
    by_contra hkey
    rw [Dict.getD, Dict.get?_eq_none_iff.mpr hkey] at hcard
    cases hcard
  unfold groupedSection
  split
  · -- a section without cards is left out
    rename_i hempty
    refine iff_of_true (by simp) fun typeId card hcard => ?_
    have hkey := hkeys typeId card hcard
    rw [Dict.keys, hempty] at hkey
    cases hkey
  · simp only [escapedOnce_concat_cons, escapedOnce_concat_nil, escapedOnce_concat_map,
      escapedOnce_markup, escapedOnce_escape_data, escape_markup, mem_sortedBy, true_and, and_true]
    simp only [escapedOnce_concat]
    exact ⟨fun hall typeId card hcard => hall typeId (hkeys typeId card hcard) card hcard,
      fun hall typeId _ => hall typeId⟩

@[simp] theorem escapedOnce_colonySummary {colony : ColonyRecord} {flows : Dict ℤ Flow}
    {status : Text} :
    (colonySummary services methods colony flows status).EscapedOnce ↔ status.EscapedOnce := by
  simp [colonySummary, flowStatsHtml, flowStat]

/-- **The page of a colony** escapes its planet once, as it does everything else but the names
of the schematics. -/
theorem escapedOnce_colonyPage_iff {colony : ColonyRecord} {flows : Dict ℤ Flow}
    {expiryTimes : List ℚ} :
    (colonyPage services methods character colony flows expiryTimes).EscapedOnce ↔
      ∀ pin ∈ colony.pins,
        ∀ schematic ∈ factorySchematic? (schematicById services.planetSchematics) pin,
          Plain schematic.name := by
  have htitle : (escape (match (services.planetNames colony.planetId).filter (· ≠ "") with
      | some name => data name
      | none => escape (data (planetName services colony)))).EscapedOnce := by
    cases hname : (services.planetNames colony.planetId).filter (· ≠ "") with
    | some name => simp
    | none =>
        -- a planet without a name is called by its number
        have hplain : Plain (planetName services colony) := by
          rw [planetName, nameOr, hname, Option.getD_none]
          exact plain_append.mpr ⟨by simp [Plain, special], plain_str _⟩
        simpa using hplain
  have hothers : OthersEscaped (colonyCards services colony) := othersEscaped_colonyCards colony
  have hextractors : (sectionBox "Extractors"
      (concat (colonyCards services colony).extractorCards)).EscapedOnce :=
    escapedOnce_sectionBox (escapedOnce_concat.mpr hothers.extractors)
  have hstorage : (sectionBox "Storage"
      (concat (colonyCards services colony).storageCards)).EscapedOnce :=
    escapedOnce_sectionBox (escapedOnce_concat.mpr hothers.storage)
  rw [← factoriesEscaped_colonyCards_iff, colonyPage, escapedOnce_renderPage]
  rw [escape_concat, List.map_cons, escapedOnce_concat_cons, and_iff_right htitle]
  simp [hextractors, hstorage, escapedOnce_groupedSection_iff, FactoriesEscaped]

theorem escapedOnce_colonyDetail_iff {colonies : Option (List ColonyRecord)} {planetId : ℤ}
    {page : Text} (hpage : colonyDetail services methods character colonies planetId = .ok page) :
    page.EscapedOnce ↔
      ∀ colony ∈ (colonies.getD []).find? (fun colony => colony.planetId = planetId),
        ∀ pin ∈ colony.pins,
          ∀ schematic ∈ factorySchematic? (schematicById services.planetSchematics) pin,
            Plain schematic.name := by
  unfold colonyDetail at hpage
  split at hpage
  · obtain rfl := Except.ok.inj hpage
    simp [escapedOnce_renderPage]
  · split at hpage
    · cases hpage
    · rename_i colony hfound
      obtain ⟨_, _, hpage⟩ := bind_eq_ok.mp hpage
      obtain ⟨flows, _, hpage⟩ := bind_eq_ok.mp hpage
      obtain ⟨expiryTimes, _, hpage⟩ := bind_eq_ok.mp hpage
      obtain rfl := Except.ok.inj hpage
      rw [escapedOnce_colonyPage_iff, Option.getD_some, hfound]
      simp only [Option.mem_some_iff, forall_eq']

end Handlers

end EveBuild.Pages
