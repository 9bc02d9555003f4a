import EveBuild.Pages.Documents

/-!
# The pages of planets as documents

The planetary schematics and the colonies.  The list of schematics does not escape the names of
the inputs; it is a document if these have nothing to escape.
-/

set_option maxRecDepth 20000

namespace EveBuild.Pages

open Markup Text
open Migrations (Quantity SchematicDocument)
open Planets (Pin PinCards placePin pinCards schematicById)

variable {leads : String → Prop} {services : Services} {methods : StringMethods}
  {character : Option CharacterDocument}

/-! ## The list of schematics -/

theorem wellFormed_data {text : String} (hplain : Plain text) :
    WellFormed leads (data text) := by
  have hmarkup : WellFormed leads (markup text) := wellFormed_of_plain hplain
  rw [WellFormed, toString_markup] at hmarkup
  rwa [WellFormed, toString_data]

theorem wellFormed_inputsText {inputs : List Quantity}
    (hinputs : ∀ material ∈ inputs, Plain (services.typeName material.typeId)) :
    WellFormed leads (inputsText services inputs) := by
  refine wellFormed_join (wellFormed_markup rfl (by decide)) ?_
  refine List.forall_mem_map.mpr fun material hmaterial => ?_
  exact wellFormed_concat (.fragment (wellFormed_data (hinputs material hmaterial)) <|
    .markup rfl <| .fragment (wellFormed_str _) .nil) (by decide)

theorem wellFormed_schematicRow {schematic : ℤ × SchematicDocument} {row : SchematicRow}
    (hinputs : ∀ material ∈ schematic.2.inputs, Plain (services.typeName material.typeId))
    (hleads : leads ("/planetary/" ++ str schematic.1))
    (hrow : schematicRow services schematic = .ok row) : WellFormed leads row.html := by
  obtain ⟨_, _, hresult⟩ := bind_eq_ok.mp hrow
  obtain rfl := Except.ok.inj hresult
  exact wellFormed_concat (.markup rfl <| .link (toString_concat_pair ..) hleads <| .markup rfl <|
    .value (inValue_escape _) <| .markup rfl <| .value (inValue_escape _) <| .markup rfl <|
    .fragment (wellFormed_escape _) <| .markup rfl <| .fragment (wellFormed_escape _) <|
    .markup rfl <| .fragment (wellFormed_str _) <| .markup rfl <|
    .fragment (wellFormed_inputsText hinputs) <| .markup rfl <| .fragment (wellFormed_str _) <|
    .markup rfl <| .fragment (wellFormed_formatIsk _) <| .markup rfl <|
    .fragment (wellFormed_formatIsk _) <| .markup rfl <| .fragment (wellFormed_formatIsk _) <|
    .markup rfl <| .fragment (wellFormed_formatIsk _) <| .markup rfl .nil) (by decide)

theorem wellFormed_rawSection (rawMaterialTypeIds : List ℤ) :
    WellFormed leads (rawSection services methods rawMaterialTypeIds).html := by
  refine wellFormed_concat (.markup rfl <| .fragment (wellFormed_escape _) <| .markup rfl <|
    .fragment (wellFormed_concat_map fun typeId _ => ?_) <| .markup rfl .nil) (by decide)
  exact wellFormed_concat (.markup rfl <| .value (inValue_escape _) <| .markup rfl <|
    .value (inValue_escape _) <| .markup rfl <| .fragment (wellFormed_escape _) <| .markup rfl <|
    .fragment (wellFormed_formatIsk _) <| .markup rfl .nil) (by decide)

/-- The section of a group has an `id` with nothing to escape. -/
theorem plain_id_tierSection (rowsByGroupId : Dict ℤ (List SchematicRow)) (groupId : ℤ) :
    Plain (tierSection methods rowsByGroupId groupId).id := by
  have hid : Plain (if groupId = otherGroupId then "tier-other" else "tier-" ++ str groupId) := by
    split_ifs
    · exact plain_of_chars rfl (by decide)
    · exact plain_append.mpr ⟨plain_of_chars rfl (by decide), plain_str groupId⟩
  exact hid

theorem wellFormed_tierSection {rowsByGroupId : Dict ℤ (List SchematicRow)} {groupId : ℤ}
    (hrows : ∀ row ∈ rowsByGroupId.getD groupId [], WellFormed leads row.html) :
    WellFormed leads (tierSection methods rowsByGroupId groupId).html := by
  have hid : Plain (tierSection methods rowsByGroupId groupId).id := plain_id_tierSection _ _
  refine wellFormed_concat (.markup rfl <| .value (inValue_of_plain hid) <| .markup rfl <|
    .fragment (wellFormed_escape _) <| .markup rfl <|
    .fragment (wellFormed_concat_map fun row hrow => ?_) <| .markup rfl .nil) (by decide)
  exact hrows row (mem_sortedBy.mp hrow)

theorem wellFormed_tierSections {rows : List SchematicRow} {rawMaterialTypeIds : List ℤ}
    (hrows : ∀ row ∈ rows, WellFormed leads row.html) :
    ∀ tier ∈ tierSections services methods rows rawMaterialTypeIds,
      Plain tier.id ∧ WellFormed leads tier.html := by
  rw [tierSections, List.forall_mem_append, List.forall_mem_map]
  constructor
  · split
    · simp
    · rw [List.forall_mem_singleton]
      exact ⟨plain_of_chars rfl (by decide), wellFormed_rawSection _⟩
  · intro groupId _
    refine ⟨plain_id_tierSection _ _, wellFormed_tierSection fun row hrow => hrows row ?_⟩
    rw [Dict.getD_appendBy, List.map_id, Dict.mem_group] at hrow
    exact hrow.1

theorem isDocument_listPlanetSchematics {page : Text}
    (hlinks : ∀ href ∈ linksFor character, leads href)
    (hinputs : ∀ schematic ∈ services.planetSchematics, ∀ material ∈ schematic.2.inputs,
      Plain (services.typeName material.typeId))
    (hleads : ∀ schematic ∈ services.planetSchematics, leads ("/planetary/" ++ str schematic.1))
    (hpage : listPlanetSchematics services methods character = .ok page) :
    IsDocument leads page := by
  unfold listPlanetSchematics at hpage
  split at hpage
  · obtain rfl := Except.ok.inj hpage
    refine document_renderPage hlinks ?_ (plain_stylesheets (by simp))
    exact wellFormed_concat (.markup rfl <| .markup rfl .nil) (by decide)
  · obtain ⟨rows, hrows, hresult⟩ := bind_eq_ok.mp hpage
    obtain rfl := Except.ok.inj hresult
    have hrow : ∀ row ∈ rows, WellFormed leads row.html := by
      intro row hmem
      obtain ⟨schematic, hschematic, hrow⟩ := exists_mem_of_mem_mapM hrows row hmem
      exact wellFormed_schematicRow (hinputs schematic hschematic) (hleads schematic hschematic)
        hrow
    have hsections : ∀ tier ∈ tierSections services methods rows
        (rawMaterialTypeIds services.planetSchematics), Plain tier.id ∧ WellFormed leads tier.html :=
      wellFormed_tierSections hrow
    refine document_renderPage hlinks ?_ (plain_stylesheets (by simp))
    refine wellFormed_concat (.markup rfl <| .fragment (wellFormed_concat_map fun tier htier => ?_) <|
      .markup rfl <| .fragment (wellFormed_concat_map fun tier htier => (hsections tier htier).2) <|
      .markup rfl .nil) (by decide)
    exact wellFormed_concat (.markup rfl <|
      .value (inValue_of_plain (hsections tier htier).1) <| .markup rfl <|
      .fragment (wellFormed_escape _) <| .markup rfl .nil) (by decide)

/-! ## The page of a schematic -/

theorem wellFormed_materialRow (typeId : ℤ) (quantity : ℚ) :
    WellFormed leads (materialRow services typeId quantity) :=
  wellFormed_concat (.markup rfl <| .value (inValue_escape _) <| .markup rfl <|
    .value (inValue_escape _) <| .markup rfl <| .fragment (wellFormed_escape _) <| .markup rfl <|
    .fragment (wellFormed_of_plain (plain_fixed true 2 quantity)) <| .markup rfl <|
    .fragment (wellFormed_formatIsk _) <| .markup rfl <| .fragment (wellFormed_formatIsk _) <|
    .markup rfl .nil) (by decide)

theorem wellFormed_tierBreakdown {outputValue : ℚ} {cycleTimeSeconds : ℤ} {floor : ℕ}
    {expanded : Dict ℤ ℚ} {tier : TierBreakdown}
    (htier : tierBreakdown services methods outputValue cycleTimeSeconds floor expanded =
      .ok tier) :
    WellFormed leads tier.summaryRow ∧ WellFormed leads tier.detailSection := by
  obtain ⟨_, _, hresult⟩ := bind_eq_ok.mp htier
  obtain rfl := Except.ok.inj hresult
  constructor
  · exact wellFormed_concat (.markup rfl <| .fragment (wellFormed_escape _) <| .markup rfl <|
      .fragment (wellFormed_formatIsk _) <| .markup rfl <| .fragment (wellFormed_formatIsk _) <|
      .markup rfl <| .fragment (wellFormed_formatIsk _) <| .markup rfl <|
      .fragment (wellFormed_formatIsk _) <| .markup rfl .nil) (by decide)
  · exact wellFormed_concat (.markup rfl <| .fragment (wellFormed_escape _) <| .markup rfl <|
      .fragment (wellFormed_concat_map fun entry _ => wellFormed_materialRow ..) <|
      .markup rfl .nil) (by decide)

theorem wellFormed_schematicHeader (schematic : SchematicDocument) :
    WellFormed leads (schematicHeader services schematic) :=
  wellFormed_concat (.markup rfl <| .value (inValue_escape _) <| .markup rfl <|
    .value (inValue_escape _) <| .markup rfl <| .fragment (wellFormed_escape _) <| .markup rfl <|
    .fragment (wellFormed_escape _) <| .markup rfl <| .fragment (wellFormed_str _) <|
    .markup rfl <| .fragment (wellFormed_str _) <| .markup rfl .nil) (by decide)

theorem isDocument_planetSchematicDetail {fuel : ℕ} {schematicId : ℤ} {page : Text}
    (hlinks : ∀ href ∈ linksFor character, leads href)
    (hpage : planetSchematicDetail services methods character fuel schematicId = .ok page) :
    IsDocument leads page := by
  unfold planetSchematicDetail at hpage
  split at hpage
  · cases hpage
  · dsimp only at hpage
    split at hpage
    · -- a schematic whose output has no tier
      obtain rfl := Except.ok.inj hpage
      refine document_renderPage hlinks ?_ (plain_stylesheets (by simp))
      exact wellFormed_concat_of_links (leads_of_public hlinks) (.markup rfl <|
        .fragment (wellFormed_schematicHeader _) <| .markup rfl .nil) (by decide)
    · obtain ⟨floors, hfloors, hresult⟩ := bind_eq_ok.mp hpage
      obtain rfl := Except.ok.inj hresult
      have hfloor : ∀ tier ∈ floors,
          WellFormed leads tier.summaryRow ∧ WellFormed leads tier.detailSection := by
        refine forall_mem_of_mapM (fun floor tier htier => ?_) hfloors
        obtain ⟨expanded, _, htier⟩ := bind_eq_ok.mp htier
        exact wellFormed_tierBreakdown htier
      refine document_renderPage hlinks ?_ (plain_stylesheets (by simp))
      exact wellFormed_concat_of_links (leads_of_public hlinks) (.markup rfl <|
        .fragment (wellFormed_schematicHeader _) <| .markup rfl <|
        .fragment (wellFormed_concat_map fun tier htier => (hfloor tier htier).1) <| .markup rfl <|
        .fragment (wellFormed_concat_map fun tier htier => (hfloor tier htier).2) <|
        .markup rfl .nil) (by decide)

/-! ## The colonies -/

theorem wellFormed_scopeNoticeHtml (hleads : leads "/auth/logout") :
    WellFormed leads scopeNoticeHtml := by
  have hlinks : ∀ href ∈ ["/auth/logout"], leads href := by simpa using hleads
  exact wellFormed_markup_of_links hlinks rfl (by decide)

theorem wellFormed_statusHtml (expiryTimes : List ℚ) {expired : String}
    (hexpired : WellFormed leads (markup expired)) :
    WellFormed leads (statusHtml expiryTimes expired) := by
  unfold statusHtml
  split
  · exact wellFormed_concat (.markup rfl <| .markup rfl <| .fragment (wellFormed_escape _) <|
      .markup rfl .nil) (by decide)
  · split_ifs
    · exact wellFormed_concat (.markup rfl <| .fragment hexpired <| .markup rfl .nil)
        (by decide)
    · exact wellFormed_markup rfl (by decide)

theorem wellFormed_producesHtml (produced : List ℤ) :
    WellFormed leads (producesHtml services produced) := by
  unfold producesHtml
  split_ifs
  · exact wellFormed_empty
  · refine wellFormed_concat (.markup rfl <|
      .fragment (wellFormed_concat_map fun typeId _ => ?_) <| .markup rfl .nil) (by decide)
    exact wellFormed_concat (.markup rfl <| .value (inValue_escape _) <| .markup rfl <|
      .markup rfl <| .value (inValue_escape _) <| .markup rfl <| .value (inValue_escape _) <|
      .markup rfl <| .markup rfl .nil) (by decide)

theorem wellFormed_colonyRow {byId : Dict ℤ SchematicDocument} {colony : ColonyRecord}
    {expiryTimes : List ℚ} (hleads : leads ("/pi/" ++ str colony.planetId)) :
    WellFormed leads (colonyRow services methods byId colony expiryTimes) := by
  have hstatus : WellFormed leads (statusHtml expiryTimes "Idle &middot; extraction expired") :=
    wellFormed_statusHtml _ (wellFormed_markup rfl (by decide))
  exact wellFormed_concat (.markup rfl <| .link (toString_concat_pair ..) hleads <| .markup rfl <|
    .fragment (wellFormed_escape _) <| .markup rfl <| .fragment (wellFormed_producesHtml _) <|
    .markup rfl <| .fragment (wellFormed_itemLineHtml (wellFormed_escape _)) <| .markup rfl <|
    .fragment (wellFormed_itemLineHtml (wellFormed_escape _)) <| .markup rfl <|
    .fragment (wellFormed_itemLineHtml (wellFormed_str _)) <| .markup rfl <|
    .fragment (wellFormed_itemLineHtml (wellFormed_str _)) <| .markup rfl <|
    .fragment (wellFormed_itemLineHtml (wellFormed_str _)) <| .markup rfl <|
    .fragment (wellFormed_itemLineHtml (wellFormed_str _)) <| .markup rfl <|
    .fragment (wellFormed_itemLineHtml hstatus) <| .markup rfl .nil) (by decide)

theorem isDocument_listColonies {colonies : Option (List ColonyRecord)} {page : Text}
    (hlinks : ∀ href ∈ characterLinks, leads href)
    (hleads : ∀ colony ∈ colonies.getD [], leads ("/pi/" ++ str colony.planetId))
    (hpage : listColonies services methods character colonies = .ok page) :
    IsDocument leads page := by
  unfold listColonies at hpage
  split at hpage
  · obtain rfl := Except.ok.inj hpage
    exact document_renderPage (leads_of_character hlinks)
      (wellFormed_scopeNoticeHtml (hlinks _ (by simp [characterLinks])))
      (plain_stylesheets (by simp))
  · obtain ⟨rows, hrows, hresult⟩ := bind_eq_ok.mp hpage
    obtain rfl := Except.ok.inj hresult
    have hrow : ∀ row ∈ rows, WellFormed leads row := by
      intro row hmem
      obtain ⟨colony, hcolony, hrow⟩ := exists_mem_of_mem_mapM hrows row hmem
      obtain ⟨expiryTimes, _, hrow⟩ := bind_eq_ok.mp hrow
      obtain rfl := Except.ok.inj hrow
      exact wellFormed_colonyRow (hleads colony (mem_sortedBy.mp hcolony))
    have hempty : WellFormed leads (concat (List.replicate (6 - rows.length)
        (markup r#"<div class="item-card item-card-empty">Empty</div>"#))) := by
      rw [← List.map_id (List.replicate _ _)]
      refine wellFormed_concat_map fun slot hslot => ?_
      rw [List.eq_of_mem_replicate hslot]
      exact wellFormed_markup rfl (by decide)
    have hall : WellFormed leads (concat rows) := by
      rw [← List.map_id rows]
      exact wellFormed_concat_map hrow
    refine document_renderPage (leads_of_character hlinks) ?_ (plain_stylesheets (by simp))
    exact wellFormed_concat (.markup rfl <| .fragment hall <| .fragment hempty <| .markup rfl .nil)
      (by decide)

/-! ### The page of a colony -/

theorem wellFormed_colonyCard {title : Text} {lines : List (String × Text)} {extraHtml : Text}
    {bgTypeId : Option ℤ} (hlines : ∀ line ∈ lines, WellFormed leads line.2)
    (hextra : WellFormed leads extraHtml) :
    WellFormed leads (colonyCard title lines extraHtml bgTypeId) := by
  have hlinesHtml : WellFormed leads
      (concat (lines.map fun line => itemLineHtml line.1 line.2)) :=
    wellFormed_concat_map fun line hline => wellFormed_itemLineHtml (hlines line hline)
  refine wellFormed_concat (.markup rfl <| .fragment ?_ <| .fragment (wellFormed_escape _) <|
    .markup rfl <| .fragment hextra <| .markup rfl <| .fragment hlinesHtml <| .markup rfl .nil)
    (by decide)
  cases bgTypeId with
  | none => exact wellFormed_empty
  | some typeId =>
      exact wellFormed_concat (.markup rfl <| .value (inValue_escape _) <| .markup rfl <|
        .markup rfl .nil) (by decide)

theorem wellFormed_quantityTable {label : String} {Item : Type} {items : List Item}
    {typeId quantity : Item → ℤ} {format : ℤ → String} (hformat : ∀ value, Plain (format value)) :
    WellFormed leads (quantityTable label (items.map fun item =>
      quantityRow services (typeId item) (quantity item) format)) := by
  have hrows : WellFormed leads (concat (items.map fun item =>
      quantityRow services (typeId item) (quantity item) format)) := by
    refine wellFormed_concat_map fun item _ => ?_
    have hquantity : WellFormed leads (concat ["&times;", format (quantity item)]) :=
      wellFormed_concat (.markup rfl <| .fragment (wellFormed_of_plain (hformat _)) .nil)
        (by decide)
    exact wellFormed_concat (.markup rfl <| .fragment (wellFormed_escape _) <| .markup rfl <|
      .fragment hquantity <| .markup rfl .nil) (by decide)
  exact wellFormed_concat (.markup rfl <| .fragment (wellFormed_escape _) <| .markup rfl <|
    .fragment hrows <| .markup rfl .nil) (by decide)

theorem wellFormed_extractorCard (pin : Pin) : WellFormed leads (extractorCard services pin) := by
  have hdash : WellFormed leads "-" := wellFormed_markup rfl (by decide)
  refine wellFormed_colonyCard ?_ wellFormed_empty
  simp only [List.forall_mem_cons]
  refine ⟨?_, ?_, by simp⟩
  · cases Option.filter _ _ with
    | none => exact hdash
    | some typeId => exact wellFormed_escape _
  · cases pin.expiryTime.bind services.secondsUntil with
    | none => exact hdash
    | some seconds =>
        dsimp only
        split_ifs
        · exact wellFormed_escape _
        · exact wellFormed_markup rfl (by decide)

theorem wellFormed_factoryCard (pin : Pin) (schematic : SchematicDocument) :
    WellFormed leads (factoryCard services pin schematic) := by
  have hcycle (minutes : ℤ) : WellFormed leads (concat [str minutes, " min"]) :=
    wellFormed_concat (.fragment (wellFormed_str _) <| .markup rfl .nil) (by decide)
  refine wellFormed_colonyCard (List.forall_mem_singleton.mpr (hcycle _)) ?_
  have houtput : WellFormed leads (quantityTable "Output"
      ([schematic.output].map fun output =>
        quantityRow services output.typeId output.quantity str)) :=
    wellFormed_quantityTable plain_str
  exact wellFormed_concat (.fragment (wellFormed_quantityTable plain_str) <|
    .fragment houtput .nil) (by decide)

theorem wellFormed_storageCard (pin : Pin) : WellFormed leads (storageCard services pin) := by
  unfold storageCard
  dsimp only
  split
  · refine wellFormed_colonyCard (List.forall_mem_singleton.mpr ?_) wellFormed_empty
    exact wellFormed_markup rfl (by decide)
  · exact wellFormed_colonyCard (by simp)
      (wellFormed_quantityTable fun value => plain_formatNumber _)

/-- The cards of a colony are well-formed. -/
structure CardsWellFormed (leads : String → Prop) (cards : PinCards Text) : Prop where
  extractors : ∀ card ∈ cards.extractorCards, WellFormed leads card
  factories : ∀ typeId, ∀ card ∈ cards.factoryCardsByType.getD typeId [], WellFormed leads card
  storage : ∀ card ∈ cards.storageCards, WellFormed leads card

theorem CardsWellFormed.placePin {byId : Dict ℤ SchematicDocument} {cards : PinCards Text}
    (hcards : CardsWellFormed leads cards) (pin : Pin) :
    CardsWellFormed leads (placePin byId (extractorCard services) (storageCard services)
      (factoryCard services) cards pin) := by
  unfold Planets.placePin
  split
  · exact { hcards with
      extractors := List.forall_mem_append.mpr ⟨hcards.extractors,
        List.forall_mem_singleton.mpr (wellFormed_extractorCard pin)⟩ }
  · split
    · exact { hcards with
        factories := forall_mem_appendTo.mpr ⟨hcards.factories, wellFormed_factoryCard ..⟩ }
    · exact { hcards with
        storage := List.forall_mem_append.mpr ⟨hcards.storage,
          List.forall_mem_singleton.mpr (wellFormed_storageCard pin)⟩ }

theorem cardsWellFormed_colonyCards (colony : ColonyRecord) :
    CardsWellFormed leads (colonyCards services colony) := by
  unfold colonyCards pinCards
  refine List.foldlRecOn colony.pins _ ⟨by simp, ?_, by simp⟩ fun cards hcards pin _ =>
    hcards.placePin pin
  intro typeId card hcard
  rw [Dict.getD_empty] at hcard
  cases hcard

theorem wellFormed_groupedSection {title : String} {cardsByGroup : Dict ℤ (List Text)}
    (hcards : ∀ typeId, ∀ card ∈ cardsByGroup.getD typeId [], WellFormed leads card) :
    WellFormed leads (groupedSection services title cardsByGroup) := by
  unfold groupedSection
  split
  · exact wellFormed_empty
  · have hgroup (groupTypeId : ℤ) :
        WellFormed leads (concat (cardsByGroup.getD groupTypeId [])) := by
      rw [← List.map_id (cardsByGroup.getD groupTypeId [])]
      exact wellFormed_concat_map (hcards groupTypeId)
    refine wellFormed_concat (.markup rfl <| .fragment (wellFormed_escape _) <| .markup rfl <|
      .fragment (wellFormed_concat_map fun groupTypeId _ => ?_) <| .markup rfl .nil)
      (by decide)
    exact wellFormed_concat (.markup rfl <| .fragment (wellFormed_escape _) <| .markup rfl <|
      .fragment (hgroup groupTypeId) <| .markup rfl .nil) (by decide)

theorem wellFormed_formatSum (sum : FloatValue) : WellFormed leads (formatSum sum) := by
  cases sum with
  | finite value => exact wellFormed_formatNumber value
  | infinite negative => cases negative <;> exact wellFormed_markup rfl (by decide)
  | nan => exact wellFormed_markup rfl (by decide)

theorem wellFormed_flowStat (flows : Dict ℤ Flow) (typeId : ℤ) (direction : Direction) :
    WellFormed leads (flowStat services flows typeId direction) := by
  have hquantity := @wellFormed_formatSum leads ((flows.getD typeId .zero).sum direction)
  unfold flowStat
  generalize formatSum ((flows.getD typeId .zero).sum direction) = quantity at hquantity ⊢
  cases direction <;>
    exact wellFormed_concat (.markup rfl <| .value (inValue_escape _) <| .markup rfl <|
      .value (inValue_escape _) <| .markup rfl <| .markup rfl <| .markup rfl <| .markup rfl <|
      .markup rfl <| .fragment hquantity <| .markup rfl <|
      .fragment (wellFormed_escape _) <| .markup rfl <| .markup rfl <| .markup rfl .nil)
      (by decide)

theorem wellFormed_colonySummary {colony : ColonyRecord} {flows : Dict ℤ Flow} {status : Text}
    (hstatus : WellFormed leads status) :
    WellFormed leads (colonySummary services methods colony flows status) := by
  have hflows : WellFormed leads (flowStatsHtml services methods flows) :=
    wellFormed_concat (.fragment (wellFormed_concat_map fun entry _ => wellFormed_flowStat ..) <|
      .fragment (wellFormed_concat_map fun entry _ => wellFormed_flowStat ..) .nil)
      (by decide)
  have hsummary (flowStats : Text) (hflowStats : WellFormed leads flowStats) :
      WellFormed leads (if flowStats.toString = "" then ""
        else concat [r#"<div class="summary">"#, flowStats, "</div>"]) := by
    split_ifs
    · exact wellFormed_empty
    · exact wellFormed_concat (.markup rfl <| .fragment hflowStats <| .markup rfl .nil)
        (by decide)
  exact wellFormed_concat (.markup rfl <| .fragment (wellFormed_str _) <| .markup rfl <|
    .fragment (wellFormed_str _) <| .markup rfl <| .fragment (wellFormed_str _) <| .markup rfl <|
    .fragment hstatus <| .markup rfl <| .fragment (hsummary _ hflows) <| .markup rfl .nil)
    (by decide)

theorem isDocument_colonyDetail {colonies : Option (List ColonyRecord)} {planetId : ℤ}
    {page : Text} (hlinks : ∀ href ∈ characterLinks, leads href)
    (hpage : colonyDetail services methods character colonies planetId = .ok page) :
    IsDocument leads page := by
  unfold colonyDetail at hpage
  split at hpage
  · obtain rfl := Except.ok.inj hpage
    exact document_renderPage (leads_of_character hlinks)
      (wellFormed_scopeNoticeHtml (hlinks _ (by simp [characterLinks])))
      (plain_stylesheets (by simp))
  · split at hpage
    · cases hpage
    · rename_i colony _
      obtain ⟨_, _, hpage⟩ := bind_eq_ok.mp hpage
      obtain ⟨flows, _, hpage⟩ := bind_eq_ok.mp hpage
      obtain ⟨expiryTimes, _, hpage⟩ := bind_eq_ok.mp hpage
      obtain rfl := Except.ok.inj hpage
      have hcards : CardsWellFormed leads (colonyCards services colony) :=
        cardsWellFormed_colonyCards colony
      have hextractors : WellFormed leads
          (concat (colonyCards services colony).extractorCards) := by
        rw [← List.map_id (PinCards.extractorCards _)]
        exact wellFormed_concat_map hcards.extractors
      have hstorage : WellFormed leads (concat (colonyCards services colony).storageCards) := by
        rw [← List.map_id (PinCards.storageCards _)]
        exact wellFormed_concat_map hcards.storage
      have hstatus : WellFormed leads (statusHtml expiryTimes "Extraction expired") :=
        wellFormed_statusHtml _ (wellFormed_markup rfl (by decide))
      refine document_renderPage (leads_of_character hlinks) ?_ (plain_stylesheets (by simp))
      exact wellFormed_concat_of_links hlinks (.markup rfl <|
        .fragment (wellFormed_concat (.markup rfl <| .fragment (wellFormed_escape _) <|
          .markup rfl <| .fragment (wellFormed_escape _) <| .markup rfl <|
          .fragment (wellFormed_escape _) <| .markup rfl <| .fragment (wellFormed_str _) <|
          .markup rfl <| .fragment (wellFormed_str _) <| .markup rfl .nil) (by decide)) <|
        .markup rfl <| .fragment (wellFormed_colonySummary hstatus) <| .markup rfl <|
        .fragment (wellFormed_sectionBox hextractors) <| .markup rfl <|
        .fragment (wellFormed_groupedSection hcards.factories) <| .markup rfl <|
        .fragment (wellFormed_sectionBox hstorage) <| .markup rfl .nil) (by decide)

end EveBuild.Pages
