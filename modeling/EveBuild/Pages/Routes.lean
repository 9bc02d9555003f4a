import EveBuild.Assets.Pages
import EveBuild.Cache.Keys
import EveBuild.Pages.Escaping
import EveBuild.Pages.Home

/-!
# The routes

All routes that a page has links to, and what a visitor gets there: the pages of
`EveBuild.Pages.Escaping` and `EveBuild.Pages.Home`, and the routes of `app/routes/auth.py` and
`app/routes/settings.py` that only redirect.

A URL is that of a route if it is the route's path with its parameter in it.  Different routes
have different paths (`path_injective`), so that it does not matter in which order they are
tried.  `answer_eq_unauthorized_iff` and `answer_notFound_iff` say when a visitor gets no page.
-/

namespace EveBuild.Pages

open Markup Text

/-! ## The reference data -/

/-- A document of `sde_types`, with its `_id`. -/
structure TypeEntry where
  id : ℤ
  doc : TypeDoc
  published : Bool

/-- `sde_types`, `sde_blueprints` and `sde_planet_schematics`. -/
structure ReferenceData where
  types : List TypeEntry
  blueprints : List (ℤ × BlueprintDoc)
  schematics : List (ℤ × Migrations.SchematicDocument)
  /-- `$regex` with the option `i`, for a text that is escaped. -/
  hasText : String → String → Bool

section Searches

variable (data : ReferenceData)

def typeDocs (typeId : ℤ) : Option TypeDoc :=
  (data.types.find? fun entry => entry.id = typeId).map TypeEntry.doc

def blueprintDocs (typeId : ℤ) : Option BlueprintDoc := data.blueprints.lookup typeId

/-- The name of a type that is found: it is published, and it has the text in its name. -/
def foundName (query : String) (entry : TypeEntry) : Option String :=
  entry.doc.name.filter fun name => data.hasText query name && entry.published

def searchItemsByName (query : String) : List FoundItem :=
  let found := data.types.filterMap fun entry =>
    (foundName data query entry).map fun name => { id := entry.id, name }
  (sortedBy FoundItem.name found).take 50

/-- `search_blueprints_by_name`: the types are joined by their `_id`. -/
def searchBlueprintsByName (query : String) : List FoundBlueprint :=
  let found := data.blueprints.filterMap fun (id, blueprint) => do
    let entry ← data.types.find? fun entry => entry.id = id
    let name ← foundName data query entry
    return { id, name, productTypeId := blueprint.productTypeId, techLevel := entry.doc.techLevel }
  (sortedBy FoundBlueprint.name found).take 50

/-- The pages are made of the reference data. -/
structure Site.Reads (site : Site) : Prop where
  typeDocs : site.services.typeDocs = typeDocs data
  blueprintDocs : site.services.blueprintDocs = blueprintDocs data
  planetSchematics : site.services.planetSchematics = data.schematics
  searchItems : site.searchItems = searchItemsByName data
  searchBlueprints : site.searchBlueprints = searchBlueprintsByName data

variable {data}

theorem isSome_typeDocs_of_mem {entry : TypeEntry} (hentry : entry ∈ data.types) :
    (typeDocs data entry.id).isSome := by
  rw [typeDocs, Option.isSome_map, List.find?_isSome]
  exact ⟨entry, hentry, by simp⟩

/-- Every item that is found has a document. -/
theorem isSome_typeDocs_of_search {query : String} {item : FoundItem}
    (hitem : item ∈ searchItemsByName data query) : (typeDocs data item.id).isSome := by
  have hfound := mem_sortedBy.mp (List.mem_of_mem_take hitem)
  obtain ⟨entry, hentry, hname⟩ := List.mem_filterMap.mp hfound
  obtain ⟨name, -, rfl⟩ := Option.map_eq_some_iff.mp hname
  exact isSome_typeDocs_of_mem hentry

/-- Every blueprint that is found has both documents. -/
theorem isSome_docs_of_search {query : String} {blueprint : FoundBlueprint}
    (hblueprint : blueprint ∈ searchBlueprintsByName data query) :
    (blueprintDocs data blueprint.id).isSome ∧ (typeDocs data blueprint.id).isSome := by
  have hfound := mem_sortedBy.mp (List.mem_of_mem_take hblueprint)
  obtain ⟨⟨id, doc⟩, hdoc, hjoined⟩ := List.mem_filterMap.mp hfound
  obtain ⟨entry, hentry, hname⟩ := Option.bind_eq_some_iff.mp hjoined
  obtain ⟨name, -, hresult⟩ := Option.bind_eq_some_iff.mp hname
  obtain rfl := Option.some.inj hresult
  refine ⟨?_, ?_⟩
  · rw [blueprintDocs, Option.isSome_iff_ne_none, ne_eq, List.lookup_eq_none_iff]
    exact fun hall => by simpa using hall _ hdoc
  · rw [typeDocs, hentry]
    rfl

end Searches

/-! ## Requests -/

/-- The routes that redirect. -/
inductive Action
  | login
  | logout
  | connectCorp
  | disconnectCorp
  | refreshData
  | clearData

inductive Request
  | page (request : PageRequest)
  | readRoot
  | showSettings
  | action (kind : Action)

/-- The routes with the parameters of their paths. -/
inductive Place
  | readRoot
  | action (kind : Action)
  | listAssets
  | itemDetail (typeId : ℤ)
  | locationDetail (locationId : ℤ)
  | listBlueprints
  | blueprintCatalog
  | catalogBlueprintDetail (typeId : ℤ)
  | blueprintDetail (itemId : ℤ)
  | buildChooser
  | itemSearch
  | itemBuildChain (typeId : ℤ)
  | jobDetail (jobId : ℤ)
  | listColonies
  | colonyDetail (planetId : ℤ)
  | listPlanetSchematics
  | planetSchematicDetail (schematicId : ℤ)
  | showSettings

def Request.place : Request → Place
  | .readRoot => .readRoot
  | .showSettings => .showSettings
  | .action kind => .action kind
  | .page (.listBlueprints _) => .listBlueprints
  | .page (.blueprintCatalog _) => .blueprintCatalog
  | .page (.catalogBlueprintDetail typeId) => .catalogBlueprintDetail typeId
  | .page (.blueprintDetail itemId) => .blueprintDetail itemId
  | .page .listAssets => .listAssets
  | .page (.itemDetail typeId) => .itemDetail typeId
  | .page (.locationDetail locationId) => .locationDetail locationId
  | .page .buildChooser => .buildChooser
  | .page (.itemSearch _) => .itemSearch
  | .page (.itemBuildChain typeId _ _) => .itemBuildChain typeId
  | .page (.jobDetail jobId) => .jobDetail jobId
  | .page .listPlanetSchematics => .listPlanetSchematics
  | .page (.planetSchematicDetail schematicId) => .planetSchematicDetail schematicId
  | .page .listColonies => .listColonies
  | .page (.colonyDetail planetId) => .colonyDetail planetId

/-- The path of a route, and the parameter that it ends with. -/
def Place.parts : Place → String × Option ℤ
  | .readRoot => ("/", none)
  | .action .login => ("/auth/login", none)
  | .action .logout => ("/auth/logout", none)
  | .action .connectCorp => ("/auth/connect-corp", none)
  | .action .disconnectCorp => ("/auth/disconnect-corp", none)
  | .listAssets => ("/assets", none)
  | .itemDetail typeId => ("/assets/", some typeId)
  | .locationDetail locationId => ("/assets/locations/", some locationId)
  | .listBlueprints => ("/blueprints", none)
  | .blueprintCatalog => ("/blueprints/catalog", none)
  | .catalogBlueprintDetail typeId => ("/blueprints/catalog/", some typeId)
  | .blueprintDetail itemId => ("/blueprints/", some itemId)
  | .buildChooser => ("/build", none)
  | .itemSearch => ("/build/items", none)
  | .itemBuildChain typeId => ("/build/items/", some typeId)
  | .jobDetail jobId => ("/jobs/", some jobId)
  | .listColonies => ("/pi", none)
  | .colonyDetail planetId => ("/pi/", some planetId)
  | .listPlanetSchematics => ("/planetary", none)
  | .planetSchematicDetail schematicId => ("/planetary/", some schematicId)
  | .showSettings => ("/settings", none)
  | .action .refreshData => ("/settings/refresh", none)
  | .action .clearData => ("/settings/clear-data", none)

/-- The path of a URL of a route. -/
def Place.path (place : Place) : String :=
  place.parts.1 ++ (place.parts.2.map str).getD ""

def Request.path (request : Request) : String := request.place.path

/-! ### Different routes have different paths -/

/-- The route of a path and its parameter. -/
def placeOf? : String × Option ℤ → Option Place
  | ("/", none) => some .readRoot
  | ("/auth/login", none) => some (.action .login)
  | ("/auth/logout", none) => some (.action .logout)
  | ("/auth/connect-corp", none) => some (.action .connectCorp)
  | ("/auth/disconnect-corp", none) => some (.action .disconnectCorp)
  | ("/assets", none) => some .listAssets
  | ("/assets/", some typeId) => some (.itemDetail typeId)
  | ("/assets/locations/", some locationId) => some (.locationDetail locationId)
  | ("/blueprints", none) => some .listBlueprints
  | ("/blueprints/catalog", none) => some .blueprintCatalog
  | ("/blueprints/catalog/", some typeId) => some (.catalogBlueprintDetail typeId)
  | ("/blueprints/", some itemId) => some (.blueprintDetail itemId)
  | ("/build", none) => some .buildChooser
  | ("/build/items", none) => some .itemSearch
  | ("/build/items/", some typeId) => some (.itemBuildChain typeId)
  | ("/jobs/", some jobId) => some (.jobDetail jobId)
  | ("/pi", none) => some .listColonies
  | ("/pi/", some planetId) => some (.colonyDetail planetId)
  | ("/planetary", none) => some .listPlanetSchematics
  | ("/planetary/", some schematicId) => some (.planetSchematicDetail schematicId)
  | ("/settings", none) => some .showSettings
  | ("/settings/refresh", none) => some (.action .refreshData)
  | ("/settings/clear-data", none) => some (.action .clearData)
  | _ => none

theorem placeOf?_parts (place : Place) : placeOf? place.parts = some place := by
  cases place with
  | action kind => cases kind <;> rfl
  | _ => rfl

theorem parts_injective : Function.Injective Place.parts := by
  intro first second heq
  have hplace := congrArg placeOf? heq
  rw [placeOf?_parts, placeOf?_parts] at hplace
  exact Option.some.inj hplace

theorem str_injective : Function.Injective str := by
  intro first second heq
  have htext : Cache.idText (some first) = Cache.idText (some second) := by
    rw [Cache.idText, Cache.idText, Int.toString_eq_repr, Int.toString_eq_repr]
    exact heq
  exact Option.some.inj (Cache.idText_injective htext)

theorem str_ne_empty (value : ℤ) : str value ≠ "" := by
  intro hempty
  have hlist : (Cache.idText (some value)).toList = [] := by
    rw [Cache.idText, Int.toString_eq_repr]
    exact congrArg String.toList hempty
  have hdigits (n : ℕ) : n.repr.toList ≠ [] := by
    rw [Nat.toList_repr]
    exact Nat.toDigits_ne_nil
  rcases Cache.toList_idText value with ⟨-, htext⟩ | ⟨-, htext⟩
  · exact hdigits _ (htext ▸ hlist)
  · rw [htext] at hlist
    cases hlist

/-- A character of a number. -/
def isNumeric (c : Char) : Bool := c = '-' || c.isDigit

/-- A path ends with its parameter. -/
theorem rdropWhile_path (place : Place) :
    place.path.toList.rdropWhile isNumeric = place.parts.1.toList := by
  have hparameter : ∀ c ∈ ((place.parts.2.map str).getD "").toList, isNumeric c := by
    intro c hc
    cases hvalue : place.parts.2 with
    | none => simp [hvalue] at hc
    | some value =>
        rw [hvalue] at hc
        simpa [isNumeric] using Numerals.mem_toList_repr hc
  have hlast : place.parts.1.toList.reverse.dropWhile isNumeric =
      place.parts.1.toList.reverse := by
    cases place with
    | action kind => cases kind <;> decide
    | _ =>
        dsimp only [Place.parts]
        decide
  rw [Place.path, String.toList_append, List.rdropWhile, List.reverse_append,
    List.dropWhile_append_of_pos (by simpa using hparameter), hlast, List.reverse_reverse]

/-- **Different routes have different paths.** -/
theorem path_injective : Function.Injective Place.path := by
  intro first second heq
  have hpath : first.parts.1 = second.parts.1 := by
    rw [← String.toList_inj, ← rdropWhile_path, ← rdropWhile_path, heq]
  have hparameter : (first.parts.2.map str).getD "" = (second.parts.2.map str).getD "" := by
    have hlist := congrArg String.toList heq
    simp only [Place.path, hpath, String.toList_append] at hlist
    exact String.toList_inj.mp (List.append_cancel_left hlist)
  refine parts_injective (Prod.ext hpath ?_)
  revert hparameter
  cases first.parts.2 with
  | none =>
      cases second.parts.2 with
      | none => exact fun _ => rfl
      | some value => exact fun heq => absurd heq.symm (str_ne_empty value)
  | some value =>
      cases second.parts.2 with
      | none => exact fun heq => absurd heq (str_ne_empty value)
      | some other => exact fun heq => congrArg some (str_injective heq)

/-! ## Answers -/

/-- Who asks, and what the pages are made of for them. -/
structure Visitor (methods : StringMethods) (data : ReferenceData) where
  site : Site
  account : Option (CharacterDocument × Account)
  methods_eq : site.methods = methods
  reads : site.Reads data

inductive Answer
  | page (text : Text)
  /-- A redirect, to another route or to EVE SSO. -/
  | redirect (location : Option Request)

inductive HttpError
  | unauthorized
  | raised (error : PageError)

/-- The routes that depend on `get_current_character`. -/
def Place.needsCharacter : Place → Bool
  | .listAssets | .itemDetail _ | .locationDetail _ | .listBlueprints | .blueprintDetail _
  | .jobDetail _ | .listColonies | .colonyDetail _ | .showSettings
  | .action .connectCorp | .action .disconnectCorp | .action .refreshData
  | .action .clearData => true
  | _ => false

/-- The `RedirectResponse` of a route. -/
def Action.location : Action → Option Request
  | .login | .connectCorp => none
  | .logout | .clearData => some .readRoot
  | .disconnectCorp | .refreshData => some .showSettings

section Answers

variable {methods : StringMethods} {data : ReferenceData}

def Visitor.character (visitor : Visitor methods data) : Option CharacterDocument :=
  visitor.account.map Prod.fst

def pageAnswer : Except PageError Text → Except HttpError Answer
  | .ok text => .ok (.page text)
  | .error error => .error (.raised error)

/-- What a visitor gets for a request. -/
def answer (visitor : Visitor methods data) (request : Request) : Except HttpError Answer :=
  if request.place.needsCharacter ∧ visitor.account = none then throw .unauthorized
  else match request with
    | .page request => pageAnswer (respond visitor.site visitor.character request)
    | .readRoot => pageAnswer (readRoot visitor.site visitor.character)
    | .showSettings => match visitor.account with
        | some (character, account) => return .page (showSettings character account)
        | none => throw .unauthorized
    | .action kind => return .redirect kind.location

/-- What a route shows is among what the pages are made of. -/
def IsThere (visitor : Visitor methods data) : Place → Prop
  | .catalogBlueprintDetail typeId =>
      (blueprintDocs data typeId).isSome ∧ (typeDocs data typeId).isSome
  | .blueprintDetail itemId => ∃ blueprint ∈ visitor.site.blueprints.1, blueprint.itemId = itemId
  | .itemDetail typeId => typeId ∈ Assets.pageTypes visitor.site.assets.1
  | .locationDetail locationId => locationId ∈ Assets.pageLocations visitor.site.assets.1
  | .itemBuildChain typeId => (typeDocs data typeId).isSome
  | .jobDetail jobId => ∃ job ∈ visitor.site.jobs, job.jobId = jobId
  | .planetSchematicDetail schematicId =>
      ∃ schematic ∈ data.schematics, schematic.1 = schematicId
  | .colonyDetail planetId => ∀ colonies ∈ visitor.site.colonies,
      ∃ colony ∈ colonies, colony.planetId = planetId
  | _ => True

/-- What a visitor asks for is there, and they may see it. -/
def Found (visitor : Visitor methods data) (place : Place) : Prop :=
  (place.needsCharacter → visitor.account.isSome) ∧ IsThere visitor place

/-! ### When a page is missing -/

/-- Whatever is raised, it is not that a page is missing. -/
def IsFound {Result : Type} (result : Except PageError Result) : Prop :=
  ∀ detail, result ≠ .error (.notFound detail)

theorem isFound_ok {Result : Type} (result : Result) :
    IsFound (.ok result : Except PageError Result) := by
  intro detail heq
  cases heq

theorem isFound_bind {Result Other : Type} {result : Except PageError Result}
    {rest : Result → Except PageError Other} (hresult : IsFound result)
    (hrest : ∀ value, IsFound (rest value)) : IsFound (result >>= rest) := by
  cases result with
  | ok value => exact hrest value
  | error error =>
      intro detail heq
      obtain rfl := Except.error.inj heq
      exact hresult detail rfl

theorem isFound_mapM {Item Result : Type} {body : Item → Except PageError Result}
    {items : List Item} (hbody : ∀ item, IsFound (body item)) : IsFound (items.mapM body) := by
  induction items with
  | nil => exact isFound_ok []
  | cons item rest ih =>
      rw [List.mapM_cons]
      exact isFound_bind (hbody item) fun _ => isFound_bind ih fun _ => isFound_ok _

theorem isFound_foldlM {Item State : Type} {body : State → Item → Except PageError State}
    {items : List Item} (hbody : ∀ state item, IsFound (body state item)) (state : State) :
    IsFound (items.foldlM body state) := by
  induction items generalizing state with
  | nil => exact isFound_ok state
  | cons item rest ih =>
      rw [List.foldlM_cons]
      exact isFound_bind (hbody state item) fun later => ih later

/-- A page of something that is looked up. -/
theorem isFound_iff_of_lookup {Item Result : Type} {item? : Option Item}
    {result : Except PageError Result}
    (hnone : item? = none → ∃ detail, result = .error (.notFound detail))
    (hsome : ∀ item, item? = some item → IsFound result) : IsFound result ↔ item?.isSome := by
  cases item? with
  | none =>
      obtain ⟨detail, hdetail⟩ := hnone rfl
      exact iff_of_false (fun hfound => hfound detail hdetail) (by simp)
  | some item => exact iff_of_true (hsome item rfl) rfl

theorem isSome_find?_iff {Item : Type} {key : Item → ℤ} {items : List Item} {value : ℤ} :
    (items.find? fun item => key item = value).isSome ↔ ∃ item ∈ items, key item = value := by
  simp [List.find?_isSome]

theorem isFound_profitPerDay (profit : ℚ) (cycleTimeSeconds : ℤ) :
    IsFound (profitPerDay profit cycleTimeSeconds) := by
  intro detail heq
  unfold profitPerDay at heq
  split_ifs at heq <;> cases heq

theorem isFound_jobProgressPercentage (services : Services) (job : IndustryJobEntry) :
    IsFound (jobProgressPercentage services job) := by
  intro detail heq
  unfold jobProgressPercentage at heq
  split at heq
  · dsimp only at heq
    split_ifs at heq <;> cases heq
  · cases heq

theorem isFound_secondsUntilEach (services : Services) (times : List String) :
    IsFound (secondsUntilEach services times) := by
  refine isFound_mapM fun time detail heq => ?_
  split at heq <;> cases heq

theorem isFound_addQuantity (sum : FloatValue) (quantity : Value) :
    IsFound (addQuantity sum quantity) := by
  intro detail heq
  unfold addQuantity asFloat at heq
  split at heq
  · rename_i quantity
    cases hfloat : FloatValue.ofInt? quantity <;> rw [hfloat] at heq <;> cases heq
  all_goals cases heq

theorem isFound_resourceFlow (byId : Dict ℤ Migrations.SchematicDocument)
    (pins : List Planets.Pin) :
    IsFound (resourceFlow byId pins) :=
  isFound_foldlM (fun _ _ => isFound_bind (isFound_addQuantity _ _) fun _ => isFound_ok _) _

variable {services : Services} {character : Option CharacterDocument}

theorem isFound_catalogBlueprintDetail_iff {typeId : ℤ} :
    IsFound (catalogBlueprintDetail services character typeId) ↔
      (services.blueprintDocs typeId).isSome ∧ (services.typeDocs typeId).isSome := by
  unfold catalogBlueprintDetail
  split
  · rename_i hblueprint htype
    exact iff_of_true (isFound_ok _) (by simp [hblueprint, htype])
  · rename_i hnot
    refine iff_of_false (fun hfound => hfound _ rfl) ?_
    rintro ⟨hblueprint, htype⟩
    obtain ⟨blueprint, hblueprint⟩ := Option.isSome_iff_exists.mp hblueprint
    obtain ⟨doc, htype⟩ := Option.isSome_iff_exists.mp htype
    exact hnot blueprint doc hblueprint htype

theorem isFound_blueprintDetail_iff {blueprints : List BlueprintEntry}
    {assets : List Assets.AssetEntry} {itemId : ℤ} :
    IsFound (blueprintDetail services character blueprints assets itemId) ↔
      ∃ blueprint ∈ blueprints, blueprint.itemId = itemId := by
  rw [← isSome_find?_iff]
  refine isFound_iff_of_lookup (fun hnone => ⟨_, by rw [blueprintDetail, hnone]; rfl⟩)
    fun blueprint hblueprint => ?_
  rw [blueprintDetail, hblueprint]
  dsimp only
  split <;> exact isFound_ok _

theorem isFound_itemDetail_iff {assets : List Assets.AssetEntry} {typeId : ℤ} :
    IsFound (itemDetail services character assets typeId) ↔ typeId ∈ Assets.pageTypes assets := by
  rw [Assets.mem_pageTypes_iff]
  refine isFound_iff_of_lookup (fun hnone => ⟨_, by rw [itemDetail, hnone]; rfl⟩)
    fun owned howned => ?_
  rw [itemDetail, howned]
  exact isFound_ok _

theorem isFound_locationDetail_iff {assets : List Assets.AssetEntry} {locationId : ℤ} :
    IsFound (locationDetail services character assets locationId) ↔
      locationId ∈ Assets.pageLocations assets := by
  rw [Assets.mem_pageLocations_iff]
  refine isFound_iff_of_lookup (fun hnone => ⟨_, by rw [locationDetail, hnone]; rfl⟩)
    fun held hheld => ?_
  rw [locationDetail, hheld]
  exact isFound_ok _

theorem isFound_itemBuildChain_iff
    {ceilQuotient : ℤ → ℤ → Except BuildChain.ArithmeticError ℤ}
    {products : List BuildChain.Blueprint} {typeId qty : ℤ} {buildSet : Finset ℤ} :
    IsFound (itemBuildChain services character ceilQuotient products typeId qty buildSet) ↔
      (services.typeDocs typeId).isSome := by
  refine isFound_iff_of_lookup (fun hnone => ⟨_, by rw [itemBuildChain, hnone]; rfl⟩)
    fun doc hdoc => ?_
  rw [itemBuildChain, hdoc]
  dsimp only
  split
  · rename_i error _
    intro detail heq
    cases error <;> cases heq
  · exact isFound_ok _

theorem isFound_jobDetail_iff {jobs : List IndustryJobEntry} {jobId : ℤ} :
    IsFound (jobDetail services methods character jobs jobId) ↔
      ∃ job ∈ jobs, job.jobId = jobId := by
  rw [← isSome_find?_iff]
  refine isFound_iff_of_lookup (fun hnone => ⟨_, by rw [jobDetail, hnone]; rfl⟩)
    fun job hjob => ?_
  rw [jobDetail, hjob]
  dsimp only
  split
  · rename_i error herror
    intro detail heq
    obtain rfl := Except.error.inj heq
    exact isFound_jobProgressPercentage services job detail herror
  · exact isFound_ok _

theorem isFound_listPlanetSchematics :
    IsFound (listPlanetSchematics services methods character) := by
  unfold listPlanetSchematics
  split_ifs
  · exact isFound_ok _
  · exact isFound_bind (isFound_mapM fun schematic =>
      isFound_bind (isFound_profitPerDay _ _) fun _ => isFound_ok _) fun _ => isFound_ok _

theorem isFound_planetSchematicDetail_iff {fuel : ℕ} {schematicId : ℤ} :
    IsFound (planetSchematicDetail services methods character fuel schematicId) ↔
      ∃ schematic ∈ services.planetSchematics, schematic.1 = schematicId := by
  have hlookup : (services.planetSchematics.lookup schematicId).isSome ↔
      ∃ schematic ∈ services.planetSchematics, schematic.1 = schematicId := by
    simp only [List.lookup_isSome_iff, beq_iff_eq, eq_comm (a := schematicId)]
  rw [← hlookup]
  have hexpanded {result : Except Planetary.ExpansionError (Dict ℤ ℚ)} :
      IsFound (result.mapError .ofExpansion) := by
    intro detail heq
    cases result with
    | ok expanded => cases heq
    | error error => cases error <;> cases heq
  refine isFound_iff_of_lookup (fun hnone => ⟨_, by rw [planetSchematicDetail, hnone]; rfl⟩)
    fun schematic hschematic => ?_
  rw [planetSchematicDetail, hschematic]
  dsimp only
  split_ifs
  · exact isFound_ok _
  · refine isFound_bind (isFound_mapM fun floor => isFound_bind hexpanded fun expanded => ?_)
      fun _ => isFound_ok _
    exact isFound_bind (isFound_profitPerDay _ _) fun _ => isFound_ok _

theorem isFound_listColonies {colonies : Option (List ColonyRecord)} :
    IsFound (listColonies services methods character colonies) := by
  unfold listColonies
  split
  · exact isFound_ok _
  · exact isFound_bind (isFound_mapM fun colony =>
      isFound_bind (isFound_secondsUntilEach _ _) fun _ => isFound_ok _) fun _ => isFound_ok _

theorem isFound_colonyDetail_iff {colonies : Option (List ColonyRecord)} {planetId : ℤ} :
    IsFound (colonyDetail services methods character colonies planetId) ↔
      ∀ readable ∈ colonies, ∃ colony ∈ readable, colony.planetId = planetId := by
  cases colonies with
  | none => exact iff_of_true (isFound_ok _) (by simp)
  | some readable =>
      simp only [Option.mem_some_iff, forall_eq']
      rw [← isSome_find?_iff]
      refine isFound_iff_of_lookup (fun hnone => ⟨_, by rw [colonyDetail, hnone]; rfl⟩)
        fun colony hcolony => ?_
      rw [colonyDetail, hcolony]
      exact isFound_bind (isFound_secondsUntilEach _ _) fun _ =>
        isFound_bind (isFound_resourceFlow _ _) fun _ =>
          isFound_bind (isFound_secondsUntilEach _ _) fun _ => isFound_ok _

theorem isFound_readRoot (site : Site) : IsFound (readRoot site character) := by
  cases character with
  | none => exact isFound_ok _
  | some character =>
      refine isFound_bind (isFound_mapM fun job =>
        isFound_bind (isFound_jobProgressPercentage _ job) fun progress => ?_) fun _ => isFound_ok _
      split
      · exact isFound_ok _
      · exact fun detail heq => by cases heq

/-! ### When an answer is missing -/

theorem pageAnswer_ne_unauthorized (result : Except PageError Text) :
    pageAnswer result ≠ .error .unauthorized := by
  cases result <;> exact (nomatch ·)

theorem notFound_pageAnswer_iff {result : Except PageError Text} :
    (∃ detail, pageAnswer result = .error (.raised (.notFound detail))) ↔ ¬IsFound result := by
  rw [IsFound, not_forall]
  refine exists_congr fun detail => ?_
  cases result with
  | ok text => exact iff_of_false (nomatch ·) (not_not.mpr (nomatch ·))
  | error error => simp [pageAnswer]

/-- **A login is asked for** where a route needs one, and only there. -/
theorem answer_eq_unauthorized_iff {visitor : Visitor methods data} {request : Request} :
    answer visitor request = .error .unauthorized ↔
      request.place.needsCharacter ∧ visitor.account = none := by
  unfold answer
  split_ifs with hlogin
  · exact iff_of_true rfl hlogin
  · refine iff_of_false ?_ hlogin
    cases request with
    | page request => exact pageAnswer_ne_unauthorized _
    | readRoot => exact pageAnswer_ne_unauthorized _
    | showSettings =>
        cases haccount : visitor.account with
        | none => exact absurd ⟨rfl, haccount⟩ hlogin
        | some account => exact (nomatch ·)
    | action kind => exact (nomatch ·)

/-- **A page is missing** where a visitor may ask for it and it is not there. -/
theorem answer_notFound_iff {visitor : Visitor methods data} {request : Request} :
    (∃ detail, answer visitor request = .error (.raised (.notFound detail))) ↔
      (request.place.needsCharacter → visitor.account.isSome) ∧
        ¬IsThere visitor request.place := by
  obtain ⟨htypes, hblueprints, hschematics, -, -⟩ := visitor.reads
  unfold answer
  split_ifs with hlogin
  · refine iff_of_false (by rintro ⟨_, h⟩; cases h) fun hmissing => ?_
    have hsome := hmissing.1 hlogin.1
    rw [hlogin.2] at hsome
    cases hsome
  · have hcharacter : request.place.needsCharacter → visitor.account.isSome := fun hneeds =>
      Option.isSome_iff_ne_none.mpr fun hnone => hlogin ⟨hneeds, hnone⟩
    rw [and_iff_right hcharacter]
    cases request with
    | readRoot =>
        exact notFound_pageAnswer_iff.trans (not_congr (iff_of_true (isFound_readRoot _) trivial))
    | showSettings =>
        obtain ⟨account, haccount⟩ := Option.isSome_iff_exists.mp (hcharacter rfl)
        dsimp only
        rw [haccount]
        exact iff_of_false (by rintro ⟨_, h⟩; cases h) (not_not.mpr trivial)
    | action kind => exact iff_of_false (by rintro ⟨_, h⟩; cases h) (not_not.mpr trivial)
    | page request =>
        refine notFound_pageAnswer_iff.trans (not_congr ?_)
        cases request with
        | catalogBlueprintDetail typeId =>
            refine isFound_catalogBlueprintDetail_iff.trans ?_
            rw [hblueprints, htypes]
            exact Iff.rfl
        | blueprintDetail itemId => exact isFound_blueprintDetail_iff
        | itemDetail typeId => exact isFound_itemDetail_iff
        | locationDetail locationId => exact isFound_locationDetail_iff
        | itemBuildChain typeId qty buildSet =>
            refine isFound_itemBuildChain_iff.trans ?_
            rw [htypes]
            exact Iff.rfl
        | jobDetail jobId => exact isFound_jobDetail_iff
        | listPlanetSchematics => exact iff_of_true isFound_listPlanetSchematics trivial
        | planetSchematicDetail schematicId =>
            refine isFound_planetSchematicDetail_iff.trans ?_
            rw [hschematics]
            exact Iff.rfl
        | listColonies => exact iff_of_true isFound_listColonies trivial
        | colonyDetail planetId => exact isFound_colonyDetail_iff
        | _ => exact iff_of_true (isFound_ok _) trivial

/-- What is shown is there. -/
theorem found_of_answer_eq_ok {visitor : Visitor methods data} {request : Request}
    {result : Answer} (hanswer : answer visitor request = .ok result) :
    Found visitor request.place := by
  have hcharacter : request.place.needsCharacter → visitor.account.isSome := by
    intro hneeds
    refine Option.isSome_iff_ne_none.mpr fun hnone => ?_
    have hlogin := answer_eq_unauthorized_iff.mpr ⟨hneeds, hnone⟩
    rw [hanswer] at hlogin
    cases hlogin
  refine ⟨hcharacter, ?_⟩
  by_contra hnot
  obtain ⟨detail, hmissing⟩ := answer_notFound_iff.mpr ⟨hcharacter, hnot⟩
  rw [hanswer] at hmissing
  cases hmissing

end Answers

end EveBuild.Pages
