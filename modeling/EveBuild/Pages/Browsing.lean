import EveBuild.Pages.PlanetDocuments
import EveBuild.Pages.Routes

/-!
# Following the links of the pages

A browser shows a page, follows one of its links, and shows the page that it gets there or that
it is redirected to.  Every page is a document, so that its links can be read
(`isDocument_answer`), and `links_work` says where they lead: whatever links have been followed,
no link of the page that is shown asks for a login, and none leads to a page that is missing, but
for the blueprint of a job and the product of a blueprint, which may not be there.

What a visitor has and the login may change whenever a link is followed.  Where a link of the page
that is shown leads is said for what the page was made of: a blueprint that is sold after its page
was made is missing, and a session can end.
-/

namespace EveBuild.Pages

open Markup Text

variable {methods : StringMethods} {data : ReferenceData}

/-! ## Where a link leads -/

/-- The links of a page, as they are displayed. -/
def linksOf (page : Text) : List String :=
  (Html.linksOfDocument page.toString.toList).map fun href => .ofList (unescape href)

/-- The path that a link leads to.  A link that is only a query leads to the page it is on. -/
def pathOf (current href : String) : String :=
  let path := href.toList.takeWhile (· ≠ '?')
  if path = [] then current else .ofList path

/-- The links that may lead nowhere, where they do: a job with a blueprint that is not among those
of the visitor, and a blueprint with a product that is not among the types. -/
def LeadsNowhere (visitor : Visitor methods data) : Request → Place → Prop
  | .page (.jobDetail jobId), .blueprintDetail itemId =>
      (∃ job ∈ visitor.site.jobs, job.jobId = jobId ∧ job.blueprintId = itemId) ∧
        ∀ blueprint ∈ visitor.site.blueprints.1, blueprint.itemId ≠ itemId
  | .page (.catalogBlueprintDetail typeId), .itemBuildChain productTypeId =>
      (∃ blueprint ∈ blueprintDocs data typeId, blueprint.productTypeId = some productTypeId) ∧
        typeDocs data productTypeId = none
  | _, _ => False

/-- A link leads to a route that the visitor may ask for, and what the route shows is there, or
the link is one of the two. -/
def Leads (visitor : Visitor methods data) (request : Request) (href : String) : Prop :=
  ∃ place : Place, place.path = pathOf request.path href ∧
    (place.needsCharacter → visitor.account.isSome) ∧
    (IsThere visitor place ∨ LeadsNowhere visitor request place)

theorem not_isThere_of_leadsNowhere {visitor : Visitor methods data} {request : Request}
    {place : Place} (hnowhere : LeadsNowhere visitor request place) : ¬IsThere visitor place := by
  intro hthere
  unfold LeadsNowhere at hnowhere
  split at hnowhere
  · obtain ⟨blueprint, hblueprint, heq⟩ := hthere
    exact hnowhere.2 blueprint hblueprint heq
  · rw [IsThere, hnowhere.2] at hthere
    cases hthere
  · exact hnowhere

/-! ### Paths -/

theorem notMem_path (place : Place) : '?' ∉ place.path.toList := by
  have hparameter : '?' ∉ ((place.parts.2.map str).getD "").toList := by
    cases place.parts.2 with
    | none => simp
    | some value => exact Numerals.notMem_toList_repr (by decide) (by decide)
  have hbefore : '?' ∉ place.parts.1.toList := by
    cases place with
    | action kind => cases kind <;> decide
    | _ =>
        dsimp only [Place.parts]
        decide
  rw [Place.path, String.toList_append, List.mem_append, not_or]
  exact ⟨hbefore, hparameter⟩

theorem path_ne_nil (place : Place) : place.path.toList ≠ [] := by
  have hbefore : place.parts.1.toList ≠ [] := by
    cases place with
    | action kind => cases kind <;> decide
    | _ =>
        dsimp only [Place.parts]
        decide
  rw [Place.path, String.toList_append]
  exact List.append_ne_nil_of_left_ne_nil hbefore _

theorem pathOf_path_append (current : String) (place : Place) (query : List Char) :
    pathOf current (.ofList (place.path.toList ++ '?' :: query)) = place.path := by
  have hbefore : ∀ c ∈ place.path.toList, decide (c ≠ '?') := by
    intro c hc
    refine decide_eq_true ?_
    rintro rfl
    exact notMem_path place hc
  rw [pathOf, String.toList_ofList, List.takeWhile_append_of_pos hbefore,
    List.takeWhile_cons_of_neg (by simp), List.append_nil, if_neg (path_ne_nil place),
    String.ofList_toList]

theorem pathOf_path (current : String) (place : Place) :
    pathOf current place.path = place.path := by
  have hbefore : ∀ c ∈ place.path.toList, decide (c ≠ '?') := by
    intro c hc
    refine decide_eq_true ?_
    rintro rfl
    exact notMem_path place hc
  rw [pathOf, List.takeWhile_eq_self_iff.mpr hbefore, if_neg (path_ne_nil place),
    String.ofList_toList]

section Leading

variable {visitor : Visitor methods data} {request : Request}

/-- A link to the path of a route. -/
theorem leads_path (place : Place) {href : String} (hhref : place.path = href)
    (hfound : Found visitor place) : Leads visitor request href := by
  subst hhref
  exact ⟨place, (pathOf_path _ place).symm, hfound.1, .inl hfound.2⟩

theorem leads_path_query (place : Place) {path : String} (hpath : place.path = path)
    (hfound : Found visitor place) (query : String) :
    Leads visitor request (path ++ "?" ++ query) := by
  subst hpath
  refine ⟨place, ?_, hfound.1, .inl hfound.2⟩
  have htext : place.path ++ "?" ++ query =
      .ofList (place.path.toList ++ '?' :: query.toList) := by
    rw [← String.toList_inj, String.toList_ofList, String.toList_append, String.toList_append,
      List.append_assoc]
    rfl
  rw [htext, pathOf_path_append]

/-- A link that changes only the query. -/
theorem leads_query (hfound : Found visitor request.place) (query : String) :
    Leads visitor request ("?" ++ query) := by
  refine ⟨request.place, ?_, hfound.1, .inl hfound.2⟩
  have hnone : ("?" ++ query).toList.takeWhile (· ≠ '?') = [] := by
    rw [String.toList_append]
    rfl
  rw [pathOf, if_pos hnone]
  rfl

theorem leads_publicLinks : ∀ href ∈ publicLinks, Leads visitor request href := by
  have hlinks : publicLinks = [Place.readRoot, .buildChooser, .itemSearch, .blueprintCatalog,
      .listPlanetSchematics, .action .login].map Place.path := rfl
  rw [hlinks, List.forall_mem_map]
  intro place hplace
  refine leads_path place rfl ?_
  simp only [List.mem_cons, List.not_mem_nil, or_false] at hplace
  rcases hplace with rfl | rfl | rfl | rfl | rfl | rfl <;>
    exact ⟨by simp [Place.needsCharacter], trivial⟩

theorem leads_characterLinks (haccount : visitor.account.isSome) :
    ∀ href ∈ characterLinks, Leads visitor request href := by
  have hlinks : characterLinks = publicLinks ++ [Place.listBlueprints, .listAssets, .listColonies,
      .showSettings, .action .logout, .action .refreshData, .action .connectCorp,
      .action .disconnectCorp, .action .clearData].map Place.path := rfl
  rw [hlinks, List.forall_mem_append, List.forall_mem_map]
  refine ⟨leads_publicLinks, fun place hplace =>
    leads_path place rfl ⟨fun _ => haccount, ?_⟩⟩
  simp only [List.mem_cons, List.not_mem_nil, or_false] at hplace
  rcases hplace with rfl | rfl | rfl | rfl | rfl | rfl | rfl | rfl | rfl <;> trivial

theorem leads_linksFor : ∀ href ∈ linksFor visitor.character, Leads visitor request href := by
  intro href hhref
  unfold linksFor at hhref
  split_ifs at hhref with hcharacter
  · rw [Visitor.character, Option.isSome_map] at hcharacter
    exact leads_characterLinks hcharacter href hhref
  · exact leads_publicLinks href hhref

end Leading

/-! ## Every page is a document -/

/-- The names of the inputs of schematics have nothing to escape. -/
def InputNamesPlain (data : ReferenceData) : Prop :=
  ∀ schematic ∈ data.schematics, ∀ material ∈ schematic.2.inputs,
    ∀ doc ∈ typeDocs data material.typeId, ∀ name ∈ doc.name, Plain name

theorem plain_typeName {services : Services} {typeId : ℤ}
    (hname : ∀ doc ∈ services.typeDocs typeId, ∀ name ∈ doc.name, Plain name) :
    Plain (services.typeName typeId) := by
  unfold Services.typeName
  cases hdoc : (services.typeDocs typeId).bind TypeDoc.name with
  | none => exact plain_append.mpr ⟨plain_of_chars rfl (by decide), plain_str typeId⟩
  | some name =>
      obtain ⟨doc, hdoc, hname'⟩ := Option.bind_eq_some_iff.mp hdoc
      exact hname doc hdoc name hname'

/-! ### The links of the asset pages -/

theorem mem_pageTypes_of_row {assets : List Assets.AssetEntry} {overview : Assets.Overview}
    (hoverview : overview ∈ Assets.listAssets assets) {isMatch : ℤ → Bool}
    {row : Assets.CategoryRow} (hrow : row ∈ overview.rows isMatch) :
    row.typeId ∈ Assets.pageTypes assets := by
  unfold Assets.listAssets at hoverview
  split_ifs at hoverview
  · cases hoverview
  · obtain rfl := Option.some.inj hoverview
    obtain ⟨⟨typeId, quantity⟩, hentry, rfl⟩ := List.mem_map.mp hrow
    obtain ⟨asset, hasset, rfl⟩ := Dict.mem_keys_sumBy.mp (Dict.mem_keys_of_mem hentry)
    exact List.mem_toFinset.mpr (List.mem_map_of_mem (List.mem_of_mem_filter hasset))

theorem mem_pageLocations_of_entry {assets : List Assets.AssetEntry} {typeId : ℤ}
    {owned : Assets.ItemPage} (howned : owned ∈ Assets.itemDetail assets typeId) {entry : ℤ × ℤ}
    (hentry : entry ∈ owned.quantityByLocation.entries) :
    entry.1 ∈ Assets.pageLocations assets := by
  unfold Assets.itemDetail at howned
  dsimp only at howned
  split_ifs at howned
  · cases howned
  · obtain rfl := Option.some.inj howned
    obtain ⟨asset, hasset, heq⟩ := Dict.mem_keys_sumBy.mp (Dict.mem_keys_of_mem hentry)
    rw [← heq]
    exact List.mem_toFinset.mpr (List.mem_map_of_mem (List.mem_of_mem_filter hasset))

theorem mem_pageTypes_of_entry {assets : List Assets.AssetEntry} {locationId : ℤ}
    {held : Assets.LocationPage} (hheld : held ∈ Assets.locationDetail assets locationId)
    {entry : ℤ × ℤ} (hentry : entry ∈ held.quantityByType.entries) :
    entry.1 ∈ Assets.pageTypes assets := by
  unfold Assets.locationDetail at hheld
  dsimp only at hheld
  split_ifs at hheld
  · cases hheld
  · obtain rfl := Option.some.inj hheld
    obtain ⟨asset, hasset, heq⟩ := Dict.mem_keys_sumBy.mp (Dict.mem_keys_of_mem hentry)
    rw [← heq]
    exact List.mem_toFinset.mpr (List.mem_map_of_mem (List.mem_of_mem_filter hasset))

section Documents

variable {visitor : Visitor methods data} {page : Text}

theorem pageAnswer_eq_page {result : Except PageError Text}
    (hanswer : pageAnswer result = .ok (.page page)) : result = .ok page := by
  cases result with
  | ok text =>
      obtain rfl := Answer.page.inj (Except.ok.inj hanswer)
      rfl
  | error error => cases hanswer

/-- A page of `respond`. -/
theorem isDocument_respond {request : PageRequest}
    (hcapitalize : CapitalizesPlainly methods)
    (hinputs : request = .listPlanetSchematics → InputNamesPlain data)
    (hfound : Found visitor (Request.page request).place)
    (hpage : respond visitor.site visitor.character request = .ok page) :
    IsDocument (Leads visitor (.page request)) page := by
  obtain ⟨htypes, hblueprints, hschematics, hitems, hfoundBlueprints⟩ := visitor.reads
  have hcapitalize' : CapitalizesPlainly visitor.site.methods := by
    rwa [visitor.methods_eq]
  have hlinks : ∀ href ∈ linksFor visitor.character, Leads visitor (.page request) href :=
    leads_linksFor
  cases request with
  | listBlueprints filter =>
      have haccount : visitor.account.isSome := hfound.1 rfl
      obtain rfl := Except.ok.inj hpage
      exact isDocument_listBlueprints hcapitalize' (leads_characterLinks haccount)
        (leads_query hfound) fun blueprint hblueprint =>
          leads_path (.blueprintDetail blueprint.itemId) rfl
            ⟨fun _ => haccount, blueprint, hblueprint, rfl⟩
  | blueprintCatalog q =>
      obtain rfl := Except.ok.inj hpage
      refine isDocument_blueprintCatalog hlinks fun blueprint hblueprint => ?_
      rw [hfoundBlueprints] at hblueprint
      exact leads_path (.catalogBlueprintDetail blueprint.id) rfl
        ⟨(nomatch ·), isSome_docs_of_search hblueprint⟩
  | catalogBlueprintDetail typeId =>
      refine isDocument_catalogBlueprintDetail hlinks (fun blueprint hblueprint product hproduct => ?_)
        hpage
      rw [hblueprints] at hblueprint
      refine ⟨.itemBuildChain product, (pathOf_path _ (.itemBuildChain product)).symm,
        (nomatch ·), ?_⟩
      by_cases hdoc : typeDocs data product = none
      · exact .inr ⟨⟨blueprint, hblueprint, hproduct⟩, hdoc⟩
      · exact .inl (Option.isSome_iff_ne_none.mpr hdoc)
  | blueprintDetail itemId =>
      have haccount : visitor.account.isSome := hfound.1 rfl
      exact isDocument_blueprintDetail (leads_characterLinks haccount) hpage
  | listAssets =>
      have haccount : visitor.account.isSome := hfound.1 rfl
      obtain rfl := Except.ok.inj hpage
      refine isDocument_listAssets (leads_characterLinks haccount)
        fun overview hoverview isMatch row hrow => ?_
      exact leads_path (.itemDetail row.typeId) rfl
        ⟨fun _ => haccount, mem_pageTypes_of_row hoverview hrow⟩
  | itemDetail typeId =>
      have haccount : visitor.account.isSome := hfound.1 rfl
      refine isDocument_itemDetail (leads_characterLinks haccount)
        (fun owned howned entry hentry => ?_) hpage
      exact leads_path (.locationDetail entry.1) rfl
        ⟨fun _ => haccount, mem_pageLocations_of_entry howned hentry⟩
  | locationDetail locationId =>
      have haccount : visitor.account.isSome := hfound.1 rfl
      refine isDocument_locationDetail (leads_characterLinks haccount)
        (fun held hheld entry hentry => ?_) hpage
      exact leads_path (.itemDetail entry.1) rfl
        ⟨fun _ => haccount, mem_pageTypes_of_entry hheld hentry⟩
  | buildChooser =>
      obtain rfl := Except.ok.inj hpage
      exact isDocument_buildChooser hlinks
  | itemSearch q =>
      obtain rfl := Except.ok.inj hpage
      refine isDocument_itemSearch hlinks fun item hitem => ?_
      rw [hitems] at hitem
      exact leads_path (.itemBuildChain item.id) rfl
        ⟨(nomatch ·), isSome_typeDocs_of_search hitem⟩
  | itemBuildChain typeId qty buildSet =>
      exact isDocument_itemBuildChain hlinks (leads_path_query (.itemBuildChain typeId) rfl hfound) hpage
  | jobDetail jobId =>
      have haccount : visitor.account.isSome := hfound.1 rfl
      refine isDocument_jobDetail hlinks (fun job hjob hid => ?_) hpage
      refine ⟨.blueprintDetail job.blueprintId,
        (pathOf_path _ (.blueprintDetail job.blueprintId)).symm, fun _ => haccount, ?_⟩
      by_cases hblueprint : ∃ blueprint ∈ visitor.site.blueprints.1,
          blueprint.itemId = job.blueprintId
      · exact .inl hblueprint
      · exact .inr ⟨⟨job, hjob, hid, rfl⟩, fun blueprint hmem heq =>
          hblueprint ⟨blueprint, hmem, heq⟩⟩
  | listPlanetSchematics =>
      have hmem : ∀ schematic ∈ visitor.site.services.planetSchematics,
          schematic ∈ data.schematics := by
        rw [hschematics]
        exact fun _ hschematic => hschematic
      refine isDocument_listPlanetSchematics hlinks (fun schematic hschematic material hmaterial => ?_)
        (fun schematic hschematic => ?_) hpage
      · refine plain_typeName ?_
        rw [htypes]
        exact hinputs rfl schematic (hmem schematic hschematic) material hmaterial
      · exact leads_path (.planetSchematicDetail schematic.1) rfl
          ⟨(nomatch ·), schematic, hmem schematic hschematic, rfl⟩
  | planetSchematicDetail schematicId => exact isDocument_planetSchematicDetail hlinks hpage
  | listColonies =>
      have haccount : visitor.account.isSome := hfound.1 rfl
      refine isDocument_listColonies (leads_characterLinks haccount) (fun colony hcolony => ?_) hpage
      refine leads_path (.colonyDetail colony.planetId) rfl ⟨fun _ => haccount, ?_⟩
      intro colonies hcolonies
      rw [Option.mem_def.mp hcolonies, Option.getD_some] at hcolony
      exact ⟨colony, hcolony, rfl⟩
  | colonyDetail planetId =>
      have haccount : visitor.account.isSome := hfound.1 rfl
      exact isDocument_colonyDetail (leads_characterLinks haccount) hpage

/-- **Every page is a document**, and its links lead somewhere. -/
theorem isDocument_answer {request : Request} (hcapitalize : CapitalizesPlainly methods)
    (hinputs : request.place = .listPlanetSchematics → InputNamesPlain data)
    (hanswer : answer visitor request = .ok (.page page)) :
    IsDocument (Leads visitor request) page := by
  have hfound : Found visitor request.place := found_of_answer_eq_ok hanswer
  unfold answer at hanswer
  split_ifs at hanswer
  cases request with
  | page request =>
      exact isDocument_respond hcapitalize (fun heq => hinputs (by rw [heq]; rfl)) hfound
        (pageAnswer_eq_page hanswer)
  | readRoot =>
      have hpage := pageAnswer_eq_page hanswer
      unfold readRoot Visitor.character at hpage
      cases haccount : visitor.account with
      | none =>
          rw [haccount] at hpage
          obtain rfl := Except.ok.inj hpage
          exact isDocument_renderLogin leads_publicLinks
      | some account =>
          have hsome : visitor.account.isSome := by rw [haccount]; rfl
          rw [haccount] at hpage
          refine isDocument_renderDashboard (leads_characterLinks hsome) (fun job hjob => ?_) hpage
          exact leads_path (.jobDetail job.jobId) rfl
            ⟨fun _ => hsome, job, List.mem_of_mem_filter hjob, rfl⟩
  | showSettings =>
      cases haccount : visitor.account with
      | none =>
          rw [haccount] at hanswer
          cases hanswer
      | some account =>
          rw [haccount] at hanswer
          obtain rfl := Answer.page.inj (Except.ok.inj hanswer)
          exact isDocument_showSettings (leads_characterLinks (by rw [haccount]; rfl))
  | action kind => cases hanswer

/-- **Every page is well-formed**: its elements are closed in the order in which they are opened,
and no attribute is given twice, whatever the names are. -/
theorem answer_well_formed (hcapitalize : CapitalizesPlainly methods) {request : Request}
    (hinputs : request.place = .listPlanetSchematics → InputNamesPlain data)
    (hanswer : answer visitor request = .ok (.page page)) :
    Html.Document (fun _ => True) page.toString.toList :=
  (isDocument_answer hcapitalize hinputs hanswer).mono fun _ _ => trivial

/-- **The links of a page** lead where they should. -/
theorem leads_of_mem_linksOf {request : Request} (hcapitalize : CapitalizesPlainly methods)
    (hinputs : request.place = .listPlanetSchematics → InputNamesPlain data)
    (hanswer : answer visitor request = .ok (.page page)) :
    ∀ href ∈ linksOf page, Leads visitor request href := by
  intro href hhref
  obtain ⟨chars, hchars, rfl⟩ := List.mem_map.mp hhref
  exact Html.leads_of_mem_linksOfDocument (isDocument_answer hcapitalize hinputs hanswer) chars
    hchars

end Documents

/-! ### A visitor -/

/-- A blueprint whose product is not among the types, and a name with markup in it. -/
def sampleData : ReferenceData where
  types := [⟨691, ⟨some "<b>Rifter</b> \"Blueprint\"", some 1, none, none, none⟩, true⟩,
    ⟨34, ⟨some "Tritanium", none, none, none, some (1 / 100)⟩, true⟩]
  blueprints := [(691, ⟨some 587, some 1, some 1, [⟨34, 28000⟩]⟩)]
  schematics := []
  hasText query name := isIn query name

/-- Somebody who has not logged in. -/
def sampleVisitor : Visitor asciiMethods sampleData where
  site := {
    services := {
      typeDocs := typeDocs sampleData
      blueprintDocs := blueprintDocs sampleData
      marketPrices := fun _ => none
      locationInfo := fun _ => none
      planetNames := fun _ => none
      systemNames := fun _ => none
      planetSchematics := []
      secondsUntil := fun _ => none }
    methods := asciiMethods
    blueprints := ([], false)
    assets := ([], false)
    jobs := []
    colonies := none
    searchBlueprints := searchBlueprintsByName sampleData
    searchItems := searchItemsByName sampleData
    products := []
    ceilQuotient := BuildChain.exactCeil
    fuel := 1000 }
  account := none
  methods_eq := rfl
  reads := ⟨rfl, rfl, rfl, rfl, rfl⟩

theorem capitalizesPlainly_asciiMethods : CapitalizesPlainly asciiMethods := by
  unfold CapitalizesPlainly filterOptions
  simp only [List.forall_mem_cons]
  refine ⟨?_, ?_, ?_, by simp⟩ <;> exact plain_of_chars rfl (by decide)

theorem exists_answer_sample :
    ∃ page, answer sampleVisitor (.page (.catalogBlueprintDetail 691)) = .ok (.page page) :=
  ⟨_, rfl⟩

/-- The page of the blueprint is well-formed. -/
theorem answer_well_formed_sample :
    ∃ page, answer sampleVisitor (.page (.catalogBlueprintDetail 691)) = .ok (.page page) ∧
      Html.Document (fun _ => True) page.toString.toList := by
  obtain ⟨page, hanswer⟩ := exists_answer_sample
  exact ⟨page, hanswer, answer_well_formed capitalizesPlainly_asciiMethods
    (fun heq => by cases heq) hanswer⟩

/-! ## Browsing -/

/-- What a browser shows. -/
structure View (methods : StringMethods) (data : ReferenceData) where
  visitor : Visitor methods data
  request : Request
  page : Text

/-- The page is what the visitor has got. -/
def View.IsShown (view : View methods data) : Prop :=
  answer view.visitor view.request = .ok (.page view.page)

/-- What a redirect may have changed: who has logged out is nobody, and the data of a character
may be read anew. -/
def Redirects (kind : Action) (visitor later : Visitor methods data) : Prop :=
  match kind with
  | .logout | .clearData => later.account = none
  | _ => later.account.isSome = visitor.account.isSome

/-- A link of the page is followed, to a page or to a redirect, by a visitor whose data and login
may have changed since the page was made. -/
inductive Follows (view : View methods data) : View methods data → Prop
  | page {href : String} {request : Request} {now : Visitor methods data} {page : Text}
      (hlink : href ∈ linksOf view.page) (hpath : request.path = pathOf view.request.path href)
      (hanswer : answer now request = .ok (.page page)) :
      Follows view ⟨now, request, page⟩
  | redirect {href : String} {kind : Action} {location : Request}
      {now later : Visitor methods data} {page : Text} (hlink : href ∈ linksOf view.page)
      (hpath : (Request.action kind).path = pathOf view.request.path href)
      (hanswer : answer now (.action kind) = .ok (.redirect (some location)))
      (hredirects : Redirects kind now later)
      (hpage : answer later location = .ok (.page page)) :
      Follows view ⟨later, location, page⟩

theorem View.IsShown.of_follows {view next : View methods data} (hfollows : Follows view next) :
    next.IsShown := by
  cases hfollows with
  | page hlink hpath hanswer => exact hanswer
  | redirect hlink hpath hanswer hredirects hpage => exact hpage

/-- Any number of links are followed. -/
theorem View.IsShown.of_browsing {start view : View methods data} (hstart : start.IsShown)
    (hbrowsing : Relation.ReflTransGen Follows start view) : view.IsShown := by
  induction hbrowsing with
  | refl => exact hstart
  | tail _ hfollows _ => exact .of_follows hfollows

/-- **No link is dead**, whatever links have been followed to the page that it is on, and whatever
has changed between the pages: for the data and the login that its page was made with, it leads to
a route, never asks for a login, and finds no page only where it is one of the two that may lead
nowhere. -/
theorem links_work (hcapitalize : CapitalizesPlainly methods) (hinputs : InputNamesPlain data)
    {start view : View methods data} (hstart : start.IsShown)
    (hbrowsing : Relation.ReflTransGen Follows start view) :
    ∀ href ∈ linksOf view.page, ∃ place : Place, place.path = pathOf view.request.path href ∧
      ∀ request : Request, request.path = pathOf view.request.path href →
        answer view.visitor request ≠ .error .unauthorized ∧
        ((∃ detail, answer view.visitor request = .error (.raised (.notFound detail))) ↔
          LeadsNowhere view.visitor view.request place) := by
  intro href hhref
  obtain ⟨place, hplace, hcharacter, hleads⟩ :=
    leads_of_mem_linksOf hcapitalize (fun _ => hinputs) (hstart.of_browsing hbrowsing) href hhref
  refine ⟨place, hplace, fun request hrequest => ?_⟩
  -- the path of the link is that of one route only
  obtain rfl : request.place = place := path_injective (hrequest.trans hplace.symm)
  constructor
  · rw [ne_eq, answer_eq_unauthorized_iff]
    rintro ⟨hneeds, hnone⟩
    have hsome := hcharacter hneeds
    rw [hnone] at hsome
    cases hsome
  · rw [answer_notFound_iff, and_iff_right hcharacter]
    exact ⟨hleads.resolve_left, not_isThere_of_leadsNowhere⟩

/-- The links of the page of the blueprint, of which one finds no product. -/
theorem links_work_sample :
    ∃ view : View asciiMethods sampleData, view.IsShown ∧
      LeadsNowhere view.visitor view.request (.itemBuildChain 587) ∧
      ∀ href ∈ linksOf view.page, ∃ place : Place, place.path = pathOf view.request.path href ∧
        ∀ request : Request, request.path = pathOf view.request.path href →
          answer view.visitor request ≠ .error .unauthorized ∧
          ((∃ detail, answer view.visitor request = .error (.raised (.notFound detail))) ↔
            LeadsNowhere view.visitor view.request place) := by
  obtain ⟨page, hanswer⟩ := exists_answer_sample
  have hshown : View.IsShown ⟨sampleVisitor, .page (.catalogBlueprintDetail 691), page⟩ := hanswer
  have hinputs : InputNamesPlain sampleData := by simp [InputNamesPlain, sampleData]
  exact ⟨_, hshown, ⟨⟨_, rfl, rfl⟩, rfl⟩,
    links_work capitalizesPlainly_asciiMethods hinputs hshown .refl⟩

end EveBuild.Pages
