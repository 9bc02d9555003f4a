import EveBuild.Data.Urlencoded
import EveBuild.Pages.Blueprints
import EveBuild.Pages.Query

/-!
# The links of the list of blueprints

The list of `app/routes/blueprints.py` has a link for each column that it can be sorted by, with
the filter of the request in its query.  `Clicked` is the request that a browser makes of such a
link: it reads the attribute, and the handler reads the query.

`clicks_reorder` follows any number of links one after the other.  The filter stays as it is, so
that the same cards are shown, and they are in the order of the column that was clicked last,
where cards that are equal there keep the order of the list.
-/

namespace EveBuild.Pages

open Markup Text
open Assets (AssetEntry resolveContainerChain assetsByItemId)

/-! ## The queries of the links -/

theorem toList_quoteByte (byte : UInt8) : (quoteByte byte).toList = Urlencoded.quoteByte byte := by
  by_cases hsafe : byte < 128 ∧ Urlencoded.IsSafe (Char.ofNat byte.toNat)
  · calc (quoteByte byte).toList
        = (String.singleton (Char.ofNat byte.toNat)).toList := congrArg _ (if_pos hsafe)
      _ = [Char.ofNat byte.toNat] := String.toList_singleton _
      _ = Urlencoded.quoteByte byte := (if_pos hsafe).symm
  · refine (congrArg _ (if_neg hsafe)).trans (Eq.trans ?_ (if_neg hsafe).symm)
    split_ifs
    · rfl
    · exact String.toList_ofList

theorem toList_quotePlus (text : String) : (quotePlus text).toList = Urlencoded.quotePlus text := by
  rw [quotePlus, String.toList_join, Urlencoded.toList_toUTF8, List.flatMap_map]
  exact List.flatMap_congr fun byte _ => toList_quoteByte byte

theorem toList_urlencode (params : List (String × String)) :
    (urlencode params).toList = Urlencoded.urlencode params := by
  rw [urlencode, String.toList_intercalate, List.map_map]
  refine congrArg (List.intercalate _) (List.map_congr_left fun param _ => ?_)
  simp [toList_quotePlus]

/-- `parse_qsl` of the build page, with `unquote`. -/
theorem parseQsl_eq (replace : List UInt8 → List Char) (query : List Char) :
    parseQsl (Urlencoded.unquote replace) query = Urlencoded.parseQsl replace query := by
  have hunquote : ∀ text, unquote (Urlencoded.unquote replace) text =
      Urlencoded.unquote replace text := by
    intro text
    rw [unquote]
    split_ifs with hpercent
    · rfl
    · rw [Urlencoded.unquote, if_pos hpercent]
  simp only [parseQsl, Urlencoded.parseQsl, unquotePlus, Urlencoded.unquotePlus, hunquote]

/-! ## The requests -/

/-- The query parameters of `list_blueprints`, as FastAPI reads them. -/
def readFilter (replace : List UInt8 → List Char) (query : List Char) : BlueprintFilter :=
  let params := parseQsl (Urlencoded.unquote replace) query
  { f := (queryParam params "f").map .ofList
    shown := (params.filter fun param => param.1 = "show".toList).map fun param => .ofList param.2
    sort := ((queryParam params "sort").map .ofList).getD "name"
    dir := ((queryParam params "dir").map .ofList).getD "asc"
    location := ((queryParam params "location").map .ofList).getD ""
    search := ((queryParam params "search").map .ofList).getD "" }

/-- `next_dir` of `_sort_link`. -/
def nextDir (filter : BlueprintFilter) (column : String) : String :=
  if column = filter.column ∧ filter.direction = "asc" then "desc" else "asc"

/-- The attribute of the link, for an order of the set `selected`. -/
def sortHref (filter : BlueprintFilter) (selected : List String) (column : String) : Text :=
  escape (concat ["?", data (queryString selected column (nextDir filter column) filter.location
    filter.search)])

theorem sortLink_eq (filter : BlueprintFilter) (column : String) :
    sortLink filter column = concat [r#"<a href=""#, sortHref filter filter.selected column, "\"",
      markup (if column = filter.column then r#" class="active""# else ""), ">",
      sortLabel column,
      markup (if ¬column = filter.column then "" else
        if filter.direction = "asc" then " &#9650;" else " &#9660;"), "</a>"] := rfl

/-- The request that a browser makes of the link for a column.  A set has no order of its own. -/
def Clicked (replace : List UInt8 → List Char) (filter : BlueprintFilter) (column : String)
    (later : BlueprintFilter) : Prop :=
  ∃ selected : List String, selected.Perm filter.selected ∧
    later = readFilter replace
      (queryOf (unescape (sortHref filter selected column).toString.toList))

/-- Links are clicked one after the other. -/
inductive Clicks (replace : List UInt8 → List Char) :
    BlueprintFilter → List String → BlueprintFilter → Prop
  | nil {filter} : Clicks replace filter [] filter
  | cons {filter column columns middle later} (hcolumn : column ∈ sortColumns)
      (hclicked : Clicked replace filter column middle)
      (hclicks : Clicks replace middle columns later) :
      Clicks replace filter (column :: columns) later

variable {replace : List UInt8 → List Char}

/-- The characters of a parameter. -/
def chars (param : String × String) : List Char × List Char := (param.1.toList, param.2.toList)

theorem filter_chars (params : List (String × String)) (name : String) :
    (params.map chars).filter (fun param => param.1 = name.toList) =
      (params.filter fun param => param.1 = name).map chars := by
  rw [List.filter_map]
  refine congrArg (List.map chars) (List.filter_congr fun param _ => ?_)
  exact decide_eq_decide.mpr String.toList_inj

theorem queryParam_chars (params : List (String × String)) (name : String) :
    (queryParam (params.map chars) name).map .ofList =
      (params.filter fun param => param.1 = name).getLast?.map Prod.snd := by
  rw [queryParam, filter_chars, List.getLast?_map, Option.map_map, Option.map_map]
  exact congrFun (congrArg Option.map (funext fun param => String.ofList_toList)) _

theorem map_filter_chars (params : List (String × String)) (name : String) :
    ((params.map chars).filter fun param => param.1 = name.toList).map
        (fun param => String.ofList param.2) =
      (params.filter fun param => param.1 = name).map Prod.snd := by
  rw [filter_chars, List.map_map]
  exact List.map_congr_left fun param _ => String.ofList_toList

theorem filter_named (name other : String) (values : List String) :
    (values.map fun value => (other, value)).filter (fun param => param.1 = name) =
      if other = name then values.map fun value => (other, value) else [] := by
  split_ifs with hname
  · refine List.filter_eq_self.mpr fun param hparam => ?_
    obtain ⟨value, -, rfl⟩ := List.mem_map.mp hparam
    exact decide_eq_true hname
  · refine List.filter_eq_nil_iff.mpr fun param hparam => ?_
    obtain ⟨value, -, rfl⟩ := List.mem_map.mp hparam
    simpa using hname

/-- The parameters that `_query_string` writes. -/
def linkParams (selected : List String) (sort direction location search : String) :
    List (String × String) :=
  [("f", "1")] ++ selected.map (fun value => ("show", value)) ++
    [("sort", sort), ("dir", direction)] ++
    (if location = "" then [] else [("location", location)]) ++
    (if search = "" then [] else [("search", search)])

/-- What a query parameter is in a link. -/
theorem filter_linkParams (selected : List String) (sort direction location search name : String) :
    (linkParams selected sort direction location search).filter (fun param => param.1 = name) =
      (if "f" = name then [("f", "1")] else []) ++
      (if "show" = name then selected.map fun value => ("show", value) else []) ++
      (if "sort" = name then [("sort", sort)] else []) ++
      (if "dir" = name then [("dir", direction)] else []) ++
      (if "location" = name ∧ location ≠ "" then [("location", location)] else []) ++
      (if "search" = name ∧ search ≠ "" then [("search", search)] else []) := by
  simp only [linkParams, List.filter_append, filter_named, List.filter_cons, List.filter_nil]
  by_cases hsort : "sort" = name <;> by_cases hlocation : location = "" <;>
    by_cases hsearch : search = "" <;> simp [hsort, hlocation, hsearch, List.filter_cons]

/-- **What is read of a query.** -/
theorem readFilter_queryString (selected : List String)
    (sort direction location search : String) :
    readFilter replace (queryString selected sort direction location search).toList =
      { f := some "1", shown := selected, sort, dir := direction, location, search } := by
  have hparams : parseQsl (Urlencoded.unquote replace)
      (queryString selected sort direction location search).toList =
      (linkParams selected sort direction location search).map chars := by
    rw [parseQsl_eq, queryString, toList_urlencode, Urlencoded.parseQsl_urlencode]
    rfl
  rw [readFilter, hparams]
  simp only [queryParam_chars, map_filter_chars, filter_linkParams]
  by_cases hlocation : location = "" <;> by_cases hsearch : search = "" <;>
    simp [hlocation, hsearch]

/-! ## Following the links -/

theorem queryOf_sortHref (filter : BlueprintFilter) (selected : List String) (column : String) :
    queryOf (unescape (sortHref filter selected column).toString.toList) =
      (queryString selected column (nextDir filter column) filter.location filter.search).toList := by
  rw [sortHref, toString_escape, toList_escapeString, unescape_escapeChars, toString_concat]
  simp [queryOf]

theorem clicked_iff {filter later : BlueprintFilter} {column : String} :
    Clicked replace filter column later ↔ ∃ selected : List String, selected.Perm filter.selected ∧
      later = { f := some "1", shown := selected, sort := column, dir := nextDir filter column,
                location := filter.location, search := filter.search } := by
  simp only [Clicked, queryOf_sortHref, readFilter_queryString]

theorem selected_eq_filter (filter : BlueprintFilter) :
    filterOptions.filter (· ∈ filter.selected) = filter.selected := by
  unfold BlueprintFilter.selected
  split
  · exact List.filter_congr fun value hvalue => by simp [hvalue]
  · rfl

/-- The column and the direction after a click. -/
def clickColumn (current : String × String) (column : String) : String × String :=
  (column, if column = current.1 ∧ current.2 = "asc" then "desc" else "asc")

/-- What a click changes, and what it does not. -/
structure Reordered (filter later : BlueprintFilter) (columns : List String) : Prop where
  selected : later.selected = filter.selected
  location : later.location = filter.location
  search : later.search = filter.search
  order : (later.column, later.direction) = columns.foldl clickColumn (filter.column, filter.direction)

theorem reordered_of_clicked {filter later : BlueprintFilter} {column : String}
    (hcolumn : column ∈ sortColumns) (hclicked : Clicked replace filter column later) :
    Reordered filter later [column] := by
  obtain ⟨selected, hperm, rfl⟩ := clicked_iff.mp hclicked
  have hselected : filterOptions.filter (· ∈ selected) = filter.selected := by
    rw [← selected_eq_filter filter]
    exact List.filter_congr fun value _ => decide_eq_decide.mpr hperm.mem_iff
  have hdir : nextDir filter column ∈ ["asc", "desc"] := by
    unfold nextDir
    split_ifs <;> decide
  exact {
    selected := hselected
    location := rfl
    search := rfl
    order := Prod.ext (if_pos hcolumn) (if_pos hdir) }

theorem reordered_of_clicks {filter later : BlueprintFilter} {columns : List String}
    (hclicks : Clicks replace filter columns later) : Reordered filter later columns := by
  induction hclicks with
  | nil => exact ⟨rfl, rfl, rfl, rfl⟩
  | cons hcolumn hclicked _ ih =>
      have hfirst := reordered_of_clicked hcolumn hclicked
      refine ⟨ih.selected.trans hfirst.selected, ih.location.trans hfirst.location,
        ih.search.trans hfirst.search, ?_⟩
      rw [ih.order, hfirst.order]
      rfl

/-! ## The cards -/

section Cards

variable (services : Services) (methods : StringMethods)

/-- `parsed_rows`. -/
def parsedRows (blueprints : List BlueprintEntry) (assets : List AssetEntry) : List BlueprintRow :=
  blueprints.map fun bp => blueprintRow services methods
    (resolveContainerChain bp.locationId (assetsByItemId assets)) bp

/-- `visible_rows`, before they are sorted. -/
def visibleRows (blueprints : List BlueprintEntry) (assets : List AssetEntry)
    (filter : BlueprintFilter) : List BlueprintRow :=
  (parsedRows services methods blueprints assets).filter (BlueprintRow.isVisible methods filter)

/-- `visible_rows`, of which the cards are made. -/
def shownRows (blueprints : List BlueprintEntry) (assets : List AssetEntry)
    (filter : BlueprintFilter) : List BlueprintRow :=
  sortRows methods filter (visibleRows services methods blueprints assets filter)

/-- The page around the cards. -/
def listPage (character : Option CharacterDocument) (blueprints : List BlueprintEntry × Bool)
    (assets : List AssetEntry × Bool) (filter : BlueprintFilter) (rows : List BlueprintRow) : Text :=
  let resolvedLocation := fun bp : BlueprintEntry =>
    resolveContainerChain bp.locationId (assetsByItemId assets.1)
  let filtersForm := renderFiltersForm methods filter
    (locationOptions services methods (blueprints.1.map resolvedLocation).dedup)
  let sortLinks := concat ["Sort by: ",
    join " &middot; " (sortColumns.map (sortLink filter))]
  let corpNote : Text :=
    if blueprints.2 || assets.2 then
      r#"<p class="empty">Includes corporation blueprints and/or assets.</p>"#
    else ""
  let body := concat [r#"<div class="page">
      <h1>Blueprints</h1>
      "#, catalogLink, r#"
      "#, corpNote, r#"
      "#, filtersForm, r#"
      "#, concat [r#"<div class="sort-links">"#, sortLinks, "</div>"], r#"
      "#, blueprintSections rows, r#"
    </div>"#]
  renderPage "Blueprints" body blueprintsListStyle character

theorem listBlueprints_eq (character : Option CharacterDocument)
    {blueprints : List BlueprintEntry × Bool} (assets : List AssetEntry × Bool)
    (filter : BlueprintFilter) (hne : blueprints.1 ≠ []) :
    listBlueprints services methods character blueprints assets filter =
      listPage services methods character blueprints assets filter
        (shownRows services methods blueprints.1 assets.1 filter) := by
  rw [listBlueprints, if_neg (by simpa using hne)]
  rfl

/-- The first row is not after the second in a column. -/
def NotAfter (column : String) (first second : BlueprintRow) : Prop :=
  if column = "me" then first.me ≤ second.me
  else if column = "te" then first.te ≤ second.te
  else methods.lower first.name.toString ≤ methods.lower second.name.toString

/-- The rows stand in the order of the filter. -/
def InOrder (filter : BlueprintFilter) (first second : BlueprintRow) : Prop :=
  if filter.direction = "desc" then NotAfter methods filter.column second first
  else NotAfter methods filter.column first second

/-- All rows are there and in order, and those that were in order are as they were. -/
structure SortedRows (filter : BlueprintFilter) (rows sorted : List BlueprintRow) : Prop where
  perm : sorted.Perm rows
  ordered : sorted.Pairwise (InOrder methods filter)
  stable : ∀ kept : List BlueprintRow, kept.Sublist rows →
    kept.Pairwise (InOrder methods filter) → kept.Sublist sorted

instance (filter : BlueprintFilter) (first second : BlueprintRow) :
    Decidable (InOrder methods filter first second) := by
  unfold InOrder NotAfter
  infer_instance

variable {methods}

theorem notAfter_trans {column : String} {first second third : BlueprintRow}
    (hfirst : NotAfter methods column first second)
    (hsecond : NotAfter methods column second third) : NotAfter methods column first third := by
  unfold NotAfter at hfirst hsecond ⊢
  split_ifs at hfirst hsecond ⊢ <;> exact le_trans hfirst hsecond

theorem notAfter_total (column : String) (first second : BlueprintRow) :
    NotAfter methods column first second ∨ NotAfter methods column second first := by
  unfold NotAfter
  split_ifs <;> exact le_total _ _

theorem inOrder_trans {filter : BlueprintFilter} {first second third : BlueprintRow}
    (hfirst : InOrder methods filter first second)
    (hsecond : InOrder methods filter second third) : InOrder methods filter first third := by
  unfold InOrder at hfirst hsecond ⊢
  split_ifs at hfirst hsecond ⊢
  · exact notAfter_trans hsecond hfirst
  · exact notAfter_trans hfirst hsecond

theorem inOrder_total (filter : BlueprintFilter) (first second : BlueprintRow) :
    InOrder methods filter first second ∨ InOrder methods filter second first := by
  unfold InOrder
  split_ifs <;> exact notAfter_total _ _ _

theorem sortRows_eq (filter : BlueprintFilter) (rows : List BlueprintRow) :
    sortRows methods filter rows =
      rows.mergeSort fun first second => InOrder methods filter first second := by
  have hcongr : ∀ {before : BlueprintRow → BlueprintRow → Bool},
      (∀ first second, before first second = decide (InOrder methods filter first second)) →
      rows.mergeSort before =
        rows.mergeSort fun first second => InOrder methods filter first second :=
    fun hbefore => congrArg (rows.mergeSort ·) (funext₂ hbefore)
  unfold sortRows sortedBy sortedByDesc
  dsimp only
  split_ifs <;> refine hcongr fun first second => decide_eq_decide.mpr ?_ <;>
    simp [InOrder, NotAfter, *]

/-- **The cards are sorted**, and nothing else happens to them. -/
theorem sortedRows_sortRows (filter : BlueprintFilter) (rows : List BlueprintRow) :
    SortedRows methods filter rows (sortRows methods filter rows) := by
  have htrans : ∀ first second third : BlueprintRow,
      decide (InOrder methods filter first second) → decide (InOrder methods filter second third) →
        decide (InOrder methods filter first third) := by
    simpa using fun _ _ _ => inOrder_trans
  have htotal : ∀ first second : BlueprintRow, (decide (InOrder methods filter first second) ||
      decide (InOrder methods filter second first)) := by
    simpa using inOrder_total filter
  rw [sortRows_eq]
  exact {
    perm := List.mergeSort_perm ..
    ordered := (List.pairwise_mergeSort htrans htotal rows).imp of_decide_eq_true
    stable := fun kept hkept hordered =>
      List.sublist_mergeSort htrans htotal (hordered.imp decide_eq_true) hkept }

end Cards

theorem isVisible_congr {methods : StringMethods} {filter later : BlueprintFilter}
    {columns : List String} (hreordered : Reordered filter later columns) (row : BlueprintRow) :
    row.isVisible methods later = row.isVisible methods filter := by
  obtain ⟨hselected, hlocation, hsearch, -⟩ := hreordered
  simp only [BlueprintRow.isVisible, hselected, hlocation, hsearch]

/-- **The links reorder the cards.**  Whatever links are followed, the page that is reached has the
cards of the page that they were followed from, sorted by the column of the last link in the
direction that the links come to; cards that are equal in it stand in the order of the list. -/
theorem clicks_reorder {filter later : BlueprintFilter} {columns : List String}
    (hclicks : Clicks replace filter columns later) :
    Reordered filter later columns ∧
    ∀ (services : Services) (methods : StringMethods) (character : Option CharacterDocument)
      (blueprints : List BlueprintEntry × Bool) (assets : List AssetEntry × Bool),
      blueprints.1 ≠ [] → ∃ rows,
        listBlueprints services methods character blueprints assets later =
          listPage services methods character blueprints assets later rows ∧
        SortedRows methods later (visibleRows services methods blueprints.1 assets.1 filter) rows ∧
        rows.Perm (shownRows services methods blueprints.1 assets.1 filter) := by
  have hreordered := reordered_of_clicks hclicks
  refine ⟨hreordered, fun services methods character blueprints assets hne =>
    ⟨_, listBlueprints_eq services methods character assets later hne, ?_, ?_⟩⟩
  all_goals
    have hvisible : visibleRows services methods blueprints.1 assets.1 later =
        visibleRows services methods blueprints.1 assets.1 filter :=
      List.filter_congr fun row _ => isVisible_congr hreordered row
    rw [shownRows, hvisible]
  · exact sortedRows_sortRows later _
  · exact (sortedRows_sortRows later _).perm.trans (sortedRows_sortRows filter _).perm.symm

/-- Copies and originals at a station, as they come. -/
def sampleFilter : BlueprintFilter :=
  ⟨some "1", ["copy", "original"], "name", "asc", "60003760", "Tuvan's \"50%+\" & co"⟩

/-- The link for material efficiency is followed twice. -/
theorem clicks_reorder_sample :
    ∃ later, Clicks (fun _ => []) sampleFilter ["me", "me"] later ∧
      Reordered sampleFilter later ["me", "me"] := by
  have hfollow : ∀ filter : BlueprintFilter, ∃ later, Clicked (fun _ => []) filter "me" later :=
    fun filter => ⟨_, filter.selected, .refl _, rfl⟩
  obtain ⟨middle, hfirst⟩ := hfollow sampleFilter
  obtain ⟨later, hsecond⟩ := hfollow middle
  have hclicks : Clicks (fun _ => []) sampleFilter ["me", "me"] later :=
    .cons (by decide) hfirst (.cons (by decide) hsecond .nil)
  exact ⟨later, hclicks, (clicks_reorder hclicks).1⟩

end EveBuild.Pages
