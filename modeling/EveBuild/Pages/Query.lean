import Mathlib.Data.Int.ConditionallyCompleteOrder
import EveBuild.Data.Numerals
import EveBuild.Pages.Build

/-!
# The query of the build page

`_build_toggle_href` writes a quantity and a build set into the query of a link, and
`item_build_chain` reads them back: `parse_qsl` splits the query, FastAPI checks the quantity, and
the handler makes the build set of the tokens that are digits.

What is not in `src/` are parameters: how FastAPI reads an integer, of which only decimal texts
matter here, and what `unquote` makes of a text with `%` in it, of which no link has any.
-/

namespace EveBuild.Pages

open Markup Text
open BuildChain (toggled)
open Numerals

/-! ## Reading the query -/

section Reading

variable (unescape : List Char → List Char)

/-- `urllib.parse.unquote`. -/
def unquote (text : List Char) : List Char := if '%' ∈ text then unescape text else text

/-- `name.replace("+", " ")`, unquoted. -/
def unquotePlus (text : List Char) : List Char :=
  unquote unescape (text.map fun c => if c = '+' then ' ' else c)

/-- `parse_qsl(query, keep_blank_values=True)`. -/
def parseQsl (query : List Char) : List (List Char × List Char) :=
  (query.splitOn '&').filterMap fun pair =>
    if pair = [] then none
    else some (unquotePlus unescape (pair.takeWhile (· ≠ '=')),
      unquotePlus unescape ((pair.dropWhile (· ≠ '=')).drop 1))

/-- The value of a query parameter: the last one that the query gives. -/
def queryParam (params : List (List Char × List Char)) (name : String) : Option (List Char) :=
  (params.filter fun param => param.1 = name.toList).getLast?.map Prod.snd

/-- The query of a link. -/
def queryOf (href : List Char) : List Char := (href.dropWhile (· ≠ '?')).drop 1

variable (table : CharTable) (readInt : List Char → Option ℤ)

/-- The generator of `build_set`. -/
def buildTokens (build : List Char) : List (List Char) :=
  (build.splitOn ',').filter fun token => IsDigit table (strip table.isSpace token)

/-- `build_set` of `item_build_chain`. -/
def parseBuild (build : List Char) : Except ValueError (Finset ℤ) := do
  let ids ← (buildTokens table build).mapM (intOf table)
  return ids.toFinset

/-- What a request for the build page fails with before the chain is resolved. -/
inductive QueryError
  | unprocessable
  | uncaught (error : ValueError)

/-- `qty: int = Query(default=1, ge=1)`. -/
def readQty (text : Option (List Char)) : Except QueryError ℤ :=
  match text with
  | none => return 1
  | some text =>
      match readInt text with
      | some qty => if 1 ≤ qty then return qty else throw .unprocessable
      | none => throw .unprocessable

/-- What `item_build_chain` reads from a query. -/
def readBuildQuery (query : List Char) : Except QueryError (ℤ × Finset ℤ) := do
  let params := parseQsl unescape query
  let qty ← readQty readInt (queryParam params "qty")
  match parseBuild table ((queryParam params "build").getD []) with
  | .ok buildSet => return (qty, buildSet)
  | .error error => throw (.uncaught error)

end Reading

/-! ## The tokens -/

variable {unescape : List Char → List Char} {table : CharTable} {readInt : List Char → Option ℤ}

/-- The ids of the tokens that are decimal numerals, with or without spaces around them. -/
def IsDecimalId (table : CharTable) (build : List Char) (id : ℤ) : Prop :=
  ∃ token ∈ build.splitOn ',', IsDecimal table (strip table.isSpace token) ∧
    id = valueOf table (strip table.isSpace token)

/-- **The parse of a build parameter** returns its decimal ids if and only if `int` reads every
token that `isdigit` accepts. -/
theorem parseBuild_decimal_iff {build : List Char} :
    (∃ ids, parseBuild table build = .ok ids ∧ ∀ id, id ∈ ids ↔ IsDecimalId table build id) ↔
      ∀ token ∈ build.splitOn ',', IsDigit table (strip table.isSpace token) →
        Readable table token := by
  constructor
  · rintro ⟨ids, hparse, -⟩ token htoken hdigit
    obtain ⟨values, hvalues, -⟩ := bind_eq_ok.mp hparse
    obtain ⟨value, hvalue⟩ := exists_ok_of_mapM hvalues token
      (List.mem_filter.mpr ⟨htoken, decide_eq_true hdigit⟩)
    exact ((intOf_eq_ok_iff hdigit).mp hvalue).1
  · intro hreadable
    have hbody : ∀ token ∈ buildTokens table build, intOf table token =
        .ok (valueOf table (strip table.isSpace token)) := by
      intro token htoken
      obtain ⟨hmem, hdigit⟩ := List.mem_filter.mp htoken
      rw [decide_eq_true_eq] at hdigit
      exact (intOf_eq_ok_iff hdigit).mpr ⟨hreadable token hmem hdigit, rfl⟩
    refine ⟨_, bind_eq_ok.mpr ⟨_, mapM_eq_ok_map hbody, rfl⟩, fun id => ?_⟩
    simp only [List.mem_toFinset, List.mem_map, buildTokens, List.mem_filter, decide_eq_true_eq]
    constructor
    · rintro ⟨token, ⟨hmem, hdigit⟩, rfl⟩
      exact ⟨token, hmem, (hreadable token hmem hdigit).decimal, rfl⟩
    · rintro ⟨token, hmem, hdecimal, rfl⟩
      exact ⟨token, ⟨hmem, isDigit_of_isDecimal hdecimal⟩, rfl⟩

/-- The ids of a written build set are read, but for the negative ones. -/
theorem parseBuild_intercalate {ids : List ℤ} (hne : ids ≠ []) (hshort : ∀ id ∈ ids, Short id) :
    parseBuild table ([','].intercalate (ids.map fun id => id.repr.toList)) =
      .ok (ids.filter (0 ≤ ·)).toFinset := by
  have hsplit : ([','].intercalate (ids.map fun id => id.repr.toList)).splitOn ',' =
      ids.map fun id => id.repr.toList := by
    refine List.splitOn_intercalate ',' ?_ (by simpa using hne)
    rw [List.forall_mem_map]
    exact fun id _ => notMem_toList_repr (by decide) (by decide)
  have htokens : buildTokens table ([','].intercalate (ids.map fun id => id.repr.toList)) =
      (ids.filter (0 ≤ ·)).map fun id => id.repr.toList := by
    rw [buildTokens, hsplit, List.filter_map]
    congr 1
    refine List.filter_congr fun id _ => ?_
    simp only [Function.comp_apply, isDigit_strip_repr_iff]
  have hread : ((ids.filter (0 ≤ ·)).map fun id => id.repr.toList).mapM (intOf table) =
      .ok (ids.filter (0 ≤ ·)) := by
    rw [List.mapM_map]
    have hbody : ∀ id ∈ ids.filter (0 ≤ ·), intOf table id.repr.toList = .ok id :=
      fun id hid => intOf_repr (hshort id (List.mem_of_mem_filter hid))
    simpa [Function.comp_def] using mapM_eq_ok_map hbody
  unfold parseBuild
  rw [htokens, hread]
  rfl

theorem parseBuild_nil : parseBuild table [] = .ok ∅ := by
  have htokens : buildTokens table [] = [] := by
    simp [buildTokens, strip, IsDigit]
  unfold parseBuild
  rw [htokens]
  rfl

/-! ## The link -/

/-- The query of a link. -/
def hrefQuery (qty : ℤ) (updated : Finset ℤ) : List Char :=
  "qty=".toList ++ qty.repr.toList ++
    if updated = ∅ then []
    else "&build=".toList ++ [','].intercalate (updated.sort.map fun id => id.repr.toList)

theorem strOf_eq_ok_iff {value : ℤ} {text : String} :
    strOf value = .ok text ↔ Short value ∧ text = value.repr := by
  unfold strOf
  by_cases hshort : Short value
  · rw [if_pos hshort]
    exact ⟨fun heq => by cases heq; exact ⟨hshort, rfl⟩, fun h => by rw [h.2]; rfl⟩
  · rw [if_neg hshort]
    exact iff_of_false (fun heq => by cases heq) fun h => hshort h.1

theorem mapM_strOf {ids : List ℤ} (hshort : ∀ id ∈ ids, Short id) :
    ids.mapM strOf = .ok (ids.map Int.repr) :=
  mapM_eq_ok_map fun id hid => strOf_eq_ok_iff.mpr ⟨hshort id hid, rfl⟩

/-- The link is made if none of its numbers is too long. -/
theorem toggleHref_returns {targetTypeId qty toggledTypeId : ℤ} {buildSet : Finset ℤ}
    {adding : Bool} (htarget : Short targetTypeId) (hqty : Short qty)
    (hids : ∀ id ∈ toggled buildSet toggledTypeId adding, Short id) :
    ∃ href, toggleHref targetTypeId qty buildSet toggledTypeId adding = .ok href ∧
      queryOf href.toList = hrefQuery qty (toggled buildSet toggledTypeId adding) := by
  have hmap : (toggled buildSet toggledTypeId adding).sort.mapM strOf = .ok _ :=
    mapM_strOf fun id hid => hids id ((Finset.mem_sort _).mp hid)
  -- the first question mark of the link is the one before its query
  have hquery : ∀ query : String, queryOf ("/build/items/" ++ targetTypeId.repr ++ "?" ++
      query).toList = query.toList := by
    intro query
    have hbefore : ∀ c ∈ ("/build/items/" ++ targetTypeId.repr).toList, decide (c ≠ '?') := by
      intro c hc
      refine decide_eq_true ?_
      rintro rfl
      rw [String.toList_append, List.mem_append] at hc
      rcases hc with hc | hc
      · simp at hc
      · exact notMem_toList_repr (by decide) (by decide) hc
    rw [queryOf, String.toList_append, String.toList_append, List.append_assoc,
      List.dropWhile_append_of_pos hbefore]
    rfl
  refine ⟨_, bind_eq_ok.mpr ⟨_, strOf_eq_ok_iff.mpr ⟨hqty, rfl⟩, bind_eq_ok.mpr ⟨_, hmap,
    bind_eq_ok.mpr ⟨_, strOf_eq_ok_iff.mpr ⟨htarget, rfl⟩, rfl⟩⟩⟩, ?_⟩
  rw [hquery, hrefQuery]
  by_cases hempty : toggled buildSet toggledTypeId adding = ∅
  · simp [hempty]
  · simp [hempty, String.toList_intercalate, Function.comp_def]

theorem short_of_toggleHref {targetTypeId qty toggledTypeId : ℤ} {buildSet : Finset ℤ}
    {adding : Bool} {href : String}
    (hok : toggleHref targetTypeId qty buildSet toggledTypeId adding = .ok href) :
    Short targetTypeId ∧ Short qty ∧
      ∀ id ∈ toggled buildSet toggledTypeId adding, Short id := by
  obtain ⟨qtyText, hqty, hrest⟩ := bind_eq_ok.mp hok
  obtain ⟨texts, htexts, hrest⟩ := bind_eq_ok.mp hrest
  obtain ⟨targetText, htarget, -⟩ := bind_eq_ok.mp hrest
  refine ⟨(strOf_eq_ok_iff.mp htarget).1, (strOf_eq_ok_iff.mp hqty).1, fun id hid => ?_⟩
  obtain ⟨text, htext⟩ := exists_ok_of_mapM htexts id ((Finset.mem_sort _).mpr hid)
  exact (strOf_eq_ok_iff.mp htext).1

/-! ## Reading the link -/

/-- The characters that the query of a link has no meaning for. -/
def Inert (text : List Char) : Prop := '+' ∉ text ∧ '%' ∉ text ∧ '&' ∉ text

theorem inert_repr (value : ℤ) : Inert value.repr.toList :=
  ⟨notMem_toList_repr (by decide) (by decide), notMem_toList_repr (by decide) (by decide),
    notMem_toList_repr (by decide) (by decide)⟩

theorem inert_intercalate (ids : List ℤ) :
    Inert ([','].intercalate (ids.map fun id => id.repr.toList)) := by
  have hnot : ∀ c, c ≠ ',' → c ≠ '-' → ¬ c.isDigit →
      c ∉ [','].intercalate (ids.map fun id => id.repr.toList) := by
    intro c hcomma hminus hdigit hc
    induction ids with
    | nil => cases hc
    | cons id rest ih =>
        cases rest with
        | nil => exact notMem_toList_repr hminus hdigit (by simpa using hc)
        | cons other rest =>
            rw [List.map_cons, List.map_cons, List.intercalate_cons_cons, List.mem_append,
              List.mem_append, List.mem_singleton] at hc
            rcases hc with (hc | hc) | hc
            · exact notMem_toList_repr hminus hdigit hc
            · exact hcomma hc
            · exact ih hc
  exact ⟨hnot '+' (by decide) (by decide) (by decide), hnot '%' (by decide) (by decide) (by decide),
    hnot '&' (by decide) (by decide) (by decide)⟩

theorem unquotePlus_of_inert {text : List Char} (hinert : Inert text) :
    unquotePlus unescape text = text := by
  have hmap : (text.map fun c => if c = '+' then ' ' else c) = text := by
    refine (List.map_congr_left fun c hc => ?_).trans (List.map_id text)
    rw [if_neg, id]
    rintro rfl
    exact hinert.1 hc
  rw [unquotePlus, hmap, unquote, if_neg hinert.2.1]

/-- A pair of the query. -/
theorem parsePair {name value : List Char} (hname : Inert name) (hequals : '=' ∉ name)
    (hvalue : Inert value) :
    (unquotePlus unescape ((name ++ '=' :: value).takeWhile (· ≠ '=')),
      unquotePlus unescape (((name ++ '=' :: value).dropWhile (· ≠ '=')).drop 1)) =
        (name, value) := by
  have hall : ∀ c ∈ name, decide (c ≠ '=') := by
    intro c hc
    refine decide_eq_true ?_
    rintro rfl
    exact hequals hc
  rw [List.takeWhile_append_of_pos hall, List.dropWhile_append_of_pos hall]
  simp [unquotePlus_of_inert hname, unquotePlus_of_inert hvalue]

theorem parseQsl_hrefQuery (qty : ℤ) (updated : Finset ℤ) :
    parseQsl unescape (hrefQuery qty updated) =
      ("qty".toList, qty.repr.toList) :: if updated = ∅ then [] else
        [("build".toList, [','].intercalate (updated.sort.map fun id => id.repr.toList))] := by
  have hname : ∀ name : String, '+' ∉ name.toList ∧ '%' ∉ name.toList ∧ '&' ∉ name.toList →
      Inert name.toList := fun _ h => h
  have hqty := @parsePair unescape "qty".toList _ (hname _ (by decide)) (by decide)
    (inert_repr qty)
  have hbuild := @parsePair unescape "build".toList _ (hname _ (by decide)) (by decide)
    (inert_intercalate updated.sort)
  have hfirst : '&' ∉ "qty=".toList ++ qty.repr.toList := by
    rw [List.mem_append, not_or]
    exact ⟨by decide, (inert_repr qty).2.2⟩
  unfold parseQsl hrefQuery
  by_cases hempty : updated = ∅
  · rw [if_pos hempty, if_pos hempty, List.append_nil, List.splitOn_eq_singleton hfirst]
    exact congrArg (fun pair => [pair]) hqty
  · have hsecond : '&' ∉ "build=".toList ++
        [','].intercalate (updated.sort.map fun id => id.repr.toList) := by
      rw [List.mem_append, not_or]
      exact ⟨by decide, (inert_intercalate _).2.2⟩
    -- the only ampersand is the one between the two parameters
    have hsplit : ("qty=".toList ++ qty.repr.toList ++ ("&build=".toList ++
        [','].intercalate (updated.sort.map fun id => id.repr.toList))).splitOn '&' =
        ["qty=".toList ++ qty.repr.toList, "build=".toList ++
          [','].intercalate (updated.sort.map fun id => id.repr.toList)] := by
      rw [← List.splitOn_eq_singleton hsecond]
      exact List.splitOn_append_cons_self_of_not_mem hfirst _
    rw [if_neg hempty, if_neg hempty, hsplit]
    exact congrArg₂ (fun first second => [first, second]) hqty hbuild

/-- FastAPI reads the text of an integer that is not too long.  The sign of a negative number
counts for its length, so that such a text may be refused. -/
structure ReadsDecimals (readInt : List Char → Option ℤ) : Prop where
  nonneg : ∀ value, Short value → 0 ≤ value → readInt value.repr.toList = some value
  negative : ∀ value, Short value → value < 0 → ∀ read ∈ readInt value.repr.toList, read = value

/-- A quantity of a link is accepted if it is positive. -/
theorem readQty_repr (hread : ReadsDecimals readInt) {qty : ℤ} (hqty : Short qty) :
    readQty readInt (some qty.repr.toList) =
      if 1 ≤ qty then .ok qty else .error .unprocessable := by
  unfold readQty
  rcases lt_or_ge qty 0 with hneg | hpos
  · have hnot : ¬ 1 ≤ qty := by omega
    rw [if_neg hnot]
    cases hvalue : readInt qty.repr.toList with
    | none =>
        simp only [hvalue]
        rfl
    | some read =>
        obtain rfl := hread.negative qty hqty hneg read hvalue
        simp only [hvalue, if_neg hnot]
        rfl
  · simp only [hread.nonneg qty hqty hpos]
    rfl

/-- **What is read from the query of a link.** -/
theorem readBuildQuery_hrefQuery (hread : ReadsDecimals readInt) {qty : ℤ} {updated : Finset ℤ}
    (hqty : Short qty) (hids : ∀ id ∈ updated, Short id) :
    readBuildQuery unescape table readInt (hrefQuery qty updated) =
      if 1 ≤ qty then .ok (qty, updated.filter (0 ≤ ·)) else .error .unprocessable := by
  -- the set is read back without its negative numbers
  have hparse : ∀ first, parseBuild table ((queryParam (("qty".toList, first) ::
      if updated = ∅ then [] else [("build".toList,
        [','].intercalate (updated.sort.map fun id => id.repr.toList))]) "build").getD []) =
      .ok (updated.filter (0 ≤ ·)) := by
    intro first
    by_cases hempty : updated = ∅
    · simpa [queryParam, hempty] using parseBuild_nil
    · have hne : updated.sort ≠ [] := fun hnil => hempty (by
        rw [← Finset.sort_toFinset updated (· ≤ ·), hnil]
        rfl)
      have hbuild : parseBuild table _ = _ := parseBuild_intercalate hne fun id hid =>
        hids id ((Finset.mem_sort _).mp hid)
      rw [List.toFinset_filter, Finset.sort_toFinset] at hbuild
      simpa [queryParam, hempty] using hbuild
  -- there is one quantity
  have hparam : ∀ rest : List (List Char × List Char), (∀ param ∈ rest, param.1 ≠ "qty".toList) →
      queryParam (("qty".toList, qty.repr.toList) :: rest) "qty" = some qty.repr.toList := by
    intro rest hrest
    have hnone : rest.filter (fun param => param.1 = "qty".toList) = [] := by
      simpa [List.filter_eq_nil_iff] using hrest
    rw [queryParam, List.filter_cons_of_pos (by simp), hnone]
    rfl
  unfold readBuildQuery
  simp only [parseQsl_hrefQuery, hparse]
  rw [hparam _ (by split <;> simp), readQty_repr hread hqty]
  by_cases hle : 1 ≤ qty
  · rw [if_pos hle, if_pos hle]
    rfl
  · rw [if_neg hle, if_neg hle]
    rfl

/-- The link is made and read back as it was meant. -/
theorem roundTrip_iff (hread : ReadsDecimals readInt) (targetTypeId qty : ℤ)
    (buildSet : Finset ℤ) (toggledTypeId : ℤ) (adding : Bool) :
    (∃ href, toggleHref targetTypeId qty buildSet toggledTypeId adding = .ok href ∧
        readBuildQuery unescape table readInt (queryOf href.toList) =
          .ok (qty, toggled buildSet toggledTypeId adding)) ↔
      Short targetTypeId ∧ Short qty ∧ 1 ≤ qty ∧
        ∀ id ∈ toggled buildSet toggledTypeId adding, 0 ≤ id ∧ Short id := by
  constructor
  · rintro ⟨href, hhref, hquery⟩
    obtain ⟨htarget, hqty, hids⟩ := short_of_toggleHref hhref
    obtain ⟨href', hhref', hqueryOf⟩ := toggleHref_returns htarget hqty hids
    obtain rfl := Except.ok.inj (hhref.symm.trans hhref')
    rw [hqueryOf, readBuildQuery_hrefQuery hread hqty hids] at hquery
    split at hquery
    · rename_i hle
      have hfilter := congrArg Prod.snd (Except.ok.inj hquery)
      exact ⟨htarget, hqty, hle, fun id hid =>
        ⟨Finset.filter_eq_self.mp hfilter id hid, hids id hid⟩⟩
    · cases hquery
  · rintro ⟨htarget, hqty, hle, hids⟩
    obtain ⟨href, hhref, hqueryOf⟩ := toggleHref_returns htarget hqty fun id hid => (hids id hid).2
    refine ⟨href, hhref, ?_⟩
    rw [hqueryOf, readBuildQuery_hrefQuery hread hqty fun id hid => (hids id hid).2, if_pos hle,
      Finset.filter_true_of_mem fun id hid => (hids id hid).1]

/-- The link of `_build_toggle_href` is read back as it was meant if and only if the quantity is
one that the route takes, no number is too long and no negative id is added; and the parse of a
build parameter returns its decimal ids if and only if `int` reads what `isdigit` accepts. -/
theorem build_parameter_iff (unescape : List Char → List Char) (table : CharTable)
    (readInt : List Char → Option ℤ) (hread : ReadsDecimals readInt) :
    (∀ (targetTypeId qty : ℤ) (buildSet : Finset ℤ) (toggledTypeId : ℤ) (adding : Bool),
      (∃ href, toggleHref targetTypeId qty buildSet toggledTypeId adding = .ok href ∧
          readBuildQuery unescape table readInt (queryOf href.toList) =
            .ok (qty, toggled buildSet toggledTypeId adding)) ↔
        Short targetTypeId ∧ Short qty ∧ 1 ≤ qty ∧
          ∀ id ∈ toggled buildSet toggledTypeId adding, 0 ≤ id ∧ Short id) ∧
    ∀ build : String,
      (∃ ids, parseBuild table build.toList = .ok ids ∧
          ∀ id, id ∈ ids ↔ IsDecimalId table build.toList id) ↔
        ∀ token ∈ build.toList.splitOn ',', IsDigit table (strip table.isSpace token) →
          Readable table token :=
  ⟨roundTrip_iff hread, fun _ => parseBuild_decimal_iff⟩

theorem build_parameter_latin1 :
    (∃ href, toggleHref 587 3 {34} 35 true = .ok href ∧
      readBuildQuery id latin1 (fun text => (intOf latin1 text).toOption) (queryOf href.toList) =
        .ok (3, toggled {34} 35 true)) ∧
    ∃ ids, parseBuild latin1 "34, 35,x".toList = .ok ids ∧
      ∀ id, id ∈ ids ↔ IsDecimalId latin1 "34, 35,x".toList id := by
  have hread : ReadsDecimals fun text => (intOf latin1 text).toOption := {
    nonneg := fun _ hshort _ => congrArg Except.toOption (intOf_repr hshort)
    negative := fun value hshort _ read hvalue => by
      rw [intOf_repr hshort] at hvalue
      exact (Option.some_inj.mp hvalue).symm }
  have hshort : ∀ value : ℤ, value.natAbs < 1000 → Short value := fun _ hlt =>
    short_of_natAbs_lt (hlt.trans (by decide))
  obtain ⟨hlink, hparse⟩ := build_parameter_iff id latin1 _ hread
  refine ⟨(hlink 587 3 {34} 35 true).mpr ⟨hshort _ (by decide), hshort _ (by decide),
    by decide, fun id hid => ?_⟩, (hparse "34, 35,x").mpr fun token htoken hdigit => ?_⟩
  · have hids : id = 35 ∨ id = 34 := by simpa [toggled] using hid
    rcases hids with rfl | rfl <;> exact ⟨by decide, hshort _ (by decide)⟩
  · have hreadable : ∀ token digits : List Char, strip latin1.isSpace token = digits →
        (∀ c ∈ token, c ∉ separators) → IsDecimal latin1 digits → digits.length ≤ maxStrDigits →
        Readable latin1 token := by
      rintro token _ rfl hseparators hdecimal hlength
      exact ⟨hseparators, hdecimal, hlength⟩
    have hsplit : "34, 35,x".toList.splitOn ',' = ["34".toList, " 35".toList, "x".toList] := by
      decide
    rw [hsplit] at htoken
    simp only [List.mem_cons, List.not_mem_nil, or_false] at htoken
    rcases htoken with rfl | rfl | rfl
    · exact hreadable _ "34".toList (by simp [strip, latin1, List.rdropWhile])
        (by simp [separators]) (by simp [IsDecimal, latin1]) (by decide)
    · exact hreadable _ "35".toList (by simp [strip, latin1, List.rdropWhile])
        (by simp [separators]) (by simp [IsDecimal, latin1]) (by decide)
    · simp [strip, latin1, List.rdropWhile, IsDigit] at hdigit

/-- A superscript two is a digit for `isdigit`, and no number for `int`. -/
theorem parseBuild_raises_superscript :
    ¬ ∀ (table : CharTable) (build : String), ∃ ids, parseBuild table build.toList = .ok ids ∧
      ∀ id, id ∈ ids ↔ IsDecimalId table build.toList id := by
  intro hparse
  have hreadable := parseBuild_decimal_iff.mp (hparse latin1 "²")
  have hstrip : strip latin1.isSpace ['²'] = ['²'] := by
    simp [strip, latin1, List.rdropWhile]
  have hdigit : IsDigit latin1 (strip latin1.isSpace ['²']) := by
    rw [hstrip]
    simp [IsDigit, latin1]
  have hdecimal := (hreadable ['²'] (by decide) hdigit).decimal
  rw [hstrip] at hdecimal
  simp [IsDecimal, latin1] at hdecimal

/-- Where no number is too long, the link is that of the model of the page. -/
theorem toggleHref_eq_page {targetTypeId qty toggledTypeId : ℤ} {buildSet : Finset ℤ}
    {adding : Bool} (htarget : Short targetTypeId) (hqty : Short qty)
    (hids : ∀ id ∈ toggled buildSet toggledTypeId adding, Short id) :
    toggleHref targetTypeId qty buildSet toggledTypeId adding =
      .ok (buildToggleHref targetTypeId qty buildSet toggledTypeId adding).toString := by
  have hmap : (toggled buildSet toggledTypeId adding).sort.mapM strOf = .ok _ :=
    mapM_strOf fun id hid => hids id ((Finset.mem_sort _).mp hid)
  refine bind_eq_ok.mpr ⟨_, strOf_eq_ok_iff.mpr ⟨hqty, rfl⟩, bind_eq_ok.mpr ⟨_, hmap,
    bind_eq_ok.mpr ⟨_, strOf_eq_ok_iff.mpr ⟨htarget, rfl⟩, congrArg Except.ok ?_⟩⟩⟩
  rw [buildToggleHref, toString_concat, ← String.toList_inj]
  by_cases hempty : toggled buildSet toggledTypeId adding = ∅
  · simp [hempty, toString_concat, str]
  · simp [hempty, toString_concat, str, Function.comp_def]

end EveBuild.Pages
