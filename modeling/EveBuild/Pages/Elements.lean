import EveBuild.Data.Html
import EveBuild.Pages.Web

/-!
# Elements of the pages

The texts of `EveBuild.Pages.Web` as templates: what is put into them never opens or closes an
element, and never ends an attribute.
-/

set_option maxRecDepth 20000

namespace EveBuild.Pages

open Markup Text
open Html (Piece Fragment Fills IsValue isValueChar accepts)

/-! ## Templates -/

/-- The links of the pages that everyone may see. -/
def publicLinks : List String :=
  ["/", "/build", "/build/items", "/blueprints/catalog", "/planetary", "/auth/login"]

/-- The links of the pages of a character. -/
def characterLinks : List String :=
  publicLinks ++ ["/blueprints", "/assets", "/pi", "/settings", "/auth/logout",
    "/settings/refresh", "/auth/connect-corp", "/auth/disconnect-corp", "/settings/clear-data"]

/-- The links that a visitor may follow. -/
def linksFor (character : Option CharacterDocument) : List String :=
  if character.isSome then characterLinks else publicLinks

/-- The link, as it is displayed, is one of some. -/
def isOneOf (links : List String) (href : List Char) : Bool := String.ofList (unescape href) ∈ links

section Templates

variable (leads : String → Prop)

/-- The links of `a` and `form` elements, as they are displayed, lead somewhere. -/
def LinkLeads (href : List Char) : Prop := leads (.ofList (unescape href))

/-- The text is well-formed, and its links lead somewhere. -/
def WellFormed (text : Text) : Prop := Fragment (LinkLeads leads) text.toString.toList

/-- The text may stand in the value of an attribute. -/
def InValue (text : Text) : Prop := IsValue text.toString.toList

def IsDocument (text : Text) : Prop :=
  Html.Document (LinkLeads leads) text.toString.toList

/-- The texts, one after another, are made from a template. -/
def Makes (template : List Piece) (texts : List Text) : Prop :=
  Fills (LinkLeads leads) template (concat texts).toString.toList

variable {leads}

/-- Where nothing is escaped, the text is displayed as it is. -/
theorem unescape_of_notMem {text : List Char} (htext : '&' ∉ text) : unescape text = text := by
  induction text with
  | nil => rfl
  | cons c rest ih =>
      obtain ⟨hc, hrest⟩ := not_or.mp (mt List.mem_cons.mpr htext)
      rw [unescape, ih hrest]
      all_goals simp [Ne.symm hc]

theorem toList_concat_cons (text : Text) (texts : List Text) :
    (concat (text :: texts)).toString.toList =
      text.toString.toList ++ (concat texts).toString.toList := by
  simp [toString_concat]

theorem wellFormed_escape (text : Text) : WellFormed leads (escape text) := by
  refine Html.fragment_of_forall fun c hc => ?_
  rw [toString_escape, toList_escapeString] at hc
  have hinert := inert_escapeChars _ c hc
  simp only [List.mem_cons, List.not_mem_nil, or_false, not_or] at hinert
  exact ⟨hinert.1, hinert.2.1⟩

theorem inValue_escape (text : Text) : InValue (escape text) := by
  intro c hc
  rw [toString_escape, toList_escapeString] at hc
  have hinert := inert_escapeChars _ c hc
  simp only [List.mem_cons, List.not_mem_nil, or_false, not_or] at hinert
  simp [isValueChar, hinert]

theorem wellFormed_of_plain {text : String} (hplain : Plain text) :
    WellFormed leads (Text.markup text) := by
  refine Html.fragment_of_forall fun c hc => ?_
  rw [toString_markup] at hc
  have hnot := hplain c hc
  simp only [special, List.mem_cons, List.not_mem_nil, or_false, not_or] at hnot
  exact ⟨hnot.2.1, hnot.2.2.1⟩

theorem inValue_of_plain {text : String} (hplain : Plain text) : InValue (Text.markup text) := by
  intro c hc
  rw [toString_markup] at hc
  have hnot := hplain c hc
  simp only [special, List.mem_cons, List.not_mem_nil, or_false, not_or] at hnot
  simp [isValueChar, hnot]

namespace Makes

variable {template : List Piece} {text : Text} {texts : List Text}

theorem nil : Makes leads [] [] := by
  simpa [Makes, toString_concat] using Fills.nil

theorem markup {chars : List Char} {markup : String} (hmarkup : String.ofList chars = markup)
    (hmakes : Makes leads template texts) :
    Makes leads (.chars chars :: template) (Text.markup markup :: texts) := by
  rw [Makes, toList_concat_cons, toString_markup, ← hmarkup, String.toList_ofList]
  exact .chars hmakes

theorem fragment (htext : WellFormed leads text) (hmakes : Makes leads template texts) :
    Makes leads (.fragment :: template) (text :: texts) := by
  rw [Makes, toList_concat_cons]
  exact .fragment htext hmakes

theorem value (htext : InValue text) (hmakes : Makes leads template texts) :
    Makes leads (.value :: template) (text :: texts) := by
  rw [Makes, toList_concat_cons]
  exact .value htext hmakes

/-- A link that is escaped. -/
theorem link {href : String} (hhref : text.toString = href) (hleads : leads href)
    (hmakes : Makes leads template texts) :
    Makes leads (.link [] :: template) (escape text :: texts) := by
  rw [Makes, toList_concat_cons]
  refine .link (inValue_escape text) ?_ hmakes
  rw [LinkLeads, List.nil_append, toString_escape, toList_escapeString, unescape_escapeChars,
    String.ofList_toList, hhref]
  exact hleads

/-- A link that ends with a number. -/
theorem linkTo {before : List Char} {value : ℤ} (hbefore : '&' ∉ before)
    (hleads : leads (String.ofList before ++ str value)) (hmakes : Makes leads template texts) :
    Makes leads (.link before :: template) (Text.markup (str value) :: texts) := by
  rw [Makes, toList_concat_cons]
  refine .link (inValue_of_plain (plain_str value)) ?_ hmakes
  have hvalue : '&' ∉ (str value).toList := fun hmem => plain_str value '&' hmem (by decide)
  rw [LinkLeads, toString_markup, unescape_of_notMem (by simp [hbefore, hvalue]),
    String.ofList_append, String.ofList_toList]
  exact hleads

end Makes

/-- A template without links of its own. -/
theorem wellFormed_concat {template : List Piece} {texts : List Text}
    (hmakes : Makes leads template texts) (haccepts : accepts (isOneOf []) template) :
    WellFormed leads (concat texts) :=
  Html.fragment_of_accepts (by simp [isOneOf]) haccepts hmakes

theorem wellFormed_concat_of_links {links : List String} (hlinks : ∀ href ∈ links, leads href)
    {template : List Piece} {texts : List Text} (hmakes : Makes leads template texts)
    (haccepts : accepts (isOneOf links) template) : WellFormed leads (concat texts) :=
  Html.fragment_of_accepts (fun _ hhref => hlinks _ (of_decide_eq_true hhref)) haccepts hmakes

theorem wellFormed_singleton {text : Text} :
    WellFormed leads (concat [text]) ↔ WellFormed leads text := by
  simp [WellFormed, toString_concat]

/-- A text of the program. -/
theorem wellFormed_markup {chars : List Char} {markup : String}
    (hmarkup : String.ofList chars = markup) (haccepts : accepts (isOneOf []) [.chars chars]) :
    WellFormed leads (Text.markup markup) :=
  wellFormed_singleton.mp (wellFormed_concat (.markup hmarkup .nil) haccepts)

theorem wellFormed_markup_of_links {links : List String} (hlinks : ∀ href ∈ links, leads href)
    {chars : List Char} {markup : String} (hmarkup : String.ofList chars = markup)
    (haccepts : accepts (isOneOf links) [.chars chars]) : WellFormed leads (Text.markup markup) :=
  wellFormed_singleton.mp (wellFormed_concat_of_links hlinks (.markup hmarkup .nil) haccepts)

theorem wellFormed_empty : WellFormed leads "" := by
  simpa [WellFormed] using Fragment.nil

/-- The template of a whole page, after the type of the document. -/
theorem isDocument_concat {template : List Piece} {chars : List Char} {markup : String}
    {texts : List Text} (hmakes : Makes leads template texts)
    (hmarkup : String.ofList (Html.doctype ++ chars) = markup)
    (haccepts : accepts (isOneOf []) (.chars chars :: template)) :
    IsDocument leads (concat (Text.markup markup :: texts)) := by
  refine ⟨chars ++ (concat texts).toString.toList, ?_, ?_⟩
  · rw [toList_concat_cons, toString_markup, ← hmarkup, String.toList_ofList, List.append_assoc]
  · exact Html.fragment_of_accepts (by simp [isOneOf]) haccepts (.chars hmakes)

theorem wellFormed_concat_map {Item : Type*} {items : List Item} {text : Item → Text}
    (hitems : ∀ item ∈ items, WellFormed leads (text item)) :
    WellFormed leads (concat (items.map text)) := by
  induction items with
  | nil => simpa [WellFormed, toString_concat] using Fragment.nil
  | cons item rest ih =>
      obtain ⟨hitem, hrest⟩ := List.forall_mem_cons.mp hitems
      rw [List.map_cons, WellFormed, toList_concat_cons]
      exact hitem.append (ih hrest)

/-! ## What is put in -/

theorem plain_of_chars {chars : List Char} {text : String} (htext : String.ofList chars = text)
    (hall : chars.all (· ∉ special)) : Plain text := by
  rw [← htext, Plain, String.toList_ofList]
  exact fun c hc => of_decide_eq_true (List.all_eq_true.mp hall c hc)

theorem inValue_concat {texts : List Text} (htexts : ∀ text ∈ texts, InValue text) :
    InValue (concat texts) := by
  intro c hc
  rw [toString_concat, String.toList_join, List.flatMap_map] at hc
  obtain ⟨text, htext, hc⟩ := List.mem_flatMap.mp hc
  exact htexts text htext c hc

theorem inValue_itemIconUrl (typeId : ℤ) : InValue (itemIconUrl typeId) := by
  refine inValue_concat ?_
  simp only [List.forall_mem_cons]
  exact ⟨inValue_of_plain (plain_of_chars rfl (by decide)),
    inValue_of_plain (plain_str typeId), inValue_of_plain (plain_of_chars rfl (by decide)),
    by simp⟩

theorem wellFormed_join {separator : String} {texts : List Text}
    (hseparator : WellFormed leads (Text.markup separator))
    (htexts : ∀ text ∈ texts, WellFormed leads text) : WellFormed leads (join separator texts) := by
  have hall : ∀ text ∈ texts.intersperse (Text.markup separator), WellFormed leads text := by
    induction texts with
    | nil => simp
    | cons first rest ih =>
        cases rest with
        | nil => simpa using htexts
        | cons second rest =>
            obtain ⟨hfirst, hrest⟩ := List.forall_mem_cons.mp htexts
            rw [List.intersperse_cons_cons, List.forall_mem_cons, List.forall_mem_cons]
            exact ⟨hfirst, hseparator, ih hrest⟩
  rw [join, ← List.map_id (texts.intersperse _)]
  exact wellFormed_concat_map hall

/-! ### Numbers -/

theorem mem_withCommas {digits : List Char} {c : Char} (hc : c ∈ withCommas digits) :
    c = ',' ∨ c ∈ digits := by
  fun_induction withCommas digits with
  | case1 first second third next rest ih =>
      simp only [List.mem_cons] at hc ih ⊢
      tauto
  | case2 digits => exact .inr hc

/-- A number has digits, a sign, commas and a point. -/
theorem plain_fixed (commas : Bool) (digits : ℕ) (value : ℚ) : Plain (fixed commas digits value) := by
  have hrepr : ∀ number : ℕ, ∀ c ∈ number.repr.toList, c ∉ special := plain_repr
  intro c hc
  simp only [fixed, String.toList_ofList, List.mem_append] at hc
  rcases hc with (hsign | hwhole) | hfraction
  · split_ifs at hsign
    · exact List.mem_singleton.mp hsign ▸ by decide
    · cases hsign
  · split_ifs at hwhole
    · rcases mem_withCommas (List.mem_reverse.mp hwhole) with rfl | hwhole
      · decide
      · exact hrepr _ c (List.mem_reverse.mp hwhole)
    · exact hrepr _ c hwhole
  · split_ifs at hfraction
    · cases hfraction
    · rcases List.mem_cons.mp hfraction with rfl | hfraction
      · decide
      · rcases List.mem_append.mp hfraction with hzero | hfraction
        · exact List.eq_of_mem_replicate hzero ▸ by decide
        · exact hrepr _ c hfraction

theorem plain_formatNumber (value : ℚ) : Plain (formatNumber value) := plain_fixed _ _ _

theorem plain_formatIsk (value : ℚ) : Plain (formatIsk value) := by
  unfold formatIsk
  dsimp only
  split_ifs <;>
    exact plain_append.mpr ⟨plain_fixed _ _ _, plain_of_chars rfl (by decide)⟩

theorem wellFormed_str (value : ℤ) : WellFormed leads (str value) :=
  wellFormed_of_plain (plain_str value)

theorem wellFormed_formatNumber (value : ℚ) : WellFormed leads (formatNumber value) :=
  wellFormed_of_plain (plain_formatNumber value)

theorem wellFormed_formatIsk (value : ℚ) : WellFormed leads (formatIsk value) :=
  wellFormed_of_plain (plain_formatIsk value)

/-! ## `app/web.py` -/

theorem plain_gaugeColor (percentage : ℚ) : Plain (gaugeColor percentage) := by
  unfold gaugeColor
  split_ifs <;> exact plain_of_chars rfl (by decide)

theorem wellFormed_gaugeCellHtml {percentage : ℚ} {valueText : Option Text}
    (hvalue : ∀ text ∈ valueText, WellFormed leads text) :
    WellFormed leads (gaugeCellHtml percentage valueText) := by
  have htext : WellFormed leads (valueText.getD (fixed false 0 percentage ++ "%" : String)) := by
    cases valueText with
    | some text => exact hvalue text rfl
    | none =>
        exact wellFormed_of_plain
          (plain_append.mpr ⟨plain_fixed _ _ _, plain_of_chars rfl (by decide)⟩)
  exact wellFormed_concat (.markup rfl <| .value (inValue_of_plain (plain_fixed _ _ _)) <|
    .markup rfl <| .value (inValue_of_plain (plain_gaugeColor _)) <| .markup rfl <|
    .fragment htext <| .markup rfl .nil) (by decide)

theorem plain_securityStatusColor (securityStatus : ℚ) :
    Plain (securityStatusColor securityStatus) := by
  have hcolors : ∀ color ∈ ["#2fefef", "#48f0c0", "#00ef47", "#00f000", "#8fef2f", "#efef00",
      "#d77700", "#f06000", "#f04000", "#f00000"], Plain color := by
    simp only [List.forall_mem_cons]
    refine ⟨?_, ?_, ?_, ?_, ?_, ?_, ?_, ?_, ?_, ?_, by simp⟩ <;>
      exact plain_of_chars rfl (by decide)
  refine hcolors _ ?_
  unfold securityStatusColor
  dsimp only
  generalize hfind : List.find? _ _ = found
  cases found with
  | none => simp
  | some threshold =>
      have hmem := List.mem_map_of_mem (f := Prod.snd) (List.mem_of_find?_eq_some hfind)
      simpa using hmem

theorem wellFormed_securityStatusHtml (securityStatus : ℚ) :
    WellFormed leads (securityStatusHtml securityStatus) :=
  wellFormed_concat (.markup rfl <| .value (inValue_of_plain (plain_securityStatusColor _)) <|
    .markup rfl <| .fragment (wellFormed_of_plain (plain_fixed _ _ _)) <| .markup rfl .nil)
    (by decide)

theorem wellFormed_locationLabelHtml (locationId : ℤ) (info : Option LocationInfo) :
    WellFormed leads (locationLabelHtml locationId info) := by
  have hsecurity (label : Text) (securityStatus : ℚ) : WellFormed leads
      (concat [escape label, " (", securityStatusHtml securityStatus, ")"]) :=
    wellFormed_concat (.fragment (wellFormed_escape _) <| .markup rfl <|
      .fragment (wellFormed_securityStatusHtml _) <| .markup rfl .nil) (by decide)
  unfold locationLabelHtml
  cases LocationInfo.label? info <;> cases info.bind LocationInfo.securityStatus
  · exact wellFormed_escape _
  · exact hsecurity _ _
  · exact wellFormed_escape _
  · exact hsecurity _ _

theorem wellFormed_itemLineHtml {label value : Text} (hvalue : WellFormed leads value) :
    WellFormed leads (itemLineHtml label value) :=
  wellFormed_concat (.markup rfl <| .fragment (wellFormed_escape _) <| .markup rfl <|
    .markup rfl <| .fragment hvalue <| .markup rfl .nil) (by decide)

theorem wellFormed_humanizeRelativeTime (seconds : ℚ) :
    WellFormed leads (humanizeRelativeTime seconds) := by
  have hunit (value : ℤ) {name plural : String} (hname : Plain name) (hplural : Plain plural) :
      WellFormed leads (concat ["in ", str value, " ", name, plural]) :=
    wellFormed_concat (.markup rfl <| .fragment (wellFormed_str value) <| .markup rfl <|
      .fragment (wellFormed_of_plain hname) <| .fragment (wellFormed_of_plain hplural) .nil)
      (by decide)
  have hs : Plain "s" := plain_of_chars rfl (by decide)
  have hnone : Plain "" := plain_of_chars rfl (by decide)
  have hday : Plain "day" := plain_of_chars rfl (by decide)
  have hhour : Plain "hour" := plain_of_chars rfl (by decide)
  have hminute : Plain "minute" := plain_of_chars rfl (by decide)
  unfold humanizeRelativeTime
  dsimp only
  split_ifs
  · exact wellFormed_markup rfl (by decide)
  · exact hunit _ hday hs
  · exact hunit _ hday hnone
  · exact hunit _ hhour hs
  · exact hunit _ hhour hnone
  · exact hunit _ hminute hs
  · exact hunit _ hminute hnone
  · exact wellFormed_markup rfl (by decide)

theorem wellFormed_renderNav {character : Option CharacterDocument}
    (hlinks : ∀ href ∈ linksFor character, leads href) :
    WellFormed leads (renderNav character) := by
  cases character with
  | none =>
      have hlinks : ∀ href ∈ publicLinks, leads href := hlinks
      exact wellFormed_markup_of_links hlinks rfl (by decide)
  | some character =>
      have hlinks : ∀ href ∈ characterLinks, leads href := hlinks
      exact wellFormed_concat_of_links hlinks (.markup rfl <| .value (inValue_escape _) <|
        .markup rfl <| .value (inValue_escape _) <| .markup rfl <|
        .fragment (wellFormed_escape _) <| .markup rfl .nil) (by decide)

/-- **A page** is a document, if its body is well-formed. -/
theorem document_renderPage {title body : Text} {stylesheets : List String}
    {character : Option CharacterDocument} (hlinks : ∀ href ∈ linksFor character, leads href)
    (hbody : WellFormed leads body) (hstylesheets : ∀ href ∈ stylesheets, Plain href) :
    IsDocument leads (renderPage title body stylesheets character) := by
  have hlink : ∀ href : String, Plain href →
      WellFormed leads (concat [r#"<link rel="stylesheet" href=""#, href, r#"">"#]) :=
    fun href hplain => wellFormed_concat
      (.markup rfl <| .value (inValue_of_plain hplain) <| .markup rfl .nil) (by decide)
  have hstylesheetLinks : WellFormed leads (join "\n  "
      ((("/static/base.css" :: stylesheets).filter (· ≠ "")).map fun href : String =>
        concat [r#"<link rel="stylesheet" href=""#, href, r#"">"#])) := by
    refine wellFormed_join (wellFormed_markup rfl (by decide)) ?_
    refine List.forall_mem_map.mpr fun href hhref => hlink href ?_
    rcases List.mem_cons.mp (List.mem_of_mem_filter hhref) with rfl | hhref
    · exact plain_of_chars rfl (by decide)
    · exact hstylesheets href hhref
  exact isDocument_concat (.fragment (wellFormed_escape _) <| .markup rfl <|
    .value (inValue_itemIconUrl _) <| .markup rfl <| .fragment hstylesheetLinks <|
    .markup rfl <| .fragment (wellFormed_renderNav hlinks) <| .markup rfl <| .fragment hbody <|
    .markup rfl .nil) rfl (by decide)

theorem wellFormed_summaryStat {value label : Text} (hvalue : WellFormed leads value) :
    WellFormed leads (summaryStat value label) :=
  wellFormed_concat (.markup rfl <| .fragment hvalue <| .markup rfl <|
    .fragment (wellFormed_escape _) <| .markup rfl .nil) (by decide)

theorem wellFormed_sectionBox {title : String} {cardsHtml : Text}
    (hcards : WellFormed leads cardsHtml) : WellFormed leads (sectionBox title cardsHtml) := by
  unfold sectionBox
  split_ifs
  · exact wellFormed_empty
  · exact wellFormed_concat (.markup rfl <| .fragment (wellFormed_escape _) <| .markup rfl <|
      .fragment hcards <| .markup rfl .nil) (by decide)

end Templates

end EveBuild.Pages
