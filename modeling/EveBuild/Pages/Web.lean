import EveBuild.Data.Markup
import EveBuild.Startup.Dumps
import Mathlib.Algebra.Order.Field.Rat

/-!
# What the pages are made of

The helpers of `app/web.py`, the ones that several handlers of `app/routes` define in the same
way, and what the services return to the handlers.

Floats are exact rationals here.  The methods of `str` that go by the tables of Unicode are
parameters, and so is the clock: `secondsUntil` is what `datetime.fromisoformat` and the time
of the request come to.
-/

namespace EveBuild.Pages

open Markup Text
open Migrations (Quantity SchematicDocument)

/-! ## What the handlers get -/

/-- A document of `sde_types`. -/
structure TypeDoc where
  name : Option String
  techLevel : Option ℤ
  groupId : Option ℤ
  categoryId : Option ℤ
  volume : Option ℚ

/-- A document of `sde_blueprints`. -/
structure BlueprintDoc where
  productTypeId : Option ℤ
  productQuantity : Option ℤ
  activityId : Option ℤ
  materials : List Quantity

/-- A document of `market_prices`. -/
structure PriceDoc where
  adjustedPrice : Option ℚ
  averagePrice : Option ℚ

structure LocationInfo where
  name : Option String
  securityStatus : Option ℚ

/-- The fields of `CharacterDocument` that the pages show. -/
structure CharacterDocument where
  characterId : ℤ
  characterName : String

/-- What the services return for the identifiers that a handler asks for. -/
structure Services where
  typeDocs : ℤ → Option TypeDoc
  blueprintDocs : ℤ → Option BlueprintDoc
  marketPrices : ℤ → Option PriceDoc
  locationInfo : ℤ → Option LocationInfo
  planetNames : ℤ → Option String
  systemNames : ℤ → Option String
  /-- `list_all_planet_schematics`, with the `_id` of each document. -/
  planetSchematics : List (ℤ × SchematicDocument)
  /-- The seconds from now to a time, if it is one. -/
  secondsUntil : String → Option ℚ

/-- `str.lower`, `str.strip` and `str.capitalize`. -/
structure StringMethods where
  lower : String → String
  strip : String → String
  capitalize : String → String

/-- What a handler raises. -/
inductive PageError
  | notFound (detail : String)
  | zeroDivision
  | overflow
  | recursion
  | typeError
  | invalidTime
deriving DecidableEq

/-- `str(n)`. -/
def str (value : ℤ) : String := value.repr

/-- `needle in haystack`. -/
def isIn (needle haystack : String) : Bool :=
  haystack.toList.tails.any fun rest => needle.toList.isPrefixOf rest

section Sorted

variable {Item Key : Type} [LE Key] [DecidableLE Key]

/-- `sorted(items, key=key)`. -/
def sortedBy (key : Item → Key) (items : List Item) : List Item :=
  items.mergeSort fun first second => key first ≤ key second

/-- `sorted(items, key=key, reverse=True)`, where items of one key keep their order, too. -/
def sortedByDesc (key : Item → Key) (items : List Item) : List Item :=
  items.mergeSort fun first second => key second ≤ key first

end Sorted

/-! ## Numbers -/

def roundHalfEven (value : ℚ) : ℤ :=
  let down := value.floor
  let rest := value - down
  if rest < 1 / 2 then down
  else if 1 / 2 < rest then down + 1
  else if down % 2 = 0 then down else down + 1

/-- Commas between groups of three digits, from the last digit on. -/
def withCommas : List Char → List Char
  | a :: b :: c :: rest@(_ :: _) => a :: b :: c :: ',' :: withCommas rest
  | digits => digits

/-- `f"{value:.nf}"`, and `f"{value:,.nf}"` with commas. -/
def fixed (commas : Bool) (digits : ℕ) (value : ℚ) : String :=
  let scaled := (roundHalfEven (|value| * 10 ^ digits)).toNat
  let whole := (scaled / 10 ^ digits).repr.toList
  let fraction := (scaled % 10 ^ digits).repr.toList
  .ofList ((if value < 0 then ['-'] else []) ++
    (if commas then (withCommas whole.reverse).reverse else whole) ++
    (if digits = 0 then [] else '.' :: (List.replicate (digits - fraction.length) '0' ++ fraction)))

def formatNumber (value : ℚ) : String := fixed true 0 value

def formatIsk (value : ℚ) : String :=
  let absValue := |value|
  if absValue ≥ 1000000000 then fixed true 2 (value / 1000000000) ++ "B ISK"
  else if absValue ≥ 1000000 then fixed true 2 (value / 1000000) ++ "M ISK"
  else if absValue ≥ 1000 then fixed true 1 (value / 1000) ++ "K ISK"
  else fixed true 0 value ++ " ISK"

/-! ## `app/web.py` -/

def gaugeColor (percentage : ℚ) : String :=
  if percentage ≥ 100 then "#3ddc84" else if percentage ≥ 50 then "#f5c344" else "#f0625a"

def gaugeCellHtml (percentage : ℚ) (valueText : Option Text) : Text :=
  let clamped := min 100 (max 0 percentage)
  let color := gaugeColor percentage
  let text := valueText.getD (fixed false 0 percentage ++ "%")
  concat [r#"
      <div class="mini-gauge">
        <div class="mini-gauge-track">
          <div class="mini-gauge-fill" style="width: "#, fixed false 0 clamped, "%; background: ",
    color, r#";"></div>
        </div>
        <span class="mini-gauge-text">"#, text, r#"</span>
      </div>
    "#]

def iconUrl (typeId : ℤ) (isCopy : Bool) : Text :=
  concat ["https://images.evetech.net/types/", str typeId, "/", if isCopy then "bpc" else "bp"]

def itemIconUrl (typeId : ℤ) : Text :=
  concat ["https://images.evetech.net/types/", str typeId, "/icon"]

/-- `FAVICON_URL`, the icon of `_TRITANIUM_TYPE_ID`. -/
def faviconUrl : Text := itemIconUrl 34

def securityStatusColor (securityStatus : ℚ) : String :=
  let thresholds : List (ℚ × String) := [(1, "#2fefef"), (0.9, "#48f0c0"), (0.8, "#00ef47"),
    (0.7, "#00f000"), (0.6, "#8fef2f"), (0.5, "#efef00"), (0.4, "#d77700"), (0.3, "#f06000"),
    (0.2, "#f04000"), (0.1, "#f00000")]
  ((thresholds.find? fun threshold => threshold.1 ≤ securityStatus).map Prod.snd).getD "#f00000"

def roundedSecurityStatus (securityStatus : ℚ) : ℚ := roundHalfEven (securityStatus * 10) / 10

def securityStatusHtml (securityStatus : ℚ) : Text :=
  let rounded := roundedSecurityStatus securityStatus
  let color := securityStatusColor rounded
  concat [r#"<span style="color: "#, color, r#";">"#, fixed false 1 rounded, "</span>"]

/-- The name of a location, if it has one that is not empty. -/
def LocationInfo.label? (info : Option LocationInfo) : Option String :=
  (info.bind LocationInfo.name).filter fun name => name ≠ ""

def locationLabelHtml (locationId : ℤ) (info : Option LocationInfo) : Text :=
  let label := match LocationInfo.label? info with
    | some name => escape (data name)
    | none => escape (concat ["Location ", str locationId])
  match info.bind LocationInfo.securityStatus with
  | none => label
  | some securityStatus => concat [label, " (", securityStatusHtml securityStatus, ")"]

def locationLabelText (locationId : ℤ) (info : Option LocationInfo) : Text :=
  let label := match LocationInfo.label? info with
    | some name => data name
    | none => concat ["Location ", str locationId]
  match info.bind LocationInfo.securityStatus with
  | none => label
  | some securityStatus =>
      concat [label, " (", fixed false 1 (roundedSecurityStatus securityStatus), ")"]

def itemLineHtml (label value : Text) : Text :=
  concat [r#"<div class="item-line"><span>"#, escape label, "</span>",
    r#"<span class="item-value">"#, value, "</span></div>"]

/-- `humanize_relative_time`, with the seconds from now to the target. -/
def humanizeRelativeTime (seconds : ℚ) : Text :=
  if seconds ≤ 0 then "any moment"
  else
    let total := seconds.floor
    let days := total / 86400
    let hours := total % 86400 / 3600
    let minutes := total % 86400 % 3600 / 60
    let unit (value : ℤ) (name : String) : Text :=
      concat ["in ", str value, " ", name, if value ≠ 1 then "s" else ""]
    if days > 0 then unit days "day"
    else if hours > 0 then unit hours "hour"
    else if minutes > 0 then unit minutes "minute"
    else "in less than a minute"

def renderNav : Option CharacterDocument → Text
  | none => r#"
          <nav class="navbar">
            <a class="brand" href="/">eve-build</a>
            <div class="nav-links">
              <a href="/build">Build</a>
              <a href="/blueprints/catalog">Blueprint Catalog</a>
              <a href="/planetary">PI Schematics</a>
            </div>
            <a class="btn btn-primary" href="/auth/login">Log in with EVE Online</a>
          </nav>
        "#
  | some character =>
      let avatarUrl := escape (concat ["https://images.evetech.net/characters/",
        str character.characterId, "/portrait?size=64"])
      let characterName := escape (data character.characterName)
      concat [r#"
      <nav class="navbar">
        <a class="brand" href="/">eve-build</a>
        <div class="nav-links">
          <a href="/">Home</a>
          <a href="/build">Build</a>
          <a href="/blueprints">Blueprints</a>
          <a href="/assets">Assets</a>
          <a href="/pi">Planets</a>
          <a href="/planetary">PI Schematics</a>
        </div>
        <div class="nav-user">
          <img class="nav-avatar" src=""#, avatarUrl, r#"" alt=""#, characterName, r#"">
          <span class="nav-user-name">"#, characterName, r#"</span>
          <a class="btn btn-secondary" href="/settings">Settings</a>
          <a class="btn btn-secondary" href="/auth/logout">Log out</a>
        </div>
      </nav>
    "#]

def renderPage (title body : Text) (stylesheets : List String)
    (character : Option CharacterDocument) : Text :=
  let nav := renderNav character
  let stylesheetLinks := join "\n  " ((("/static/base.css" :: stylesheets).filter (· ≠ "")).map
    fun href : String => concat [r#"<link rel="stylesheet" href=""#, href, r#"">"#])
  concat [r#"<!doctype html>
<html lang="en">
<head>
  <meta charset="utf-8">
  <meta name="viewport" content="width=device-width, initial-scale=1">
  <title>"#, escape title, r#"</title>
  <link rel="icon" href=""#, faviconUrl, r#"">
  "#, stylesheetLinks, "
</head>
<body>
", nav, "
", body, "
</body>
</html>"]

/-! ## What several handlers define -/

/-- `_summary_stat`. -/
def summaryStat (value label : Text) : Text :=
  concat [r#"
      <div class="summary-stat">
        <div class="value">"#, value, r#"</div>
        <div class="label">"#, escape label, r#"</div>
      </div>
    "#]

/-- `_section`. -/
def sectionBox (title : String) (cardsHtml : Text) : Text :=
  if cardsHtml.toString = "" then ""
  else concat [r#"
      <div class="section-box">
        <h2>"#, escape title, r#"</h2>
        <div class="item-grid">"#, cardsHtml, r#"</div>
      </div>
    "#]

namespace Services

variable (services : Services)

/-- `_type_name`: the name of a type's document, if both are there. -/
def typeName (typeId : ℤ) : String :=
  ((services.typeDocs typeId).bind TypeDoc.name).getD ("Type " ++ str typeId)

/-- `market_prices.unit_price`, which is zero where there is no price. -/
def unitPrice (typeId : ℤ) : ℚ := ((services.marketPrices typeId).bind PriceDoc.averagePrice).getD 0

end Services

/-! ## Where the helpers escape -/

theorem plain_repr (value : ℕ) : Plain value.repr := by
  intro c hc hspecial
  rw [Nat.toList_repr] at hc
  have hdigit := Nat.isDigit_of_mem_toDigits (by decide) (by decide) hc
  simp only [special, List.mem_cons, List.not_mem_nil, or_false] at hspecial
  rcases hspecial with rfl | rfl | rfl | rfl | rfl <;> exact absurd hdigit (by decide)

/-- A number has no characters to escape. -/
theorem plain_str (value : ℤ) : Plain (str value) := by
  rw [str, Int.repr_eq_if]
  split
  · exact plain_repr _
  · exact plain_append.mpr ⟨by simp [Plain, special], plain_repr _⟩

@[simp] theorem escapedOnce_gaugeCellHtml {percentage : ℚ} {valueText : Option Text} :
    (gaugeCellHtml percentage valueText).EscapedOnce ↔ ∀ text ∈ valueText, text.EscapedOnce := by
  cases valueText <;> simp [gaugeCellHtml]

@[simp] theorem escapedOnce_escape_iconUrl (typeId : ℤ) (isCopy : Bool) :
    (escape (iconUrl typeId isCopy)).EscapedOnce := by
  simp [iconUrl]

@[simp] theorem escapedOnce_escape_itemIconUrl (typeId : ℤ) :
    (escape (itemIconUrl typeId)).EscapedOnce := by
  simp [itemIconUrl]

@[simp] theorem escapedOnce_securityStatusHtml (securityStatus : ℚ) :
    (securityStatusHtml securityStatus).EscapedOnce := by
  simp [securityStatusHtml]

/-- The label of a location is escaped where it is made. -/
@[simp] theorem escapedOnce_locationLabelHtml (locationId : ℤ) (info : Option LocationInfo) :
    (locationLabelHtml locationId info).EscapedOnce := by
  unfold locationLabelHtml
  cases LocationInfo.label? info <;> cases info.bind LocationInfo.securityStatus <;> simp

/-- The plain label of a location is to be escaped where it is used. -/
@[simp] theorem escapedOnce_escape_locationLabelText (locationId : ℤ)
    (info : Option LocationInfo) : (escape (locationLabelText locationId info)).EscapedOnce := by
  unfold locationLabelText
  cases LocationInfo.label? info <;> cases info.bind LocationInfo.securityStatus <;> simp

/-- A line of a card escapes its label and expects a value that is escaped already. -/
@[simp] theorem escapedOnce_itemLineHtml {label value : Text} :
    (itemLineHtml label value).EscapedOnce ↔ label.escape.EscapedOnce ∧ value.EscapedOnce := by
  simp [itemLineHtml]

@[simp] theorem escapedOnce_escape_humanizeRelativeTime (seconds : ℚ) :
    (escape (humanizeRelativeTime seconds)).EscapedOnce := by
  simp [humanizeRelativeTime]

@[simp] theorem escapedOnce_renderNav (character : Option CharacterDocument) :
    (renderNav character).EscapedOnce := by
  cases character <;> simp [renderNav]

/-- **A page** escapes its title, and expects a body that is escaped already. -/
theorem escapedOnce_renderPage {title body : Text} {stylesheets : List String}
    {character : Option CharacterDocument} :
    (renderPage title body stylesheets character).EscapedOnce ↔
      title.escape.EscapedOnce ∧ body.EscapedOnce := by
  have hlinks : ∀ hrefs : List String, (join "\n  " (hrefs.map fun href =>
      concat [r#"<link rel="stylesheet" href=""#, markup href, r#"">"#])).EscapedOnce := by
    intro hrefs
    rw [escapedOnce_join, List.forall_mem_map]
    simp
  unfold renderPage
  simp only [escapedOnce_concat, List.forall_mem_cons, hlinks]
  simp [faviconUrl, itemIconUrl]

/-- A page that hands a name on as its title after it has escaped it.  Escaping the name again
changes nothing only if it is plain. -/
theorem escapedOnce_titledPage_iff {name : String} {body : Text} {stylesheets : List String}
    {character : Option CharacterDocument} (hbody : body.EscapedOnce) :
    (renderPage (concat [escape (data name), " - eve-build"]) body stylesheets
      character).EscapedOnce ↔ Plain name := by
  rw [escapedOnce_renderPage, and_iff_left hbody]
  simp

@[simp] theorem escapedOnce_summaryStat {value label : Text} :
    (summaryStat value label).EscapedOnce ↔ value.EscapedOnce ∧ label.escape.EscapedOnce := by
  simp [summaryStat]

/-- A section without cards is left out. -/
@[simp] theorem escapedOnce_sectionBox {title : String} {cardsHtml : Text}
    (hcards : cardsHtml.EscapedOnce) : (sectionBox title cardsHtml).EscapedOnce := by
  simp [sectionBox, hcards]

@[simp] theorem mem_sortedBy {Item Key : Type} [LE Key] [DecidableLE Key] {key : Item → Key}
    {items : List Item} {item : Item} : item ∈ sortedBy key items ↔ item ∈ items :=
  List.mem_mergeSort

@[simp] theorem mem_sortedByDesc {Item Key : Type} [LE Key] [DecidableLE Key] {key : Item → Key}
    {items : List Item} {item : Item} : item ∈ sortedByDesc key items ↔ item ∈ items :=
  List.mem_mergeSort

end EveBuild.Pages
