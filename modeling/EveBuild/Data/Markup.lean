import Mathlib.Data.List.Basic
import Mathlib.Data.String.Basic
import Mathlib.Tactic.Common

/-!
# Escaping data in markup

`escapeString` writes the five characters that have a meaning in HTML as character references,
and `unescape` reads them back.  What is escaped has no character that begins a tag or ends an
attribute value, and it is displayed as what it was (`escapedOnce_escapeString`); the only
strings that may be escaped twice, or not at all, are the plain ones, which have none of the
five characters (`escapeString_eq_self_iff`, `escapeString_twice_iff`).

A `Text` is a string that knows which of its parts stand for data.  Programs that build texts
out of texts carry the data along, so that one can say of the result that all data in it is
escaped once.  `toString_escape` and `toString_concat` say that nothing else is changed.
-/

namespace EveBuild.Markup

/-! ## Strings -/

/-- The characters that are escaped. -/
def special : List Char := ['&', '<', '>', '"', '\'']

/-- The string has none of the characters that are escaped. -/
def Plain (text : String) : Prop := ∀ c ∈ text.toList, c ∉ special

instance : DecidablePred Plain := fun text => inferInstanceAs (Decidable (∀ c ∈ text.toList, _))

theorem plain_append {first second : String} :
    Plain (first ++ second) ↔ Plain first ∧ Plain second := by
  simp only [Plain, String.toList_append, List.forall_mem_append]

def escapeChar (c : Char) : List Char :=
  if c = '&' then ['&', 'a', 'm', 'p', ';']
  else if c = '<' then ['&', 'l', 't', ';']
  else if c = '>' then ['&', 'g', 't', ';']
  else if c = '"' then ['&', 'q', 'u', 'o', 't', ';']
  else if c = '\'' then ['&', '#', 'x', '2', '7', ';']
  else [c]

def escapeChars (text : List Char) : List Char := text.flatMap escapeChar

def escapeString (text : String) : String := .ofList (escapeChars text.toList)

/-- What is displayed for characters that are escaped. -/
def unescape : List Char → List Char
  | '&' :: 'a' :: 'm' :: 'p' :: ';' :: rest => '&' :: unescape rest
  | '&' :: 'l' :: 't' :: ';' :: rest => '<' :: unescape rest
  | '&' :: 'g' :: 't' :: ';' :: rest => '>' :: unescape rest
  | '&' :: 'q' :: 'u' :: 'o' :: 't' :: ';' :: rest => '"' :: unescape rest
  | '&' :: '#' :: 'x' :: '2' :: '7' :: ';' :: rest => '\'' :: unescape rest
  | c :: rest => c :: unescape rest
  | [] => []

/-- `text` stands for `source` in markup as it should: it is escaped once, begins no tag and
ends no attribute value, and is displayed as `source`. -/
structure EscapedOnce (source text : String) : Prop where
  once : text = escapeString source
  inert : ∀ c ∈ text.toList, c ∉ ['<', '>', '"', '\'']
  displayed : String.ofList (unescape text.toList) = source

theorem escapeChars_cons (c : Char) (rest : List Char) :
    escapeChars (c :: rest) = escapeChar c ++ escapeChars rest := rfl

@[simp] theorem toList_escapeString (text : String) :
    (escapeString text).toList = escapeChars text.toList := String.toList_ofList

theorem escapeChar_of_notMem {c : Char} (hc : c ∉ special) : escapeChar c = [c] := by
  simp only [special, List.mem_cons, List.not_mem_nil, or_false, not_or] at hc
  obtain ⟨hamp, hlt, hgt, hquot, hapos⟩ := hc
  rw [escapeChar, if_neg hamp, if_neg hlt, if_neg hgt, if_neg hquot, if_neg hapos]

/-- A character that is escaped becomes longer. -/
theorem one_lt_length_escapeChar {c : Char} (hc : c ∈ special) : 1 < (escapeChar c).length := by
  simp only [special, List.mem_cons, List.not_mem_nil, or_false] at hc
  rcases hc with rfl | rfl | rfl | rfl | rfl <;> decide

/-- **Reading back** what was escaped. -/
theorem unescape_escapeChars (text : List Char) : unescape (escapeChars text) = text := by
  induction text with
  | nil => rfl
  | cons c rest ih =>
      rw [escapeChars_cons]
      by_cases hc : c ∈ special
      · simp only [special, List.mem_cons, List.not_mem_nil, or_false] at hc
        rcases hc with rfl | rfl | rfl | rfl | rfl <;> exact congrArg _ ih
      · -- a character that begins no reference stands for itself
        have hamp : c ≠ '&' := fun heq => hc (heq ▸ by decide)
        rw [escapeChar_of_notMem hc, List.singleton_append, unescape, ih]
        all_goals simp [hamp]

theorem inert_escapeChar {c : Char} (hc : c ∈ special) :
    ∀ written ∈ escapeChar c, written ∉ ['<', '>', '"', '\''] := by
  simp only [special, List.mem_cons, List.not_mem_nil, or_false] at hc
  rcases hc with rfl | rfl | rfl | rfl | rfl <;> simp [escapeChar]

/-- What is escaped begins no tag and ends no attribute value. -/
theorem inert_escapeChars (text : List Char) :
    ∀ written ∈ escapeChars text, written ∉ ['<', '>', '"', '\''] := by
  intro written hwritten
  obtain ⟨c, -, hc⟩ := List.mem_flatMap.mp hwritten
  by_cases hspecial : c ∈ special
  · exact inert_escapeChar hspecial written hc
  · rw [escapeChar_of_notMem hspecial, List.mem_singleton] at hc
    subst hc
    exact fun hmem => hspecial (List.mem_cons_of_mem _ hmem)

/-- **Escaping once** is what makes a text stand for its source. -/
theorem escapedOnce_escapeString (source : String) : EscapedOnce source (escapeString source) where
  once := rfl
  inert := by
    rw [toList_escapeString]
    exact inert_escapeChars _
  displayed := by rw [toList_escapeString, unescape_escapeChars, String.ofList_toList]

theorem escapedOnce_iff {source text : String} :
    EscapedOnce source text ↔ text = escapeString source :=
  ⟨EscapedOnce.once, fun heq => heq ▸ escapedOnce_escapeString source⟩

theorem escapeString_injective : Function.Injective escapeString := by
  intro first second heq
  have hread := congrArg (fun text => unescape text.toList) heq
  simp only [toList_escapeString, unescape_escapeChars] at hread
  exact String.toList_inj.mp hread

theorem length_le_escapeChars (text : List Char) : text.length ≤ (escapeChars text).length := by
  induction text with
  | nil => exact le_rfl
  | cons c rest ih =>
      have hc : 1 ≤ (escapeChar c).length := by
        by_cases hspecial : c ∈ special
        · exact (one_lt_length_escapeChar hspecial).le
        · rw [escapeChar_of_notMem hspecial]
          rfl
      rw [escapeChars_cons, List.length_append, List.length_cons]
      omega

/-- **Escaping changes nothing** where there is nothing to escape, and only there. -/
theorem escapeString_eq_self_iff {text : String} : escapeString text = text ↔ Plain text := by
  rw [← String.toList_inj, toList_escapeString, Plain]
  generalize text.toList = chars
  induction chars with
  | nil => simp [escapeChars]
  | cons c rest ih =>
      rw [escapeChars_cons, List.forall_mem_cons]
      by_cases hc : c ∈ special
      · -- the text has become longer
        have hlt := one_lt_length_escapeChar hc
        have hle := length_le_escapeChars rest
        refine ⟨fun heq => ?_, fun hplain => absurd hc hplain.1⟩
        have hlength := congrArg List.length heq
        rw [List.length_append, List.length_cons] at hlength
        omega
      · rw [escapeChar_of_notMem hc, List.singleton_append, List.cons_inj_right, ih]
        exact (and_iff_right hc).symm

/-- **Escaping twice** is escaping once where there is nothing to escape, and only there. -/
theorem escapeString_twice_iff {text : String} :
    escapeString (escapeString text) = escapeString text ↔ Plain text :=
  escapeString_injective.eq_iff.trans escapeString_eq_self_iff

/-! ## Texts -/

/-- A part of a text: characters of the program itself, or what stands for data. -/
inductive Part
  | markup (text : String)
  | data (source text : String)

def Part.text : Part → String
  | markup text => text
  | data _ text => text

structure Text where
  parts : List Part

namespace Text

/-- A string of the program. -/
def markup (text : String) : Text := ⟨[.markup text]⟩

instance : Coe String Text := ⟨markup⟩

/-- A string of the data. -/
def data (source : String) : Text := ⟨[.data source source]⟩

def concat (texts : List Text) : Text := ⟨texts.flatMap parts⟩

def join (separator : String) (texts : List Text) : Text :=
  concat (texts.intersperse (markup separator))

/-- The string that a text is. -/
def toString (text : Text) : String := .join (text.parts.map Part.text)

def escape (text : Text) : Text where
  parts := text.parts.map fun
    | .markup text => .markup (escapeString text)
    | .data source text => .data source (escapeString text)

/-- All data in the text is escaped once. -/
def EscapedOnce (text : Text) : Prop :=
  ∀ source shown, Part.data source shown ∈ text.parts → Markup.EscapedOnce source shown

@[simp] theorem toString_markup (text : String) : (markup text).toString = text := by
  simp [markup, toString, Part.text]

@[simp] theorem toString_data (source : String) : (data source).toString = source := by
  simp [data, toString, Part.text]

theorem toString_concat (texts : List Text) :
    (concat texts).toString = .join (texts.map toString) := by
  induction texts with
  | nil => rfl
  | cons text rest ih =>
      rw [List.map_cons, String.join_cons, ← ih]
      simp [toString, concat, String.join_append]

/-- **Escaping a text** is escaping the string that it is. -/
theorem toString_escape (text : Text) : text.escape.toString = escapeString text.toString := by
  obtain ⟨parts⟩ := text
  rw [← String.toList_inj, toList_escapeString]
  simp only [toString, escape, String.toList_join, List.flatMap_map, escapeChars]
  rw [List.flatMap_assoc]
  congr 1
  funext part
  cases part <;> exact toList_escapeString _

/-! ### Where data is escaped once -/

@[simp] theorem escapedOnce_markup (text : String) : (markup text).EscapedOnce := by
  simp [EscapedOnce, markup]

theorem escapedOnce_concat {texts : List Text} :
    (concat texts).EscapedOnce ↔ ∀ text ∈ texts, text.EscapedOnce := by
  simp only [EscapedOnce, concat, List.mem_flatMap, forall_exists_index, and_imp]
  exact ⟨fun h text htext source shown hpart => h source shown text htext hpart,
    fun h source shown text htext hpart => h text htext source shown hpart⟩

@[simp] theorem escapedOnce_concat_nil : (concat []).EscapedOnce := by
  simp [escapedOnce_concat]

@[simp] theorem escapedOnce_concat_cons {text : Text} {texts : List Text} :
    (concat (text :: texts)).EscapedOnce ↔ text.EscapedOnce ∧ (concat texts).EscapedOnce := by
  simp only [escapedOnce_concat, List.forall_mem_cons]

@[simp] theorem escapedOnce_concat_map {Item : Type*} {items : List Item} {text : Item → Text} :
    (concat (items.map text)).EscapedOnce ↔ ∀ item ∈ items, (text item).EscapedOnce := by
  rw [escapedOnce_concat, List.forall_mem_map]

theorem escapedOnce_join {separator : String} {texts : List Text} :
    (join separator texts).EscapedOnce ↔ ∀ text ∈ texts, text.EscapedOnce := by
  rw [join, escapedOnce_concat]
  induction texts with
  | nil => simp
  | cons first rest ih =>
      cases rest with
      | nil => simp
      | cons second rest =>
          rw [List.intersperse_cons_cons, List.forall_mem_cons, List.forall_mem_cons, ih,
            List.forall_mem_cons (a := first)]
          exact and_congr_right fun _ => and_iff_right (escapedOnce_markup separator)

@[simp] theorem escapedOnce_ite {condition : Prop} [Decidable condition] {first second : Text} :
    (if condition then first else second).EscapedOnce ↔
      (condition → first.EscapedOnce) ∧ (¬condition → second.EscapedOnce) := by
  by_cases hcondition : condition <;> simp [hcondition]

@[simp] theorem escape_markup (text : String) : (markup text).escape = markup (escapeString text) :=
  rfl

@[simp] theorem escape_concat (texts : List Text) :
    (concat texts).escape = concat (texts.map escape) := by
  simp [concat, escape, List.map_flatMap, List.flatMap_map]

@[simp] theorem escape_ite {condition : Prop} [Decidable condition] {first second : Text} :
    (if condition then first else second).escape =
      if condition then first.escape else second.escape :=
  apply_ite escape ..

@[simp] theorem escapedOnce_data {source : String} :
    (data source).EscapedOnce ↔ Plain source := by
  simp [EscapedOnce, data, escapedOnce_iff, ← escapeString_eq_self_iff, eq_comm]

@[simp] theorem escapedOnce_escape_data (source : String) :
    (data source).escape.EscapedOnce := by
  simp [EscapedOnce, data, escape, escapedOnce_iff]

@[simp] theorem escapedOnce_escape_escape_data {source : String} :
    (data source).escape.escape.EscapedOnce ↔ Plain source := by
  simp [EscapedOnce, data, escape, escapedOnce_iff, escapeString_twice_iff]

end Text

end EveBuild.Markup
