import Mathlib.Data.List.Basic
import Mathlib.Tactic.Common

/-!
# Elements

What well-formed HTML is: elements that are closed in the order in which they have been opened,
with attributes that are quoted and given once, and texts without angle brackets between them
(`Fragment`).  Of every link the grammar asks for where it leads.

A page is made from a template, of which only some parts are known.  `accepts` reads the known
parts with a stack, and knows of the others only what they stand for; whatever is put there, a
template that is accepted makes a fragment (`fragment_of_accepts`).
-/

namespace EveBuild.Html

/-! ## The grammar -/

/-- The elements that have neither content nor an end tag. -/
def voidNames : List (List Char) :=
  [['a', 'r', 'e', 'a'], ['b', 'a', 's', 'e'], ['b', 'r'], ['c', 'o', 'l'],
    ['e', 'm', 'b', 'e', 'd'], ['h', 'r'], ['i', 'm', 'g'], ['i', 'n', 'p', 'u', 't'],
    ['l', 'i', 'n', 'k'], ['m', 'e', 't', 'a'], ['s', 'o', 'u', 'r', 'c', 'e'],
    ['t', 'r', 'a', 'c', 'k'], ['w', 'b', 'r']]

def isSpace (c : Char) : Bool := c = ' ' || c = '\n' || c = '\t' || c = '\r'

def isNameChar (c : Char) : Bool := c.isAlphanum || c = '-'

def IsName (name : List Char) : Prop := name ≠ [] ∧ ∀ c ∈ name, isNameChar c

/-- What may stand between the quotes. -/
def isValueChar (c : Char) : Bool := c ≠ '"' && c ≠ '<'

def IsValue (value : List Char) : Prop := ∀ c ∈ value, isValueChar c

/-- The attribute is that of a link. -/
def isLink (tag name : List Char) : Bool :=
  tag = ['a'] && name = ['h', 'r', 'e', 'f'] ||
    tag = ['f', 'o', 'r', 'm'] && name = ['a', 'c', 't', 'i', 'o', 'n']

section Grammar

variable (leads : List Char → Prop)

/-- The attributes of a tag, and their names. -/
inductive Attributes (tag : List Char) : List (List Char) → List Char → Prop
  | nil {spaces : List Char} : (∀ c ∈ spaces, isSpace c) → Attributes tag [] spaces
  | bare {spaces name rest : List Char} {names : List (List Char)} :
      (∀ c ∈ spaces, isSpace c) → spaces ≠ [] → IsName name → name ∉ names →
      Attributes tag names rest → Attributes tag (name :: names) (spaces ++ (name ++ rest))
  | valued {spaces name value rest : List Char} {names : List (List Char)} :
      (∀ c ∈ spaces, isSpace c) → spaces ≠ [] → IsName name → name ∉ names →
      IsValue value → (isLink tag name → leads value) → Attributes tag names rest →
      Attributes tag (name :: names) (spaces ++ (name ++ '=' :: '"' :: (value ++ '"' :: rest)))

/-- Texts and elements, one after another. -/
inductive Fragment : List Char → Prop
  | nil : Fragment []
  | text {c : Char} {rest : List Char} : c ≠ '<' → c ≠ '>' → Fragment rest → Fragment (c :: rest)
  | void {tag attributes rest : List Char} {names : List (List Char)} :
      tag ∈ voidNames → Attributes leads tag names attributes → Fragment rest →
      Fragment ('<' :: (tag ++ (attributes ++ '>' :: rest)))
  | element {tag attributes body rest : List Char} {names : List (List Char)} :
      IsName tag → tag ∉ voidNames → Attributes leads tag names attributes →
      Fragment body → Fragment rest →
      Fragment ('<' :: (tag ++ (attributes ++ '>' :: (body ++ '<' :: '/' :: (tag ++ '>' :: rest)))))

def doctype : List Char :=
  ['<', '!', 'd', 'o', 'c', 't', 'y', 'p', 'e', ' ', 'h', 't', 'm', 'l', '>', '\n']

def Document (text : List Char) : Prop := ∃ root, text = doctype ++ root ∧ Fragment leads root

variable {leads}

theorem Attributes.mono {other : List Char → Prop} (hleads : ∀ href, leads href → other href)
    {tag : List Char} {names : List (List Char)} {attributes : List Char}
    (hattributes : Attributes leads tag names attributes) :
    Attributes other tag names attributes := by
  induction hattributes with
  | nil hspaces => exact .nil hspaces
  | bare hspaces hne hname hfresh _ ih => exact .bare hspaces hne hname hfresh ih
  | valued hspaces hne hname hfresh hvalue hlink _ ih =>
      exact .valued hspaces hne hname hfresh hvalue (fun h => hleads _ (hlink h)) ih

theorem Fragment.mono {other : List Char → Prop} (hleads : ∀ href, leads href → other href)
    {text : List Char} (hfragment : Fragment leads text) : Fragment other text := by
  induction hfragment with
  | nil => exact .nil
  | text hless hgreater _ ih => exact .text hless hgreater ih
  | void hvoid hattributes _ ih => exact .void hvoid (hattributes.mono hleads) ih
  | element hname hvoid hattributes _ _ ihbody ihrest =>
      exact .element hname hvoid (hattributes.mono hleads) ihbody ihrest

theorem Document.mono {other : List Char → Prop} (hleads : ∀ href, leads href → other href)
    {text : List Char} (hdocument : Document leads text) : Document other text := by
  obtain ⟨root, htext, hroot⟩ := hdocument
  exact ⟨root, htext, hroot.mono hleads⟩

theorem Fragment.append {first second : List Char} (hfirst : Fragment leads first)
    (hsecond : Fragment leads second) : Fragment leads (first ++ second) := by
  induction hfirst with
  | nil => exact hsecond
  | text hless hgreater _ ih => exact .text hless hgreater ih
  | void hvoid hattributes _ ih =>
      simpa only [List.cons_append, List.append_assoc] using Fragment.void hvoid hattributes ih
  | element hname hvoid hattributes hbody _ _ ih =>
      simpa only [List.cons_append, List.append_assoc] using
        Fragment.element hname hvoid hattributes hbody ih

/-- A text without angle brackets. -/
theorem fragment_of_forall {text : List Char} (htext : ∀ c ∈ text, c ≠ '<' ∧ c ≠ '>') :
    Fragment leads text := by
  induction text with
  | nil => exact .nil
  | cons c rest ih =>
      obtain ⟨hc, hrest⟩ := List.forall_mem_cons.mp htext
      exact .text hc.1 hc.2 (ih hrest)

end Grammar

/-! ## Templates -/

/-- A part of a template: characters, or a place for a fragment, for a part of an attribute value
or for the end of a link that begins with some characters. -/
inductive Piece
  | chars (chars : List Char)
  | fragment
  | value
  | link (before : List Char)

/-- What is known of a value that has been read so far. -/
inductive Value
  | known (chars : List Char)
  | unknown
  | led
deriving DecidableEq

/-- The value leads somewhere, if all links that are allowed do. -/
def Value.isLed (allowed : List Char → Bool) : Value → Bool
  | .known chars => allowed chars
  | .unknown => false
  | .led => true

/-- Where the reader is. -/
inductive Mode
  | text
  | less
  | startName (tag : List Char)
  | endName (tag : List Char)
  | inTag (tag : List Char) (names : List (List Char)) (spaced : Bool)
  | attributeName (tag : List Char) (names : List (List Char)) (name : List Char)
  | equals (tag : List Char) (names : List (List Char)) (name : List Char)
  | value (tag : List Char) (names : List (List Char)) (name : List Char) (value : Value)
deriving DecidableEq

/-- After a part of a value of which nothing is known. -/
def Mode.afterValue : Mode → Option Mode
  | .value tag names name (.known _) | .value tag names name .unknown =>
      some (.value tag names name .unknown)
  | _ => none

/-- After the end of a link. -/
def Mode.afterLink (before : List Char) : Mode → Option Mode
  | .value tag names name (.known chars) =>
      if chars = before then some (.value tag names name .led) else none
  | _ => none

/-- The elements that are open after a start tag. -/
def opened (tag : List Char) (stack : List (List Char)) : List (List Char) :=
  if tag ∈ voidNames then stack else tag :: stack

section Reader

variable (allowed : List Char → Bool)

/-- Reads a character. -/
def next (mode : Mode) (stack : List (List Char)) (c : Char) : Option (Mode × List (List Char)) :=
  match mode with
  | .text => if c = '<' then some (.less, stack) else if c = '>' then none else some (.text, stack)
  | .less =>
      if c = '/' then some (.endName [], stack)
      else if isNameChar c then some (.startName [c], stack) else none
  | .startName tag =>
      if isNameChar c then some (.startName (tag ++ [c]), stack)
      else if isSpace c then some (.inTag tag [] true, stack)
      else if c = '>' then some (.text, opened tag stack) else none
  | .endName tag =>
      if isNameChar c then some (.endName (tag ++ [c]), stack)
      else if c = '>' ∧ stack.head? = some tag then some (.text, stack.tail) else none
  | .inTag tag names spaced =>
      if isSpace c then some (.inTag tag names true, stack)
      else if c = '>' then some (.text, opened tag stack)
      else if spaced ∧ isNameChar c then some (.attributeName tag names [c], stack) else none
  | .attributeName tag names name =>
      if isNameChar c then some (.attributeName tag names (name ++ [c]), stack)
      else if name ∈ names then none
      else if c = '=' then some (.equals tag names name, stack)
      else if isSpace c then some (.inTag tag (name :: names) true, stack)
      else if c = '>' then some (.text, opened tag stack) else none
  | .equals tag names name =>
      if c = '"' then some (.value tag names name (.known []), stack) else none
  | .value tag names name value =>
      if c = '"' then
        if isLink tag name ∧ ¬value.isLed allowed then none
        else some (.inTag tag (name :: names) false, stack)
      else if isValueChar c then match value with
        | .known chars => some (.value tag names name (.known (chars ++ [c])), stack)
        | .unknown => some (.value tag names name .unknown, stack)
        | .led => none
      else none

/-- Reads characters. -/
def scan : List Char → Mode → List (List Char) → Option (Mode × List (List Char))
  | [], mode, stack => some (mode, stack)
  | c :: rest, mode, stack => match next allowed mode stack c with
    | some (mode, stack) => scan rest mode stack
    | none => none

/-- The template can be read, from some mode and with some open elements, to its end. -/
def reads : List Piece → Mode → List (List Char) → Bool
  | [], mode, stack => mode = .text ∧ stack = []
  | .chars chars :: rest, mode, stack => match scan allowed chars mode stack with
    | some (mode, stack) => reads rest mode stack
    | none => false
  | .fragment :: rest, mode, stack => mode = .text ∧ reads rest .text stack
  | .value :: rest, mode, stack => match mode.afterValue with
    | some mode => reads rest mode stack
    | none => false
  | .link before :: rest, mode, stack => match mode.afterLink before with
    | some mode => reads rest mode stack
    | none => false

/-- The template makes fragments. -/
def accepts (template : List Piece) : Bool := reads allowed template .text []

end Reader

/-- The text is what the template makes with some parts. -/
inductive Fills (leads : List Char → Prop) : List Piece → List Char → Prop
  | nil : Fills leads [] []
  | chars {chars rest : List Char} {template : List Piece} :
      Fills leads template rest → Fills leads (.chars chars :: template) (chars ++ rest)
  | fragment {part rest : List Char} {template : List Piece} :
      Fragment leads part → Fills leads template rest →
      Fills leads (.fragment :: template) (part ++ rest)
  | value {part rest : List Char} {template : List Piece} :
      IsValue part → Fills leads template rest → Fills leads (.value :: template) (part ++ rest)
  | link {before part rest : List Char} {template : List Piece} :
      IsValue part → leads (before ++ part) → Fills leads template rest →
      Fills leads (.link before :: template) (part ++ rest)

/-! ## What is accepted -/

section Sound

variable {leads : List Char → Prop}

/-- The text closes all that is open. -/
def Closes (leads : List Char → Prop) : List (List Char) → List Char → Prop
  | [], text => Fragment leads text
  | tag :: stack, text => ∃ body rest, text = body ++ '<' :: '/' :: (tag ++ '>' :: rest) ∧
      Fragment leads body ∧ Closes leads stack rest

theorem Closes.fragment {stack : List (List Char)} {part text : List Char}
    (hpart : Fragment leads part) (hcloses : Closes leads stack text) :
    Closes leads stack (part ++ text) := by
  cases stack with
  | nil => exact hpart.append hcloses
  | cons tag stack =>
      obtain ⟨body, rest, rfl, hbody, hrest⟩ := hcloses
      exact ⟨part ++ body, rest, by rw [List.append_assoc], hpart.append hbody, hrest⟩

/-- A start tag, with what closes what is open after it. -/
theorem Closes.opened {tag attributes text : List Char} {names stack : List (List Char)}
    (hname : IsName tag) (hattributes : Attributes leads tag names attributes)
    (hcloses : Closes leads (opened tag stack) text) :
    Closes leads stack ('<' :: (tag ++ (attributes ++ '>' :: text))) := by
  unfold Html.opened at hcloses
  split_ifs at hcloses with hvoid
  · have htag := Fragment.void hvoid hattributes .nil
    simpa using Closes.fragment htag hcloses
  · obtain ⟨body, rest, rfl, hbody, hrest⟩ := hcloses
    have helement := Fragment.element hname hvoid hattributes hbody .nil
    simpa using Closes.fragment helement hrest

/-- The text has the other attributes of a tag, with new names, and closes what is open. -/
def Finishes (leads : List Char → Prop) (tag : List Char) (names stack : List (List Char))
    (text : List Char) : Prop :=
  ∃ others attributes rest, text = attributes ++ '>' :: rest ∧
    Attributes leads tag others attributes ∧ (∀ name ∈ others, name ∉ names) ∧
    Closes leads (opened tag stack) rest

theorem Finishes.greater {tag spaces text : List Char} {names stack : List (List Char)}
    (hspaces : ∀ c ∈ spaces, isSpace c) (hcloses : Closes leads (opened tag stack) text) :
    Finishes leads tag names stack (spaces ++ '>' :: text) :=
  ⟨[], spaces, text, rfl, .nil hspaces, by simp, hcloses⟩

section Attribute

variable {tag spaces name text : List Char} {names stack : List (List Char)}
  (hspaces : ∀ c ∈ spaces, isSpace c) (hne : spaces ≠ []) (hname : IsName name)
  (hfresh : name ∉ names) (hfinishes : Finishes leads tag (name :: names) stack text)

include hspaces hne hname hfresh hfinishes

theorem Finishes.bare : Finishes leads tag names stack (spaces ++ (name ++ text)) := by
  obtain ⟨others, attributes, rest, rfl, hattributes, hothers, hcloses⟩ := hfinishes
  refine ⟨name :: others, spaces ++ (name ++ attributes), rest, by simp, ?_, ?_, hcloses⟩
  · exact .bare hspaces hne hname (fun hmem => hothers name hmem List.mem_cons_self) hattributes
  · refine List.forall_mem_cons.mpr ⟨hfresh, fun other hother hmem => ?_⟩
    exact hothers other hother (List.mem_cons_of_mem _ hmem)

theorem Finishes.valued {value : List Char} (hvalue : IsValue value)
    (hlink : isLink tag name → leads value) :
    Finishes leads tag names stack
      (spaces ++ (name ++ '=' :: '"' :: (value ++ '"' :: text))) := by
  obtain ⟨others, attributes, rest, rfl, hattributes, hothers, hcloses⟩ := hfinishes
  refine ⟨name :: others, spaces ++ (name ++ '=' :: '"' :: (value ++ '"' :: attributes)), rest,
    by simp, ?_, ?_, hcloses⟩
  · exact .valued hspaces hne hname (fun hmem => hothers name hmem List.mem_cons_self) hvalue hlink
      hattributes
  · refine List.forall_mem_cons.mpr ⟨hfresh, fun other hother hmem => ?_⟩
    exact hothers other hother (List.mem_cons_of_mem _ hmem)

end Attribute

/-- What is known of the value is right. -/
def Value.Knows (leads : List Char → Prop) (chars : List Char) : Value → Prop
  | .known begun => chars = begun
  | .unknown => True
  | .led => leads chars

/-- The text is one that can follow: whatever has been read before, it closes what is open. -/
def Follows (leads : List Char → Prop) (text : List Char) :
    Mode → List (List Char) → Prop
  | .text, stack => Closes leads stack text
  | .less, stack => Closes leads stack ('<' :: text)
  | .startName tag, stack => IsName tag → Closes leads stack ('<' :: (tag ++ text))
  | .endName tag, stack => Closes leads stack ('<' :: '/' :: (tag ++ text))
  | .inTag tag names spaced, stack => ∀ spaces, (∀ c ∈ spaces, isSpace c) →
      (spaced → spaces ≠ []) → Finishes leads tag names stack (spaces ++ text)
  | .attributeName tag names name, stack => IsName name → ∀ spaces, (∀ c ∈ spaces, isSpace c) →
      spaces ≠ [] → Finishes leads tag names stack (spaces ++ (name ++ text))
  | .equals tag names name, stack => IsName name → name ∉ names →
      ∀ spaces, (∀ c ∈ spaces, isSpace c) → spaces ≠ [] →
        Finishes leads tag names stack (spaces ++ (name ++ '=' :: text))
  | .value tag names name value, stack => IsName name → name ∉ names →
      ∀ spaces, (∀ c ∈ spaces, isSpace c) → spaces ≠ [] →
        ∀ chars, IsValue chars → value.Knows leads chars →
          Finishes leads tag names stack (spaces ++ (name ++ '=' :: '"' :: (chars ++ text)))

variable {allowed : List Char → Bool} (hallowed : ∀ href, allowed href → leads href)

theorem IsName.snoc {name : List Char} {c : Char} (hname : IsName name) (hc : isNameChar c) :
    IsName (name ++ [c]) := by
  refine ⟨by simp, fun other hother => ?_⟩
  rcases List.mem_append.mp hother with hother | hother
  · exact hname.2 other hother
  · exact List.mem_singleton.mp hother ▸ hc

theorem isName_singleton {c : Char} (hc : isNameChar c) : IsName [c] :=
  ⟨by simp, List.forall_mem_singleton.mpr hc⟩

include hallowed in
/-- **One character**, backwards: what can follow it can follow after it. -/
theorem follows_of_next {mode mode' : Mode} {stack stack' : List (List Char)} {c : Char}
    {text : List Char} (hnext : next allowed mode stack c = some (mode', stack'))
    (hfollows : Follows leads text mode' stack') : Follows leads (c :: text) mode stack := by
  cases mode with
  | text =>
      simp only [next] at hnext
      split_ifs at hnext with hless hgreater
      · cases hnext
        exact hless ▸ hfollows
      · cases hnext
        exact Closes.fragment (.text hless hgreater .nil) hfollows
  | less =>
      simp only [next] at hnext
      split_ifs at hnext with hslash hname
      · cases hnext
        exact hslash ▸ hfollows
      · cases hnext
        exact hfollows (isName_singleton hname)
  | startName tag =>
      intro htag
      simp only [next] at hnext
      split_ifs at hnext with hname hspace hgreater
      · cases hnext
        simpa using hfollows (htag.snoc hname)
      · cases hnext
        obtain ⟨others, attributes, rest, heq, hattributes, -, hcloses⟩ :=
          hfollows [c] (List.forall_mem_singleton.mpr hspace) (by simp)
        rw [show c :: text = [c] ++ text from rfl, heq]
        exact hcloses.opened htag hattributes
      · cases hnext
        have hnil : Attributes leads tag [] [] := .nil (by simp)
        exact hgreater ▸ Closes.opened htag hnil hfollows
  | endName tag =>
      simp only [next] at hnext
      split_ifs at hnext with hname hgreater
      · cases hnext
        simpa [Follows] using hfollows
      · cases hnext
        obtain ⟨rfl, hhead⟩ := hgreater
        obtain ⟨others, rfl⟩ := List.head?_eq_some_iff.mp hhead
        exact ⟨[], text, rfl, .nil, hfollows⟩
  | inTag tag names spaced =>
      intro spaces hspaces hspaced
      simp only [next] at hnext
      split_ifs at hnext with hspace hgreater hname
      · cases hnext
        have hall : ∀ other ∈ spaces ++ [c], isSpace other :=
          List.forall_mem_append.mpr ⟨hspaces, List.forall_mem_singleton.mpr hspace⟩
        simpa using hfollows (spaces ++ [c]) hall (by simp)
      · cases hnext
        exact hgreater ▸ Finishes.greater hspaces hfollows
      · cases hnext
        exact hfollows (isName_singleton hname.2) spaces hspaces (hspaced hname.1)
  | attributeName tag names name =>
      intro hname spaces hspaces hne
      simp only [next] at hnext
      split_ifs at hnext with hchar hfresh hequals hspace hgreater
      · cases hnext
        simpa using hfollows (hname.snoc hchar) spaces hspaces hne
      · cases hnext
        exact hequals ▸ hfollows hname hfresh spaces hspaces hne
      · cases hnext
        have hrest := hfollows [c] (List.forall_mem_singleton.mpr hspace) (by simp)
        exact Finishes.bare hspaces hne hname hfresh hrest
      · cases hnext
        have hrest : Finishes leads tag (name :: names) stack ([] ++ '>' :: text) :=
          .greater (by simp) hfollows
        exact hgreater ▸ Finishes.bare hspaces hne hname hfresh hrest
  | equals tag names name =>
      intro hname hfresh spaces hspaces hne
      simp only [next] at hnext
      split_ifs at hnext with hquote
      cases hnext
      exact hquote ▸ hfollows hname hfresh spaces hspaces hne [] (by simp [IsValue]) rfl
  | value tag names name value =>
      intro hname hfresh spaces hspaces hne chars hchars hknows
      simp only [next] at hnext
      split_ifs at hnext with hquote hled hchar
      · cases hnext
        have hrest := hfollows [] (by simp) (by simp)
        refine hquote ▸ Finishes.valued hspaces hne hname hfresh hrest hchars fun hlink => ?_
        have hisLed : value.isLed allowed := by_contra fun hnot => hled ⟨hlink, hnot⟩
        cases value with
        | known begun => exact hknows ▸ hallowed begun hisLed
        | unknown => cases hisLed
        | led => exact hknows
      · have hsnoc : IsValue (chars ++ [c]) :=
          List.forall_mem_append.mpr ⟨hchars, List.forall_mem_singleton.mpr hchar⟩
        cases value with
        | known begun =>
            cases hnext
            have hrest := hfollows hname hfresh spaces hspaces hne (chars ++ [c]) hsnoc
              (congrArg (· ++ [c]) hknows)
            simpa using hrest
        | unknown =>
            cases hnext
            simpa using hfollows hname hfresh spaces hspaces hne (chars ++ [c]) hsnoc trivial
        | led => cases hnext

include hallowed in
theorem follows_of_scan {chars : List Char} {mode mode' : Mode} {stack stack' : List (List Char)}
    {text : List Char} (hscan : scan allowed chars mode stack = some (mode', stack'))
    (hfollows : Follows leads text mode' stack') :
    Follows leads (chars ++ text) mode stack := by
  induction chars generalizing mode stack with
  | nil =>
      cases hscan
      exact hfollows
  | cons c rest ih =>
      rw [scan] at hscan
      split at hscan
      · rename_i hnext
        exact follows_of_next hallowed hnext (ih hscan)
      · cases hscan

include hallowed in
/-- **A template**, backwards: what it makes can follow where it can be read. -/
theorem follows_of_reads {template : List Piece} {mode : Mode} {stack : List (List Char)}
    {text : List Char} (hreads : reads allowed template mode stack)
    (hfills : Fills leads template text) : Follows leads text mode stack := by
  induction hfills generalizing mode stack with
  | nil =>
      obtain ⟨rfl, rfl⟩ : mode = .text ∧ stack = [] := by simpa [reads] using hreads
      exact Fragment.nil
  | chars _ ih =>
      rw [reads] at hreads
      split at hreads
      · rename_i hscan
        exact follows_of_scan hallowed hscan (ih hreads)
      · cases hreads
  | fragment hpart _ ih =>
      obtain ⟨rfl, hrest⟩ : mode = .text ∧ _ := by simpa [reads] using hreads
      exact Closes.fragment hpart (ih hrest)
  | value hpart _ ih =>
      rw [reads] at hreads
      split at hreads
      · rename_i hafter
        unfold Mode.afterValue at hafter
        split at hafter
        all_goals
          cases hafter
          try
            intro hname hfresh spaces hspaces hne chars hchars hknows
            have hall := List.forall_mem_append.mpr ⟨hchars, hpart⟩
            simpa using ih hreads hname hfresh spaces hspaces hne _ hall trivial
      · cases hreads
  | link hpart hleads _ ih =>
      rw [reads] at hreads
      split at hreads
      · rename_i hafter
        unfold Mode.afterLink at hafter
        split at hafter
        · split_ifs at hafter with hbefore
          cases hafter
          intro hname hfresh spaces hspaces hne chars hchars hknows
          have hall := List.forall_mem_append.mpr ⟨hchars, hpart⟩
          obtain rfl := hknows.trans hbefore
          simpa using ih hreads hname hfresh spaces hspaces hne _ hall hleads
        · cases hafter
      · cases hreads

include hallowed in
/-- **What an accepted template makes** is a fragment, whatever is put in. -/
theorem fragment_of_accepts {template : List Piece} {text : List Char}
    (haccepts : accepts allowed template) (hfills : Fills leads template text) :
    Fragment leads text :=
  follows_of_reads hallowed haccepts hfills

end Sound

/-! ## Links -/

/-- The link that a character ends. -/
def endedLink (mode : Mode) (c : Char) : List (List Char) :=
  match mode with
  | .value tag _ name (.known chars) => if c = '"' ∧ isLink tag name then [chars] else []
  | _ => []

/-- The links of a text, as far as it can be read. -/
def linksFrom : List Char → Mode → List (List Char) → List (List Char)
  | [], _, _ => []
  | c :: rest, mode, stack => endedLink mode c ++
      match next (fun _ => true) mode stack c with
      | some (mode, stack) => linksFrom rest mode stack
      | none => []

def linksOf (text : List Char) : List (List Char) := linksFrom text .text []

/-- Reading the text leads from one mode to another, and the links in it lead somewhere. -/
def Takes (leads : List Char → Prop) (text : List Char) (mode : Mode) (stack : List (List Char))
    (mode' : Mode) (stack' : List (List Char)) : Prop :=
  ∃ links, (∀ href ∈ links, leads href) ∧
    ∀ rest, linksFrom (text ++ rest) mode stack = links ++ linksFrom rest mode' stack'

section Links

variable {leads : List Char → Prop} {mode mode' mode'' : Mode}
  {stack stack' stack'' : List (List Char)}

theorem Takes.refl : Takes leads [] mode stack mode stack := ⟨[], by simp, fun _ => rfl⟩

theorem Takes.trans {first second : List Char} (hfirst : Takes leads first mode stack mode' stack')
    (hsecond : Takes leads second mode' stack' mode'' stack'') :
    Takes leads (first ++ second) mode stack mode'' stack'' := by
  obtain ⟨links, hlinks, hfirst⟩ := hfirst
  obtain ⟨others, hothers, hsecond⟩ := hsecond
  refine ⟨links ++ others, List.forall_mem_append.mpr ⟨hlinks, hothers⟩, fun rest => ?_⟩
  rw [List.append_assoc, hfirst, hsecond, List.append_assoc]

/-- One character that ends no link, or one that leads somewhere. -/
theorem Takes.next {c : Char} (hnext : Html.next (fun _ => true) mode stack c = some (mode', stack'))
    (hlink : ∀ href ∈ endedLink mode c, leads href) : Takes leads [c] mode stack mode' stack' :=
  ⟨endedLink mode c, hlink, fun rest => by simp [linksFrom, hnext]⟩

theorem ne_of_isNameChar {c : Char} (hc : isNameChar c) :
    isSpace c = false ∧ c ≠ '/' ∧ c ≠ '=' ∧ c ≠ '>' := by
  refine ⟨Bool.eq_false_iff.mpr fun hspace => ?_, ?_, ?_, ?_⟩
  · simp only [isSpace, Bool.or_eq_true, decide_eq_true_eq] at hspace
    rcases hspace with ((rfl | rfl) | rfl) | rfl <;> exact absurd hc (by decide)
  all_goals
    rintro rfl
    exact absurd hc (by decide)

theorem ne_of_isSpace {c : Char} (hc : isSpace c) : isNameChar c = false ∧ c ≠ '=' ∧ c ≠ '>' := by
  simp only [isSpace, Bool.or_eq_true, decide_eq_true_eq] at hc
  rcases hc with ((rfl | rfl) | rfl) | rfl <;> decide

/-- Characters that are all added to what has been read. -/
theorem takes_of_forall (modeOf : List Char → Mode) {text : List Char}
    (htext : ∀ c ∈ text, ∀ begun,
      Takes leads [c] (modeOf begun) stack (modeOf (begun ++ [c])) stack) (begun : List Char) :
    Takes leads text (modeOf begun) stack (modeOf (begun ++ text)) stack := by
  induction text generalizing begun with
  | nil => simpa using Takes.refl
  | cons c rest ih =>
      obtain ⟨hc, hrest⟩ := List.forall_mem_cons.mp htext
      simpa using (hc begun).trans (ih hrest (begun ++ [c]))

/-- The reader has read some attributes, and not begun another one. -/
inductive Between (tag : List Char) : List (List Char) → Mode → Prop
  | startName : Between tag [] (.startName tag)
  | inTag {seen : List (List Char)} (spaced : Bool) : Between tag seen (.inTag tag seen spaced)
  | attributeName {seen : List (List Char)} {name : List Char} :
      name ∉ seen → Between tag (name :: seen) (.attributeName tag seen name)

section Tag

variable {tag : List Char} {seen : List (List Char)}

theorem Between.space (hbetween : Between tag seen mode) {c : Char} (hc : isSpace c) :
    Takes leads [c] mode stack (.inTag tag seen true) stack := by
  obtain ⟨hname, hequals, hgreater⟩ := ne_of_isSpace hc
  cases hbetween with
  | startName => exact .next (by simp [Html.next, hname, hc]) (by simp [endedLink])
  | inTag => exact .next (by simp [Html.next, hc]) (by simp [endedLink])
  | attributeName hfresh =>
      exact .next (by simp [Html.next, hname, hc, hequals, hfresh]) (by simp [endedLink])

theorem Between.greater (hbetween : Between tag seen mode) :
    Takes leads ['>'] mode stack .text (opened tag stack) := by
  cases hbetween with
  | startName => exact .next (by simp [Html.next, isNameChar, isSpace]) (by simp [endedLink])
  | inTag => exact .next (by simp [Html.next, isSpace]) (by simp [endedLink])
  | attributeName hfresh =>
      exact .next (by simp [Html.next, isNameChar, isSpace, hfresh]) (by simp [endedLink])

theorem Between.spaces (hbetween : Between tag seen mode) {spaces : List Char}
    (hspaces : ∀ c ∈ spaces, isSpace c) (hne : spaces ≠ []) :
    Takes leads spaces mode stack (.inTag tag seen true) stack := by
  obtain ⟨c, rest, rfl⟩ := List.exists_cons_of_ne_nil hne
  obtain ⟨hc, hrest⟩ := List.forall_mem_cons.mp hspaces
  have hmore : Takes leads rest (.inTag tag seen true) stack (.inTag tag seen true) stack :=
    takes_of_forall (fun _ => .inTag tag seen true)
      (fun c hc _ => (Between.inTag true).space (hrest c hc)) []
  exact (hbetween.space hc).trans hmore

/-- The name of an attribute. -/
theorem takes_name {name : List Char} (hname : IsName name) :
    Takes leads name (.inTag tag seen true) stack (.attributeName tag seen name) stack := by
  obtain ⟨hne, hall⟩ := hname
  obtain ⟨c, rest, rfl⟩ := List.exists_cons_of_ne_nil hne
  obtain ⟨hc, hrest⟩ := List.forall_mem_cons.mp hall
  obtain ⟨hspace, -, -, hgreater⟩ := ne_of_isNameChar hc
  have hfirst : Takes leads [c] (.inTag tag seen true) stack (.attributeName tag seen [c]) stack :=
    .next (by simp [Html.next, hspace, hgreater, hc]) (by simp [endedLink])
  have hmore : Takes leads rest (.attributeName tag seen [c]) stack
      (.attributeName tag seen ([c] ++ rest)) stack :=
    takes_of_forall (.attributeName tag seen)
      (fun c hc _ => .next (by simp [Html.next, hrest c hc]) (by simp [endedLink])) [c]
  exact hfirst.trans hmore

/-- The value of an attribute, from the equals sign to the quote that ends it. -/
theorem takes_value {name value : List Char} (hname : name ∉ seen) (hvalue : IsValue value)
    (hlink : isLink tag name → leads value) :
    Takes leads ('=' :: '"' :: (value ++ ['"'])) (.attributeName tag seen name) stack
      (.inTag tag (name :: seen) false) stack := by
  have hequals : Takes leads ['='] (.attributeName tag seen name) stack (.equals tag seen name)
      stack := .next (by simp [Html.next, isNameChar, hname]) (by simp [endedLink])
  have hquote : Takes leads ['"'] (.equals tag seen name) stack
      (.value tag seen name (.known [])) stack :=
    .next (by simp [Html.next]) (by simp [endedLink])
  have hchars : Takes leads value (.value tag seen name (.known [])) stack
      (.value tag seen name (.known ([] ++ value))) stack := by
    refine takes_of_forall (fun begun => .value tag seen name (.known begun))
      (fun c hc begun => ?_) []
    have hchar := hvalue c hc
    have hne : c ≠ '"' := by
      rintro rfl
      cases hchar
    exact .next (by simp [Html.next, hne, hchar]) (by simp [endedLink, hne])
  have hend : Takes leads ['"'] (.value tag seen name (.known value)) stack
      (.inTag tag (name :: seen) false) stack := by
    refine .next (by simp [Html.next, Value.isLed]) fun href hhref => ?_
    simp only [endedLink] at hhref
    split_ifs at hhref with hled
    · exact List.mem_singleton.mp hhref ▸ hlink hled.2
    · cases hhref
  exact hequals.trans (hquote.trans (hchars.trans hend))

/-- **The attributes** of a tag, and its end. -/
theorem takes_attributes {names : List (List Char)} {attributes : List Char}
    (hattributes : Attributes leads tag names attributes) (hbetween : Between tag seen mode)
    (hseen : ∀ name ∈ names, name ∉ seen) :
    Takes leads (attributes ++ ['>']) mode stack .text (opened tag stack) := by
  induction hattributes generalizing seen mode with
  | @nil spaces hspaces =>
      by_cases hne : spaces = []
      · subst hne
        exact hbetween.greater
      · exact (hbetween.spaces hspaces hne).trans (Between.inTag true).greater
  | @bare spaces name rest names hspaces hne hname hfresh _ ih =>
      obtain ⟨hnew, hothers⟩ := List.forall_mem_cons.mp hseen
      have hrest := ih (.attributeName hnew) fun other hother hmem => by
        rcases List.mem_cons.mp hmem with rfl | hmem
        · exact hfresh hother
        · exact hothers other hother hmem
      simpa using (hbetween.spaces hspaces hne).trans ((takes_name hname).trans hrest)
  | @valued spaces name value rest names hspaces hne hname hfresh hvalue hlink _ ih =>
      obtain ⟨hnew, hothers⟩ := List.forall_mem_cons.mp hseen
      have hrest := ih (.inTag false) fun other hother hmem => by
        rcases List.mem_cons.mp hmem with rfl | hmem
        · exact hfresh hother
        · exact hothers other hother hmem
      simpa using (hbetween.spaces hspaces hne).trans
        ((takes_name hname).trans ((takes_value hnew hvalue hlink).trans hrest))

theorem takes_startTag {names : List (List Char)} {attributes : List Char} (hname : IsName tag)
    (hattributes : Attributes leads tag names attributes) :
    Takes leads ('<' :: (tag ++ (attributes ++ ['>']))) .text stack .text (opened tag stack) := by
  have hless : Takes leads ['<'] .text stack .less stack :=
    .next (by simp [Html.next]) (by simp [endedLink])
  obtain ⟨hne, hall⟩ := hname
  obtain ⟨c, rest, rfl⟩ := List.exists_cons_of_ne_nil hne
  obtain ⟨hc, hrest⟩ := List.forall_mem_cons.mp hall
  obtain ⟨-, hslash, -, -⟩ := ne_of_isNameChar hc
  have hfirst : Takes leads [c] .less stack (.startName [c]) stack :=
    .next (by simp [Html.next, hslash, hc]) (by simp [endedLink])
  have hmore : Takes leads rest (.startName [c]) stack (.startName ([c] ++ rest)) stack :=
    takes_of_forall .startName
      (fun c hc _ => .next (by simp [Html.next, hrest c hc]) (by simp [endedLink])) [c]
  simpa using hless.trans (hfirst.trans (hmore.trans
    (takes_attributes hattributes .startName (by simp))))

theorem takes_endTag (hname : IsName tag) :
    Takes leads ('<' :: '/' :: (tag ++ ['>'])) .text (tag :: stack) .text stack := by
  have hless : Takes leads ['<'] .text (tag :: stack) .less (tag :: stack) :=
    .next (by simp [Html.next]) (by simp [endedLink])
  have hslash : Takes leads ['/'] .less (tag :: stack) (.endName []) (tag :: stack) :=
    .next (by simp [Html.next]) (by simp [endedLink])
  have hmore : Takes leads tag (.endName []) (tag :: stack) (.endName ([] ++ tag)) (tag :: stack) :=
    takes_of_forall .endName
      (fun c hc _ => .next (by simp [Html.next, hname.2 c hc]) (by simp [endedLink])) []
  have hgreater : Takes leads ['>'] (.endName tag) (tag :: stack) .text stack :=
    .next (by simp [Html.next, isNameChar]) (by simp [endedLink])
  exact hless.trans (hslash.trans (hmore.trans hgreater))

end Tag

theorem isName_of_mem_voidNames {tag : List Char} (htag : tag ∈ voidNames) : IsName tag := by
  have hall : ∀ tag ∈ voidNames, tag ≠ [] ∧ tag.all isNameChar := by decide
  exact (hall tag htag).imp_right List.all_eq_true.mp

/-- **A fragment** is read to its end, and all links in it lead somewhere. -/
theorem takes_fragment {text : List Char} (hfragment : Fragment leads text) :
    Takes leads text .text stack .text stack := by
  induction hfragment generalizing stack with
  | nil => exact .refl
  | text hless hgreater _ ih =>
      exact Takes.trans (.next (by simp [Html.next, hless, hgreater]) (by simp [endedLink])) ih
  | @void tag attributes rest names hvoid hattributes _ ih =>
      have htag : Takes leads _ .text stack .text _ :=
        takes_startTag (isName_of_mem_voidNames hvoid) hattributes
      rw [opened, if_pos hvoid] at htag
      simpa using htag.trans ih
  | @element tag attributes body rest names hname hvoid hattributes _ _ ihbody ihrest =>
      have htag : Takes leads _ .text stack .text _ := takes_startTag hname hattributes
      rw [opened, if_neg hvoid] at htag
      simpa using htag.trans (ihbody.trans ((takes_endTag hname).trans ihrest))

/-- **The links of a fragment** lead somewhere. -/
theorem leads_of_mem_linksOf {text : List Char} (hfragment : Fragment leads text) :
    ∀ href ∈ linksOf text, leads href := by
  obtain ⟨links, hlinks, htakes⟩ : Takes leads text .text [] .text [] := takes_fragment hfragment
  have heq := htakes []
  simp only [List.append_nil, linksFrom] at heq
  rw [linksOf, heq]
  exact hlinks

/-- The links of a document. -/
def linksOfDocument (text : List Char) : List (List Char) := linksOf (text.drop doctype.length)

theorem leads_of_mem_linksOfDocument {text : List Char} (hdocument : Document leads text) :
    ∀ href ∈ linksOfDocument text, leads href := by
  obtain ⟨root, rfl, hroot⟩ := hdocument
  rw [linksOfDocument, List.drop_left]
  exact leads_of_mem_linksOf hroot

end Links

end EveBuild.Html
