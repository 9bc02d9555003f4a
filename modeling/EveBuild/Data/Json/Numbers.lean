import EveBuild.Data.Json.Strings
import EveBuild.Data.Numerals
import EveBuild.Data.Value

/-!
# Numbers in JSON texts

Reading a number as Python's `json.loads` does: an integer, or a float where there is a fraction
or an exponent.  How a float is written is a `FloatFormat`, of which only that is assumed which
Python says of `repr`: the text is one of a number with a fraction or an exponent, and `float`
reads it back.

`scanNumber_append` says what is read off the text of a number, wherever a value can end.
-/

namespace EveBuild.Json

open Numerals (maxStrDigits)

/-- How floats are written and read: `float.__repr__` and `float`. -/
structure FloatFormat where
  repr : UInt64 → List Char
  float : List Char → UInt64

def infinity : UInt64 := 0x7ff0000000000000

def negativeInfinity : UInt64 := 0xfff0000000000000

def nan : UInt64 := 0x7ff8000000000000

/-- The exponent of the float is not the one of infinities and of what is no number. -/
def IsFinite (bits : UInt64) : Prop := bits &&& infinity ≠ infinity

instance : DecidablePred IsFinite := fun _ => inferInstanceAs (Decidable (¬ _))

/-- `-?` -/
def scanSign : List Char → Scanned (List Char)
  | '-' :: rest => (['-'], rest)
  | rest => ([], rest)

/-- `0|[1-9]\d*` -/
def scanWhole : List Char → Except JsonError (Scanned (List Char))
  | '0' :: rest => .ok (['0'], rest)
  | chars =>
      if chars.takeWhile Char.isDigit = [] then .error .decode
      else .ok (chars.takeWhile Char.isDigit, chars.dropWhile Char.isDigit)

/-- `(\.\d+)?` -/
def scanFraction : List Char → Scanned (List Char)
  | '.' :: rest =>
      if rest.takeWhile Char.isDigit = [] then ([], '.' :: rest)
      else ('.' :: rest.takeWhile Char.isDigit, rest.dropWhile Char.isDigit)
  | rest => ([], rest)

/-- `[-+]?` -/
def scanExponentSign : List Char → Scanned (List Char)
  | '-' :: rest => (['-'], rest)
  | '+' :: rest => (['+'], rest)
  | rest => ([], rest)

/-- `([eE][-+]?\d+)?` -/
def scanExponent : List Char → Scanned (List Char)
  | [] => ([], [])
  | mark :: rest =>
      let (sign, digits) := scanExponentSign rest
      if mark ∉ ['e', 'E'] ∨ digits.takeWhile Char.isDigit = [] then ([], mark :: rest)
      else (mark :: sign ++ digits.takeWhile Char.isDigit, digits.dropWhile Char.isDigit)

/-- The integer of a sign and digits. -/
def intOfDigits (sign digits : List Char) : ℤ :=
  if sign = [] then Nat.ofDigitChars 10 digits 0 else -(Nat.ofDigitChars 10 digits 0 : ℕ)

/-- The text that a float is written as. -/
def FloatFormat.text (format : FloatFormat) (bits : UInt64) : List Char :=
  if bits = infinity then "Infinity".toList
  else if bits = negativeInfinity then "-Infinity".toList
  else if IsFinite bits then format.repr bits
  else "NaN".toList

/-- `_match_number`: an integer, or a float where there is a fraction or an exponent. -/
def scanNumber (format : FloatFormat) (chars : List Char) :
    Except JsonError (Scanned Number) := do
  let (sign, rest) := scanSign chars
  let (whole, rest) ← scanWhole rest
  let (fraction, rest) := scanFraction rest
  let (exponent, rest) := scanExponent rest
  if fraction ++ exponent ≠ [] then
    return (.float (format.float (sign ++ whole ++ fraction ++ exponent)), rest)
  else if maxStrDigits < whole.length then throw .tooManyDigits
  else return (.int (intOfDigits sign whole), rest)

/-- Decimal digits without a zero in front. -/
def IsWhole (digits : List Char) : Prop :=
  digits = ['0'] ∨ ∃ first rest, digits = first :: rest ∧ first ≠ '0' ∧ ∀ c ∈ digits, c.isDigit

def IsFraction (text : List Char) : Prop :=
  text = [] ∨ ∃ first rest, text = '.' :: first :: rest ∧ ∀ c ∈ first :: rest, c.isDigit

def IsExponent (text : List Char) : Prop :=
  text = [] ∨ ∃ sign first rest, text = 'e' :: sign ++ first :: rest ∧
    sign ∈ [[], ['-'], ['+']] ∧ ∀ c ∈ first :: rest, c.isDigit

/-- The text is that of a number, with a fraction or an exponent. -/
structure IsFloatText (text : List Char) : Prop where
  parts : ∃ sign whole fraction exponent, text = sign ++ whole ++ fraction ++ exponent ∧
    sign ∈ [[], ['-']] ∧ IsWhole whole ∧ IsFraction fraction ∧ IsExponent exponent ∧
    fraction ++ exponent ≠ []

/-- What Python says of `repr` and `float`. -/
structure FloatFormat.Faithful (format : FloatFormat) : Prop where
  isFloatText : ∀ bits, IsFinite bits → IsFloatText (format.repr bits)
  float_repr : ∀ bits, IsFinite bits → format.float (format.repr bits) = bits

/-- What can follow a value: the text of a number does not go on there. -/
def Ends (rest : List Char) : Prop := ∀ c ∈ rest.head?, c ∈ [',', ']', '}']

theorem printable_digits {digits : List Char} (hdigits : ∀ c ∈ digits, c.isDigit) :
    Printable digits := by
  intro c hc
  have hdigit := hdigits c hc
  simp only [Char.isDigit, Bool.and_eq_true, decide_eq_true_eq, ge_iff_le] at hdigit
  exact ⟨UInt32.le_trans (show ' '.val ≤ 48 by decide) hdigit.1,
    UInt32.le_trans hdigit.2 (show 57 ≤ '~'.val by decide)⟩

theorem takeWhile_digits {digits rest : List Char} (hdigits : ∀ c ∈ digits, c.isDigit)
    (hrest : ∀ c ∈ rest.head?, ¬ c.isDigit) :
    (digits ++ rest).takeWhile Char.isDigit = digits ∧
      (digits ++ rest).dropWhile Char.isDigit = rest := by
  rw [List.takeWhile_append_of_pos hdigits, List.dropWhile_append_of_pos hdigits]
  cases rest with
  | nil => simp
  | cons c rest => simp [hrest c rfl]

theorem isDigit_of_isWhole {digits : List Char} (hwhole : IsWhole digits) :
    ∀ c ∈ digits, c.isDigit := by
  rcases hwhole with rfl | ⟨first, rest, -, -, hdigits⟩
  · simp
  · exact hdigits

theorem scanSign_append {sign whole : List Char} (hsign : sign ∈ [[], ['-']])
    (hwhole : IsWhole whole) (rest : List Char) :
    scanSign (sign ++ (whole ++ rest)) = (sign, whole ++ rest) := by
  have hdigits := isDigit_of_isWhole hwhole
  simp only [List.mem_cons, List.not_mem_nil, or_false] at hsign
  rcases hsign with rfl | rfl
  · rcases hwhole with rfl | ⟨first, others, rfl, -, -⟩
    · rfl
    · have hminus : first ≠ '-' := by
        rintro rfl
        exact absurd (hdigits '-' (List.mem_cons_self ..)) (by decide)
      rw [List.nil_append, List.cons_append, scanSign]
      exact fun _ heq => hminus (List.cons.inj heq).1
  · rfl

theorem scanWhole_append {whole rest : List Char} (hwhole : IsWhole whole)
    (hrest : ∀ c ∈ rest.head?, ¬ c.isDigit) :
    scanWhole (whole ++ rest) = .ok (whole, rest) := by
  rcases hwhole with rfl | ⟨first, others, rfl, hzero, hdigits⟩
  · rfl
  · obtain ⟨htake, hdrop⟩ := takeWhile_digits hdigits hrest
    rw [List.cons_append] at htake hdrop ⊢
    rw [scanWhole, htake, hdrop, if_neg (by simp)]
    exact fun _ heq => hzero (List.cons.inj heq).1

theorem IsFloatText.printable {text : List Char} (htext : IsFloatText text) : Printable text := by
  obtain ⟨sign, whole, fraction, exponent, rfl, hsign, hwhole, hfraction, hexponent, -⟩ :=
    htext.parts
  have hsigns : ∀ sign ∈ [[], ['-'], ['+']], Printable sign := by decide
  refine (((hsigns sign ?_).append (printable_digits (isDigit_of_isWhole hwhole))).append
    ?_).append ?_
  · exact List.mem_append_left [['+']] hsign
  · rcases hfraction with rfl | ⟨first, rest, rfl, hdigits⟩
    · simp [Printable]
    · exact Printable.append (show Printable ['.'] by decide) (printable_digits hdigits)
  · rcases hexponent with rfl | ⟨sign, first, rest, rfl, hsign, hdigits⟩
    · simp [Printable]
    · exact ((show Printable ['e'] by decide).append (hsigns sign hsign)).append
        (printable_digits hdigits)

/-- Where the number ends, there is no fraction and no exponent. -/
theorem scanFraction_of_head {rest : List Char} (hrest : ∀ c ∈ rest.head?, c ≠ '.') :
    scanFraction rest = ([], rest) := by
  cases rest with
  | nil => rfl
  | cons c rest =>
      rw [scanFraction]
      exact fun _ heq => hrest c rfl (List.cons.inj heq).1

theorem scanExponent_of_head {rest : List Char} (hrest : ∀ c ∈ rest.head?, c ∉ ['e', 'E']) :
    scanExponent rest = ([], rest) := by
  cases rest with
  | nil => rfl
  | cons c rest => exact if_pos (.inl (hrest c rfl))

theorem scanFraction_append {fraction rest : List Char} (hfraction : IsFraction fraction)
    (hrest : ∀ c ∈ rest.head?, ¬ c.isDigit ∧ c ≠ '.') :
    scanFraction (fraction ++ rest) = (fraction, rest) := by
  rcases hfraction with rfl | ⟨first, others, rfl, hdigits⟩
  · exact scanFraction_of_head fun c hc => (hrest c hc).2
  · obtain ⟨htake, hdrop⟩ := takeWhile_digits hdigits fun c hc => (hrest c hc).1
    rw [List.cons_append, scanFraction, htake, hdrop, if_neg (by simp)]

theorem scanExponent_append {exponent rest : List Char} (hexponent : IsExponent exponent)
    (hrest : ∀ c ∈ rest.head?, ¬ c.isDigit ∧ c ∉ ['e', 'E']) :
    scanExponent (exponent ++ rest) = (exponent, rest) := by
  rcases hexponent with rfl | ⟨sign, first, others, rfl, hsign, hdigits⟩
  · exact scanExponent_of_head fun c hc => (hrest c hc).2
  · obtain ⟨htake, hdrop⟩ := takeWhile_digits hdigits fun c hc => (hrest c hc).1
    have hscan : scanExponentSign (sign ++ (first :: others ++ rest)) =
        (sign, first :: others ++ rest) := by
      have hfirst := hdigits first (List.mem_cons_self ..)
      simp only [List.mem_cons, List.not_mem_nil, or_false] at hsign
      rcases hsign with rfl | rfl | rfl
      · rw [List.nil_append, List.cons_append, scanExponentSign]
        · rintro _ heq
          exact absurd ((List.cons.inj heq).1 ▸ hfirst) (by decide)
        · rintro _ heq
          exact absurd ((List.cons.inj heq).1 ▸ hfirst) (by decide)
      · rfl
      · rfl
    have hassoc : 'e' :: sign ++ first :: others ++ rest =
        'e' :: (sign ++ (first :: others ++ rest)) := by simp
    rw [hassoc, scanExponent, hscan]
    simp only [htake, hdrop]
    rw [if_neg (by simp)]

theorem not_isDigit_of_ends {rest : List Char} (hends : Ends rest) :
    ∀ c ∈ rest.head?, ¬ c.isDigit ∧ c ≠ '.' ∧ c ∉ ['e', 'E'] := by
  intro c hc
  have hmem := hends c hc
  simp only [List.mem_cons, List.not_mem_nil, or_false] at hmem
  rcases hmem with rfl | rfl | rfl <;> decide

/-- **A number is read back** as its text is made up. -/
theorem scanNumber_append (format : FloatFormat) {sign whole fraction exponent rest : List Char}
    (hsign : sign ∈ [[], ['-']]) (hwhole : IsWhole whole) (hfraction : IsFraction fraction)
    (hexponent : IsExponent exponent) (hends : Ends rest) :
    scanNumber format (sign ++ whole ++ fraction ++ exponent ++ rest) =
      if fraction ++ exponent ≠ [] then
        .ok (.float (format.float (sign ++ whole ++ fraction ++ exponent)), rest)
      else if maxStrDigits < whole.length then .error .tooManyDigits
      else .ok (.int (intOfDigits sign whole), rest) := by
  have hrest := not_isDigit_of_ends hends
  -- an exponent begins with its mark, a fraction with the point
  have hexponentHead : ∀ c ∈ (exponent ++ rest).head?, ¬ c.isDigit ∧ c ≠ '.' := by
    intro c hc
    rcases hexponent with rfl | ⟨_, _, _, rfl, -, -⟩
    · exact ⟨(hrest c hc).1, (hrest c hc).2.1⟩
    · obtain rfl : 'e' = c := Option.some_inj.mp hc
      decide
  have hfractionHead : ∀ c ∈ (fraction ++ (exponent ++ rest)).head?, ¬ c.isDigit := by
    intro c hc
    rcases hfraction with rfl | ⟨_, _, rfl, -⟩
    · exact (hexponentHead c hc).1
    · obtain rfl : '.' = c := Option.some_inj.mp hc
      decide
  have hexponentScan := scanExponent_append hexponent fun c hc =>
    ⟨(hrest c hc).1, (hrest c hc).2.2⟩
  simp only [List.append_assoc]
  unfold scanNumber
  rw [scanSign_append hsign hwhole]
  refine (congrArg (· >>= _) (scanWhole_append hwhole hfractionHead)).trans ?_
  simp only [bind, Except.bind, scanFraction_append hfraction hexponentHead, hexponentScan,
    List.append_assoc]
  split_ifs <;> rfl

end EveBuild.Json
