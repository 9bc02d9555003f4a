import EveBuild.Data.Json.Numbers

/-!
# JSON texts

Writing a value as Python's `json.dumps` does and reading it back as `json.loads` does.

`loads_dumps` is the round trip: what can be written is read back as it was.  What cannot be
written are dates and numbers of too many digits (`exists_dumps_iff`), and what is written is
printable ASCII (`printable_dumps`).
-/

namespace EveBuild.Json

open Numerals (maxStrDigits Short)

/-! ## Values -/

section Values

variable (format : FloatFormat)

-- The separators are `", "` and `": "`.
mutual

/-- `json.dumps`. -/
def dumps : Value → Except JsonError (List Char)
  | .null => .ok "null".toList
  | .bool true => .ok "true".toList
  | .bool false => .ok "false".toList
  | .number (.int value) =>
      if Short value then .ok value.repr.toList else .error .tooManyDigits
  | .number (.float bits) => .ok (format.text bits)
  | .string text => .ok (quote text.toList)
  | .date _ => .error .notSerializable
  | .array [] => .ok "[]".toList
  | .array (item :: items) => do
      return '[' :: (← dumps item) ++ (← dumpsItems items) ++ [']']
  | .object [] => .ok ['{', '}']
  | .object ((key, value) :: members) => do
      return '{' :: quote key.toList ++ ": ".toList ++ (← dumps value) ++
        (← dumpsMembers members) ++ ['}']

/-- The items after the first. -/
def dumpsItems : List Value → Except JsonError (List Char)
  | [] => .ok []
  | item :: items => do return ", ".toList ++ (← dumps item) ++ (← dumpsItems items)

/-- The members after the first. -/
def dumpsMembers : List (String × Value) → Except JsonError (List Char)
  | [] => .ok []
  | (key, value) :: members => do
      return ", ".toList ++ quote key.toList ++ ": ".toList ++ (← dumps value) ++
        (← dumpsMembers members)

end

/-- `WHITESPACE`. -/
def skipSpace (chars : List Char) : List Char :=
  chars.dropWhile fun c => c ∈ [' ', '\t', '\n', '\r']

/-- The words that stand for values. -/
def words : List (List Char × Value) :=
  [("null".toList, .null), ("true".toList, .bool true), ("false".toList, .bool false),
    ("NaN".toList, .number (.float nan)), ("Infinity".toList, .number (.float infinity)),
    ("-Infinity".toList, .number (.float negativeInfinity))]

/-- A word at the front. -/
def scanWord (chars : List Char) : Option (Scanned Value) :=
  words.findSome? fun word =>
    if word.1.isPrefixOf chars then some (word.2, chars.drop word.1.length) else none

mutual

/-- `_scan_once`.  `fuel` beyond twice the length of the text is never used up. -/
def scanOnce : ℕ → List Char → Except JsonError (Scanned Value)
  | 0, _ => .error .recursion
  | fuel + 1, chars =>
      match chars with
      | '"' :: rest => do
          let (text, rest) ← scanString (rest.length + 1) rest
          return (.string (.ofList text), rest)
      | '[' :: rest =>
          match skipSpace rest with
          | ']' :: rest => .ok (.array [], rest)
          | rest => do
              let (items, rest) ← scanItems fuel rest
              return (.array items, rest)
      | '{' :: rest =>
          match skipSpace rest with
          | '}' :: rest => .ok (.object [], rest)
          | rest => do
              let (members, rest) ← scanMembers fuel .empty rest
              return (members.toValue, rest)
      | chars =>
          match scanWord chars with
          | some scanned => .ok scanned
          | none => do
              let (number, rest) ← scanNumber format chars
              return (.number number, rest)

/-- The loop of `JSONArray`. -/
def scanItems : ℕ → List Char → Except JsonError (Scanned (List Value))
  | 0, _ => .error .recursion
  | fuel + 1, chars => do
      let (item, rest) ← scanOnce fuel chars
      match skipSpace rest with
      | ']' :: rest => return ([item], rest)
      | ',' :: rest =>
          let (items, rest) ← scanItems fuel (skipSpace rest)
          return (item :: items, rest)
      | _ => throw .decode

/-- The loop of `JSONObject`; of two members with one key the later is kept. -/
def scanMembers : ℕ → Document → List Char → Except JsonError (Scanned Document)
  | fuel + 1, members, '"' :: rest => do
      let (key, rest) ← scanString (rest.length + 1) rest
      match skipSpace rest with
      | ':' :: rest =>
          let (value, rest) ← scanOnce fuel (skipSpace rest)
          match skipSpace rest with
          | '}' :: rest => return (members.set (.ofList key) value, rest)
          | ',' :: rest => scanMembers fuel (members.set (.ofList key) value) (skipSpace rest)
          | _ => throw .decode
      | _ => throw .decode
  | 0, _, _ => .error .recursion
  | _ + 1, _, _ => .error .decode

end

/-- `json.loads`. -/
def loads (chars : List Char) : Except JsonError Value := do
  let (value, rest) ← scanOnce format (2 * chars.length + 1) (skipSpace chars)
  if skipSpace rest = [] then return value else throw .decode

end Values

-- No key occurs twice, and a float that is no number is the one that `float("nan")` is.
mutual

/-- The value is one that a program can hold: -/
def IsPython : Value → Prop
  | .number (.float bits) => bits = infinity ∨ bits = negativeInfinity ∨ bits = nan ∨ IsFinite bits
  | .array items => ArePython items
  | .object members => (members.map Prod.fst).Nodup ∧ MembersArePython members
  | _ => True

def ArePython : List Value → Prop
  | [] => True
  | item :: items => IsPython item ∧ ArePython items

def MembersArePython : List (String × Value) → Prop
  | [] => True
  | (_, value) :: members => IsPython value ∧ MembersArePython members

end

-- No dates, and no numbers of too many digits.
mutual

/-- The value can be written. -/
def IsWritable : Value → Prop
  | .number (.int value) => Short value
  | .date _ => False
  | .array items => AreWritable items
  | .object members => MembersAreWritable members
  | _ => True

def AreWritable : List Value → Prop
  | [] => True
  | item :: items => IsWritable item ∧ AreWritable items

def MembersAreWritable : List (String × Value) → Prop
  | [] => True
  | (_, value) :: members => IsWritable value ∧ MembersAreWritable members

end

theorem arePython_iff {items : List Value} : ArePython items ↔ ∀ item ∈ items, IsPython item := by
  induction items with
  | nil => simp [ArePython]
  | cons item items ih => simp [ArePython, ih]

theorem areWritable_iff {items : List Value} :
    AreWritable items ↔ ∀ item ∈ items, IsWritable item := by
  induction items with
  | nil => simp [AreWritable]
  | cons item items ih => simp [AreWritable, ih]

theorem membersArePython_iff {members : List (String × Value)} :
    MembersArePython members ↔ ∀ member ∈ members, IsPython member.2 := by
  induction members with
  | nil => simp [MembersArePython]
  | cons member members ih => simp [MembersArePython, ih]

theorem membersAreWritable_iff {members : List (String × Value)} :
    MembersAreWritable members ↔ ∀ member ∈ members, IsWritable member.2 := by
  induction members with
  | nil => simp [MembersAreWritable]
  | cons member members ih => simp [MembersAreWritable, ih]

/-- A value that `json.loads` can return, and that can be written again. -/
structure IsJson (value : Value) : Prop where
  python : IsPython value
  writable : IsWritable value

theorem isJson_null : IsJson .null := ⟨trivial, trivial⟩

theorem isJson_array {items : List Value} :
    IsJson (.array items) ↔ ∀ item ∈ items, IsJson item := by
  constructor
  · rintro ⟨hpython, hwritable⟩ item hitem
    exact ⟨arePython_iff.mp hpython item hitem, areWritable_iff.mp hwritable item hitem⟩
  · intro hitems
    exact ⟨arePython_iff.mpr fun item hitem => (hitems item hitem).python,
      areWritable_iff.mpr fun item hitem => (hitems item hitem).writable⟩

theorem isJson_toValue {document : Document} :
    IsJson document.toValue ↔ ∀ member ∈ document.entries, IsJson member.2 := by
  constructor
  · rintro ⟨⟨-, hpython⟩, hwritable⟩ member hmember
    exact ⟨membersArePython_iff.mp hpython member hmember,
      membersAreWritable_iff.mp hwritable member hmember⟩
  · intro hmembers
    exact ⟨⟨document.nodup_keys, membersArePython_iff.mpr fun member hmember =>
      (hmembers member hmember).python⟩,
      membersAreWritable_iff.mpr fun member hmember => (hmembers member hmember).writable⟩

/-! ## What is written -/

section Written

variable {format : FloatFormat}

mutual

/-- **What can be written**, and what cannot. -/
theorem exists_dumps_iff : ∀ value : Value,
    (∃ text, dumps format value = .ok text) ↔ IsWritable value
  | .null | .bool true | .bool false | .string _ | .number (.float _) | .array [] | .object [] => by
      simp [dumps, IsWritable, AreWritable, MembersAreWritable]
  | .date _ => by simp [dumps, IsWritable]
  | .number (.int value) => by
      rw [dumps, IsWritable]
      split <;> simp [*]
  | .array (item :: items) => by
      rw [dumps, IsWritable, AreWritable, ← exists_dumps_iff item, ← exists_dumpsItems_iff items]
      simp only [bind_eq_ok]
      exact ⟨fun ⟨_, text, hitem, others, hitems, _⟩ => ⟨⟨text, hitem⟩, others, hitems⟩,
        fun ⟨⟨text, hitem⟩, others, hitems⟩ => ⟨_, text, hitem, others, hitems, rfl⟩⟩
  | .object ((key, value) :: members) => by
      rw [dumps, IsWritable, MembersAreWritable, ← exists_dumps_iff value,
        ← exists_dumpsMembers_iff members]
      simp only [bind_eq_ok]
      exact ⟨fun ⟨_, text, hvalue, others, hmembers, _⟩ => ⟨⟨text, hvalue⟩, others, hmembers⟩,
        fun ⟨⟨text, hvalue⟩, others, hmembers⟩ => ⟨_, text, hvalue, others, hmembers, rfl⟩⟩

theorem exists_dumpsItems_iff : ∀ items : List Value,
    (∃ text, dumpsItems format items = .ok text) ↔ AreWritable items
  | [] => by simp [dumpsItems, AreWritable]
  | item :: items => by
      rw [dumpsItems, AreWritable, ← exists_dumps_iff item, ← exists_dumpsItems_iff items]
      simp only [bind_eq_ok]
      exact ⟨fun ⟨_, text, hitem, others, hitems, _⟩ => ⟨⟨text, hitem⟩, others, hitems⟩,
        fun ⟨⟨text, hitem⟩, others, hitems⟩ => ⟨_, text, hitem, others, hitems, rfl⟩⟩

theorem exists_dumpsMembers_iff : ∀ members : List (String × Value),
    (∃ text, dumpsMembers format members = .ok text) ↔ MembersAreWritable members
  | [] => by simp [dumpsMembers, MembersAreWritable]
  | (key, value) :: members => by
      rw [dumpsMembers, MembersAreWritable, ← exists_dumps_iff value,
        ← exists_dumpsMembers_iff members]
      simp only [bind_eq_ok]
      exact ⟨fun ⟨_, text, hvalue, others, hmembers, _⟩ => ⟨⟨text, hvalue⟩, others, hmembers⟩,
        fun ⟨⟨text, hvalue⟩, others, hmembers⟩ => ⟨_, text, hvalue, others, hmembers, rfl⟩⟩

end

theorem printable_text (hformat : format.Faithful) (bits : UInt64) :
    Printable (format.text bits) := by
  rw [FloatFormat.text]
  split_ifs with hinfinity hnegative hfinite
  · decide
  · decide
  · exact (hformat.isFloatText bits hfinite).printable
  · decide

theorem printable_repr (value : ℤ) : Printable value.repr.toList := by
  intro c hc
  rcases Numerals.mem_toList_repr hc with rfl | hdigit
  · decide
  · exact @printable_digits [c] (by simpa using hdigit) c (List.mem_singleton_self c)

-- The texts are put together of printable ones.
mutual

/-- **Every text is printable ASCII.** -/
theorem printable_dumps (hformat : format.Faithful) : ∀ (value : Value) {text : List Char},
    dumps format value = .ok text → Printable text
  | .null | .bool true | .bool false | .array [] | .object [] => by
      intro hdumps
      cases hdumps
      decide
  | .date _ => by
      intro hdumps
      cases hdumps
  | .number (.int value) => by
      intro hdumps
      rw [dumps] at hdumps
      split at hdumps <;> cases hdumps
      exact printable_repr value
  | .number (.float bits) => by
      intro hdumps
      cases hdumps
      exact printable_text hformat bits
  | .string value => by
      intro hdumps
      cases hdumps
      exact printable_quote _
  | .array (item :: items) => by
      intro hdumps
      obtain ⟨itemText, hitem, hrest⟩ := bind_eq_ok.mp hdumps
      obtain ⟨itemsText, hitems, hpure⟩ := bind_eq_ok.mp hrest
      cases hpure
      exact (((show Printable ['['] by decide).append
        (printable_dumps hformat item hitem)).append
          (printable_dumpsItems hformat items hitems)).append (by decide)
  | .object ((key, value) :: members) => by
      intro hdumps
      obtain ⟨valueText, hvalue, hrest⟩ := bind_eq_ok.mp hdumps
      obtain ⟨membersText, hmembers, hpure⟩ := bind_eq_ok.mp hrest
      cases hpure
      exact (((((show Printable ['{'] by decide).append (printable_quote _)).append
        (by decide)).append (printable_dumps hformat value hvalue)).append
          (printable_dumpsMembers hformat members hmembers)).append (by decide)

theorem printable_dumpsItems (hformat : format.Faithful) : ∀ (items : List Value)
    {text : List Char}, dumpsItems format items = .ok text → Printable text
  | [] => by
      intro hdumps
      cases hdumps
      decide
  | item :: items => by
      intro hdumps
      obtain ⟨itemText, hitem, hrest⟩ := bind_eq_ok.mp hdumps
      obtain ⟨itemsText, hitems, hpure⟩ := bind_eq_ok.mp hrest
      cases hpure
      exact (Printable.append (by decide) (printable_dumps hformat item hitem)).append
        (printable_dumpsItems hformat items hitems)

theorem printable_dumpsMembers (hformat : format.Faithful) :
    ∀ (members : List (String × Value)) {text : List Char},
    dumpsMembers format members = .ok text → Printable text
  | [] => by
      intro hdumps
      cases hdumps
      decide
  | (key, value) :: members => by
      intro hdumps
      obtain ⟨valueText, hvalue, hrest⟩ := bind_eq_ok.mp hdumps
      obtain ⟨membersText, hmembers, hpure⟩ := bind_eq_ok.mp hrest
      cases hpure
      exact (((Printable.append (by decide) (printable_quote _)).append (by decide)).append
        (printable_dumps hformat value hvalue)).append
          (printable_dumpsMembers hformat members hmembers)

end

end Written

/-! ## Round trip -/

section RoundTrip

variable {format : FloatFormat}

theorem skipSpace_cons {c : Char} (hc : c ∉ [' ', '\t', '\n', '\r']) (rest : List Char) :
    skipSpace (c :: rest) = c :: rest := by
  rw [skipSpace, List.dropWhile_cons, if_neg (by simpa using hc)]

/-- A number begins with its sign or a digit. -/
theorem head_number {sign whole : List Char} (hsign : sign ∈ [[], ['-']])
    (hwhole : IsWhole whole) (rest : List Char) :
    (∃ c tail, sign ++ whole ++ rest = c :: tail ∧ c.isDigit) ∨
      ∃ c tail, sign ++ whole ++ rest = '-' :: c :: tail ∧ c.isDigit := by
  obtain ⟨c, tail, rfl⟩ : ∃ c tail, whole = c :: tail := by
    rcases hwhole with rfl | ⟨first, others, rfl, -, -⟩
    exacts [⟨_, _, rfl⟩, ⟨_, _, rfl⟩]
  have hdigit := isDigit_of_isWhole hwhole c (List.mem_cons_self ..)
  simp only [List.mem_cons, List.not_mem_nil, or_false] at hsign
  rcases hsign with rfl | rfl
  · exact .inl ⟨c, tail ++ rest, rfl, hdigit⟩
  · exact .inr ⟨c, tail ++ rest, rfl, hdigit⟩

/-- What is no string, array or object is a word or a number. -/
theorem scanOnce_scalar {c : Char} (hc : c ∉ ['"', '[', '{']) (fuel : ℕ) (rest : List Char) :
    scanOnce format (fuel + 1) (c :: rest) =
      match scanWord (c :: rest) with
      | some scanned => .ok scanned
      | none => do
          let (number, rest) ← scanNumber format (c :: rest)
          return (.number number, rest) := by
  simp only [List.mem_cons, List.not_mem_nil, or_false, not_or] at hc
  unfold scanOnce
  split
  · rename_i heq
    exact absurd (List.cons.inj heq).1 hc.1
  · rename_i heq
    exact absurd (List.cons.inj heq).1 hc.2.1
  · rename_i heq
    exact absurd (List.cons.inj heq).1 hc.2.2
  · rfl

/-- No word begins with a digit, or with a sign and a digit. -/
theorem scanWord_number {sign whole : List Char} (hsign : sign ∈ [[], ['-']])
    (hwhole : IsWhole whole) (rest : List Char) : scanWord (sign ++ whole ++ rest) = none := by
  have hletters : ∀ c : Char, c.isDigit → 'n' ≠ c ∧ 't' ≠ c ∧ 'f' ≠ c ∧ 'N' ≠ c ∧ 'I' ≠ c ∧
      '-' ≠ c := by
    intro c hc
    refine ⟨?_, ?_, ?_, ?_, ?_, ?_⟩ <;> rintro rfl <;> exact absurd hc (by decide)
  rcases head_number hsign hwhole rest with ⟨c, tail, heq, hdigit⟩ | ⟨c, tail, heq, hdigit⟩
  · have hne := hletters c hdigit
    rw [heq]
    simp [scanWord, words, hne]
  · have hne := hletters c hdigit
    rw [heq]
    simp [scanWord, words, hne]

/-- **A number in a text** is read back as it is made up. -/
theorem scanOnce_number {sign whole fraction exponent rest : List Char}
    (hsign : sign ∈ [[], ['-']]) (hwhole : IsWhole whole) (hfraction : IsFraction fraction)
    (hexponent : IsExponent exponent) (hends : Ends rest) (fuel : ℕ) :
    scanOnce format (fuel + 1) (sign ++ whole ++ fraction ++ exponent ++ rest) =
      if fraction ++ exponent ≠ [] then
        .ok (.number (.float (format.float (sign ++ whole ++ fraction ++ exponent))), rest)
      else if maxStrDigits < whole.length then .error .tooManyDigits
      else .ok (.number (.int (intOfDigits sign whole)), rest) := by
  have hword := scanWord_number hsign hwhole (fraction ++ exponent ++ rest)
  have hnumber := scanNumber_append format hsign hwhole hfraction hexponent hends
  have hhead := head_number hsign hwhole (fraction ++ exponent ++ rest)
  simp only [← List.append_assoc] at hword hnumber hhead ⊢
  obtain ⟨c, tail, heq, hc⟩ : ∃ c tail,
      sign ++ whole ++ fraction ++ exponent ++ rest = c :: tail ∧ c ∉ ['"', '[', '{'] := by
    rcases hhead with ⟨c, tail, heq, hdigit⟩ | ⟨c, tail, heq, -⟩
    · refine ⟨c, tail, heq, fun hmem => ?_⟩
      simp only [List.mem_cons, List.not_mem_nil, or_false] at hmem
      rcases hmem with rfl | rfl | rfl <;> exact absurd hdigit (by decide)
    · exact ⟨'-', c :: tail, heq, by decide⟩
  rw [heq] at hword hnumber ⊢
  rw [scanOnce_scalar hc, hword, hnumber]
  split_ifs <;> rfl

theorem toDigits_cons_of_pos {n : ℕ} (hn : 0 < n) :
    ∃ first rest, Nat.toDigits 10 n = first :: rest ∧ first ≠ '0' := by
  induction n using Nat.strong_induction_on with
  | _ n ih =>
      rcases Nat.lt_or_ge n 10 with hlt | hge
      · have hdigits : ∀ digit < 10, 0 < digit → Nat.digitChar digit ≠ '0' := by decide
        exact ⟨_, [], Nat.toDigits_of_lt_base hlt, hdigits n hlt hn⟩
      · obtain ⟨first, rest, heq, hfirst⟩ := ih (n / 10) (by omega) (by omega)
        refine ⟨first, rest ++ [Nat.digitChar (n % 10)], ?_, hfirst⟩
        rw [Nat.toDigits_of_base_le (by decide) hge, heq, List.cons_append]

theorem isWhole_toDigits (n : ℕ) : IsWhole (Nat.toDigits 10 n) := by
  rcases Nat.eq_zero_or_pos n with rfl | hpos
  · exact .inl rfl
  · obtain ⟨first, rest, heq, hfirst⟩ := toDigits_cons_of_pos hpos
    exact .inr ⟨first, rest, heq, hfirst, fun c hc =>
      Nat.isDigit_of_mem_toDigits (by decide) (by decide) hc⟩

/-- The text of an integer is a sign and digits. -/
theorem toList_repr_parts (value : ℤ) : ∃ sign, sign ∈ [[], ['-']] ∧
    value.repr.toList = sign ++ Nat.toDigits 10 value.natAbs ∧
    intOfDigits sign (Nat.toDigits 10 value.natAbs) = value := by
  rcases lt_or_ge value 0 with hneg | hpos
  · refine ⟨['-'], by decide, Numerals.toList_repr_of_neg hneg, ?_⟩
    rw [intOfDigits, if_neg (by decide), Nat.ofDigitChars_ten_toDigits]
    omega
  · lift value to ℕ using hpos
    refine ⟨[], by decide, Numerals.toList_repr_natCast value, ?_⟩
    rw [intOfDigits, if_pos rfl, Int.natAbs_natCast, Nat.ofDigitChars_ten_toDigits]

theorem scanOnce_int {value : ℤ} (hshort : Short value) {rest : List Char} (hends : Ends rest)
    (fuel : ℕ) :
    scanOnce format (fuel + 1) (value.repr.toList ++ rest) = .ok (.int value, rest) := by
  obtain ⟨sign, hsign, htext, hvalue⟩ := toList_repr_parts value
  have hlength : ¬ maxStrDigits < (Nat.toDigits 10 value.natAbs).length :=
    not_lt.mpr ((Nat.length_toDigits_le_iff (by decide) (by decide)).mpr hshort)
  have hscan := @scanOnce_number format _ _ _ _ _ hsign (isWhole_toDigits value.natAbs)
    (.inl rfl) (.inl rfl) hends fuel
  rw [htext]
  simpa [hlength, hvalue] using hscan

theorem scanOnce_floatText (hformat : format.Faithful) {bits : UInt64}
    (hbits : bits = infinity ∨ bits = negativeInfinity ∨ bits = nan ∨ IsFinite bits)
    {rest : List Char} (hends : Ends rest) (fuel : ℕ) :
    scanOnce format (fuel + 1) (format.text bits ++ rest) = .ok (.number (.float bits), rest) := by
  by_cases hfinite : IsFinite bits
  · have hne : bits ≠ infinity ∧ bits ≠ negativeInfinity := by
      constructor <;> rintro rfl <;> exact absurd hfinite (by decide)
    obtain ⟨sign, whole, fraction, exponent, htext, hsign, hwhole, hfraction, hexponent, hparts⟩ :=
      (hformat.isFloatText bits hfinite).parts
    rw [FloatFormat.text, if_neg hne.1, if_neg hne.2, if_pos hfinite, htext,
      scanOnce_number hsign hwhole hfraction hexponent hends, if_pos hparts, ← htext,
      hformat.float_repr bits hfinite]
  · rcases hbits with rfl | rfl | rfl | hbits
    · rfl
    · rfl
    · rfl
    · exact absurd hbits hfinite

/-- The text begins with a value: with no space, and with nothing that closes a list. -/
def Begins (text : List Char) : Prop :=
  ∃ c tail, text = c :: tail ∧ c ∉ [' ', '\t', '\n', '\r', ']', '}']

theorem begins_number {sign whole : List Char} (hsign : sign ∈ [[], ['-']])
    (hwhole : IsWhole whole) (rest : List Char) : Begins (sign ++ whole ++ rest) := by
  rcases head_number hsign hwhole rest with ⟨c, tail, heq, hdigit⟩ | ⟨c, tail, heq, -⟩
  · refine ⟨c, tail, heq, fun hmem => ?_⟩
    simp only [List.mem_cons, List.not_mem_nil, or_false] at hmem
    rcases hmem with rfl | rfl | rfl | rfl | rfl | rfl <;> exact absurd hdigit (by decide)
  · exact ⟨'-', c :: tail, heq, by decide⟩

theorem begins_dumps (hformat : format.Faithful) {value : Value} {text : List Char}
    (hdumps : dumps format value = .ok text) : Begins text := by
  cases value with
  | null =>
      cases hdumps
      exact ⟨'n', _, rfl, by decide⟩
  | bool value =>
      cases value <;> cases hdumps
      · exact ⟨'f', _, rfl, by decide⟩
      · exact ⟨'t', _, rfl, by decide⟩
  | number value =>
      cases value with
      | int value =>
          rw [dumps] at hdumps
          split at hdumps
          · cases hdumps
            obtain ⟨sign, hsign, htext, -⟩ := toList_repr_parts value
            rw [htext]
            simpa using begins_number hsign (isWhole_toDigits value.natAbs) []
          · cases hdumps
      | float bits =>
          rw [dumps, FloatFormat.text] at hdumps
          split_ifs at hdumps with hinfinity hnegative hfinite <;> cases hdumps
          · exact ⟨'I', _, rfl, by decide⟩
          · exact ⟨'-', _, rfl, by decide⟩
          · obtain ⟨sign, whole, fraction, exponent, htext, hsign, hwhole, -⟩ :=
              (hformat.isFloatText bits hfinite).parts
            rw [htext, List.append_assoc]
            exact begins_number hsign hwhole _
          · exact ⟨'N', _, rfl, by decide⟩
  | string value =>
      cases hdumps
      exact ⟨'"', _, rfl, by decide⟩
  | date value => cases hdumps
  | array items =>
      cases items with
      | nil =>
          cases hdumps
          exact ⟨'[', _, rfl, by decide⟩
      | cons item items =>
          obtain ⟨first, -, hrest⟩ := bind_eq_ok.mp hdumps
          obtain ⟨others, -, hpure⟩ := bind_eq_ok.mp hrest
          cases hpure
          exact ⟨'[', _, rfl, by decide⟩
  | object members =>
      cases members with
      | nil =>
          cases hdumps
          exact ⟨'{', _, rfl, by decide⟩
      | cons member members =>
          obtain ⟨first, -, hrest⟩ := bind_eq_ok.mp hdumps
          obtain ⟨others, -, hpure⟩ := bind_eq_ok.mp hrest
          cases hpure
          exact ⟨'{', _, rfl, by decide⟩

theorem skipSpace_of_begins {text : List Char} (hbegins : Begins text) (rest : List Char) :
    skipSpace (text ++ rest) = text ++ rest := by
  obtain ⟨c, tail, rfl, hc⟩ := hbegins
  refine skipSpace_cons (fun hmem => hc ?_) _
  simp only [List.mem_cons, List.not_mem_nil, or_false] at hmem ⊢
  tauto

/-- The text goes on with another item, or the list ends. -/
theorem ends_cons {c : Char} (hc : c ∈ [',', ']', '}']) (rest : List Char) : Ends (c :: rest) := by
  intro first hfirst
  obtain rfl : c = first := Option.some_inj.mp hfirst
  exact hc

/-- **An item of an array**, and what follows it. -/
theorem scanItems_item {fuel : ℕ} {item : Value} {text rest : List Char}
    (hitem : scanOnce format fuel (text ++ rest) = .ok (item, rest)) :
    scanItems format (fuel + 1) (text ++ rest) =
      match skipSpace rest with
      | ']' :: rest => .ok ([item], rest)
      | ',' :: rest => do
          let (items, rest) ← scanItems format fuel (skipSpace rest)
          return (item :: items, rest)
      | _ => .error .decode := by
  rw [scanItems, hitem]
  rfl

/-- **A member of an object**, and what follows it. -/
theorem scanMembers_member {fuel : ℕ} {members : Document} {key : String} {value : Value}
    {text rest : List Char} (hbegins : Begins text)
    (hvalue : scanOnce format fuel (text ++ rest) = .ok (value, rest)) :
    scanMembers format (fuel + 1) members (quote key.toList ++ ": ".toList ++ text ++ rest) =
      match skipSpace rest with
      | '}' :: rest => .ok (members.set key value, rest)
      | ',' :: rest => scanMembers format fuel (members.set key value) (skipSpace rest)
      | _ => .error .decode := by
  have hlength := length_le_flatMap_escapeChar key.toList
  have hkey := @scanString_quote key.toList (": ".toList ++ text ++ rest)
    ((key.toList.flatMap escapeChar ++ '"' :: (": ".toList ++ text ++ rest)).length + 1)
    (by rw [List.length_append]; omega)
  have hshape : quote key.toList ++ ": ".toList ++ text ++ rest =
      '"' :: (key.toList.flatMap escapeChar ++ '"' :: (": ".toList ++ text ++ rest)) := by
    simp [quote]
  have hcolon : skipSpace (": ".toList ++ text ++ rest) = ':' :: ' ' :: (text ++ rest) :=
    skipSpace_cons (by decide) _
  have hspace : skipSpace (' ' :: (text ++ rest)) = text ++ rest :=
    skipSpace_of_begins hbegins rest
  rw [hshape, scanMembers, hkey]
  simp only [bind, Except.bind, hcolon, hspace, hvalue, String.ofList_toList]
  rfl

/-- The text of a value is read back, whatever follows it. -/
def ReadsBack (format : FloatFormat) (value : Value) (text : List Char) : Prop :=
  ∀ {fuel : ℕ} {rest : List Char}, 2 * text.length ≤ fuel → Ends rest →
    scanOnce format fuel (text ++ rest) = .ok (value, rest)

/-- The text of an item and of those after it is read back. -/
def ItemsReadBack (format : FloatFormat) (item : Value) (itemText : List Char)
    (items : List Value) (text : List Char) : Prop :=
  ∀ {fuel : ℕ} (rest : List Char), 2 * (itemText.length + text.length) + 1 ≤ fuel →
    scanItems format fuel (itemText ++ (text ++ ']' :: rest)) = .ok (item :: items, rest)

/-- The text of a member and of those after it is read back into a dictionary. -/
def MembersReadBack (format : FloatFormat) (key : String) (value : Value)
    (valueText : List Char) (members : List (String × Value)) (text : List Char) : Prop :=
  ∀ {fuel : ℕ} (before : Document) (rest : List Char),
    2 * (valueText.length + text.length) + 1 ≤ fuel →
    scanMembers format fuel before
        (quote key.toList ++ ": ".toList ++ valueText ++ (text ++ '}' :: rest)) =
      .ok (members.foldl (fun document member => document.set member.1 member.2)
        (before.set key value), rest)

theorem readsBack_of_scan {value : Value} {text : List Char} (hne : text ≠ [])
    (hscan : ∀ fuel rest, Ends rest →
      scanOnce format (fuel + 1) (text ++ rest) = .ok (value, rest)) :
    ReadsBack format value text := by
  intro fuel rest hfuel hends
  have hlength := List.length_pos_of_ne_nil hne
  obtain ⟨fuel, rfl⟩ : ∃ less, fuel = less + 1 := ⟨fuel - 1, by omega⟩
  exact hscan fuel rest hends

theorem readsBack_int {value : ℤ} {text : List Char}
    (hdumps : dumps format (.int value) = .ok text) : ReadsBack format (.int value) text := by
  rw [dumps] at hdumps
  split at hdumps
  · rename_i hshort
    obtain ⟨sign, -, htext, -⟩ := toList_repr_parts value
    cases hdumps
    refine readsBack_of_scan ?_ fun fuel rest hends => scanOnce_int hshort hends fuel
    simp [htext, Nat.toDigits_ne_nil]
  · cases hdumps

theorem readsBack_string (value : String) :
    ReadsBack format (.string value) (quote value.toList) := by
  intro fuel rest hfuel _
  obtain ⟨fuel, rfl⟩ : ∃ less, fuel = less + 1 := ⟨fuel - 1, by simp [quote] at hfuel; omega⟩
  have hlength := length_le_flatMap_escapeChar value.toList
  have hstring := @scanString_quote value.toList rest
    ((value.toList.flatMap escapeChar ++ '"' :: rest).length + 1)
    (by rw [List.length_append]; omega)
  have hshape : quote value.toList ++ rest =
      '"' :: (value.toList.flatMap escapeChar ++ '"' :: rest) := by simp [quote]
  rw [hshape, scanOnce, hstring]
  simp only [bind, Except.bind, String.ofList_toList]
  rfl

/-- What begins with a value ends no list. -/
theorem ne_close_of_begins {text rest : List Char} (hbegins : Begins text) {c : Char}
    {tail : List Char} (heq : text ++ rest = c :: tail) : c ≠ ']' ∧ c ≠ '}' := by
  obtain ⟨first, others, rfl, hfirst⟩ := hbegins
  obtain rfl : first = c := (List.cons.inj heq).1
  constructor <;> rintro rfl <;> exact hfirst (by decide)

theorem scanOnce_array {text : List Char} (hbegins : Begins text) (fuel : ℕ) (rest : List Char) :
    scanOnce format (fuel + 1) ('[' :: (text ++ rest)) = do
      let (items, rest) ← scanItems format fuel (text ++ rest)
      return (.array items, rest) := by
  rw [scanOnce, skipSpace_of_begins hbegins]
  split
  · rename_i heq
    exact absurd rfl (ne_close_of_begins hbegins heq).1
  · rfl

theorem scanOnce_object {text : List Char} (hbegins : Begins text) (fuel : ℕ) (rest : List Char) :
    scanOnce format (fuel + 1) ('{' :: (text ++ rest)) = do
      let (members, rest) ← scanMembers format fuel .empty (text ++ rest)
      return (members.toValue, rest) := by
  rw [scanOnce, skipSpace_of_begins hbegins]
  split
  · rename_i heq
    exact absurd rfl (ne_close_of_begins hbegins heq).2
  · rfl

theorem begins_quote (text : List Char) : Begins (quote text) := ⟨'"', _, rfl, by decide⟩

theorem readsBack_array {item : Value} {itemText : List Char} {items : List Value}
    {text : List Char} (hbegins : Begins itemText)
    (hitems : ItemsReadBack format item itemText items text) :
    ReadsBack format (.array (item :: items)) ('[' :: itemText ++ text ++ [']']) := by
  intro fuel rest hfuel _
  obtain ⟨fuel, rfl⟩ : ∃ less, fuel = less + 1 := ⟨fuel - 1, by simp at hfuel; omega⟩
  have hscan := @hitems fuel rest (by simp at hfuel; omega)
  have hshape : '[' :: itemText ++ text ++ [']'] ++ rest =
      '[' :: (itemText ++ (text ++ ']' :: rest)) := by simp
  rw [hshape, scanOnce_array hbegins, hscan]
  rfl

theorem readsBack_object {key : String} {value : Value} {valueText : List Char}
    {members : List (String × Value)} {text : List Char}
    (hnodup : (((key, value) :: members).map Prod.fst).Nodup)
    (hmembers : MembersReadBack format key value valueText members text) :
    ReadsBack format (.object ((key, value) :: members))
      ('{' :: quote key.toList ++ ": ".toList ++ valueText ++ text ++ ['}']) := by
  intro fuel rest hfuel _
  obtain ⟨fuel, rfl⟩ : ∃ less, fuel = less + 1 := ⟨fuel - 1, by simp at hfuel; omega⟩
  have hscan := @hmembers fuel .empty rest (by simp at hfuel; omega)
  have hshape : '{' :: quote key.toList ++ ": ".toList ++ valueText ++ text ++ ['}'] ++ rest =
      '{' :: (quote key.toList ++ (": ".toList ++ (valueText ++ (text ++ '}' :: rest)))) := by simp
  -- the members are set one after the other, and none of their keys is there before
  have hentries : (members.foldl (fun document member => document.set member.1 member.2)
      (Dict.empty.set key value)).entries = (key, value) :: members :=
    @Dict.entries_foldl_set _ _ _ .empty ((key, value) :: members) hnodup (by simp)
  simp only [List.append_assoc] at hscan
  rw [hshape, scanOnce_object (begins_quote _), hscan]
  exact congrArg (fun members => Except.ok (Value.object members, rest)) hentries

/-- The items that follow an item. -/
theorem itemsReadBack_nil {item : Value} {itemText : List Char}
    (hitem : ReadsBack format item itemText) : ItemsReadBack format item itemText [] [] := by
  intro fuel rest hfuel
  obtain ⟨fuel, rfl⟩ : ∃ less, fuel = less + 1 := ⟨fuel - 1, by omega⟩
  exact scanItems_item (hitem (by omega) (ends_cons (by decide) rest))

theorem itemsReadBack_cons {item next : Value} {itemText nextText : List Char}
    {items : List Value} {text : List Char} (hitem : ReadsBack format item itemText)
    (hbegins : Begins nextText) (hitems : ItemsReadBack format next nextText items text) :
    ItemsReadBack format item itemText (next :: items) (", ".toList ++ nextText ++ text) := by
  intro fuel rest hfuel
  obtain ⟨fuel, rfl⟩ : ∃ less, fuel = less + 1 := ⟨fuel - 1, by omega⟩
  have hscan := @hitems fuel rest (by simp at hfuel; omega)
  have hspace : skipSpace (' ' :: (nextText ++ (text ++ ']' :: rest))) =
      nextText ++ (text ++ ']' :: rest) := skipSpace_of_begins hbegins _
  have hshape : ", ".toList ++ nextText ++ text ++ ']' :: rest =
      ',' :: ' ' :: (nextText ++ (text ++ ']' :: rest)) := by simp
  rw [hshape]
  refine (scanItems_item (hitem (by omega) (ends_cons (by decide) _))).trans ?_
  show (do
    let (items, rest) ← scanItems format fuel (skipSpace (' ' :: (nextText ++ (text ++ ']' :: rest))))
    return (item :: items, rest)) = _
  rw [hspace, hscan]
  rfl

theorem membersReadBack_nil {key : String} {value : Value} {valueText : List Char}
    (hbegins : Begins valueText) (hvalue : ReadsBack format value valueText) :
    MembersReadBack format key value valueText [] [] := by
  intro fuel before rest hfuel
  obtain ⟨fuel, rfl⟩ : ∃ less, fuel = less + 1 := ⟨fuel - 1, by omega⟩
  exact scanMembers_member hbegins (hvalue (by omega) (ends_cons (by decide) rest))

theorem membersReadBack_cons {key nextKey : String} {value next : Value}
    {valueText nextText : List Char} {members : List (String × Value)} {text : List Char}
    (hbegins : Begins valueText) (hvalue : ReadsBack format value valueText)
    (hmembers : MembersReadBack format nextKey next nextText members text) :
    MembersReadBack format key value valueText ((nextKey, next) :: members)
      (", ".toList ++ quote nextKey.toList ++ ": ".toList ++ nextText ++ text) := by
  intro fuel before rest hfuel
  obtain ⟨fuel, rfl⟩ : ∃ less, fuel = less + 1 := ⟨fuel - 1, by omega⟩
  have hscan := @hmembers fuel (before.set key value) rest (by simp at hfuel; omega)
  have hspace : skipSpace (' ' :: (quote nextKey.toList ++
      (": ".toList ++ (nextText ++ (text ++ '}' :: rest))))) =
      quote nextKey.toList ++ (": ".toList ++ (nextText ++ (text ++ '}' :: rest))) :=
    skipSpace_of_begins (begins_quote _) _
  have hshape : ", ".toList ++ quote nextKey.toList ++ ": ".toList ++ nextText ++ text ++
      '}' :: rest = ',' :: ' ' :: (quote nextKey.toList ++
        (": ".toList ++ (nextText ++ (text ++ '}' :: rest)))) := by simp
  rw [hshape]
  refine (scanMembers_member hbegins (hvalue (by omega) (ends_cons (by decide) _))).trans ?_
  show scanMembers format fuel (before.set key value) (skipSpace (' ' :: _)) = _
  simp only [List.append_assoc] at hscan
  rw [hspace, hscan]
  rfl

-- The items and the members are those after the first one.
mutual

/-- **Whatever is written** is read back. -/
theorem readsBack_dumps (hformat : format.Faithful) : ∀ value : Value, IsPython value →
    ∀ {text : List Char}, dumps format value = .ok text → ReadsBack format value text
  | .null, _ => by
      intro hdumps
      cases hdumps
      exact readsBack_of_scan (by decide) fun fuel rest _ => rfl
  | .bool true, _ => by
      intro hdumps
      cases hdumps
      exact readsBack_of_scan (by decide) fun fuel rest _ => rfl
  | .bool false, _ => by
      intro hdumps
      cases hdumps
      exact readsBack_of_scan (by decide) fun fuel rest _ => rfl
  | .number (.int value), _ => readsBack_int
  | .number (.float bits), hpython => by
      intro hdumps
      obtain ⟨c, tail, htext, -⟩ := begins_dumps hformat hdumps
      cases hdumps
      exact readsBack_of_scan (by simp [htext]) fun fuel rest hends =>
        scanOnce_floatText hformat hpython hends fuel
  | .string value, _ => by
      intro hdumps
      cases hdumps
      exact readsBack_string value
  | .date _, _ => by
      intro hdumps
      cases hdumps
  | .array [], _ => by
      intro hdumps
      cases hdumps
      exact readsBack_of_scan (by decide) fun fuel rest _ => rfl
  | .array (item :: items), hpython => by
      intro hdumps
      obtain ⟨itemText, hitem, hrest⟩ := bind_eq_ok.mp hdumps
      obtain ⟨text, hitems, hpure⟩ := bind_eq_ok.mp hrest
      cases hpure
      exact readsBack_array (begins_dumps hformat hitem)
        (itemsReadBack_dumps hformat items hpython.2
          (readsBack_dumps hformat item hpython.1 hitem) hitems)
  | .object [], _ => by
      intro hdumps
      cases hdumps
      exact readsBack_of_scan (by decide) fun fuel rest _ => rfl
  | .object ((key, value) :: members), hpython => by
      intro hdumps
      obtain ⟨valueText, hvalue, hrest⟩ := bind_eq_ok.mp hdumps
      obtain ⟨text, hmembers, hpure⟩ := bind_eq_ok.mp hrest
      cases hpure
      exact readsBack_object hpython.1 (membersReadBack_dumps hformat members
        hpython.2.2 (begins_dumps hformat hvalue)
        (readsBack_dumps hformat value hpython.2.1 hvalue) hmembers)

theorem itemsReadBack_dumps (hformat : format.Faithful) : ∀ items : List Value, ArePython items →
    ∀ {item : Value} {itemText text : List Char}, ReadsBack format item itemText →
    dumpsItems format items = .ok text → ItemsReadBack format item itemText items text
  | [], _ => by
      intro hitem hdumps
      cases hdumps
      exact itemsReadBack_nil hitem
  | next :: items, hpython => by
      intro hitem hdumps
      obtain ⟨nextText, hnext, hrest⟩ := bind_eq_ok.mp hdumps
      obtain ⟨text, hitems, hpure⟩ := bind_eq_ok.mp hrest
      cases hpure
      exact itemsReadBack_cons hitem (begins_dumps hformat hnext)
        (itemsReadBack_dumps hformat items hpython.2
          (readsBack_dumps hformat next hpython.1 hnext) hitems)

theorem membersReadBack_dumps (hformat : format.Faithful) :
    ∀ members : List (String × Value), MembersArePython members →
    ∀ {key : String} {value : Value} {valueText text : List Char}, Begins valueText →
    ReadsBack format value valueText → dumpsMembers format members = .ok text →
    MembersReadBack format key value valueText members text
  | [], _ => by
      intro hbegins hvalue hdumps
      cases hdumps
      exact membersReadBack_nil hbegins hvalue
  | (nextKey, next) :: members, hpython => by
      intro hbegins hvalue hdumps
      obtain ⟨nextText, hnext, hrest⟩ := bind_eq_ok.mp hdumps
      obtain ⟨text, hmembers, hpure⟩ := bind_eq_ok.mp hrest
      cases hpure
      exact membersReadBack_cons hbegins hvalue (membersReadBack_dumps hformat members
        hpython.2 (begins_dumps hformat hnext)
        (readsBack_dumps hformat next hpython.1 hnext) hmembers)

end

/-- **What `json.dumps` writes, `json.loads` reads back.** -/
theorem loads_dumps (hformat : format.Faithful) {value : Value} (hpython : IsPython value)
    {text : List Char} (hdumps : dumps format value = .ok text) : loads format text = .ok value := by
  have hreads : ReadsBack format value text := readsBack_dumps hformat value hpython hdumps
  have hscan := @hreads (2 * text.length + 1) [] (by omega) (by simp [Ends])
  have hspace := skipSpace_of_begins (begins_dumps hformat hdumps) []
  rw [List.append_nil] at hscan hspace
  rw [loads, hspace, hscan]
  rfl

end RoundTrip

/-! ## A format of floats -/

/-- `5.5`. -/
def fiveAndAHalf : UInt64 := 0x4016000000000000

/-- Writes `5.5` as Python does, and every other float as its bits. -/
def sampleFormat : FloatFormat where
  repr bits :=
    if bits = fiveAndAHalf then "5.5".toList else Nat.toDigits 10 bits.toNat ++ "e0".toList
  float text :=
    if text = "5.5".toList then fiveAndAHalf
    else .ofNat (Nat.ofDigitChars 10 (text.takeWhile Char.isDigit) 0)

theorem sampleFormat_faithful : sampleFormat.Faithful where
  isFloatText bits _ := by
    simp only [sampleFormat]
    split_ifs with hbits
    · have hdigits : ∀ c ∈ ['5'], c.isDigit := List.forall_mem_singleton.mpr rfl
      exact ⟨[], ['5'], ['.', '5'], [], rfl, by simp, .inr ⟨'5', [], rfl, by decide, hdigits⟩,
        .inr ⟨'5', [], rfl, hdigits⟩, .inl rfl, by simp⟩
    · have hdigits : ∀ c ∈ ['0'], c.isDigit := List.forall_mem_singleton.mpr rfl
      exact ⟨[], Nat.toDigits 10 bits.toNat, [], ['e', '0'], by simp, by simp,
        isWhole_toDigits bits.toNat, .inl rfl, .inr ⟨[], '0', [], rfl, by simp, hdigits⟩, by simp⟩
  float_repr bits _ := by
    simp only [sampleFormat]
    by_cases hbits : bits = fiveAndAHalf
    · rw [if_pos hbits, if_pos rfl, hbits]
    · -- the digits end at the mark of the exponent, which `5.5` does not have
      have hdigits : ∀ c ∈ Nat.toDigits 10 bits.toNat, c.isDigit := fun c hc =>
        Nat.isDigit_of_mem_toDigits (by decide) (by decide) hc
      have hne : Nat.toDigits 10 bits.toNat ++ "e0".toList ≠ "5.5".toList := by
        intro heq
        have hmem : 'e' ∈ "5.5".toList := heq ▸ List.mem_append_right _ (by decide)
        exact absurd hmem (by decide)
      have hmark : ∀ c ∈ "e0".toList.head?, ¬ c.isDigit := by simp
      have htake := (takeWhile_digits hdigits hmark).1
      rw [if_neg hbits, if_neg hne, htake, Nat.ofDigitChars_ten_toDigits, UInt64.ofNat_toNat]

end EveBuild.Json
