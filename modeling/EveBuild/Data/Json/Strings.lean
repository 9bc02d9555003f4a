import EveBuild.Data.Loops
import Mathlib.Data.Nat.Notation
import Mathlib.Tactic.Common

/-!
# Strings in JSON texts

Writing a string as Python's `json.dumps` does and reading it back as `json.loads` does.  The
text has printable ASCII characters only: whatever else is in the string is written as `\uXXXX`,
and a character beyond the first 65536 as two of them, a pair of surrogates.

`scanString_quote` is the round trip of a string.
-/

namespace EveBuild.Json

/-- What `json.dumps` and `json.loads` raise.  A lone surrogate, which Python would read, is
not a character here. -/
inductive JsonError
  | notSerializable
  | tooManyDigits
  | decode
  | loneSurrogate
  | recursion
deriving DecidableEq

/-- What is read off the front of a text, and the rest of the text. -/
abbrev Scanned (α : Type) := α × List Char

/-! ## Strings -/

/-- A digit of `%04x`. -/
def hexDigit (value : ℕ) : Char := Nat.digitChar (value % 16)

/-- `'\\u{0:04x}'.format(unit)`. -/
def escapeUnit (unit : ℕ) : List Char :=
  ['\\', 'u', hexDigit (unit / 4096), hexDigit (unit / 256), hexDigit (unit / 16), hexDigit unit]

/-- A code point as one unit, or as a pair of surrogates. -/
def escapeUnits (code : ℕ) : List Char :=
  if code < 0x10000 then escapeUnit code
  else escapeUnit (0xd800 + (code - 0x10000) / 0x400) ++
    escapeUnit (0xdc00 + (code - 0x10000) % 0x400)

/-- `replace` of `py_encode_basestring_ascii`: how a character is written. -/
def escapeChar (c : Char) : List Char :=
  if c = '"' then ['\\', '"']
  else if c = '\\' then ['\\', '\\']
  else if c = '\n' then ['\\', 'n']
  else if c = '\r' then ['\\', 'r']
  else if c = '\t' then ['\\', 't']
  else if c = '\x0c' then ['\\', 'f']
  else if c = '\x08' then ['\\', 'b']
  else if ' ' ≤ c ∧ c ≤ '~' then [c]
  else escapeUnits c.toNat

/-- The text of a string, with its quotes. -/
def quote (text : List Char) : List Char := '"' :: text.flatMap escapeChar ++ ['"']

/-- The value of a hexadecimal digit. -/
def hexValue? (c : Char) : Option ℕ :=
  if c.isDigit then some (c.toNat - '0'.toNat)
  else if 'a' ≤ c ∧ c ≤ 'f' then some (c.toNat - 'a'.toNat + 10)
  else if 'A' ≤ c ∧ c ≤ 'F' then some (c.toNat - 'A'.toNat + 10)
  else none

/-- `_decode_uXXXX`: four hexadecimal digits. -/
def scanUnit : List Char → Except JsonError (Scanned ℕ)
  | a :: b :: c :: d :: rest =>
      match hexValue? a, hexValue? b, hexValue? c, hexValue? d with
      | some a, some b, some c, some d => .ok (((a * 16 + b) * 16 + c) * 16 + d, rest)
      | _, _, _, _ => .error .decode
  | _ => .error .decode

/-- The character of a code point. -/
def charOf (code : ℕ) : Except JsonError Char :=
  if hcode : code.isValidChar then .ok (Char.ofNatAux code hcode) else .error .loneSurrogate

/-- What follows `\u`. -/
def scanCode (chars : List Char) : Except JsonError (Scanned Char) := do
  let (unit, rest) ← scanUnit chars
  if 0xd800 ≤ unit ∧ unit ≤ 0xdbff then
    match rest with
    | '\\' :: 'u' :: rest =>
        let (low, rest) ← scanUnit rest
        if 0xdc00 ≤ low ∧ low ≤ 0xdfff then
          return (← charOf (0x10000 + (unit - 0xd800) * 0x400 + (low - 0xdc00)), rest)
        else throw .loneSurrogate
    | _ => throw .loneSurrogate
  else return (← charOf unit, rest)

/-- What follows a backslash. -/
def scanEscape : List Char → Except JsonError (Scanned Char)
  | '"' :: rest => .ok ('"', rest)
  | '\\' :: rest => .ok ('\\', rest)
  | '/' :: rest => .ok ('/', rest)
  | 'b' :: rest => .ok ('\x08', rest)
  | 'f' :: rest => .ok ('\x0c', rest)
  | 'n' :: rest => .ok ('\n', rest)
  | 'r' :: rest => .ok ('\r', rest)
  | 't' :: rest => .ok ('\t', rest)
  | 'u' :: rest => scanCode rest
  | _ => .error .decode

/-- `scanstring`, after the opening quote: the characters up to the closing one.  Each of them
takes one character of the text at least, so that `fuel` beyond its length is never used up. -/
def scanString : ℕ → List Char → Except JsonError (Scanned (List Char))
  | 0, _ => .error .recursion
  | _ + 1, [] => .error .decode
  | _ + 1, '"' :: rest => .ok ([], rest)
  | fuel + 1, '\\' :: rest => do
      let (c, rest) ← scanEscape rest
      let (text, rest) ← scanString fuel rest
      return (c :: text, rest)
  | fuel + 1, c :: rest =>
      if c < ' ' then .error .decode
      else do
        let (text, rest) ← scanString fuel rest
        return (c :: text, rest)

theorem hexValue?_hexDigit (value : ℕ) : hexValue? (hexDigit value) = some (value % 16) := by
  have hdigits : ∀ digit < 16, hexValue? (Nat.digitChar digit) = some digit := by decide
  exact hdigits _ (Nat.mod_lt _ (by decide))

theorem scanUnit_escapeUnit {unit : ℕ} (hunit : unit < 0x10000) (rest : List Char) :
    scanUnit ((escapeUnit unit).drop 2 ++ rest) = .ok (unit, rest) := by
  have hvalue : ((unit / 4096 % 16 * 16 + unit / 256 % 16) * 16 + unit / 16 % 16) * 16 +
      unit % 16 = unit := by omega
  simp only [escapeUnit, List.drop_succ_cons, List.drop_zero, List.cons_append, List.nil_append,
    scanUnit, hexValue?_hexDigit]
  rw [hvalue]

theorem charOf_toNat (c : Char) : charOf c.toNat = .ok c := by
  have hvalid : c.toNat.isValidChar := c.valid
  rw [charOf, dif_pos hvalid]
  exact congrArg Except.ok (Char.ext (UInt32.toNat.inj rfl))

/-- A character is no surrogate. -/
theorem toNat_cases (c : Char) :
    c.toNat < 0xd800 ∨ 0xdfff < c.toNat ∧ c.toNat < 0x110000 := c.valid

/-- A character that is written as one unit, or as two. -/
theorem scanCode_escapeUnits (c : Char) (rest : List Char) :
    scanCode ((escapeUnits c.toNat).drop 2 ++ rest) = .ok (c, rest) := by
  have hvalid := toNat_cases c
  unfold escapeUnits
  split
  · rename_i hlow
    have hsurrogate : ¬ (0xd800 ≤ c.toNat ∧ c.toNat ≤ 0xdbff) := by omega
    refine bind_eq_ok.mpr ⟨_, scanUnit_escapeUnit hlow rest, (if_neg hsurrogate).trans ?_⟩
    rw [charOf_toNat]
    rfl
  · rename_i hhigh
    obtain ⟨value, hvalue⟩ : ∃ value, c.toNat = 0x10000 + value :=
      ⟨c.toNat - 0x10000, by omega⟩
    have hsub : c.toNat - 0x10000 = value := by omega
    have hcode : 0x10000 + (0xd800 + value / 0x400 - 0xd800) * 0x400 +
        (0xdc00 + value % 0x400 - 0xdc00) = c.toNat := by omega
    have hfirst := @scanUnit_escapeUnit (0xd800 + value / 0x400) (by omega)
      (escapeUnit (0xdc00 + value % 0x400) ++ rest)
    have hsecond := @scanUnit_escapeUnit (0xdc00 + value % 0x400) (by omega) rest
    rw [hsub]
    refine bind_eq_ok.mpr ⟨_, hfirst, (if_pos (by omega)).trans ?_⟩
    refine bind_eq_ok.mpr ⟨_, hsecond, (if_pos (by omega)).trans ?_⟩
    rw [hcode, charOf_toNat]
    rfl

theorem escapeUnits_eq (code : ℕ) :
    escapeUnits code = '\\' :: 'u' :: (escapeUnits code).drop 2 := by
  unfold escapeUnits
  split <;> rfl

/-- **A character is read back** as it is written. -/
theorem scanString_escapeChar (c : Char) (fuel : ℕ) (rest : List Char) :
    scanString (fuel + 1) (escapeChar c ++ rest) = do
      let (text, rest) ← scanString fuel rest
      return (c :: text, rest) := by
  unfold escapeChar
  split_ifs with hquote hslash hnewline hreturn htab hfeed hback hplain
  · rw [hquote]; rfl
  · rw [hslash]; rfl
  · rw [hnewline]; rfl
  · rw [hreturn]; rfl
  · rw [htab]; rfl
  · rw [hfeed]; rfl
  · rw [hback]; rfl
  · rw [List.singleton_append, scanString, if_neg (Char.not_lt.mpr hplain.1)]
    · exact hquote
    · exact hslash
  · rw [escapeUnits_eq]
    exact congrArg (· >>= fun (scanned : Scanned Char) => do
      let (text, rest) ← scanString fuel scanned.2
      return (scanned.1 :: text, rest)) (scanCode_escapeUnits c rest)

/-- Every character is printable ASCII, of which UTF-8 makes one byte each. -/
def Printable (text : List Char) : Prop := ∀ c ∈ text, ' ' ≤ c ∧ c ≤ '~'

instance : DecidablePred Printable :=
  fun text => List.decidableBAll (fun c => ' ' ≤ c ∧ c ≤ '~') text

theorem Printable.append {first second : List Char} (hfirst : Printable first)
    (hsecond : Printable second) : Printable (first ++ second) :=
  fun c hc => (List.mem_append.mp hc).elim (hfirst c) (hsecond c)

theorem printable_escapeUnit (unit : ℕ) : Printable (escapeUnit unit) := by
  have hdigits : ∀ digit < 16, ' ' ≤ Nat.digitChar digit ∧ Nat.digitChar digit ≤ '~' := by decide
  have hdigit : ∀ value, ' ' ≤ hexDigit value ∧ hexDigit value ≤ '~' := fun value =>
    hdigits _ (Nat.mod_lt _ (by decide))
  intro c hc
  simp only [escapeUnit, List.mem_cons, List.not_mem_nil, or_false] at hc
  rcases hc with rfl | rfl | rfl | rfl | rfl | rfl
  · decide
  · decide
  all_goals exact hdigit _

theorem printable_escapeChar (c : Char) : Printable (escapeChar c) := by
  unfold escapeChar
  split_ifs with _ _ _ _ _ _ _ hplain
  all_goals first | decide | skip
  · exact fun other hother => List.mem_singleton.mp hother ▸ hplain
  · unfold escapeUnits
    split
    · exact printable_escapeUnit _
    · exact (printable_escapeUnit _).append (printable_escapeUnit _)

theorem printable_quote (text : List Char) : Printable (quote text) := by
  intro c hc
  rw [quote, List.cons_append, List.mem_cons, List.mem_append, List.mem_flatMap,
    List.mem_singleton] at hc
  rcases hc with rfl | ⟨other, -, hc⟩ | rfl
  · decide
  · exact printable_escapeChar other c hc
  · decide

/-- Every character takes one character of the text at least. -/
theorem length_le_flatMap_escapeChar (text : List Char) :
    text.length ≤ (text.flatMap escapeChar).length := by
  induction text with
  | nil => exact Nat.le_refl _
  | cons c rest ih =>
      have hpos : 1 ≤ (escapeChar c).length := by
        unfold escapeChar
        split_ifs
        all_goals try simp
        rw [escapeUnits_eq]
        simp
      rw [List.flatMap_cons, List.length_append, List.length_cons]
      omega

/-- **A string is read back** as it is written. -/
theorem scanString_quote (text : List Char) (rest : List Char) {fuel : ℕ}
    (hfuel : text.length < fuel) :
    scanString fuel (text.flatMap escapeChar ++ '"' :: rest) = .ok (text, rest) := by
  induction text generalizing fuel with
  | nil =>
      obtain ⟨fuel, rfl⟩ := Nat.exists_eq_succ_of_ne_zero (Nat.ne_zero_of_lt hfuel)
      rfl
  | cons c text ih =>
      obtain ⟨fuel, rfl⟩ := Nat.exists_eq_succ_of_ne_zero (Nat.ne_zero_of_lt hfuel)
      rw [List.flatMap_cons, List.append_assoc, scanString_escapeChar,
        ih (Nat.lt_of_succ_lt_succ hfuel)]
      rfl

end EveBuild.Json
