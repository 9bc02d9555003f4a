import Mathlib.Data.List.SplitBy
import Mathlib.Data.List.Basic
import Mathlib.Tactic.Common

/-!
# Queries of URLs

Writing names and values into a query as Python's `urlencode` does, and reading them back as
`parse_qsl` does.  `parseQsl_urlencode` is the round trip, for any strings.

What `unquote` makes of bytes that are not UTF-8 is left open: it is the argument `replace`.
-/

namespace EveBuild.Urlencoded

/-! ## Writing -/

/-- A digit of `%XX`. -/
def hexDigit (digit : ℕ) : Char := (Nat.digitChar digit).toUpper

/-- `_ALWAYS_SAFE`. -/
def IsSafe (c : Char) : Prop := c.isAlphanum ∨ c ∈ ['_', '.', '-', '~']

instance : DecidablePred IsSafe := fun _ => inferInstanceAs (Decidable (_ ∨ _))

/-- A byte as `quote_plus` writes it. -/
def quoteByte (byte : UInt8) : List Char :=
  if byte < 128 ∧ IsSafe (Char.ofNat byte.toNat) then [Char.ofNat byte.toNat]
  else if Char.ofNat byte.toNat = ' ' then ['+']
  else ['%', hexDigit (byte.toNat / 16), hexDigit (byte.toNat % 16)]

/-- The bytes of a string. -/
def utf8 (text : String) : List UInt8 := text.toByteArray.data.toList

/-- `quote_plus`. -/
def quotePlus (text : String) : List Char := (utf8 text).flatMap quoteByte

/-- `urlencode`. -/
def urlencode (params : List (String × String)) : List Char :=
  ['&'].intercalate (params.map fun (name, value) => quotePlus name ++ '=' :: quotePlus value)

/-! ## Reading -/

/-- The value of a digit of `%XX`. -/
def hexValue? (c : Char) : Option ℕ :=
  if c ∈ ['0', '1', '2', '3', '4', '5', '6', '7', '8', '9'] then some (c.toNat - 48)
  else if c ∈ ['A', 'B', 'C', 'D', 'E', 'F'] then some (c.toNat - 55)
  else if c ∈ ['a', 'b', 'c', 'd', 'e', 'f'] then some (c.toNat - 87)
  else none

/-- `unquote_to_bytes`, of ASCII characters. -/
def unquoteToBytes : List Char → List UInt8
  | [] => []
  | '%' :: high :: low :: rest =>
      match hexValue? high, hexValue? low with
      | some first, some second => .ofNat (16 * first + second) :: unquoteToBytes rest
      | _, _ => '%'.toUInt8 :: unquoteToBytes (high :: low :: rest)
  | c :: rest => c.toUInt8 :: unquoteToBytes rest

def isAscii (c : Char) : Bool := c.toNat < 128

variable (replace : List UInt8 → List Char)

/-- `bytes.decode("utf-8", "replace")`. -/
def decodeUtf8 (bytes : List UInt8) : List Char :=
  match String.fromUTF8? ⟨bytes.toArray⟩ with
  | some text => text.toList
  | none => replace bytes

/-- `unquote`: the runs of ASCII characters are decoded one by one. -/
def unquote (text : List Char) : List Char :=
  if '%' ∉ text then text
  else (text.splitBy fun first second => isAscii first == isAscii second).flatMap fun run =>
    if run.all isAscii then decodeUtf8 replace (unquoteToBytes run) else run

/-- `unquote(text.replace("+", " "))`. -/
def unquotePlus (text : List Char) : List Char :=
  unquote replace (text.map fun c => if c = '+' then ' ' else c)

/-- `parse_qsl(query, keep_blank_values=True)`. -/
def parseQsl (query : List Char) : List (List Char × List Char) :=
  (query.splitOn '&').filterMap fun pair =>
    if pair = [] then none
    else some (unquotePlus replace (pair.takeWhile (· ≠ '=')),
      unquotePlus replace ((pair.dropWhile (· ≠ '=')).drop 1))

/-! ## Bytes -/

theorem hexValue?_hexDigit {digit : ℕ} (hdigit : digit < 16) :
    hexValue? (hexDigit digit) = some digit := by
  have hall : ∀ digit < 16, hexValue? (hexDigit digit) = some digit := by decide
  exact hall digit hdigit

/-- What a digit is not. -/
theorem hexDigit_plain {digit : ℕ} (hdigit : digit < 16) :
    hexDigit digit ∉ ['%', '+', '&', '='] ∧ isAscii (hexDigit digit) := by
  have hall : ∀ digit < 16, hexDigit digit ∉ ['%', '+', '&', '='] ∧ isAscii (hexDigit digit) := by
    decide
  exact hall digit hdigit

theorem not_special_of_isSafe {c : Char} (hsafe : IsSafe c) : c ∉ ['%', '+', '&', '='] := by
  intro hspecial
  simp only [List.mem_cons, List.not_mem_nil, or_false] at hspecial
  rcases hspecial with rfl | rfl | rfl | rfl <;> exact absurd hsafe (by decide)

theorem toNat_ofNat_byte (byte : UInt8) : (Char.ofNat byte.toNat).toNat = byte.toNat := by
  have hlt := byte.toNat_lt
  rw [Char.ofNat, dif_pos (.inl (by omega))]
  rfl

/-- How a byte is written. -/
theorem quoteByte_cases (byte : UInt8) :
    (∃ c, quoteByte byte = [c] ∧ IsSafe c ∧ isAscii c ∧ c.toNat = byte.toNat) ∨
      (quoteByte byte = ['+'] ∧ byte = 32) ∨
      quoteByte byte = ['%', hexDigit (byte.toNat / 16), hexDigit (byte.toNat % 16)] := by
  unfold quoteByte
  split_ifs with hsafe hspace
  · refine .inl ⟨_, rfl, hsafe.2, ?_, toNat_ofNat_byte byte⟩
    rw [isAscii, toNat_ofNat_byte]
    simpa using UInt8.lt_iff_toNat_lt.mp hsafe.1
  · refine .inr (.inl ⟨rfl, ?_⟩)
    have hnat := congrArg Char.toNat hspace
    rw [toNat_ofNat_byte] at hnat
    exact UInt8.toNat_inj.mp hnat
  · exact .inr (.inr rfl)

/-- A space instead of a plus. -/
def plusToSpace (c : Char) : Char := if c = '+' then ' ' else c

theorem plusToSpace_of_ne {c : Char} (hne : c ≠ '+') : plusToSpace c = c := if_neg hne

theorem toUInt8_eq {c : Char} {byte : UInt8} (hnat : c.toNat = byte.toNat) : c.toUInt8 = byte := by
  refine UInt8.toNat_inj.mp ?_
  have hlt := byte.toNat_lt
  rw [← hnat, Char.toUInt8, UInt32.toNat_toUInt8]
  exact Nat.mod_eq_of_lt (show c.toNat < 256 by omega)

/-- **A byte is read back.** -/
theorem unquoteToBytes_quoteByte (byte : UInt8) (rest : List Char) :
    unquoteToBytes ((quoteByte byte).map plusToSpace ++ rest) = byte :: unquoteToBytes rest := by
  rcases quoteByte_cases byte with ⟨c, hquote, hsafe, -, hnat⟩ | ⟨hquote, rfl⟩ | hquote
  · have hspecial := not_special_of_isSafe hsafe
    simp only [List.mem_cons, List.not_mem_nil, or_false, not_or] at hspecial
    rw [hquote, List.map_singleton, plusToSpace_of_ne hspecial.2.1, List.singleton_append]
    rw [unquoteToBytes, toUInt8_eq hnat]
    exact fun _ _ _ hpercent _ => hspecial.1 hpercent
  · rw [hquote]
    rfl
  · have hlt := byte.toNat_lt
    have hhigh : byte.toNat / 16 < 16 := by omega
    have hlow : byte.toNat % 16 < 16 := by omega
    have hplain : ∀ {digit}, digit < 16 → plusToSpace (hexDigit digit) = hexDigit digit :=
      fun hdigit => plusToSpace_of_ne fun heq => (hexDigit_plain hdigit).1 (by simp [heq])
    have hvalue : 16 * (byte.toNat / 16) + byte.toNat % 16 = byte.toNat := by omega
    rw [hquote, List.map_cons, List.map_cons, List.map_cons, List.map_nil, hplain hhigh,
      hplain hlow, plusToSpace_of_ne (by decide)]
    simp only [List.cons_append, List.nil_append, unquoteToBytes, hexValue?_hexDigit hhigh,
      hexValue?_hexDigit hlow, hvalue, UInt8.ofNat_toNat]

theorem unquoteToBytes_quoteBytes (bytes : List UInt8) :
    unquoteToBytes ((bytes.flatMap quoteByte).map plusToSpace) = bytes := by
  induction bytes with
  | nil => rfl
  | cons byte bytes ih => rw [List.flatMap_cons, List.map_append, unquoteToBytes_quoteByte, ih]

/-- What is written of a byte has no meaning in a query. -/
theorem quoteByte_inert (byte : UInt8) :
    ∀ c ∈ quoteByte byte, c ∉ ['&', '='] ∧ isAscii (plusToSpace c) := by
  have hdigits : ∀ digit < 16, hexDigit digit ∉ ['&', '='] ∧
      isAscii (plusToSpace (hexDigit digit)) := by decide
  have hlt := byte.toNat_lt
  intro c hc
  rcases quoteByte_cases byte with ⟨d, hquote, hsafe, hascii, -⟩ | ⟨hquote, -⟩ | hquote
  · rw [hquote, List.mem_singleton] at hc
    subst hc
    have hspecial := not_special_of_isSafe hsafe
    simp only [List.mem_cons, List.not_mem_nil, or_false, not_or] at hspecial ⊢
    exact ⟨hspecial.2.2, by rwa [plusToSpace_of_ne hspecial.2.1]⟩
  · rw [hquote, List.mem_singleton] at hc
    subst hc
    decide
  · rw [hquote] at hc
    simp only [List.mem_cons, List.not_mem_nil, or_false] at hc
    rcases hc with rfl | rfl | rfl
    · decide
    · exact hdigits _ (by omega)
    · exact hdigits _ (by omega)

/-- The bytes of an array, whichever way they are listed. -/
theorem toListLoop_eq (bytes : ByteArray) (i : ℕ) (before : List UInt8) :
    ByteArray.toList.loop bytes i before = before.reverse ++ bytes.data.toList.drop i := by
  induction i, before using ByteArray.toList.loop.induct bytes with
  | case1 i before hlt ih =>
      have hsize : i < bytes.data.toList.length := by simpa using hlt
      rw [ByteArray.toList.loop, if_pos hlt, ih, List.drop_eq_getElem_cons hsize]
      simp [ByteArray.get!, hlt]
  | case2 i before hge =>
      have hsize : bytes.data.toList.length ≤ i := by simpa using hge
      rw [ByteArray.toList.loop, if_neg hge, List.drop_eq_nil_of_le hsize, List.append_nil]

theorem toList_toUTF8 (text : String) : text.toUTF8.toList = utf8 text :=
  toListLoop_eq text.toByteArray 0 []

theorem quotePlus_inert {text : String} :
    ∀ c ∈ quotePlus text, c ∉ ['&', '='] ∧ isAscii (plusToSpace c) := by
  intro c hc
  obtain ⟨byte, -, hbyte⟩ := List.mem_flatMap.mp hc
  exact quoteByte_inert byte c hbyte

/-! ## Strings -/

theorem decodeUtf8_utf8 (text : String) : decodeUtf8 replace (utf8 text) = text.toList := by
  have hbytes : (⟨(utf8 text).toArray⟩ : ByteArray) = text.toByteArray := by
    rw [utf8, Array.toArray_toList]
  have hdecode : String.fromUTF8? text.toByteArray = some text := by
    rw [String.fromUTF8?, dif_pos text.isValidUTF8]
    rfl
  rw [decodeUtf8, hbytes, hdecode]

/-- An ASCII character is one byte. -/
theorem utf8EncodeChar_of_isAscii {c : Char} (hascii : isAscii c) :
    String.utf8EncodeChar c = [c.toUInt8] := by
  have hlt : c.val.toNat < 128 := of_decide_eq_true hascii
  rw [String.utf8EncodeChar, if_pos (by omega)]
  rfl

theorem decodeUtf8_of_isAscii {text : List Char} (hascii : ∀ c ∈ text, isAscii c) :
    decodeUtf8 replace (text.map Char.toUInt8) = text := by
  have hbytes : utf8 (.ofList text) = text.map Char.toUInt8 := by
    rw [utf8, String.toByteArray_ofList, List.utf8Encode, List.toList_data_toByteArray]
    exact (List.flatMap_congr fun c hc => utf8EncodeChar_of_isAscii (hascii c hc)).trans
      (List.flatMap_pure_eq_map _ text)
  rw [← hbytes, decodeUtf8_utf8, String.toList_ofList]

/-- Where nothing is quoted, the bytes are the characters. -/
theorem unquoteToBytes_of_notMem {text : List Char} (hpercent : '%' ∉ text) :
    unquoteToBytes text = text.map Char.toUInt8 := by
  induction text with
  | nil => rfl
  | cons c rest ih =>
      rw [List.mem_cons, not_or] at hpercent
      rw [unquoteToBytes, ih hpercent.2, List.map_cons]
      exact fun _ _ _ heq _ => hpercent.1 heq.symm

/-- Characters of which all are ASCII are one run. -/
theorem unquote_of_isAscii {text : List Char} (hascii : ∀ c ∈ text, isAscii c) :
    unquote replace text = decodeUtf8 replace (unquoteToBytes text) := by
  unfold unquote
  by_cases hpercent : '%' ∉ text
  · rw [if_pos hpercent, unquoteToBytes_of_notMem hpercent, decodeUtf8_of_isAscii replace hascii]
  · have hchain : text.IsChain fun first second => isAscii first == isAscii second := by
      refine (List.pairwise_of_forall_mem_list fun first hfirst second hsecond => ?_).isChain
      rw [hascii first hfirst, hascii second hsecond]
      rfl
    have hne : text ≠ [] := List.ne_nil_of_mem (not_not.mp hpercent)
    rw [if_neg hpercent, List.splitBy_of_isChain hne hchain, List.flatMap_singleton,
      if_pos (List.all_eq_true.mpr hascii)]

/-- **A string is read back.** -/
theorem unquotePlus_quotePlus (text : String) :
    unquotePlus replace (quotePlus text) = text.toList := by
  have hascii : ∀ c ∈ (quotePlus text).map plusToSpace, isAscii c := by
    intro c hc
    obtain ⟨written, hwritten, rfl⟩ := List.mem_map.mp hc
    exact (quotePlus_inert written hwritten).2
  calc unquotePlus replace (quotePlus text)
      = decodeUtf8 replace (unquoteToBytes ((quotePlus text).map plusToSpace)) :=
        unquote_of_isAscii replace hascii
    _ = decodeUtf8 replace (utf8 text) := by rw [quotePlus, unquoteToBytes_quoteBytes]
    _ = text.toList := decodeUtf8_utf8 replace text

/-! ## Queries -/

/-- A name and a value are told apart at the first equals sign. -/
theorem split_pair {name value : List Char} (hname : '=' ∉ name) :
    (name ++ '=' :: value).takeWhile (· ≠ '=') = name ∧
      ((name ++ '=' :: value).dropWhile (· ≠ '=')).drop 1 = value := by
  have hall : ∀ c ∈ name, decide (c ≠ '=') := by
    intro c hc
    refine decide_eq_true ?_
    rintro rfl
    exact hname hc
  rw [List.takeWhile_append_of_pos hall, List.dropWhile_append_of_pos hall]
  simp

theorem notMem_quotePlus {c : Char} (hc : c ∈ ['&', '=']) (text : String) : c ∉ quotePlus text :=
  fun hmem => (quotePlus_inert c hmem).1 hc

/-- **A query is read back.** -/
theorem parseQsl_urlencode (params : List (String × String)) :
    parseQsl replace (urlencode params) =
      params.map fun (name, value) => (name.toList, value.toList) := by
  rcases eq_or_ne params [] with rfl | hne
  · rfl
  -- no ampersand is in a name or in a value
  have hsplit : (urlencode params).splitOn '&' =
      params.map fun (name, value) => quotePlus name ++ '=' :: quotePlus value := by
    refine List.splitOn_intercalate '&' (fun pair hpair => ?_) (by simpa using hne)
    obtain ⟨⟨name, value⟩, -, rfl⟩ := List.mem_map.mp hpair
    simp [notMem_quotePlus (show '&' ∈ ['&', '='] by decide)]
  rw [parseQsl, hsplit, List.filterMap_map]
  refine (List.filterMap_congr fun param _ => ?_).trans
    (congrFun (List.filterMap_eq_map (f := fun param : String × String =>
      (param.1.toList, param.2.toList))) params)
  obtain ⟨name, value⟩ := param
  obtain ⟨hname, hvalue⟩ := @split_pair (quotePlus name) (quotePlus value)
    (notMem_quotePlus (by decide) name)
  simp only [Function.comp_apply]
  rw [if_neg (by simp), hname, hvalue, unquotePlus_quotePlus, unquotePlus_quotePlus]

end EveBuild.Urlencoded
