import Mathlib.Data.List.DropRight
import Mathlib.Algebra.Ring.Nat
import Mathlib.Data.Int.Order.Basic
import EveBuild.Data.Loops

/-!
# Decimal numerals in Unicode texts

Reading an integer off a text as Python's `int` does, beside the predicates `str.strip` and
`str.isdigit` with which a program may want to find out whether it can.  They do not look at the
same characters: a digit need not be a decimal digit, some of the spaces that are stripped are not
skipped by `int`, and `int` does not read a number of more than 4300 digits.
`intOf_eq_ok_iff` says which of the texts that consist of digits and spaces around them are read,
and `intOf_toDigits` that a rendered number is.

What the characters are is a `CharTable`, of which only those laws are assumed that hold in every
version of Unicode.
-/

namespace EveBuild.Numerals

/-! ## Stripping -/

section Strip

variable (p : Char → Bool)

/-- The text without the characters at both ends that are to be stripped. -/
def strip (text : List Char) : List Char := (text.dropWhile p).rdropWhile p

variable {p}

theorem strip_cases (text : List Char) : ∃ before after,
    text = before ++ strip p text ++ after ∧ (∀ c ∈ before, p c) ∧ ∀ c ∈ after, p c := by
  refine ⟨text.takeWhile p, (text.dropWhile p).rtakeWhile p, ?_, ?_, ?_⟩
  · rw [strip, List.append_assoc, List.rdropWhile_append_rtakeWhile, List.takeWhile_append_dropWhile]
  · exact fun c hc => List.mem_takeWhile_imp hc
  · intro c hc
    exact List.mem_rtakeWhile_imp hc

theorem strip_append {before text after : List Char} (hbefore : ∀ c ∈ before, p c)
    (htext : ∀ c ∈ text, ¬ p c) (hafter : ∀ c ∈ after, p c) :
    strip p (before ++ text ++ after) = text := by
  have hleft : (text ++ after).dropWhile p = text ++ if text = [] then [] else after := by
    cases text with
    | nil => simpa using hafter
    | cons first rest => simp [htext first (List.mem_cons_self ..)]
  have hright : ∀ rest, (∀ c ∈ rest, p c) → (text ++ rest).rdropWhile p = text := by
    intro rest hrest
    induction rest using List.reverseRecOn with
    | nil =>
        rw [List.append_nil, List.rdropWhile_eq_self_iff]
        exact fun hne => htext _ (List.getLast_mem hne)
    | append_singleton rest c ih =>
        rw [← List.append_assoc, List.rdropWhile_concat_pos _ _ _ (hrest c (by simp))]
        exact ih fun other hother => hrest other (List.mem_append_left _ hother)
  rw [strip, List.append_assoc, List.dropWhile_append_of_pos hbefore, hleft]
  split
  · exact hright [] (by simp)
  · exact hright after hafter

theorem mem_strip {text : List Char} {c : Char} (hc : c ∈ text) (hnot : ¬ p c) :
    c ∈ strip p text := by
  obtain ⟨before, after, heq, hbefore, hafter⟩ := strip_cases (p := p) text
  rw [heq, List.mem_append, List.mem_append] at hc
  rcases hc with (hc | hc) | hc
  · exact absurd (hbefore c hc) hnot
  · exact hc
  · exact absurd (hafter c hc) hnot

end Strip

/-! ## Characters and numbers -/

/-- The information separators, which `str.strip` strips and `int` does not skip. -/
def separators : List Char := ['\x1c', '\x1d', '\x1e', '\x1f']

/-- What a version of Unicode says about characters. -/
structure CharTable where
  /-- `str.isspace` of the character. -/
  isSpace : Char → Bool
  /-- `str.isdigit` of the character. -/
  isDigit : Char → Bool
  /-- `unicodedata.decimal`. -/
  decimal? : Char → Option ℕ
  isDigit_of_decimal : ∀ c, (decimal? c).isSome → isDigit c
  not_isSpace_of_isDigit : ∀ c, isDigit c → ¬ isSpace c
  not_isDigit_of_mem : ∀ c ∈ ['+', '-', '_', ','], ¬ isDigit c
  not_isSpace_minus : ¬ isSpace '-'
  isSpace_separator : ∀ c ∈ separators, isSpace c
  decimal?_ascii : ∀ c : Char, c.isDigit → decimal? c = some (c.toNat - '0'.toNat)

/-- `sys.get_int_max_str_digits()`, unless it is set. -/
def maxStrDigits : ℕ := 4300

/-- What `int` and `str` raise. -/
inductive ValueError
  | invalidLiteral
  | tooManyDigits
deriving DecidableEq

section Table

variable (table : CharTable)

/-- `text.isdigit()`. -/
def IsDigit (text : List Char) : Prop := text ≠ [] ∧ ∀ c ∈ text, table.isDigit c

instance : DecidablePred (IsDigit table) := fun _ => inferInstanceAs (Decidable (_ ∧ _))

/-- `text.isdecimal()`. -/
def IsDecimal (text : List Char) : Prop := text ≠ [] ∧ ∀ c ∈ text, (table.decimal? c).isSome

instance : DecidablePred (IsDecimal table) := fun _ => inferInstanceAs (Decidable (_ ∧ _))

/-- The number that decimal digits stand for. -/
def valueOf (digits : List Char) : ℕ :=
  digits.foldl (fun value c => 10 * value + (table.decimal? c).getD 0) 0

/-- The number after the sign: decimal digits, with single underscores between them. -/
def magnitudeOf (text : List Char) : Except ValueError ℕ :=
  let groups := text.splitOn '_'
  if ¬ ∀ group ∈ groups, IsDecimal table group then throw .invalidLiteral
  else if maxStrDigits < groups.flatten.length then throw .tooManyDigits
  else return valueOf table groups.flatten

/-- `int(text)`. -/
def intOf (text : List Char) : Except ValueError ℤ :=
  match strip (fun c => table.isSpace c && c ∉ separators) text with
  | '-' :: rest => do return -(← magnitudeOf table rest : ℕ)
  | '+' :: rest => do return (← magnitudeOf table rest : ℕ)
  | digits => do return (← magnitudeOf table digits : ℕ)

end Table

/-- The number of digits of a number is one that `str` renders. -/
def Short (value : ℤ) : Prop := value.natAbs < 10 ^ maxStrDigits

instance : DecidablePred Short := fun _ => inferInstanceAs (Decidable (_ < _))

theorem short_of_natAbs_lt {value : ℤ} (hlt : value.natAbs < 10 ^ 20) : Short value :=
  hlt.trans_le (Nat.pow_le_pow_right (by decide) (show 20 ≤ maxStrDigits by decide))

/-- `str(value)`. -/
def strOf (value : ℤ) : Except ValueError String :=
  if Short value then return value.repr else throw .tooManyDigits

/-! ## Which texts are read -/

variable {table : CharTable}

theorem isDigit_of_isDecimal {text : List Char} (hdecimal : IsDecimal table text) :
    IsDigit table text :=
  ⟨hdecimal.1, fun c hc => table.isDigit_of_decimal c (hdecimal.2 c hc)⟩

theorem notMem_of_isDigit {text : List Char} (hdigit : IsDigit table text) {c : Char}
    (hc : c ∈ ['+', '-', '_', ',']) : c ∉ text :=
  fun hmem => table.not_isDigit_of_mem c hc (hdigit.2 c hmem)

/-- **A number without underscores** is read if it has decimal digits only, and not too many. -/
theorem magnitudeOf_eq_ok_iff {digits : List Char} {n : ℕ} (hdigit : IsDigit table digits) :
    magnitudeOf table digits = .ok n ↔
      IsDecimal table digits ∧ digits.length ≤ maxStrDigits ∧ n = valueOf table digits := by
  have hgroups : digits.splitOn '_' = [digits] :=
    List.splitOn_eq_singleton (notMem_of_isDigit hdigit (by decide))
  unfold magnitudeOf
  simp only [hgroups, List.forall_mem_singleton, List.flatten_singleton]
  by_cases hdecimal : IsDecimal table digits
  · rw [if_neg (not_not.mpr hdecimal)]
    by_cases hlong : maxStrDigits < digits.length
    · rw [if_pos hlong]
      exact iff_of_false (fun h => by cases h) fun h => absurd h.2.1 (not_le.mpr hlong)
    · rw [if_neg hlong]
      constructor
      · intro heq
        cases heq
        exact ⟨hdecimal, not_lt.mp hlong, rfl⟩
      · rintro ⟨-, -, rfl⟩
        rfl
  · rw [if_pos hdecimal]
    exact iff_of_false (fun h => by cases h) fun h => hdecimal h.1

theorem mem_splitOn_of_mem {sep c : Char} {text : List Char} (hc : c ∈ text) (hne : c ≠ sep) :
    ∃ group ∈ text.splitOn sep, c ∈ group := by
  induction text with
  | nil => cases hc
  | cons first rest ih =>
      rw [List.splitOn_cons_eq_if_modifyHead]
      by_cases hfirst : first = sep
      · obtain ⟨group, hgroup, hmem⟩ := ih ((List.mem_cons.mp hc).resolve_left (hfirst ▸ hne))
        simp only [hfirst, beq_self_eq_true, if_true]
        exact ⟨group, List.mem_cons_of_mem _ hgroup, hmem⟩
      · obtain ⟨head, groups, hgroups⟩ := List.exists_cons_of_ne_nil (List.splitOn_ne_nil sep rest)
        rw [hgroups] at ih ⊢
        simp only [beq_eq_false_iff_ne.mpr hfirst, Bool.false_eq_true, if_false,
          List.modifyHead_cons]
        rcases List.mem_cons.mp hc with rfl | hrest
        · exact ⟨c :: head, List.mem_cons_self .., List.mem_cons_self ..⟩
        · obtain ⟨group, hgroup, hmem⟩ := ih hrest
          rcases List.mem_cons.mp hgroup with rfl | hgroup
          · exact ⟨first :: group, List.mem_cons_self .., List.mem_cons_of_mem _ hmem⟩
          · exact ⟨group, List.mem_cons_of_mem _ hgroup, hmem⟩

/-- A space within a number is not read. -/
theorem magnitudeOf_of_space {text : List Char} {c : Char} {n : ℕ} (hc : c ∈ text)
    (hspace : table.isSpace c) (hne : c ≠ '_') : magnitudeOf table text ≠ .ok n := by
  obtain ⟨group, hgroup, hmem⟩ := mem_splitOn_of_mem hc hne
  have hbad : ¬ ∀ group ∈ text.splitOn '_', IsDecimal table group := fun hall =>
    table.not_isSpace_of_isDigit c (table.isDigit_of_decimal c ((hall group hgroup).2 c hmem)) hspace
  unfold magnitudeOf
  rw [if_pos hbad]
  exact fun heq => by cases heq

/-- `int` reads the text: there is no separator around its digits, all of them are decimal, and
they are not too many. -/
structure Readable (table : CharTable) (text : List Char) : Prop where
  noSeparator : ∀ c ∈ text, c ∉ separators
  decimal : IsDecimal table (strip table.isSpace text)
  short : (strip table.isSpace text).length ≤ maxStrDigits

/-- `int` of a text without spaces around it, or other signs than digits. -/
theorem intOf_of_strip {text digits : List Char} {value : ℤ}
    (hstrip : strip (fun c => table.isSpace c && c ∉ separators) text = digits)
    (hdigit : IsDigit table digits) :
    intOf table text = .ok value ↔
      IsDecimal table digits ∧ digits.length ≤ maxStrDigits ∧ value = valueOf table digits := by
  have hsigned : intOf table text = do return (← magnitudeOf table digits : ℕ) := by
    unfold intOf
    rw [hstrip]
    split
    · exact absurd (List.mem_cons_self ..) (notMem_of_isDigit hdigit (c := '-') (by decide))
    · exact absurd (List.mem_cons_self ..) (notMem_of_isDigit hdigit (c := '+') (by decide))
    · rfl
  rw [hsigned]
  constructor
  · intro hok
    obtain ⟨n, hn, heq⟩ := bind_eq_ok.mp hok
    cases heq
    obtain ⟨hdecimal, hshort, rfl⟩ := (magnitudeOf_eq_ok_iff hdigit).mp hn
    exact ⟨hdecimal, hshort, rfl⟩
  · rintro ⟨hdecimal, hshort, rfl⟩
    exact bind_eq_ok.mpr ⟨_, (magnitudeOf_eq_ok_iff hdigit).mpr ⟨hdecimal, hshort, rfl⟩, rfl⟩

/-- A separator that `int` does not skip makes it raise. -/
theorem intOf_of_separator {text : List Char} {c : Char} {value : ℤ} (hc : c ∈ text)
    (hseparator : c ∈ separators) (hspace : table.isSpace c) : intOf table text ≠ .ok value := by
  have hmem : c ∈ strip (fun c => table.isSpace c && c ∉ separators) text :=
    mem_strip hc (by simp [hseparator])
  have hother : ∀ other, other ∉ separators → c ≠ other := by
    rintro other hother rfl
    exact hother hseparator
  -- the separator is still there after the sign
  have hdigits : ∀ digits n, c ∈ digits → magnitudeOf table digits ≠ .ok n := fun digits n hmem =>
    magnitudeOf_of_space hmem hspace (hother '_' (by decide))
  intro hok
  unfold intOf at hok
  split at hok
  · rename_i rest heq
    have hrest : c ∈ rest := (List.mem_cons.mp (heq ▸ hmem)).resolve_left (hother '-' (by decide))
    obtain ⟨n, hn, -⟩ := bind_eq_ok.mp hok
    exact hdigits rest n hrest hn
  · rename_i rest heq
    have hrest : c ∈ rest := (List.mem_cons.mp (heq ▸ hmem)).resolve_left (hother '+' (by decide))
    obtain ⟨n, hn, -⟩ := bind_eq_ok.mp hok
    exact hdigits rest n hrest hn
  · obtain ⟨n, hn, -⟩ := bind_eq_ok.mp hok
    exact hdigits _ n hmem hn

/-- **Which texts are read**, among those that are digits with spaces around them. -/
theorem intOf_eq_ok_iff {text : List Char} {value : ℤ}
    (hdigit : IsDigit table (strip table.isSpace text)) :
    intOf table text = .ok value ↔
      Readable table text ∧ value = valueOf table (strip table.isSpace text) := by
  obtain ⟨before, after, heq, hbefore, hafter⟩ := strip_cases (p := table.isSpace) text
  by_cases hseparator : ∀ c ∈ text, c ∉ separators
  · -- without separators, `int` strips what `strip` does
    have hpad : ∀ c, c ∈ text → table.isSpace c →
        (table.isSpace c && decide (c ∉ separators)) = true := by
      intro c hc hspace
      simp [hspace, hseparator c hc]
    have hstrip : strip (fun c => table.isSpace c && c ∉ separators) text =
        strip table.isSpace text := by
      conv_lhs => rw [heq]
      refine strip_append (fun c hc => hpad c ?_ (hbefore c hc)) (fun c hc => ?_)
        (fun c hc => hpad c ?_ (hafter c hc))
      · rw [heq]
        exact List.mem_append_left _ (List.mem_append_left _ hc)
      · simp [table.not_isSpace_of_isDigit c (hdigit.2 c hc)]
      · rw [heq]
        exact List.mem_append_right _ hc
    rw [intOf_of_strip hstrip hdigit]
    constructor
    · rintro ⟨hdecimal, hshort, rfl⟩
      exact ⟨⟨hseparator, hdecimal, hshort⟩, rfl⟩
    · rintro ⟨hreadable, rfl⟩
      exact ⟨hreadable.decimal, hreadable.short, rfl⟩
  · push Not at hseparator
    obtain ⟨c, hc, hmem⟩ := hseparator
    exact iff_of_false (intOf_of_separator hc hmem (table.isSpace_separator c hmem)) fun h =>
      h.1.noSeparator c hc hmem

/-! ## What is rendered is read -/

theorem decimal?_of_mem_toDigits {n : ℕ} {c : Char} (hc : c ∈ Nat.toDigits 10 n) :
    table.decimal? c = some (c.toNat - '0'.toNat) :=
  table.decimal?_ascii c (Nat.isDigit_of_mem_toDigits (by decide) (by decide) hc)

theorem isDecimal_toDigits (n : ℕ) : IsDecimal table (Nat.toDigits 10 n) :=
  ⟨Nat.toDigits_ne_nil, fun c hc => by rw [decimal?_of_mem_toDigits hc]; rfl⟩

theorem valueOf_toDigits (n : ℕ) : valueOf table (Nat.toDigits 10 n) = n := by
  calc valueOf table (Nat.toDigits 10 n)
      = Nat.ofDigitChars 10 (Nat.toDigits 10 n) 0 := by
        rw [Nat.ofDigitChars_eq_foldl]
        exact List.foldl_ext _ _ _ fun value c hc => by rw [decimal?_of_mem_toDigits hc]; rfl
    _ = n := Nat.ofDigitChars_ten_toDigits

theorem strip_toDigits (n : ℕ) :
    strip table.isSpace (Nat.toDigits 10 n) = Nat.toDigits 10 n := by
  have hdecimal : IsDecimal table (Nat.toDigits 10 n) := isDecimal_toDigits n
  have hspace : ∀ c ∈ Nat.toDigits 10 n, ¬ table.isSpace c := fun c hc =>
    table.not_isSpace_of_isDigit c ((isDigit_of_isDecimal hdecimal).2 c hc)
  simpa using @strip_append table.isSpace [] (Nat.toDigits 10 n) [] (by simp) hspace (by simp)

/-- **A rendered number** that is short enough to be rendered is read as it was. -/
theorem intOf_toDigits {n : ℕ} (hshort : Short n) :
    intOf table (Nat.toDigits 10 n) = .ok n := by
  have hdecimal : IsDecimal table (Nat.toDigits 10 n) := isDecimal_toDigits n
  have hstrip : strip table.isSpace (Nat.toDigits 10 n) = _ := strip_toDigits n
  have hlength : (Nat.toDigits 10 n).length ≤ maxStrDigits :=
    (Nat.length_toDigits_le_iff (by decide) (by decide)).mpr hshort
  rw [intOf_eq_ok_iff (by rw [hstrip]; exact isDigit_of_isDecimal hdecimal), hstrip,
    valueOf_toDigits]
  refine ⟨⟨fun c hc hseparator => ?_, by rw [hstrip]; exact hdecimal, by rw [hstrip]; exact hlength⟩,
    rfl⟩
  have hdigit := table.isDigit_of_decimal c (hdecimal.2 c hc)
  exact table.not_isSpace_of_isDigit c hdigit (table.isSpace_separator c hseparator)

/-! ### The characters of a rendered number -/

theorem toList_repr_natCast (n : ℕ) : (n : ℤ).repr.toList = Nat.toDigits 10 n := Nat.toList_repr

theorem toList_repr_of_neg {value : ℤ} (hneg : value < 0) :
    value.repr.toList = '-' :: Nat.toDigits 10 value.natAbs := by
  have habs : (-value).toNat = value.natAbs := by omega
  rw [Int.repr_eq_if, if_neg (by omega), String.toList_append, Nat.toList_repr, habs]
  rfl

theorem mem_toList_repr {value : ℤ} {c : Char} (hc : c ∈ value.repr.toList) :
    c = '-' ∨ c.isDigit := by
  have hdigits : ∀ {n : ℕ}, c ∈ Nat.toDigits 10 n → c.isDigit :=
    Nat.isDigit_of_mem_toDigits (by decide) (by decide)
  rcases lt_or_ge value 0 with hneg | hpos
  · rw [toList_repr_of_neg hneg] at hc
    rcases List.mem_cons.mp hc with rfl | hc
    · exact .inl rfl
    · exact .inr (hdigits hc)
  · lift value to ℕ using hpos
    rw [toList_repr_natCast] at hc
    exact .inr (hdigits hc)

theorem notMem_toList_repr {value : ℤ} {c : Char} (hminus : c ≠ '-') (hdigit : ¬ c.isDigit) :
    c ∉ value.repr.toList := fun hc => (mem_toList_repr hc).elim hminus hdigit

/-- A rendered number consists of digits if and only if it is not negative. -/
theorem isDigit_strip_repr_iff {value : ℤ} :
    IsDigit table (strip table.isSpace value.repr.toList) ↔ 0 ≤ value := by
  constructor
  · intro hdigit
    by_contra hneg
    have hminus : '-' ∈ strip table.isSpace value.repr.toList := by
      refine mem_strip ?_ table.not_isSpace_minus
      rw [toList_repr_of_neg (not_le.mp hneg)]
      exact List.mem_cons_self ..
    exact notMem_of_isDigit hdigit (by decide) hminus
  · intro hpos
    lift value to ℕ using hpos
    rw [toList_repr_natCast, strip_toDigits]
    exact isDigit_of_isDecimal (isDecimal_toDigits value)

/-- `int(str(value))`. -/
theorem intOf_repr {value : ℤ} (hshort : Short value) :
    intOf table value.repr.toList = .ok value := by
  rcases lt_or_ge value 0 with hneg | hpos
  · have hdecimal : IsDecimal table (Nat.toDigits 10 value.natAbs) := isDecimal_toDigits _
    have hspace : ∀ c ∈ '-' :: Nat.toDigits 10 value.natAbs,
        ¬ (table.isSpace c && c ∉ separators) = true := by
      intro c hc hpad
      have hisSpace := (Bool.and_eq_true_iff.mp hpad).1
      rcases List.mem_cons.mp hc with rfl | hc
      · exact table.not_isSpace_minus hisSpace
      · exact table.not_isSpace_of_isDigit c (table.isDigit_of_decimal c (hdecimal.2 c hc)) hisSpace
    have hstrip := @strip_append (fun c => table.isSpace c && c ∉ separators) []
      ('-' :: Nat.toDigits 10 value.natAbs) [] (by simp) hspace (by simp)
    have hlength : (Nat.toDigits 10 value.natAbs).length ≤ maxStrDigits :=
      (Nat.length_toDigits_le_iff (by decide) (by decide)).mpr hshort
    have hmagnitude := (magnitudeOf_eq_ok_iff (isDigit_of_isDecimal hdecimal)).mpr
      ⟨hdecimal, hlength, (valueOf_toDigits value.natAbs).symm⟩
    rw [List.nil_append, List.append_nil] at hstrip
    rw [toList_repr_of_neg hneg, intOf, hstrip]
    refine bind_eq_ok.mpr ⟨value.natAbs, hmagnitude, congrArg Except.ok ?_⟩
    omega
  · lift value to ℕ using hpos
    rw [toList_repr_natCast]
    exact intOf_toDigits hshort

/-- The characters up to U+00FF. -/
def latin1 : CharTable where
  isSpace c := [9, 10, 11, 12, 13, 28, 29, 30, 31, 32, 133, 160].contains c.toNat
  isDigit c := c.isDigit || ['²', '³', '¹'].contains c
  decimal? c := if c.isDigit then some (c.toNat - '0'.toNat) else none
  isDigit_of_decimal := by
    intro c hdecimal
    split at hdecimal
    · rename_i hdigit
      rw [hdigit, Bool.true_or]
    · cases hdecimal
  not_isSpace_of_isDigit := by
    intro c hdigit hspace
    rw [Bool.or_eq_true, List.contains_iff_mem] at hdigit
    rcases hdigit with hdigit | hdigit
    · simp only [Char.isDigit, Bool.and_eq_true, decide_eq_true_eq, ge_iff_le,
        UInt32.le_iff_toNat_le] at hdigit
      have hlow : 48 ≤ c.toNat := hdigit.1
      have hhigh : c.toNat ≤ 57 := hdigit.2
      simp only [List.contains_iff_mem, List.mem_cons, List.not_mem_nil, or_false] at hspace
      omega
    · simp only [List.mem_cons, List.not_mem_nil, or_false] at hdigit
      rcases hdigit with rfl | rfl | rfl <;> simp at hspace
  not_isDigit_of_mem := by simp
  not_isSpace_minus := by simp
  isSpace_separator := by simp [separators]
  decimal?_ascii := fun _ hdigit => if_pos hdigit

end EveBuild.Numerals
