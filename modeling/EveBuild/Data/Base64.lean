import Mathlib.Data.List.DropRight

/-!
# Base64

`base64.urlsafe_b64encode`, and the digits that are left when its padding is stripped.
-/

namespace EveBuild.Base64

/-- The digit of a value below 64. -/
def digit (value : ℕ) : Char :=
  if value < 26 then Char.ofNat (65 + value)
  else if value < 52 then Char.ofNat (71 + value)
  else if value < 62 then Char.ofNat (value - 4)
  else if value = 62 then '-' else '_'

/-- `base64.urlsafe_b64encode`. -/
def urlsafeB64encode : List UInt8 → List Char
  | [] => []
  | [a] => [digit (a.toNat / 4), digit (a.toNat % 4 * 16), '=', '=']
  | [a, b] =>
      [digit (a.toNat / 4), digit (a.toNat % 4 * 16 + b.toNat / 16),
        digit (b.toNat % 16 * 4), '=']
  | a :: b :: c :: bytes =>
      digit (a.toNat / 4) :: digit (a.toNat % 4 * 16 + b.toNat / 16) ::
        digit (b.toNat % 16 * 4 + c.toNat / 64) :: digit (c.toNat % 64) ::
        urlsafeB64encode bytes

/-- The digits without padding. -/
def digits : List UInt8 → List Char
  | [] => []
  | [a] => [digit (a.toNat / 4), digit (a.toNat % 4 * 16)]
  | [a, b] =>
      [digit (a.toNat / 4), digit (a.toNat % 4 * 16 + b.toNat / 16),
        digit (b.toNat % 16 * 4)]
  | a :: b :: c :: bytes =>
      digit (a.toNat / 4) :: digit (a.toNat % 4 * 16 + b.toNat / 16) ::
        digit (b.toNat % 16 * 4 + c.toNat / 64) :: digit (c.toNat % 64) ::
        digits bytes

theorem digit_ne {value : ℕ} (hvalue : value < 64) : digit value ≠ '=' := by
  have hall : ∀ value < 64, digit value ≠ '=' := by decide
  exact hall value hvalue

/-- What is padded is stripped again. -/
theorem rdropWhile_padding {text : List Char} (htext : '=' ∉ text) (padding : ℕ) :
    (text ++ List.replicate padding '=').rdropWhile (· = '=') = text := by
  induction padding with
  | zero =>
      rw [List.replicate_zero, List.append_nil, List.rdropWhile_eq_self_iff]
      intro hne hlast
      exact htext (of_decide_eq_true hlast ▸ List.getLast_mem hne)
  | succ padding ih =>
      rw [List.replicate_succ', ← List.append_assoc, List.rdropWhile_concat_pos _ _ _ (by simp), ih]

theorem notMem_digits (bytes : List UInt8) : '=' ∉ digits bytes := by
  have hdigit : ∀ value < 64, '=' ≠ digit value := fun value hvalue =>
    (digit_ne hvalue).symm
  induction bytes using digits.induct with
  | case1 => simp [digits]
  | case2 a =>
      have ha := a.toNat_lt
      simp [digits, hdigit (a.toNat / 4) (by omega), hdigit (a.toNat % 4 * 16) (by omega)]
  | case3 a b =>
      have ha := a.toNat_lt
      have hb := b.toNat_lt
      simp [digits, hdigit (a.toNat / 4) (by omega),
        hdigit (a.toNat % 4 * 16 + b.toNat / 16) (by omega),
        hdigit (b.toNat % 16 * 4) (by omega)]
  | case4 a b c bytes ih =>
      have ha := a.toNat_lt
      have hb := b.toNat_lt
      have hc := c.toNat_lt
      simp [digits, hdigit (a.toNat / 4) (by omega),
        hdigit (a.toNat % 4 * 16 + b.toNat / 16) (by omega),
        hdigit (b.toNat % 16 * 4 + c.toNat / 64) (by omega),
        hdigit (c.toNat % 64) (by omega), ih]

theorem urlsafeB64encode_eq (bytes : List UInt8) :
    ∃ padding, urlsafeB64encode bytes = digits bytes ++ List.replicate padding '=' := by
  induction bytes using digits.induct with
  | case1 => exact ⟨0, rfl⟩
  | case2 a => exact ⟨2, rfl⟩
  | case3 a b => exact ⟨1, rfl⟩
  | case4 a b c bytes ih =>
      obtain ⟨padding, hpadding⟩ := ih
      exact ⟨padding, by rw [urlsafeB64encode, digits, hpadding]; rfl⟩

end EveBuild.Base64
