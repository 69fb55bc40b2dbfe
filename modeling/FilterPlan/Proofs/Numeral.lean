import FilterPlan.Text.Unsigned

set_option autoImplicit false

namespace FilterPlan

namespace Text

def Numeral (text : List Char) (value : Nat) : Prop :=
  ∃ digits, (text = digits ∨ text = '+' :: digits) ∧ digits ≠ [] ∧ digits.all Char.isDigit = true ∧
    Nat.ofDigitChars 10 digits 0 = value

theorem digit_between (c : Char) : '0' ≤ c ∧ c ≤ '9' ↔ c.isDigit = true := by
  simp [Char.isDigit, Char.le_def]

theorem digit_ten (c : Char) : digit? 10 c = if c.isDigit then some (c.toNat - '0'.toNat) else none := by
  simp only [digit?, digit_between]
  by_cases isDigit : c.isDigit = true
  · have range := Char.isDigit_iff_toNat.mp isDigit
    have small : c.toNat - '0'.toNat < 10 := by
      simp only [Char.reduceToNat] at range ⊢
      omega
    simp only [if_pos isDigit, if_pos small]
  · simp only [if_neg isDigit]
    refine if_neg ?_
    split
    · omega
    · split <;> omega

theorem digits_grow (digits : List Char) (start : Nat) : start ≤ Nat.ofDigitChars 10 digits start := by
  induction digits generalizing start with
  | nil => simp
  | cons c rest ih =>
      rw [Nat.ofDigitChars_cons]
      have further := ih (10 * start + (c.toNat - '0'.toNat))
      omega

-- So a value that has passed the limit is not below it at the end, and reading may stop there.
theorem read_digits_iff (limit start : Nat) (digits : List Char) (value : Nat) (within : start ≤ limit) :
    readDigits limit start digits = .ok value ↔
      digits.all Char.isDigit = true ∧ Nat.ofDigitChars 10 digits start = value ∧ value ≤ limit := by
  induction digits generalizing start with
  | nil =>
      simp only [readDigits, Except.ok.injEq, List.all_nil, Nat.ofDigitChars_nil, true_and]
      constructor
      · rintro rfl
        exact ⟨rfl, within⟩
      · rintro ⟨same, -⟩
        exact same
  | cons c rest ih =>
      rw [readDigits, digit_ten, List.all_cons, Nat.ofDigitChars_cons]
      by_cases isDigit : c.isDigit = true
      · rw [if_pos isDigit]
        dsimp only
        rw [isDigit, Bool.true_and, Nat.mul_comm start 10]
        by_cases tooLarge : limit < 10 * start + (c.toNat - '0'.toNat)
        · rw [if_pos tooLarge]
          refine ⟨fun read => (nomatch read), fun ⟨_, same, below⟩ => ?_⟩
          have grown := digits_grow rest (10 * start + (c.toNat - '0'.toNat))
          omega
        · rw [if_neg tooLarge]
          exact ih _ (by omega)
      · rw [if_neg isDigit]
        simp [isDigit]

theorem numeral_signed (digits : List Char) (value : Nat) :
    Numeral ('+' :: digits) value ↔
      digits ≠ [] ∧ digits.all Char.isDigit = true ∧ Nat.ofDigitChars 10 digits 0 = value := by
  constructor
  · rintro ⟨_, rfl | same, exist, areDigits, isValue⟩
    · have sign : ('+' :: digits).all Char.isDigit = false := rfl
      rw [sign] at areDigits
      cases areDigits
    · obtain rfl := (List.cons.inj same).2
      exact ⟨exist, areDigits, isValue⟩
  · exact fun ⟨exist, areDigits, isValue⟩ => ⟨digits, Or.inr rfl, exist, areDigits, isValue⟩

theorem numeral_unsigned (text : List Char) (value : Nat) (unsigned : ∀ digits, text ≠ '+' :: digits) :
    Numeral text value ↔ text ≠ [] ∧ text.all Char.isDigit = true ∧ Nat.ofDigitChars 10 text 0 = value := by
  constructor
  · rintro ⟨digits, rfl | same, exist, areDigits, isValue⟩
    · exact ⟨exist, areDigits, isValue⟩
    · exact absurd same (unsigned digits)
  · exact fun ⟨exist, areDigits, isValue⟩ => ⟨text, Or.inl rfl, exist, areDigits, isValue⟩

theorem read_unsigned_iff (limit : Nat) (text : List Char) (value : Nat) :
    readUnsigned limit text = .ok value ↔ Numeral text value ∧ value ≤ limit := by
  unfold readUnsigned
  split
  · simp [Numeral]
  · simp [numeral_signed]
  · rename_i digits notAlone
    have exist : digits ≠ [] := fun nothing => notAlone (nothing ▸ rfl)
    rw [read_digits_iff limit 0 digits value (Nat.zero_le _), numeral_signed, and_assoc, and_assoc]
    exact (and_iff_right exist).symm
  · rename_i exist _ unsigned
    rw [read_digits_iff limit 0 text value (Nat.zero_le _), numeral_unsigned text value unsigned, and_assoc, and_assoc]
    exact (and_iff_right exist).symm

end Text

end FilterPlan
