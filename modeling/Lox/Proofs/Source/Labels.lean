import Lox.Proofs.Source.Numbers
import Lox.Proofs.Tree.Shape

/-! The labels of literals.
In the text of a tree, different numbers have different labels, and none of them is the label of nil
or of a boolean. So a label tells its literal, unless that may be a string.
-/

namespace Lox

-----------------------------------------------------------------------------------------
-- Natural texts
-----------------------------------------------------------------------------------------

/-- A text is one lexeme and no other. -/
theorem Json.Writes.unique {text : List Char} {lexeme other : Json.Lexeme}
    (h : Json.Writes text lexeme) (h' : Json.Writes text other)
    : lexeme = other := by
  obtain ⟨c, after, rfl, -, reads⟩ := h
  obtain ⟨c', after', same, -, reads'⟩ := h'
  obtain ⟨rfl, rfl⟩ := List.cons.inj same
  have both := (reads [] .nil).symm.trans (reads' [] .nil)
  exact (Prod.mk.inj both).1

namespace Number

variable {x : Float} {negative : Bool} {magnitude : Decimal}

/-- A finite number is written with digits, a point, the mark of a power and signs. -/
theorem Finite.forall_mem_natural (finite : Finite x negative magnitude)
    : ∀ c ∈ natural x, c.isDigit = true ∨ c ∈ ['.', 'e', '+', '-'] := by
  have inner := Json.Parts.forall_mem_text (valid_naturalParts finite.trimmed)
  rw [Json.Parts.text_ofDecimal] at inner
  rw [finite.natural_eq]
  cases negative with
  | false => exact inner
  | true => exact List.forall_mem_cons.mpr ⟨by simp, inner⟩

/-- The names of doubles that are not finite bring three more letters. -/
theorem forall_mem_natural (x : Float)
    : ∀ c ∈ natural x, c.isDigit = true ∨ c ∈ ['.', 'e', '+', '-', 'n', 'a', 'i', 'f'] := by
  have more : ∀ c ∈ ['.', 'e', '+', '-'], c ∈ ['.', 'e', '+', '-', 'n', 'a', 'i', 'f'] := by simp
  cases unpacked : x.toModel.unpack with
  | notANumber => simp [natural, form, unpacked]
  | infinity sign => cases sign <;> simp [natural, form, unpacked, signed]
  | zero sign =>
      exact fun c member => ((finite_zero unpacked).forall_mem_natural c member).imp_right (more c)
  | finite sign mantissa exponent positive =>
      exact fun c member =>
        ((finite_nonzero unpacked).forall_mem_natural c member).imp_right (more c)

theorem notMem_natural (x : Float) {c : Char} (digit : c.isDigit = false)
    (mark : c ∉ ['.', 'e', '+', '-', 'n', 'a', 'i', 'f'])
    : c ∉ natural x := by
  intro member
  rcases forall_mem_natural x c member with h | h
  · rw [digit] at h
    cases h
  · exact mark h

/-- The text with the names that doubles have in documents when they are not finite. -/
def respelled (text : List Char) : List Char :=
  if text = "nan".toList then "NaN".toList
  else if text = "inf".toList then "Infinity".toList
  else if text = "-inf".toList then "-Infinity".toList
  else text

theorem Finite.numberText_eq (finite : Finite x negative magnitude)
    : Json.numberText x = respelled (natural x) := by
  have plain : 'n' ∉ natural x := by
    intro member
    rcases finite.forall_mem_natural _ member with digit | mark
    · cases digit
    · revert mark
      decide
  have same : respelled (natural x) = natural x := by
    have other : ∀ name : List Char, 'n' ∈ name → natural x ≠ name := by
      rintro name inside rfl
      exact plain inside
    rw [respelled, if_neg (other _ (by decide)), if_neg (other _ (by decide)),
      if_neg (other _ (by decide))]
  rw [same, Json.numberText, finite.form]

/-- Documents and traces write numbers alike, but for the names of those that are not finite. -/
theorem numberText_eq (x : Float) : Json.numberText x = respelled (natural x) := by
  cases unpacked : x.toModel.unpack with
  | notANumber =>
      simp only [Json.numberText, natural, form, unpacked]
      decide
  | infinity sign =>
      simp only [Json.numberText, natural, form, unpacked]
      cases sign <;> decide
  | zero sign => exact (finite_zero unpacked).numberText_eq
  | finite sign mantissa exponent positive => exact (finite_nonzero unpacked).numberText_eq

/-- Different doubles have different natural texts, because documents are read back. -/
theorem natural_injective : Function.Injective natural := by
  intro x y same
  have text : Json.numberText x = Json.numberText y := by
    rw [numberText_eq, numberText_eq, same]
  have first := Json.writes_numberText x
  rw [text] at first
  exact Datum.number.inj (Json.Lexeme.literal.inj (first.unique (Json.writes_numberText y)))

end Number

-----------------------------------------------------------------------------------------
-- Labels
-----------------------------------------------------------------------------------------

namespace Datum

/-- The literals that are words. -/
def words : List Datum :=
  [.nil, .boolean true, .boolean false]

/-- A literal is a number or a word, if it is no string. -/
theorem number_or_word {value : Datum} (known : value.isValue = true)
    (stringless : value.kind ≠ .string)
    : (∃ x, value = .number x) ∨ value ∈ words := by
  cases value with
  | nil => exact .inr (by simp [words])
  | boolean truth => cases truth <;> exact .inr (by simp [words])
  | number x => exact .inl ⟨x, rfl⟩
  | string => exact absurd rfl stringless
  | integer | list | object => cases known

theorem characters_label_number (x : Float)
    : (label (.number x)).characters = Number.natural x :=
  (Text.characters_ofString _).trans String.toList_ofList

/-- A word has a letter that is in no number. -/
theorem letter_of_word {value : Datum} (word : value ∈ words)
    : 'l' ∈ value.label.characters ∨ 'r' ∈ value.label.characters := by
  simp only [words, List.mem_cons, List.not_mem_nil, or_false] at word
  rcases word with rfl | rfl | rfl
  · exact .inl (by decide)
  · exact .inr (by decide)
  · exact .inl (by decide)

theorem label_number_ne_word (x : Float) {value : Datum} (word : value ∈ words)
    : (label (.number x)).characters ≠ value.label.characters := by
  intro same
  have letters : 'l' ∉ Number.natural x ∧ 'r' ∉ Number.natural x :=
    ⟨Number.notMem_natural x rfl (by simp), Number.notMem_natural x rfl (by simp)⟩
  rw [← characters_label_number, same] at letters
  exact (letter_of_word word).elim letters.1 letters.2

theorem label_inj_of_words {value other : Datum} (word : value ∈ words) (word' : other ∈ words)
    (same : value.label.characters = other.label.characters)
    : value = other := by
  simp only [words, List.mem_cons, List.not_mem_nil, or_false] at word word'
  rcases word with rfl | rfl | rfl <;> rcases word' with rfl | rfl | rfl <;>
    first | rfl | exact absurd same (by decide)

/-- A label tells its literal, if that is no string. -/
theorem label_inj {value other : Datum} (known : value.isValue = true)
    (known' : other.isValue = true) (stringless : value.kind ≠ .string)
    (stringless' : other.kind ≠ .string)
    (same : value.label.characters = other.label.characters)
    : value = other := by
  rcases number_or_word known stringless with ⟨x, rfl⟩ | word
  · rcases number_or_word known' stringless' with ⟨y, rfl⟩ | word'
    · rw [characters_label_number, characters_label_number] at same
      rw [Number.natural_injective same]
    · exact absurd same (label_number_ne_word x word')
  · rcases number_or_word known' stringless' with ⟨y, rfl⟩ | word'
    · exact absurd same.symm (label_number_ne_word y word)
    · exact label_inj_of_words word word' same

/-- No label of a literal looks like anything but a word, if the literal is no string. -/
theorem solid_label {value : Datum} (known : value.isValue = true)
    (stringless : value.kind ≠ .string)
    : Shape.Solid value.label.characters := by
  rcases number_or_word known stringless with ⟨x, rfl⟩ | word
  · rw [characters_label_number]
    intro c member
    have others : c ≠ ' ' ∧ c ≠ '(' ∧ c ≠ ')' := by
      refine ⟨?_, ?_, ?_⟩ <;>
        · rintro rfl
          exact Number.notMem_natural x rfl (by simp) member
    simp [Shape.delimits, others]
  · simp only [words, List.mem_cons, List.not_mem_nil, or_false] at word
    rcases word with rfl | rfl | rfl <;> decide

end Datum

end Lox
