import Lox.Datum.Text
import Lox.Json.Reader
import Lox.Proofs.Text.Numeral

/-! The reader takes in no integer that is too long.
Such an integer is a lexeme of its own, at which reading ends. So all data that are read can be put
into texts.
-/

namespace Lox

theorem Datum.areShort_iff {items : List Datum}
    : areShort items = true ↔ ∀ item ∈ items, item.isShort = true := by
  induction items with
  | nil => simp [areShort]
  | cons item rest ih => simp [areShort, ih]

theorem Datum.areShortFields_iff {fields : List (Text × Datum)}
    : areShortFields fields = true ↔ ∀ field ∈ fields, field.2.isShort = true := by
  induction fields with
  | nil => simp [areShortFields]
  | cons field rest ih => simp [areShortFields, ih]

/-- A field is put among others without a change to them. -/
theorem Datum.mem_of_mem_putField {fields : List (Text × Datum)} {name : Text} {content : Datum}
    {field : Text × Datum} (h : field ∈ putField fields name content)
    : field ∈ fields ∨ field = (name, content) := by
  induction fields with
  | nil => exact .inr (List.mem_singleton.mp h)
  | cons first rest ih =>
      rw [putField] at h
      split at h
      · rcases List.mem_cons.mp h with rfl | later
        · exact .inr rfl
        · exact .inl (List.mem_cons_of_mem _ later)
      · rcases List.mem_cons.mp h with rfl | later
        · exact .inl List.mem_cons_self
        · exact (ih later).imp_left (List.mem_cons_of_mem _)

namespace Json

-----------------------------------------------------------------------------------------
-- Lexemes
-----------------------------------------------------------------------------------------

/-- If the lexeme is a literal, that is not too long. -/
def Lexeme.Short : Lexeme → Prop
  | .literal value => value.isShort = true
  | _ => True

/-- Each digit makes a number ten times as large at most, by induction on the digits. -/
theorem ofDigitChars_lt {value bound : Nat} {digits : List Char}
    (all : ∀ c ∈ digits, c.isDigit = true) (small : value < 10 ^ bound)
    : Nat.ofDigitChars 10 digits value < 10 ^ (bound + digits.length) := by
  induction digits generalizing value bound with
  | nil => exact small
  | cons c rest ih =>
      obtain ⟨digit, later⟩ := List.forall_mem_cons.mp all
      have below : c.toNat ≤ '9'.toNat := by
        simp only [Char.isDigit, Bool.and_eq_true, decide_eq_true_eq] at digit
        exact digit.2
      have grown : 10 * value + (c.toNat - '0'.toNat) < 10 ^ (bound + 1) := by
        rw [Nat.pow_succ]
        change c.toNat ≤ 57 at below
        change 10 * value + (c.toNat - 48) < _
        omega
      rw [Nat.ofDigitChars_cons, List.length_cons, Nat.add_comm rest.length, ← Nat.add_assoc]
      exact ih later grown

theorem short_numberOf {negative : Bool} {whole : List Char} {fraction : Option (List Char)}
    {power : Option Int} (digits : ∀ c ∈ whole, c.isDigit = true)
    : (numberOf negative whole fraction power).Short := by
  unfold numberOf
  split
  case h_1 =>
    dsimp only
    split
    case isTrue => trivial
    case isFalse few =>
      have size : Nat.ofDigitChars 10 whole 0 < 10 ^ Text.maxDigits := by
        have below : Nat.ofDigitChars 10 whole 0 < 10 ^ (0 + whole.length) :=
          ofDigitChars_lt digits Nat.one_pos
        rw [Nat.zero_add] at below
        exact below.trans_le (Nat.pow_le_pow_right (by decide) (not_lt.mp few))
      have short := Text.isShort_iff (n := Nat.ofDigitChars 10 whole 0).mpr size
      change Text.isShort _ = true
      split
      · exact Text.isShort_neg short
      · exact short
  case h_2 => exact (rfl : Datum.isShort (.number _) = true)

theorem digits_of_cutWhole {text whole after : List Char}
    (h : cutWhole? text = some (whole, after))
    : ∀ c ∈ whole, c.isDigit = true := by
  unfold cutWhole? at h
  split at h
  case h_1 =>
    cases h
    exact List.forall_mem_singleton.mpr rfl
  case h_2 c rest _ =>
    split at h
    case isTrue digit =>
      cases h
      exact List.forall_mem_cons.mpr ⟨digit, List.all_eq_true.mp List.all_takeWhile⟩
    case isFalse => cases h
  case h_3 => cases h

theorem short_cutUnsigned {negative : Bool} {text after : List Char} {lexeme : Lexeme}
    (h : cutUnsigned? negative text = some (lexeme, after))
    : lexeme.Short := by
  unfold cutUnsigned? at h
  split at h
  case h_1 => cases h
  case h_2 found =>
    cases h
    exact short_numberOf (digits_of_cutWhole found)

theorem short_cutNumber {text after : List Char} {lexeme : Lexeme}
    (h : cutNumber? text = some (lexeme, after))
    : lexeme.Short := by
  unfold cutNumber? at h
  split at h <;> exact short_cutUnsigned h

theorem short_cutWord {text after : List Char} {lexeme : Lexeme}
    (h : cutWord? text = some (lexeme, after))
    : lexeme.Short := by
  have all : ∀ word ∈ words, word.2.isShort = true := by simp [words, Datum.isShort]
  obtain ⟨word, found, same⟩ := Option.map_eq_some_iff.mp h
  cases same
  exact all word (List.mem_of_find?_eq_some found)

theorem short_cut (c : Char) (rest : List Char) : (cut c rest).1.Short := by
  unfold cut
  split
  iterate 6 trivial
  · split <;> trivial
  · split
    · rename_i found
      rcases Option.or_eq_some_iff.mp found with word | ⟨_, number⟩
      · exact short_cutWord word
      · exact short_cutNumber number
    · trivial

theorem short_lexemes (text : List Char) : ∀ placed ∈ lexemes text, placed.lexeme.Short := by
  fun_induction lexemes text with
  | case1 => exact List.forall_mem_singleton.mpr trivial
  | case2 _ _ _ ih => exact ih
  | case3 c rest _ ih => exact List.forall_mem_cons.mpr ⟨short_cut c rest, ih⟩

-----------------------------------------------------------------------------------------
-- Reading
-----------------------------------------------------------------------------------------

def Frame.Short : Frame → Prop
  | .items before => ∀ item ∈ before, item.isShort = true
  | .field before _ => ∀ field ∈ before, field.2.isShort = true

/-- No integer that was read so far is too long. -/
def State.Short : State → Prop
  | .value frames | .firstItem frames | .firstName frames => ∀ frame ∈ frames, frame.Short
  | .name before frames | .colon before _ frames =>
      (∀ field ∈ before, field.2.isShort = true) ∧ ∀ frame ∈ frames, frame.Short
  | .after read frames => read.isShort = true ∧ ∀ frame ∈ frames, frame.Short

def Step.Short : Step → Prop
  | .next state => state.Short
  | .done value => value.isShort = true
  | .fault .. => True

variable {frames : List Frame} {lexeme : Lexeme}

theorem short_stepValue (outer : ∀ frame ∈ frames, frame.Short) (short : lexeme.Short)
    : (stepValue frames lexeme).Short := by
  cases lexeme with
  | openBrace | openBracket => exact outer
  | string => exact ⟨rfl, outer⟩
  | literal => exact ⟨short, outer⟩
  | _ => trivial

theorem short_stepName {before : List (Text × Datum)}
    (fields : ∀ field ∈ before, field.2.isShort = true) (outer : ∀ frame ∈ frames, frame.Short)
    : (stepName before frames lexeme).Short := by
  cases lexeme with
  | string => exact ⟨fields, outer⟩
  | _ => trivial

theorem short_stepAfter {value : Datum} (read : value.isShort = true)
    (outer : ∀ frame ∈ frames, frame.Short)
    : (stepAfter value frames lexeme).Short := by
  match frames with
  | [] => cases lexeme <;> first | exact read | trivial
  | .items before :: _ =>
      obtain ⟨items, rest⟩ := List.forall_mem_cons.mp outer
      have all : ∀ item ∈ value :: before, item.isShort = true :=
        List.forall_mem_cons.mpr ⟨read, items⟩
      cases lexeme with
      | comma => exact List.forall_mem_cons.mpr ⟨all, rest⟩
      | closeBracket =>
          refine ⟨Datum.areShort_iff.mpr fun item member => ?_, rest⟩
          exact all item (List.mem_reverse.mp member)
      | _ => trivial
  | .field before name :: _ =>
      obtain ⟨fields, rest⟩ := List.forall_mem_cons.mp outer
      have all : ∀ field ∈ Datum.putField before name value, field.2.isShort = true := by
        intro field member
        rcases Datum.mem_of_mem_putField member with earlier | rfl
        · exact fields field earlier
        · exact read
      cases lexeme with
      | comma => exact ⟨all, rest⟩
      | closeBrace => exact ⟨Datum.areShortFields_iff.mpr all, rest⟩
      | _ => trivial

/-- A lexeme leaves nothing in the state that is too long. -/
theorem short_step {state : State} (before : state.Short) (short : lexeme.Short)
    : (step state lexeme).Short := by
  unfold step
  split
  case h_1 => exact short_stepValue before short
  case h_2 =>
    split
    · exact ⟨rfl, before⟩
    · exact short_stepValue (List.forall_mem_cons.mpr ⟨List.forall_mem_nil _, before⟩) short
  case h_3 =>
    split
    · exact ⟨rfl, before⟩
    · exact short_stepName (List.forall_mem_nil _) before
  case h_4 => exact short_stepName before.1 before.2
  case h_5 =>
    split
    · exact List.forall_mem_cons.mpr before
    · trivial
  case h_6 => exact short_stepAfter before.1 before.2

/-- What is read from lexemes is not too long, by induction on the lexemes. -/
theorem short_readFrom {state : State} {lexemes : List Placed} {value : Datum}
    (before : state.Short) (short : ∀ placed ∈ lexemes, placed.lexeme.Short)
    (h : readFrom state lexemes = .ok value)
    : value.isShort = true := by
  induction lexemes generalizing state with
  | nil => cases h
  | cons placed rest ih =>
      obtain ⟨first, later⟩ := List.forall_mem_cons.mp short
      have stepped := short_step before first
      rw [readFrom] at h
      split at h
      case h_1 next =>
        rw [next] at stepped
        exact ih stepped later h
      case h_2 done =>
        rw [done] at stepped
        cases h
        exact stepped
      case h_3 => cases h

/-- The datum that a text writes has no integer that is too long. -/
theorem isShort_of_read {text : List Char} {document : Datum} (h : read text = .ok document)
    : document.isShort = true := by
  unfold read at h
  split at h
  case h_1 => cases h
  case h_2 =>
    split at h
    case h_1 found =>
      cases h
      have start : (State.value []).Short := List.forall_mem_nil _
      exact short_readFrom start (short_lexemes text) found
    case h_2 => cases h

end Json

end Lox
