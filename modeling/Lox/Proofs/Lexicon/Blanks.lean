import Lox.Proofs.Lexicon.MaximalMunch

/-! A blank ends most pieces, and so do other characters that go on with none.
Whatever stands behind it, a text with such a character behind it falls into the pieces that it
falls into by itself, as long as its last piece does not go on over that character.
-/

namespace Lox.Lexicon

/-- The character goes on with no word, no number and no symbol. -/
structure Breaks (c : Char) : Prop where
  word : continuesWord c = false
  digit : c.isDigit = false
  point : c ≠ '.'
  slash : c ≠ '/'
  equal : c ≠ '='

/-- The piece ends in front of the blank. Blanks go together, a comment goes on to the end of its
line, and a string that is never closed takes everything.
-/
def EndsBefore (blank : Char) : Piece → Prop
  | .token .. | .stray _ => True
  | .comment _ => blank = '\n'
  | .blank _ | .unclosed _ => False

-----------------------------------------------------------------------------------------
-- Runs of characters of one class
-----------------------------------------------------------------------------------------

section Runs

variable {p : Char → Bool} {stop : Char}

theorem takeWhile_append_stop (h : p stop = false) (text more : List Char)
    : (text ++ stop :: more).takeWhile p = text.takeWhile p := by
  induction text with
  | nil => simp [h]
  | cons c text ih => cases found : p c <;> simp [found, ih]

theorem dropWhile_append_stop (h : p stop = false) (text more : List Char)
    : (text ++ stop :: more).dropWhile p = text.dropWhile p ++ stop :: more := by
  induction text with
  | nil => simp [h]
  | cons c text ih => cases found : p c <;> simp [found, ih]

/-- A run that ends within a text ends there also with more text behind it. -/
theorem run_append_of_ends {text : List Char} (ends : text.dropWhile p ≠ []) (more : List Char)
    : (text ++ more).takeWhile p = text.takeWhile p
      ∧ (text ++ more).dropWhile p = text.dropWhile p ++ more := by
  induction text with
  | nil => exact absurd rfl ends
  | cons c text ih =>
      cases found : p c with
      | false => simp [found]
      | true =>
          rw [List.dropWhile_cons_of_pos found] at ends
          obtain ⟨taken, dropped⟩ := ih ends
          simp [found, taken, dropped]

end Runs

-----------------------------------------------------------------------------------------
-- Cuts
-----------------------------------------------------------------------------------------

variable {stop : Char}

theorem blank_space : Blank ' ' := .inl rfl

theorem blank_lineFeed : Blank '\n' := .inr (.inr (.inr rfl))

theorem Blank.breaks (h : Blank stop) : Breaks stop := by
  rcases h with rfl | rfl | rfl | rfl <;> exact ⟨rfl, rfl, by decide, by decide, by decide⟩

theorem breaks_semicolon : Breaks ';' :=
  ⟨rfl, rfl, by decide, by decide, by decide⟩

theorem cutFraction_of_ne_point {c : Char} (h : c ≠ '.') (whole after : List Char)
    : cutFraction whole (c :: after) = (.token .number whole, c :: after) := by
  unfold cutFraction
  split
  case h_1 same => exact absurd (List.cons.inj same).1 h
  case h_2 => rfl

/-- A number ends in front of such a character, with its fraction if a digit is behind the point. -/
theorem cutFraction_append_break (h : Breaks stop) (whole after more : List Char)
    : cutFraction whole (after ++ stop :: more)
      = ((cutFraction whole after).1, (cutFraction whole after).2 ++ stop :: more) := by
  have digit := h.digit
  cases after with
  | nil => exact cutFraction_of_ne_point h.point whole more
  | cons c after =>
      by_cases point : c = '.'
      · subst point
        cases after with
        | nil => simp [cutFraction, digit]
        | cons first others =>
            cases found : first.isDigit with
            | true =>
                simp [cutFraction, found, takeWhile_append_stop digit,
                  dropWhile_append_stop digit]
            | false => simp [cutFraction, found]
      · rw [List.cons_append, cutFraction_of_ne_point point, cutFraction_of_ne_point point]
        rfl

theorem cutNumber_append_break (h : Breaks stop) (c : Char) (rest more : List Char)
    : cutNumber c (rest ++ stop :: more)
      = ((cutNumber c rest).1, (cutNumber c rest).2 ++ stop :: more) := by
  have digit := h.digit
  rw [cutNumber, takeWhile_append_stop digit, dropWhile_append_stop digit]
  exact cutFraction_append_break h _ _ _

theorem cutWord_append_break (h : Breaks stop) (c : Char) (rest more : List Char)
    : cutWord c (rest ++ stop :: more)
      = ((cutWord c rest).1, (cutWord c rest).2 ++ stop :: more) := by
  have outside := h.word
  simp [cutWord, takeWhile_append_stop outside, dropWhile_append_stop outside]

/-- A string that is closed ends with its closing quote. -/
theorem cutString_append {rest : List Char} (more : List Char)
    (closed : ∀ text, (cutString rest).1 ≠ .unclosed text)
    : cutString (rest ++ more) = ((cutString rest).1, (cutString rest).2 ++ more) := by
  unfold cutString at closed ⊢
  have ends : rest.dropWhile (· != '"') ≠ [] := by
    intro none
    rw [none] at closed
    exact closed _ rfl
  obtain ⟨taken, dropped⟩ := run_append_of_ends ends more
  rw [taken, dropped]
  cases tail : rest.dropWhile (· != '"') with
  | nil => exact absurd tail ends
  | cons quote after => rfl

theorem cutSlash_of_ne_slash {c : Char} (h : c ≠ '/') (rest : List Char)
    : cutSlash (c :: rest) = (.token .slash ['/'], c :: rest) := by
  unfold cutSlash
  split
  case h_1 same => exact absurd (List.cons.inj same).1 h
  case h_2 => rfl

theorem cutSlash_append_break (h : Breaks stop) {rest : List Char} (more : List Char)
    (ends : EndsBefore stop (cutSlash rest).1)
    : cutSlash (rest ++ stop :: more)
      = ((cutSlash rest).1, (cutSlash rest).2 ++ stop :: more) := by
  cases rest with
  | nil => exact cutSlash_of_ne_slash h.slash more
  | cons c rest =>
      by_cases slash : c = '/'
      · subst slash
        obtain rfl : stop = '\n' := ends
        simp [cutSlash, takeWhile_append_stop, dropWhile_append_stop]
      · rw [List.cons_append, cutSlash_of_ne_slash slash, cutSlash_of_ne_slash slash]
        rfl

theorem cutComparison_of_ne_equal {c next : Char} {alone withEqual : Token.Kind} (h : next ≠ '=')
    (rest : List Char)
    : cutComparison c alone withEqual (next :: rest) = (.token alone [c], next :: rest) := by
  unfold cutComparison
  split
  case h_1 same => exact absurd (List.cons.inj same).1 h
  case h_2 => rfl

theorem cutComparison_append_break (h : Breaks stop) (c : Char) (alone withEqual : Token.Kind)
    (rest more : List Char)
    : cutComparison c alone withEqual (rest ++ stop :: more)
      = ((cutComparison c alone withEqual rest).1,
        (cutComparison c alone withEqual rest).2 ++ stop :: more) := by
  cases rest with
  | nil => exact cutComparison_of_ne_equal h.equal more
  | cons next rest =>
      by_cases equal : next = '='
      · subst equal
        rfl
      · rw [List.cons_append, cutComparison_of_ne_equal equal, cutComparison_of_ne_equal equal]
        rfl

theorem cutPunctuation_append (c : Char) (rest more : List Char)
    : cutPunctuation c (rest ++ more)
      = ((cutPunctuation c rest).1, (cutPunctuation c rest).2 ++ more) := by
  unfold cutPunctuation
  split <;> rfl

/-- The first piece of a text stays the same with such a character behind the text, if it ends
there.
-/
theorem cut_append_break (h : Breaks stop) {c : Char} {rest : List Char} (more : List Char)
    (ends : EndsBefore stop (cut c rest).1)
    : cut c (rest ++ stop :: more) = ((cut c rest).1, (cut c rest).2 ++ stop :: more) := by
  unfold cut at ends ⊢
  split
  case isTrue isBlank =>
    rw [if_pos isBlank] at ends
    exact ends.elim
  case isFalse notBlank =>
  rw [if_neg notBlank] at ends
  split
  case isTrue => exact cutWord_append_break h c rest more
  case isFalse notWord =>
  rw [if_neg notWord] at ends
  split
  case isTrue => exact cutNumber_append_break h c rest more
  case isFalse notDigit =>
  rw [if_neg notDigit] at ends
  split
  case isTrue quote =>
    rw [if_pos quote] at ends
    refine cutString_append (stop :: more) fun text unclosed => ?_
    rw [unclosed] at ends
    exact ends
  case isFalse notQuote =>
  rw [if_neg notQuote] at ends
  split
  case isTrue slash =>
    rw [if_pos slash] at ends
    exact cutSlash_append_break h more ends
  case isFalse =>
  cases comparison? c with
  | some kinds => exact cutComparison_append_break h c kinds.1 kinds.2 rest more
  | none => exact cutPunctuation_append c rest (stop :: more)

end Lox.Lexicon
