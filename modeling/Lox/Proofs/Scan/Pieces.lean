import Lox.Proofs.Lexicon.MaximalMunch
import Lox.Scan
import Mathlib.Data.List.Forall2

/-! A scan reports the division of its text.
The tokens are the token pieces in their order, with the lines where they begin. The errors are the
stray characters and, after them, the string that is never closed.
-/

namespace Lox

def Piece.isToken : Piece → Bool
  | .token .. => true
  | _ => false

def Piece.isStray : Piece → Bool
  | .stray _ => true
  | _ => false

def Piece.isUnclosed : Piece → Bool
  | .unclosed _ => true
  | _ => false

namespace Scan

open Lexicon

/-- A piece of a text, with the text before it. -/
structure Place where
  before : List Char
  piece : Piece

/-- The line on which a piece begins. -/
def Place.line (place : Place) : Nat :=
  1 + place.before.count '\n'

def places (before : List Char) : List Piece → List Place
  | [] => []
  | piece :: rest => ⟨before, piece⟩ :: places (before ++ piece.text) rest

/-- The literal that the text of a token stands for. -/
inductive Denotes : Token.Kind → List Char → Datum → Prop where
  | whole {digits : List Char}
      (h : Digits digits)
      : Denotes .number digits (.number (Decimal.ofDigits digits []).toFloat)
  | fraction {whole fraction : List Char}
      (before : Digits whole)
      (after : Digits fraction)
      : Denotes .number (whole ++ '.' :: fraction)
        (.number (Decimal.ofDigits whole fraction).toFloat)
  | string (content : List Char)
      : Denotes .string ('"' :: content ++ ['"']) (.string (String.ofList content))
  | none {kind : Token.Kind} {text : List Char}
      (number : kind ≠ .number)
      (string : kind ≠ .string)
      : Denotes kind text .nil

/-- The token is the piece at the place. -/
structure Stands (place : Place) (token : Token) : Prop where
  kind : place.piece = .token token.kind place.piece.text
  lexeme : token.lexeme = .string (String.ofList place.piece.text)
  literal : Denotes token.kind place.piece.text token.literal
  line : token.line = place.line

/-- The token is the end of the text. -/
structure Ends (text : List Char) (token : Token) : Prop where
  kind : token.kind = .endOfInput
  lexeme : token.lexeme = .string ""
  literal : token.literal = .nil
  line : token.line = (1 + text.count '\n' : Nat)

/-- The errors of pieces: each stray character on its line and, if there is a string that is never
closed, that one last, on the line where the text ends.
-/
def faults (text : List Char) (pieces : List Piece) : List (Nat × String) :=
  ((places [] pieces).filter (·.piece.isStray)).map (fun place =>
      (place.line, "Unexpected character."))
    ++ if pieces.any Piece.isUnclosed then
        [(1 + text.count '\n', "Unterminated string.")]
      else []

/-- The scan has one token for each token piece and the end, and the errors of the pieces. -/
structure Reports (text : List Char) (pieces : List Piece) (scan : Scan) : Prop where
  tokens : ∃ cut last, scan.tokens = cut ++ [last]
    ∧ List.Forall₂ Stands ((places [] pieces).filter (·.piece.isToken)) cut
    ∧ Ends text last
  errors : scan.errors.map (fun error => (error.line, error.fault.message)) = faults text pieces

theorem bne_point_of_digits {digits : List Char} (h : Digits digits)
    : ∀ c ∈ digits, (c != '.') = true := by
  apply forall_bne
  intro member
  have digit := h.2 _ member
  revert digit
  simp [Digit]

theorem literalOf_eq_nil {kind : Token.Kind} (text : List Char) (number : kind ≠ .number)
    (string : kind ≠ .string)
    : literalOf kind text = .nil := by
  rw [literalOf]
  · exact number
  · exact string

theorem literalOf_string (content : List Char)
    : literalOf .string ('"' :: content ++ ['"']) = .string (String.ofList content) := by
  have inner : ((('"' :: content) ++ ['"']).drop 1).dropLast = content := by simp
  rw [literalOf, inner]

theorem literalOf_whole {digits : List Char} (h : Digits digits)
    : literalOf .number digits = .number (Decimal.ofDigits digits []).toFloat := by
  have points := bne_point_of_digits h
  have run : digits.takeWhile (· != '.') = digits := List.takeWhile_eq_self_iff.mpr points
  have rest : digits.dropWhile (· != '.') = [] := List.dropWhile_eq_nil_iff.mpr points
  simp [literalOf, numberOf, run, rest]

theorem literalOf_fraction {whole fraction : List Char} (before : Digits whole)
    : literalOf .number (whole ++ '.' :: fraction)
      = .number (Decimal.ofDigits whole fraction).toFloat := by
  have points := bne_point_of_digits before
  simp [literalOf, numberOf, List.takeWhile_append_of_pos points,
    List.dropWhile_append_of_pos points]

theorem denotes_nil {kind : Token.Kind} (text : List Char) (number : kind ≠ .number)
    (string : kind ≠ .string)
    : Denotes kind text (literalOf kind text) := by
  rw [literalOf_eq_nil text number string]
  exact .none number string

/-- The literal of a token is what its text denotes, by cases on the terminal. -/
theorem denotes_literalOf {kind : Token.Kind} {text : List Char}
    (h : Matches (.token kind text))
    : Denotes kind text (literalOf kind text) := by
  cases h with
  | symbol known | reserved known =>
      apply denotes_nil
      · rintro rfl
        cases known
      · rintro rfl
        cases known
  | identifier => exact .none (by decide) (by decide)
  | @string content closed =>
      rw [literalOf_string]
      exact .string content
  | whole digits =>
      rw [literalOf_whole digits]
      exact .whole digits
  | fraction before after =>
      rw [literalOf_fraction before]
      exact .fraction before after

/-- A text denotes no other literal. -/
theorem Denotes.eq_literalOf {kind : Token.Kind} {text : List Char} {literal : Datum}
    (h : Denotes kind text literal)
    : literal = literalOf kind text := by
  cases h with
  | whole digits => exact (literalOf_whole digits).symm
  | fraction before => exact (literalOf_fraction before).symm
  | string content => exact (literalOf_string content).symm
  | none number string => exact (literalOf_eq_nil text number string).symm

theorem stands_tokenOf {before text : List Char} {kind : Token.Kind}
    (h : Matches (.token kind text))
    : Stands ⟨before, .token kind text⟩ (tokenOf kind text (1 + before.count '\n')) where
  kind := rfl
  lexeme := rfl
  literal := denotes_literalOf h
  line := rfl

theorem ends_endToken (text : List Char) : Ends text (endToken (1 + text.count '\n')) where
  kind := rfl
  lexeme := rfl
  literal := rfl
  line := rfl

/-- The tokens of pieces that stand after a text, by induction on the pieces. -/
theorem ofPieces_tokens (before : List Char) {pieces : List Piece}
    (h : ∀ piece ∈ pieces, Matches piece)
    : ∃ cut last, (ofPieces (1 + before.count '\n') pieces).tokens = cut ++ [last]
      ∧ List.Forall₂ Stands ((places before pieces).filter (·.piece.isToken)) cut
      ∧ Ends (before ++ pieces.flatMap Piece.text) last := by
  induction pieces generalizing before with
  | nil =>
      refine ⟨[], _, rfl, .nil, ?_⟩
      rw [List.flatMap_nil, List.append_nil]
      exact ends_endToken before
  | cons piece rest ih =>
      obtain ⟨cut, last, tokens, stand, ends⟩ :=
        ih (before ++ piece.text) fun other member => h other (List.mem_cons_of_mem piece member)
      rw [List.count_append, ← Nat.add_assoc] at tokens
      rw [List.append_assoc, ← List.flatMap_cons] at ends
      cases piece with
      | token kind text =>
          refine ⟨tokenOf kind text (1 + before.count '\n') :: cut, last, ?_, ?_, ends⟩
          · exact congrArg (List.cons _) tokens
          · exact .cons (stands_tokenOf (h _ (by simp))) stand
      | blank | comment | unclosed | stray => exact ⟨cut, last, tokens, stand, ends⟩

/-- After a leading piece that is never closed there is no text. -/
theorem eq_nil_of_unclosed {text after : List Char}
    (h : Leading (.unclosed text) (text ++ after))
    : after = [] := by
  cases h.matched with
  | @unclosed body never =>
      have first : .unclosed ('"' :: body) = (cut '"' (body ++ after)).1 := leading_iff.mp h
      have rest := cut_append '"' (body ++ after)
      rw [← first] at rest
      have same : (cut '"' (body ++ after)).2 = after := List.append_cancel_left rest
      rw [← same]
      rw [cut_quote, cutString] at first ⊢
      cases tail : (body ++ after).dropWhile (· != '"') with
      | nil => rfl
      | cons quote more =>
          rw [tail] at first
          cases first

/-- The errors of pieces that stand after a text, by induction on the pieces. A string that is never
closed is the last piece, so that its error is the last one.
-/
theorem ofPieces_errors (before : List Char) {pieces : List Piece}
    (h : ∀ front text back, pieces = front ++ .unclosed text :: back → back = [])
    : (ofPieces (1 + before.count '\n') pieces).errors.map
        (fun error => (error.line, error.fault.message))
      = ((places before pieces).filter (·.piece.isStray)).map
          (fun place => (place.line, "Unexpected character."))
        ++ if pieces.any Piece.isUnclosed then
            [(1 + (before ++ pieces.flatMap Piece.text).count '\n', "Unterminated string.")]
          else [] := by
  induction pieces generalizing before with
  | nil => rfl
  | cons piece rest ih =>
      have errors := ih (before ++ piece.text) fun front text back same =>
        h (piece :: front) text back (congrArg (List.cons piece) same)
      rw [List.count_append, ← Nat.add_assoc, List.append_assoc, ← List.flatMap_cons] at errors
      cases piece with
      | token | blank | comment => exact errors
      | stray c => exact congrArg (List.cons _) errors
      | unclosed text =>
          have last : rest = [] := h [] text rest rfl
          subst last
          simp [ofPieces, places, Piece.isStray, Piece.isUnclosed, Piece.text, lineFeeds,
            LexicalFault.message, Nat.add_assoc]

theorem reports_of_division {text : List Char} {pieces : List Piece}
    (h : Division text pieces)
    : Reports text pieces (ofPieces 1 pieces) where
  tokens := by
    have matched : ∀ piece ∈ pieces, Matches piece := by
      intro piece member
      obtain ⟨front, back, same⟩ := List.append_of_mem member
      exact (h.leading front piece back same).matched
    have tokens := ofPieces_tokens [] matched
    rw [List.nil_append, h.covers] at tokens
    exact tokens
  errors := by
    have last : ∀ front text back, pieces = front ++ .unclosed text :: back → back = [] := by
      intro front text back same
      have after := eq_nil_of_unclosed (h.leading front _ back same)
      cases back with
      | nil => rfl
      | cons piece rest =>
          refine absurd (List.append_eq_nil_iff.mp after).1 (h.nonempty piece ?_)
          simp [same]
    have errors := ofPieces_errors [] last
    rw [List.nil_append, h.covers] at errors
    exact errors

theorem reports_pieces (source : String)
    : Reports source.toList (pieces source.toList) (ofSource source) :=
  reports_of_division (division_pieces source.toList)

/-- A source text has one division into longest matches, and its scan reports that one. -/
theorem reports_longest_matches (source : String)
    : ∃ pieces, (∀ other, Division source.toList other ↔ other = pieces)
      ∧ Reports source.toList pieces (ofSource source) := by
  refine ⟨Lexicon.pieces source.toList, fun other => division_iff, ?_⟩
  exact reports_of_division (division_iff.mpr rfl)

end Scan

end Lox
