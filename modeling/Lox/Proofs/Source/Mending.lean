import Lox.Proofs.Lexicon.Neighbours
import Lox.Proofs.Scan.Joining
import Lox.Source

/-! Stray characters disturb nothing around them.
A text is mended by putting a blank in place of each stray character. This neither joins nor splits
the pieces beside it, so that the mended text has the same tokens and, but for the stray characters,
the same errors.
-/

namespace Lox

/-- The text of a piece, or a blank in place of a stray character. -/
def Piece.mended : Piece → List Char
  | .stray _ => [' ']
  | piece => piece.text

/-- The text with a blank in place of each stray character. -/
def Source.mended (source : String) : String :=
  String.ofList ((Lexicon.pieces source.toList).flatMap Piece.mended)

theorem Piece.mended_of_ne {piece : Piece} (h : ∀ c, piece ≠ .stray c)
    : piece.mended = piece.text := by
  cases piece with
  | stray c => exact absurd rfl (h c)
  | token | blank | comment | unclosed => rfl

namespace Lexicon

/-- Up to the first stray character, a text is mended already. -/
theorem mended_cases (pieces : List Piece)
    : pieces.flatMap Piece.mended = pieces.flatMap Piece.text
      ∨ ∃ front c back,
          pieces = front ++ .stray c :: back
          ∧ pieces.flatMap Piece.mended
            = front.flatMap Piece.text ++ ' ' :: back.flatMap Piece.mended := by
  induction pieces with
  | nil => exact .inl rfl
  | cons piece rest ih =>
      by_cases stray : ∃ c, piece = .stray c
      · obtain ⟨c, rfl⟩ := stray
        exact .inr ⟨[], c, rest, rfl, rfl⟩
      · have same := Piece.mended_of_ne fun c found => stray ⟨c, found⟩
        rcases ih with clean | ⟨front, c, back, rfl, mended⟩
        · exact .inl (by rw [List.flatMap_cons, List.flatMap_cons, clean, same])
        · exact .inr ⟨piece :: front, c, back, rfl, by simp [mended, same]⟩

/-- A piece stays the first one with a blank in the place of a character behind it, unless it is a
run of blanks itself or that character is a line feed.
-/
theorem Leading.replace {piece : Piece} {front more : List Char} {c : Char}
    (h : Leading piece (piece.text ++ (front ++ c :: more))) (line : c ≠ '\n')
    (proper : ∀ text, piece ≠ .blank text) (other : List Char)
    : Leading piece (piece.text ++ (front ++ ' ' :: other)) := by
  cases piece with
  | blank text => exact absurd rfl (proper text)
  | unclosed text =>
      have none := Scan.eq_nil_of_unclosed h
      simp at none
  | comment text =>
      -- A comment ends with its line, and the line feed is part of what stays.
      cases front with
      | nil => exact absurd (eq_lineFeed_of_comment h) line
      | cons d rest =>
          obtain rfl := eq_lineFeed_of_comment h
          have alone := h.matched.leading fun _ => Piece.noConfusion
          exact alone.append_blank blank_lineFeed rfl _
  | token | stray =>
      have shorter := h.of_prefix (List.prefix_append _ front)
        ((List.prefix_append_right_inj _).mpr (List.prefix_append front (c :: more)))
      rw [← List.append_assoc]
      exact shorter.append_blank blank_space trivial other

theorem ne_lineFeed_of_stray {text : List Char} {front back : List Piece} {c : Char}
    (h : Division text (front ++ .stray c :: back))
    : c ≠ '\n' := by
  cases (h.leading front (.stray c) back rfl).matched with
  | stray line => exact line

/-- A piece stays the first one when the text behind it is mended. -/
theorem Division.pieces_mended {text : List Char} {piece : Piece} {rest : List Piece}
    (h : Division text (piece :: rest)) (proper : ∀ text, piece ≠ .blank text)
    : pieces (piece.text ++ rest.flatMap Piece.mended)
      = piece :: pieces (rest.flatMap Piece.mended) := by
  have first := h.leading [] piece rest rfl
  rw [List.flatMap_cons] at first
  apply Leading.pieces_eq
  rcases mended_cases rest with clean | ⟨front, c, back, rfl, mended⟩
  · rwa [clean]
  · rw [mended]
    rw [List.flatMap_append, List.flatMap_cons] at first
    have line : c ≠ '\n' := ne_lineFeed_of_stray h.tail
    exact first.replace line proper (back.flatMap Piece.mended)

end Lexicon

namespace Scan

open Lexicon

/-- The scan without the errors of stray characters. -/
def withoutStrays (scan : Scan) : Scan :=
  { scan with errors := scan.errors.filter (·.fault ≠ .unexpectedCharacter) }

/-- A mended text has the scan of the text without its stray characters, by induction on the pieces
of the text.
-/
theorem ofPieces_mended (line : Nat) {text : List Char} {division : List Piece}
    (h : Division text division)
    : ofPieces line (pieces (division.flatMap Piece.mended))
      = (ofPieces line division).withoutStrays := by
  induction division generalizing line text with
  | nil => simp [pieces, ofPieces, withoutStrays]
  | cons piece rest ih =>
      have later := ih (line + lineFeeds piece.text) h.tail
      have matched := (h.leading [] piece rest rfl).matched
      rw [List.flatMap_cons]
      cases piece with
      | blank text =>
          cases matched with
          | blank _ blanks =>
              have all : ∀ c ∈ text, isBlank c = true := fun c member =>
                isBlank_iff.mpr (blanks c member)
              exact (ofPieces_blanks_append line all _).trans later
      | stray c =>
          cases matched with
          | stray lineFeed =>
              have all : ∀ d ∈ [' '], isBlank d = true := by simp [isBlank]
              have none : lineFeeds [' '] = lineFeeds [c] := by simp [lineFeeds, lineFeed]
              refine (ofPieces_blanks_append line all _).trans ?_
              rw [none]
              refine later.trans ?_
              simp [ofPieces, withoutStrays, Piece.text]
      | token | comment | unclosed =>
          rw [Piece.mended_of_ne fun _ => Piece.noConfusion,
            h.pieces_mended fun _ => Piece.noConfusion, ofPieces, later]
          rfl

/-- The stray characters are what a scan reports as unexpected, by induction on the pieces. -/
theorem ofPieces_strays (before : List Char) (pieces : List Piece)
    : ((ofPieces (1 + before.count '\n') pieces).errors.filter
          (·.fault = .unexpectedCharacter)).map (·.line)
      = ((places before pieces).filter (·.piece.isStray)).map Place.line := by
  induction pieces generalizing before with
  | nil => rfl
  | cons piece rest ih =>
      have later := ih (before ++ piece.text)
      rw [List.count_append, ← Nat.add_assoc] at later
      cases piece with
      | token | blank | comment | unclosed => exact later
      | stray c => exact congrArg (List.cons _) later

theorem ofSource_mended (source : String)
    : ofSource (Source.mended source) = (ofSource source).withoutStrays := by
  rw [ofSource, Source.mended, String.toList_ofList]
  exact ofPieces_mended 1 (division_pieces source.toList)

end Scan

namespace Source

open Lexicon Scan

/-- The characters of the source that are replaced by blanks are those that its scan reports as
unexpected. The other text has the same tokens without them, and the same errors but for theirs.
-/
structure Mends (source other : String) : Prop where
  reported :
    ((ofSource source).errors.filter (·.fault = .unexpectedCharacter)).map (·.line)
      = ((places [] (pieces source.toList)).filter (·.piece.isStray)).map Place.line
  tokens : (ofSource other).tokens = (ofSource source).tokens
  errors :
    (ofSource other).errors
      = (ofSource source).errors.filter (·.fault ≠ .unexpectedCharacter)
  /-- The syntax errors are the same, and so is a failure that carries them. -/
  syntactic : (ofString source).parse.errors = (ofString other).parse.errors
  malformed : ∀ failure,
    (ofString source).program = .error (.parse failure)
    ↔ (ofString other).program = .error (.parse failure)
  /-- With a stray character, the source is no program even if the other text reads as one. -/
  refused : ∀ statements, (ofString other).parse.program = .ok statements →
    (∃ error ∈ (ofSource source).errors, error.fault = .unexpectedCharacter) →
    (ofString source).program = .error (.scan (ofSource source).errors)

theorem parse_mended (source : String)
    : (ofString (mended source)).parse = (ofString source).parse := by
  have tokens : (ofSource (mended source)).tokens = (ofSource source).tokens := by
    rw [ofSource_mended]
    rfl
  rw [ofString, ofString, tokens]

theorem program_eq_parse_iff {source : Source} {failure : Parse.Failure}
    : source.program = .error (.parse failure) ↔ source.parse.program = .error failure := by
  unfold program
  cases source.parse.program with
  | error found => simp
  | ok statements =>
      cases source.scan.errors.isEmpty <;> simp

theorem program_of_errors {source : Source} {statements : List Stmt}
    (parsed : source.parse.program = .ok statements) (errors : source.scan.errors ≠ [])
    : source.program = .error (.scan source.scan.errors) := by
  rw [program, parsed]
  simp [errors]

/-- Stray characters do not disturb what stands around them: with blanks in their places, a text has
the same tokens, the same other lexical errors and the same syntax errors.
-/
theorem mending_disturbs_nothing (source : String) : Mends source (mended source) := by
  have parse := parse_mended source
  have scan := ofSource_mended source
  constructor
  case reported => exact ofPieces_strays [] (pieces source.toList)
  case tokens =>
    rw [scan]
    rfl
  case errors =>
    rw [scan]
    rfl
  case syntactic => rw [parse]
  case malformed =>
    intro failure
    rw [program_eq_parse_iff, program_eq_parse_iff, parse]
  case refused =>
    rintro statements parsed ⟨error, member, -⟩
    rw [parse] at parsed
    exact program_of_errors parsed (List.ne_nil_of_mem member)

/-- In strings and comments, no character is a stray one. -/
example : mended "1.@5 \"#\" //?" = "1. 5 \"#\" //?" := by cbv

end Source

end Lox
