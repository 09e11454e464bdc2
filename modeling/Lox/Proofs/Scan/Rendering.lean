import Lox.Proofs.Lexicon.Neighbours
import Lox.Proofs.Scan.Joining
import Lox.Proofs.Scan.Pieces

/-! Scanning undoes rendering.
Lexemes can be written one after another, with blanks and comments in the gaps between them. A scan
of the text finds these lexemes again, each on its line, and nothing else.
-/

namespace Lox.Scan

open Lexicon

/-- What may stand in a gap: blanks, and comments with the line feeds that end them. -/
inductive Gap : List Char → Prop where
  | nil
      : Gap []
  | blank {c : Char} {rest : List Char}
      (h : Blank c)
      (more : Gap rest)
      : Gap (c :: rest)
  | comment {body rest : List Char}
      (line : '\n' ∉ body)
      (more : Gap rest)
      : Gap ('/' :: '/' :: body ++ '\n' :: rest)

/-- A lexeme with the gap behind it. -/
structure Written where
  kind : Token.Kind
  lexeme : List Char
  gap : List Char

def Written.text (written : Written) : List Char :=
  written.lexeme ++ written.gap

/-- The text of a first gap and of the lexemes behind it. -/
def render (gap : List Char) (all : List Written) : List Char :=
  gap ++ all.flatMap Written.text

/-- The lexemes belong to their kinds and are kept apart. A gap behind a lexeme begins with a blank,
since a slash and a comment would be cut as a comment that begins with that slash.
-/
structure Spaced (all : List Written) : Prop where
  lexemes : ∀ written ∈ all, Matches (.token written.kind written.lexeme)
  gaps : ∀ written ∈ all, Gap written.gap
  apart : ∀ written ∈ all.dropLast, written.gap ≠ []
  blank : ∀ written ∈ all, ∀ c ∈ written.gap.head?, Blank c

/-- The places of the lexemes, the first of which stands behind some text. -/
def lexemePlaces (before : List Char) : List Written → List Place
  | [] => []
  | written :: rest =>
      ⟨before, .token written.kind written.lexeme⟩
        :: lexemePlaces (before ++ written.text) rest

/-- The scan has one token for each lexeme, and the end. -/
structure Recovers (gap : List Char) (all : List Written) (scan : Scan) : Prop where
  tokens : ∃ cut last, scan.tokens = cut ++ [last]
    ∧ List.Forall₂ Stands (lexemePlaces gap all) cut
    ∧ Ends (render gap all) last
  errors : scan.errors = []

-----------------------------------------------------------------------------------------
-- Gaps
-----------------------------------------------------------------------------------------

theorem ofPieces_blank (line : Nat) {c : Char} (h : Blank c) (text : List Char)
    : ofPieces line (pieces (c :: text)) = ofPieces (line + lineFeeds [c]) (pieces text) := by
  have all : ∀ d ∈ [c], isBlank d = true := by simp [isBlank_iff.mpr h]
  exact ofPieces_blanks_append line all text

theorem ofPieces_comment (line : Nat) {body : List Char} (h : '\n' ∉ body) (text : List Char)
    : ofPieces line (pieces ('/' :: '/' :: body ++ '\n' :: text))
      = ofPieces (line + lineFeeds ('/' :: '/' :: body)) (pieces ('\n' :: text)) := by
  have cut := (leading_comment h text).pieces_eq
  rw [Piece.text] at cut
  rw [cut]
  rfl

/-- A gap is skipped, by induction on what stands in it. -/
theorem Gap.ofPieces_append {gap : List Char} (h : Gap gap) (line : Nat) (text : List Char)
    : ofPieces line (pieces (gap ++ text)) = ofPieces (line + lineFeeds gap) (pieces text) := by
  induction h generalizing line with
  | nil => simp [lineFeeds]
  | @blank c rest blank _ ih =>
      rw [List.cons_append, ofPieces_blank line blank, ih, Nat.add_assoc, ← lineFeeds_append,
        List.singleton_append]
  | @comment body rest inside _ ih =>
      rw [List.append_assoc]
      refine (ofPieces_comment line inside (rest ++ text)).trans ?_
      rw [ofPieces_blank _ blank_lineFeed, ih, Nat.add_assoc, Nat.add_assoc, ← lineFeeds_append,
        ← lineFeeds_append, List.singleton_append]

-----------------------------------------------------------------------------------------
-- Lexemes
-----------------------------------------------------------------------------------------

theorem Spaced.tail {written : Written} {rest : List Written} (spaced : Spaced (written :: rest))
    : Spaced rest where
  lexemes other member := spaced.lexemes other (List.mem_cons_of_mem written member)
  gaps other member := spaced.gaps other (List.mem_cons_of_mem written member)
  apart other member := by
    cases rest with
    | nil => cases member
    | cons => exact spaced.apart other (List.mem_cons_of_mem written member)
  blank other member := spaced.blank other (List.mem_cons_of_mem written member)

section Behind

-- Text that stands behind the lexemes and goes on with none of them.
variable {closing : List Char} (breaks : ∀ c ∈ closing.head?, Breaks c)

include breaks

/-- The first lexeme is cut as it was written. -/
theorem Spaced.pieces_cons {written : Written} {rest : List Written}
    (spaced : Spaced (written :: rest))
    : pieces (written.lexeme ++ (written.gap ++ (rest.flatMap Written.text ++ closing)))
      = .token written.kind written.lexeme
        :: pieces (written.gap ++ (rest.flatMap Written.text ++ closing)) := by
  have matched := spaced.lexemes written List.mem_cons_self
  have alone : Leading (.token written.kind written.lexeme) written.lexeme :=
    matched.leading fun _ => Piece.noConfusion
  cases gap : written.gap with
  | cons blank others =>
      have isBlank : Blank blank := spaced.blank written List.mem_cons_self blank (by simp [gap])
      exact (alone.append_blank isBlank trivial _).pieces_eq
  | nil =>
      cases rest with
      | cons next others => exact absurd gap (spaced.apart written List.mem_cons_self)
      | nil =>
          cases closing with
          | nil =>
              have whole : Leading (.token written.kind written.lexeme) (written.lexeme ++ []) := by
                rwa [List.append_nil]
              exact whole.pieces_eq
          | cons stop more => exact (alone.append_break (breaks stop rfl) trivial more).pieces_eq

/-- Lexemes that are written behind some text become tokens, by induction on them. What stands
behind the lexemes is scanned as if it stood alone.
-/
theorem Spaced.ofPieces_append {all : List Written} (spaced : Spaced all) {before : List Char}
    {after : Scan}
    (last : ofPieces (1 + (before ++ all.flatMap Written.text).count '\n') (pieces closing) = after)
    : ∃ cut, List.Forall₂ Stands (lexemePlaces before all) cut
      ∧ ofPieces (1 + before.count '\n') (pieces (all.flatMap Written.text ++ closing))
        = ⟨cut ++ after.tokens, after.errors⟩ := by
  induction all generalizing before with
  | nil =>
      rw [List.flatMap_nil, List.append_nil] at last
      exact ⟨[], .nil, last⟩
  | cons written rest ih =>
      rw [List.flatMap_cons, ← List.append_assoc] at last
      obtain ⟨cut, stand, scanned⟩ := ih spaced.tail last
      have gap := spaced.gaps written List.mem_cons_self
      have line
          : 1 + before.count '\n' + lineFeeds written.lexeme + lineFeeds written.gap
            = 1 + (before ++ written.text).count '\n' := by
        rw [Nat.add_assoc, ← lineFeeds_append, List.count_append, Nat.add_assoc]
        rfl
      have first : Stands ⟨before, .token written.kind written.lexeme⟩
          (tokenOf written.kind written.lexeme (1 + before.count '\n')) :=
        stands_tokenOf (spaced.lexemes written List.mem_cons_self)
      refine ⟨_ :: cut, .cons first stand, ?_⟩
      rw [List.flatMap_cons, Written.text, List.append_assoc, List.append_assoc,
        spaced.pieces_cons breaks, ofPieces, Piece.text, gap.ofPieces_append, line, scanned]
      rfl

end Behind

/-- Lexemes that are written behind some text become tokens. -/
theorem Spaced.recovered {all : List Written} (spaced : Spaced all) (before : List Char)
    : ∃ cut last,
        ofPieces (1 + before.count '\n') (pieces (all.flatMap Written.text)) = ⟨cut ++ [last], []⟩
        ∧ List.Forall₂ Stands (lexemePlaces before all) cut
        ∧ Ends (before ++ all.flatMap Written.text) last := by
  have none : ∀ c ∈ ([] : List Char).head?, Breaks c := by simp
  obtain ⟨cut, stand, scanned⟩ := spaced.ofPieces_append none rfl
  rw [List.append_nil] at scanned
  exact ⟨cut, _, by rw [scanned, pieces, ofPieces], stand, ends_endToken _⟩

/-- However lexemes are spaced with blanks and comments, a scan of the text has no error and returns
these lexemes, with their literals and on their lines.
-/
theorem scanning_undoes_rendering {gap : List Char} {all : List Written} (start : Gap gap)
    (spaced : Spaced all)
    : Recovers gap all (ofSource (String.ofList (render gap all))) := by
  obtain ⟨cut, last, scanned, stand, ends⟩ := spaced.recovered gap
  have scan : ofSource (String.ofList (render gap all)) = ⟨cut ++ [last], []⟩ := by
    rw [ofSource, String.toList_ofList, ofList, render, start.ofPieces_append]
    exact scanned
  rw [scan]
  exact ⟨⟨cut, last, rfl, stand, ends⟩, rfl⟩

/-- A number before a point, a slash before a comment, a string over two lines and a word that
begins with a keyword.
-/
theorem scanning_undoes_rendering_of_close_neighbours
    : let gap := "//\"\n".toList
      let all : List Written :=
        [⟨.number, "1.50".toList, "\t//.5\n".toList⟩, ⟨.dot, ['.'], [' ']⟩,
          ⟨.slash, ['/'], "\r\n// x\n".toList⟩, ⟨.string, "\"a\n//b\"".toList, ['\n']⟩,
          ⟨.identifier, "orchid".toList, [' ']⟩, ⟨.orKeyword, "or".toList, []⟩]
      Gap gap
      ∧ Spaced all
      ∧ String.ofList (render gap all)
        = "//\"\n1.50\t//.5\n. /\r\n// x\n\"a\n//b\"\norchid or"
      ∧ Recovers gap all (ofSource (String.ofList (render gap all))) := by
  intro gap all
  have start : Gap gap := @Gap.comment ['"'] [] (by decide) .nil
  have number : Matches (.token .number "1.50".toList) :=
    @Matches.fraction ['1'] ['5', '0'] ⟨by decide, by simp [Digit]⟩ ⟨by decide, by simp [Digit]⟩
  have string : Matches (.token .string "\"a\n//b\"".toList) :=
    @Matches.string "a\n//b".toList (by decide)
  have word : Matches (.token .identifier "orchid".toList) :=
    matches_word ⟨'o', "rchid".toList, rfl, by simp [Letter], by simp [Letter]⟩
  have comment : Gap "//.5\n".toList := @Gap.comment ".5".toList [] (by decide) .nil
  have other : Gap "// x\n".toList := @Gap.comment " x".toList [] (by decide) .nil
  have tab : Blank '\t' := .inr (.inl rfl)
  have carriageReturn : Blank '\r' := .inr (.inr (.inl rfl))
  have spaced : Spaced all := by
    constructor
    case lexemes =>
      simp only [all, List.forall_mem_cons, List.not_mem_nil, false_implies, implies_true, and_true]
      exact ⟨number, .symbol rfl, .symbol rfl, string, word, .reserved rfl⟩
    case gaps =>
      simp only [all, List.forall_mem_cons, List.not_mem_nil, false_implies, implies_true, and_true]
      exact ⟨.blank tab comment, .blank blank_space .nil,
        .blank carriageReturn (.blank blank_lineFeed other), .blank blank_lineFeed .nil,
        .blank blank_space .nil, .nil⟩
    case apart => decide
    case blank => simp [all, blank_space, tab, carriageReturn, blank_lineFeed]
  exact ⟨start, spaced, by decide, scanning_undoes_rendering start spaced⟩

end Lox.Scan
