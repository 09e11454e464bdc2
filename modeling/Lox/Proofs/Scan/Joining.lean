import Lox.Proofs.Lexicon.Blanks
import Lox.Proofs.Scan.Pieces

/-! Scans of texts that stand one below the other.
A line feed keeps the tokens of two texts apart, so that the scan of both is the scan of the upper
one, followed by that of the lower one further down. Only a string that is never closed reaches over
the line feed.
-/

namespace Lox

/-- The token with more lines above it. -/
def Token.moveDown (lines : Nat) (token : Token) : Token :=
  { token with line := token.line + lines }

def LexicalError.moveDown (lines : Nat) (error : LexicalError) : LexicalError :=
  { error with line := error.line + lines }

namespace Scan

open Lexicon

/-- The scan with more lines above its text. -/
def moveDown (lines : Nat) (scan : Scan) : Scan :=
  ⟨scan.tokens.map (.moveDown lines), scan.errors.map (.moveDown lines)⟩

/-- The scan with another one below it. The end of the upper text is no end any more. -/
def above (upper lower : Scan) : Scan :=
  ⟨upper.tokens.dropLast ++ lower.tokens, upper.errors ++ lower.errors⟩

/-- No string of the text is left open. -/
def Closed (scan : Scan) : Prop :=
  ∀ error ∈ scan.errors, error.fault ≠ .unterminatedString

-----------------------------------------------------------------------------------------
-- Lines
-----------------------------------------------------------------------------------------

theorem lineFeeds_append (first second : List Char)
    : lineFeeds (first ++ second) = lineFeeds first + lineFeeds second :=
  List.count_append

theorem tokenOf_moveDown (kind : Token.Kind) (text : List Char) (line lines : Nat)
    : (tokenOf kind text line).moveDown lines = tokenOf kind text (line + lines) := by
  simp [Token.moveDown, tokenOf]

/-- Pieces that begin further down make tokens and errors further down, by induction on them. -/
theorem ofPieces_moveDown (line lines : Nat) (pieces : List Piece)
    : ofPieces (line + lines) pieces = (ofPieces line pieces).moveDown lines := by
  induction pieces generalizing line with
  | nil => simp [ofPieces, moveDown, endToken, tokenOf_moveDown]
  | cons piece rest ih =>
      have later := ih (line + lineFeeds piece.text)
      rw [Nat.add_right_comm] at later
      cases piece with
      | token | blank | comment | stray =>
          simp [ofPieces, later, moveDown, tokenOf_moveDown, LexicalError.moveDown]
      | unclosed text =>
          simp [ofPieces, later, moveDown, LexicalError.moveDown, Nat.add_right_comm]

-----------------------------------------------------------------------------------------
-- Blanks
-----------------------------------------------------------------------------------------

/-- Blanks at the beginning of a text are skipped. -/
theorem ofPieces_blanks (line : Nat) (text : List Char)
    : ofPieces line (pieces text)
      = ofPieces (line + lineFeeds (text.takeWhile isBlank)) (pieces (text.dropWhile isBlank)) := by
  cases text with
  | nil => rfl
  | cons c rest =>
      cases blank : isBlank c with
      | false => simp [blank, lineFeeds]
      | true =>
          rw [pieces, cut_blank (isBlank_iff.mp blank)]
          simp [blank, cutBlank, ofPieces, Piece.text]

/-- Blanks in front of a text are skipped. -/
theorem ofPieces_blanks_append (line : Nat) {blanks : List Char}
    (all : ∀ c ∈ blanks, isBlank c = true) (text : List Char)
    : ofPieces line (pieces (blanks ++ text))
      = ofPieces (line + lineFeeds blanks) (pieces text) := by
  rw [ofPieces_blanks line, ofPieces_blanks (line + lineFeeds blanks) text,
    List.takeWhile_append_of_pos all, List.dropWhile_append_of_pos all, lineFeeds_append,
    Nat.add_assoc]

-----------------------------------------------------------------------------------------
-- Joining
-----------------------------------------------------------------------------------------

theorem ofPieces_tokens_ne_nil (line : Nat) (pieces : List Piece)
    : (ofPieces line pieces).tokens ≠ [] := by
  induction pieces generalizing line with
  | nil => simp [ofPieces]
  | cons piece rest ih => cases piece <;> simp [ofPieces, ih]

/-- One piece more in front of both leaves a scan above another. -/
theorem ofPieces_cons_above {line : Nat} {piece : Piece} {upper both : List Piece} {lower : Scan}
    (h : ofPieces (line + lineFeeds piece.text) both
      = (ofPieces (line + lineFeeds piece.text) upper).above lower)
    : ofPieces line (piece :: both) = (ofPieces line (piece :: upper)).above lower := by
  have more := ofPieces_tokens_ne_nil (line + lineFeeds piece.text) upper
  cases piece <;> simp_all [ofPieces, above, List.dropLast_cons_of_ne_nil]

theorem isBlank_of_cut {c : Char} {rest text : List Char} (h : (cut c rest).1 = .blank text)
    : isBlank c = true := by
  have matched := matches_cut c rest
  have start := cut_start c rest
  rw [h] at matched start
  cases matched with
  | blank some blanks =>
      obtain rfl | ⟨others, rfl, -⟩ := List.prefix_cons_iff.mp start
      · exact absurd rfl some
      · exact isBlank_iff.mpr (blanks c List.mem_cons_self)

/-- The first piece of a text that stands above another one is cut as if it stood alone. -/
theorem ofPieces_first (line : Nat) {c : Char} {rest : List Char} (second : List Char)
    (closed : ∀ text, (cut c rest).1 ≠ .unclosed text)
    : ofPieces line (pieces (c :: rest ++ '\n' :: second))
      = ofPieces line ((cut c rest).1 :: pieces ((cut c rest).2 ++ '\n' :: second)) := by
  cases blank : isBlank c with
  | true =>
      have run : ∀ d ∈ c :: rest.takeWhile isBlank, isBlank d = true := forall_run blank
      have split
          : c :: rest ++ '\n' :: second
            = c :: rest.takeWhile isBlank ++ (rest.dropWhile isBlank ++ '\n' :: second) := by
        simp only [List.cons_append, ← List.append_assoc, List.takeWhile_append_dropWhile]
      rw [cut_blank (isBlank_iff.mp blank), split, ofPieces_blanks_append line run]
      rfl
  | false =>
      have ends : EndsBefore '\n' (cut c rest).1 := by
        cases first : (cut c rest).1 with
        | token | comment | stray => simp [EndsBefore]
        | unclosed text => exact closed text first
        | blank text =>
            rw [isBlank_of_cut first] at blank
            cases blank
      rw [List.cons_append, pieces, cut_append_break blank_lineFeed.breaks second ends]

theorem Closed.tail {line : Nat} {piece : Piece} {rest : List Piece}
    (closed : (ofPieces line (piece :: rest)).Closed)
    : (∀ text, piece ≠ .unclosed text)
      ∧ (ofPieces (line + lineFeeds piece.text) rest).Closed := by
  cases piece with
  | token | blank | comment => exact ⟨fun _ => Piece.noConfusion, closed⟩
  | stray => exact ⟨fun _ => Piece.noConfusion, (List.forall_mem_cons.mp closed).2⟩
  | unclosed => exact absurd rfl (List.forall_mem_cons.mp closed).1

/-- The pieces of two texts one below the other, by induction on those of the upper one. -/
theorem ofPieces_joined (line : Nat) {first : List Char} (second : List Char)
    (closed : (ofPieces line (pieces first)).Closed)
    : ofPieces line (pieces (first ++ '\n' :: second))
      = (ofPieces line (pieces first)).above
          (ofPieces (line + lineFeeds first + 1) (pieces second)) := by
  induction first using pieces.induct generalizing line with
  | case1 =>
      have blank : ∀ c ∈ ['\n'], isBlank c = true := by simp [isBlank]
      refine (ofPieces_blanks_append line blank second).trans ?_
      simp [pieces, ofPieces, above, lineFeeds]
  | case2 c rest ih =>
      rw [pieces] at closed ⊢
      obtain ⟨here, later⟩ := closed.tail
      rw [ofPieces_first line second here]
      refine ofPieces_cons_above ?_
      rw [ih _ later, Nat.add_assoc line, ← lineFeeds_append, cut_append]

/-- The scan of two texts with a line feed between them. -/
theorem ofList_joined {first : List Char} (second : List Char) (closed : (ofList first).Closed)
    : ofList (first ++ '\n' :: second)
      = (ofList first).above ((ofList second).moveDown (1 + lineFeeds first)) := by
  rw [ofList, ofPieces_joined 1 second closed, ofList, ofList, ← ofPieces_moveDown]
  congr 2
  omega

-----------------------------------------------------------------------------------------
-- Source texts
-----------------------------------------------------------------------------------------

/-- The scan of two texts with a line feed between them is the scan of the first one up to its end,
and then that of the second one on the lines where it stands.
-/
structure Composed (first second : String) : Prop where
  tokens : ∃ body last,
    (ofSource first).tokens = body ++ [last]
    ∧ Ends first.toList last
    ∧ (ofSource (first ++ "\n" ++ second)).tokens
      = body ++ (ofSource second).tokens.map (.moveDown (1 + first.toList.count '\n'))
  errors :
    (ofSource (first ++ "\n" ++ second)).errors
      = (ofSource first).errors
        ++ (ofSource second).errors.map (.moveDown (1 + first.toList.count '\n'))

theorem ofSource_joined {first : String} (closed : (ofSource first).Closed) (second : String)
    : ofSource (first ++ "\n" ++ second)
      = (ofSource first).above ((ofSource second).moveDown (1 + lineFeeds first.toList)) := by
  rw [ofSource, String.toList_append, String.toList_append, List.append_assoc]
  exact ofList_joined second.toList closed

theorem composed_of_closed {first : String} (closed : (ofSource first).Closed) (second : String)
    : Composed first second := by
  have joined := ofSource_joined closed second
  obtain ⟨body, last, tokens, -, ends⟩ := (reports_pieces first).tokens
  constructor
  case tokens =>
    refine ⟨body, last, tokens, ends, ?_⟩
    rw [joined, above, tokens, List.dropLast_concat]
    rfl
  case errors =>
    rw [joined]
    rfl

/-- A string that is left open is reported where the text ends. -/
theorem line_of_unterminated {source : String} {error : LexicalError}
    (member : error ∈ (ofSource source).errors) (fault : error.fault = .unterminatedString)
    : error.line = 1 + source.toList.count '\n' := by
  have reported
      : (error.line, error.fault.message) ∈ faults source.toList (pieces source.toList) := by
    rw [← (reports_pieces source).errors]
    exact List.mem_map_of_mem member
  rw [fault] at reported
  rcases List.mem_append.mp reported with stray | unclosed
  · obtain ⟨place, -, same⟩ := List.mem_map.mp stray
    exact absurd (Prod.mk.inj same).2 (by decide)
  · split at unclosed
    · exact (Prod.mk.inj (List.mem_singleton.mp unclosed)).1
    · cases unclosed

/-- Scans of texts one below the other go together exactly if no string of the upper text is left
open. Such a string would be reported at the end of the upper text, which is no end any more.
-/
theorem composed_iff_closed (first second : String)
    : Composed first second ↔ (ofSource first).Closed := by
  constructor
  · intro composed error member fault
    have here := line_of_unterminated member fault
    have kept : error ∈ (ofSource (first ++ "\n" ++ second)).errors := by
      rw [composed.errors]
      exact List.mem_append_left _ member
    have there := line_of_unterminated kept fault
    simp at there
    omega
  · intro closed
    exact composed_of_closed closed second

end Scan

end Lox
