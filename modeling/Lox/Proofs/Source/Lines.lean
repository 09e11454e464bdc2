import Lox.Proofs.Evaluation.Settling
import Lox.Proofs.Parse.Faults
import Lox.Proofs.Scan.Joining
import Lox.Proofs.Session.Unit

/-! The lines that diagnostics name.
All errors of a source text name one of its lines. Lexical errors have it from the scan, and the
tokens that the other errors name are tokens of the scan.
-/

namespace Lox

-----------------------------------------------------------------------------------------
-- Scans
-----------------------------------------------------------------------------------------

namespace Scan

open Lexicon

/-- All tokens and errors are on lines of a range. -/
structure Within (first last : Nat) (scan : Scan) : Prop where
  tokens : ∀ token ∈ scan.tokens, (first : Int) ≤ token.line ∧ token.line ≤ last
  errors : ∀ error ∈ scan.errors, first ≤ error.line ∧ error.line ≤ last

theorem Within.from_earlier {first earlier last : Nat} {scan : Scan}
    (within : scan.Within first last) (h : earlier ≤ first)
    : scan.Within earlier last where
  tokens token member := by
    obtain ⟨lower, upper⟩ := within.tokens token member
    exact ⟨(Int.ofNat_le.mpr h).trans lower, upper⟩
  errors error member := by
    obtain ⟨lower, upper⟩ := within.errors error member
    exact ⟨h.trans lower, upper⟩

theorem Within.token {line last : Nat} {scan : Scan} (within : scan.Within line last)
    (h : line ≤ last) (kind : Token.Kind) (text : List Char)
    : Within line last { scan with tokens := tokenOf kind text line :: scan.tokens } :=
  ⟨List.forall_mem_cons.mpr ⟨⟨le_rfl, Int.ofNat_le.mpr h⟩, within.tokens⟩, within.errors⟩

theorem Within.error {first last : Nat} {scan : Scan} (within : scan.Within first last)
    {error : LexicalError} (here : first ≤ error.line ∧ error.line ≤ last)
    : Within first last { scan with errors := error :: scan.errors } :=
  ⟨within.tokens, List.forall_mem_cons.mpr ⟨here, within.errors⟩⟩

/-- Pieces make tokens and errors on their lines, by induction on the pieces. -/
theorem ofPieces_within (line : Nat) (pieces : List Piece)
    : (ofPieces line pieces).Within line (line + lineFeeds (pieces.flatMap Piece.text)) := by
  induction pieces generalizing line with
  | nil => exact ⟨by simp [ofPieces, endToken, tokenOf], by simp [ofPieces]⟩
  | cons piece rest ih =>
      have later := ih (line + lineFeeds piece.text)
      rw [Nat.add_assoc, ← lineFeeds_append, ← List.flatMap_cons] at later
      have lower : line ≤ line + lineFeeds piece.text := Nat.le_add_right line _
      have upper
          : line + lineFeeds piece.text
            ≤ line + lineFeeds ((piece :: rest).flatMap Piece.text) := by
        rw [List.flatMap_cons, lineFeeds_append]
        omega
      have after := later.from_earlier lower
      cases piece with
      | token kind text => exact after.token (lower.trans upper) kind text
      | blank | comment => exact after
      | unclosed => exact after.error ⟨lower, upper⟩
      | stray => exact after.error ⟨le_rfl, lower.trans upper⟩

/-- A scan is on the lines of its text. -/
theorem ofSource_within (source : String)
    : (ofSource source).Within 1 (1 + lineFeeds source.toList) := by
  have within := ofPieces_within 1 (pieces source.toList)
  rwa [(division_pieces source.toList).covers] at within

/-- Along a scan, neither tokens nor errors go back to an earlier line. -/
structure Ordered (scan : Scan) : Prop where
  tokens : scan.tokens.Pairwise (·.line ≤ ·.line)
  errors : scan.errors.Pairwise (·.line ≤ ·.line)

/-- Pieces make tokens and errors in the order of their lines, by induction on the pieces. -/
theorem ofPieces_ordered (line : Nat) (pieces : List Piece) : (ofPieces line pieces).Ordered := by
  induction pieces generalizing line with
  | nil => exact ⟨List.pairwise_singleton _ _, .nil⟩
  | cons piece rest ih =>
      obtain ⟨tokens, errors⟩ := ih (line + lineFeeds piece.text)
      have later := ofPieces_within (line + lineFeeds piece.text) rest
      have after := later.from_earlier (Nat.le_add_right line _)
      cases piece with
      | token kind text =>
          exact ⟨.cons (fun token member => (after.tokens token member).1) tokens, errors⟩
      | blank | comment => exact ⟨tokens, errors⟩
      | unclosed =>
          exact ⟨tokens, .cons (fun error member => (later.errors error member).1) errors⟩
      | stray =>
          exact ⟨tokens, .cons (fun error member => (after.errors error member).1) errors⟩

end Scan

-----------------------------------------------------------------------------------------
-- Syntax errors and runtime errors
-----------------------------------------------------------------------------------------

/-- Each error of a parse names one of the tokens. -/
theorem Parse.token_mem_of_error {tokens : List Token} {error : SyntaxError}
    (h : error ∈ (ofTokens tokens).errors)
    : error.token ∈ tokens := by
  rw [errors_eq] at h
  obtain ⟨attempt, member, found⟩ := List.mem_filterMap.mp h
  exact List.mem_of_getElem? ((stop_of_attempts member).2 error found)

/-- A runtime error of a program names a token of its text. -/
theorem Source.token_mem_of_failed {text : String} {statements : List Stmt} {level : Nat}
    {error : RuntimeError} (program : (ofString text).program = .ok statements)
    (failed : (Lox.interpret level statements).stop = some (.failed error))
    : error.token ∈ (Scan.ofSource text).tokens := by
  obtain ⟨-, body, last, tokens, -, scanned, derived⟩ := derived_of_program program
  -- The operators of a program are among the tokens that derive it.
  have suits : ∀ statement ∈ statements, statement.Over (· ∈ body) :=
    derived.over fun token inside => ⟨inside, (scanned token inside).literal⟩
  have valued := fun statement member => (suits statement member).valued
  rw [tokens]
  rcases interpret_settles level valued with ended | ⟨found, statement, member, stopped, inside⟩
  · rw [ended] at failed
    cases failed
  · rw [failed] at stopped
    cases stopped
    exact List.mem_append_left _ ((Stmt.satisfies_iff.mp (suits statement member)).2 _ inside)

-----------------------------------------------------------------------------------------
-- Diagnostics
-----------------------------------------------------------------------------------------

/-- The line that the diagnostic names. -/
def Diagnostic.line : Diagnostic → Int
  | .lexical line _ => line
  | .syntactic token _ | .runtime token _ => token.line

/-- What is reported about a text that is no program names one of its lines. -/
theorem Source.line_of_diagnostics (text : String)
    : ∀ diagnostic ∈ (ofString text).diagnostics,
        1 ≤ diagnostic.line ∧ diagnostic.line ≤ (1 + Scan.lineFeeds text.toList : Nat) := by
  have within := Scan.ofSource_within text
  intro diagnostic member
  rcases List.mem_append.mp member with lexical | syntactic
  · obtain ⟨error, inside, rfl⟩ := List.mem_map.mp lexical
    obtain ⟨lower, upper⟩ := within.errors error inside
    exact ⟨Int.ofNat_le.mpr lower, Int.ofNat_le.mpr upper⟩
  · obtain ⟨error, inside, rfl⟩ := List.mem_map.mp syntactic
    exact within.tokens _ (Parse.token_mem_of_error inside)

namespace Session

theorem interpret_diagnostics (session : Session) (statements : List Stmt)
    : (session.interpret statements).2.diagnostics = []
      ∨ ∃ error,
          (Lox.interpret session.level statements).stop = some (.failed error)
          ∧ (session.interpret statements).2.diagnostics
            = [.runtime error.token error.message] := by
  unfold interpret
  dsimp only
  split
  case h_1 error failed => exact .inr ⟨error, failed, rfl⟩
  case h_2 => exact .inl rfl

/-- What is reported about a unit names one of its lines. -/
theorem line_of_runSource (session : Session) (text : String)
    : ∀ diagnostic ∈ (session.runSource text).2.diagnostics,
        1 ≤ diagnostic.line ∧ diagnostic.line ≤ (1 + Scan.lineFeeds text.toList : Nat) := by
  cases program : (Source.ofString text).program with
  | ok statements =>
      rw [session.runSource_of_ok program]
      rcases session.interpret_diagnostics statements with none | ⟨error, failed, one⟩
      · simp [none]
      · rw [one]
        intro diagnostic member
        obtain rfl := List.mem_singleton.mp member
        exact (Scan.ofSource_within text).tokens _ (Source.token_mem_of_failed program failed)
  | error failure =>
      rw [session.runSource_of_error program]
      exact Source.line_of_diagnostics text

end Session

end Lox
