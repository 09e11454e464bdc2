import Lox.Proofs.Evaluation.Complaints
import Lox.Proofs.Session.Course
import Lox.Proofs.Source.Lines

/-! Where diagnostics come from.
What is reported about a text names its lines and its tokens, in their order. A running program
complains only of operands, at an operator that is written in the text.
-/

namespace Lox

-----------------------------------------------------------------------------------------
-- Tokens in a text
-----------------------------------------------------------------------------------------

namespace Scan

open Lexicon

/-- A piece has its place in the text of all pieces, by induction on the pieces. -/
theorem text_of_places {before : List Char} {pieces : List Piece} {place : Place}
    (h : place ∈ places before pieces)
    : ∃ after, before ++ pieces.flatMap Piece.text = place.before ++ place.piece.text ++ after := by
  induction pieces generalizing before with
  | nil => cases h
  | cons piece rest ih =>
      rcases List.mem_cons.mp h with rfl | later
      · exact ⟨rest.flatMap Piece.text, by simp⟩
      · obtain ⟨after, same⟩ := ih later
        refine ⟨after, ?_⟩
        rw [← same, List.flatMap_cons, List.append_assoc]

/-- A kind that is written as a symbol is never written otherwise. -/
theorem eq_of_symbol {kind : Token.Kind} {text symbol : List Char}
    (matched : Matches (.token kind text)) (known : symbol? kind = some symbol)
    : text = symbol := by
  cases matched with
  | symbol h => exact Option.some.inj (h.symm.trans known)
  | reserved h => cases kind <;> first | cases h | cases known
  | identifier | string | whole | fraction => cases known

/-- A token before the end is a piece of the text. -/
theorem place_of_mem {source : String} {token : Token} (member : token ∈ (ofSource source).tokens)
    (inner : token.kind ≠ .endOfInput)
    : ∃ place ∈ places [] (pieces source.toList), Matches place.piece ∧ Stands place token := by
  obtain ⟨body, last, tokens, ends, standing⟩ := ofSource_stands source
  rw [tokens] at member
  rcases List.mem_append.mp member with inside | here
  · exact standing token inside
  · obtain rfl := List.mem_singleton.mp here
    exact absurd ends inner

/-- A token of a kind that is written as a symbol is this symbol at its place. -/
theorem place_of_symbol {source : String} {token : Token} {symbol : List Char}
    (member : token ∈ (ofSource source).tokens) (known : symbol? token.kind = some symbol)
    : ∃ before,
        ⟨before, .token token.kind symbol⟩ ∈ places [] (pieces source.toList)
        ∧ Stands ⟨before, .token token.kind symbol⟩ token := by
  have inner : token.kind ≠ .endOfInput := by
    intro kind
    rw [kind] at known
    cases known
  obtain ⟨place, inside, matched, stands⟩ := place_of_mem member inner
  rw [stands.kind] at matched
  have piece : place.piece = .token token.kind symbol :=
    stands.kind.trans (congrArg _ (eq_of_symbol matched known))
  obtain ⟨before, _⟩ := place
  subst piece
  exact ⟨before, inside, stands⟩

end Scan

/-- The token is the symbol of its kind, which is in the text on the token's line. -/
def Token.WrittenIn (text : String) (token : Token) : Prop :=
  ∃ symbol before after,
    Lexicon.symbol? token.kind = some symbol
    ∧ token.lexeme = .string (String.ofList symbol)
    ∧ text.toList = before ++ symbol ++ after
    ∧ token.line = (1 + before.count '\n' : Nat)

theorem Scan.writtenIn_of_symbol {text : String} {token : Token} {symbol : List Char}
    (member : token ∈ (ofSource text).tokens)
    (known : Lexicon.symbol? token.kind = some symbol)
    : token.WrittenIn text := by
  obtain ⟨before, inside, stands⟩ := place_of_symbol member known
  obtain ⟨after, covers⟩ := text_of_places inside
  rw [List.nil_append, (Lexicon.division_pieces text.toList).covers] at covers
  exact ⟨symbol, before, after, known, stands.lexeme, covers, stands.line⟩

theorem Complaint.symbol {kind : Token.Kind} {message : Text} (h : Complaint kind message)
    : ∃ symbol, Lexicon.symbol? kind = some symbol := by
  cases h with
  | negation | sum => exact ⟨_, rfl⟩
  | numeric member => cases kind <;> first | exact ⟨_, rfl⟩ | simp at member

-----------------------------------------------------------------------------------------
-- Errors of a text
-----------------------------------------------------------------------------------------

/-- Where the lines of tokens do not go back, those of their errors do not either. -/
theorem Parse.errors_ordered {tokens : List Token}
    (ordered : tokens.Pairwise (·.line ≤ ·.line))
    : (ofTokens tokens).errors.Pairwise (·.token.line ≤ ·.token.line) := by
  rw [errors_eq_faults, List.pairwise_map]
  refine (faults_pairwise tokens).imp_of_mem ?_
  intro earlier later first second before
  obtain ⟨_, here⟩ := List.getElem?_eq_some_iff.mp (place_of_faults first).2
  obtain ⟨_, there⟩ := List.getElem?_eq_some_iff.mp (place_of_faults second).2
  rw [← here, ← there]
  exact List.pairwise_iff_getElem.mp ordered _ _ _ _ before

/-- A program that is read fails with a complaint of one of its operators. -/
theorem Source.complaint_of_failed {text : String} {statements : List Stmt} {level : Nat}
    {error : RuntimeError} (program : (ofString text).program = .ok statements)
    (failed : (Lox.interpret level statements).stop = some (.failed error))
    : Complaint error.token.kind error.message := by
  obtain ⟨-, body, last, -, -, -, derived⟩ := derived_of_program program
  have failure := executeAll_failure level fun statement member =>
    (over_of_program program statement member).valued
  rw [interpret_stop] at failed
  split at failure
  case h_1 =>
    rw [failure.1] at failed
    cases failed
  case h_2 =>
    obtain ⟨stop, before, failing, after, rfl, -, -, fails⟩ := failure
    rw [stop] at failed
    cases failed
    have result := Stmt.result_of_failed fails
    rw [failing.expr.evaluate_result] at result
    have kind : failing.expr.skeleton.kind = .error error := by
      rw [← failing.expr.value_kind, result]
      rfl
    have inside : failing ∈ before ++ failing :: after := by simp
    exact (derived.applicable failing inside).complaint kind

-----------------------------------------------------------------------------------------
-- Diagnostics
-----------------------------------------------------------------------------------------

/-- What a diagnostic is reported by. -/
inductive Diagnostic.Stage where
  | scan
  | parse
  | run
deriving DecidableEq

def Diagnostic.stage : Diagnostic → Stage
  | .lexical .. => .scan
  | .syntactic .. => .parse
  | .runtime .. => .run

/-- The token that a diagnostic is about. -/
def Diagnostic.token? : Diagnostic → Option Token
  | .lexical .. => none
  | .syntactic token _ | .runtime token _ => some token

/-- What is reported about a text comes from the text. -/
structure Provenance (text : String) (diagnostics : List Diagnostic) : Prop where
  lines : ∀ diagnostic ∈ diagnostics,
    1 ≤ diagnostic.line ∧ diagnostic.line ≤ (1 + text.toList.count '\n' : Nat)
  tokens : ∀ diagnostic ∈ diagnostics, ∀ token,
    diagnostic.token? = some token → token ∈ (Scan.ofSource text).tokens
  /-- At run time, an operator of the text complains of its operands. -/
  operators : ∀ token message, .runtime token message ∈ diagnostics →
    token.WrittenIn text ∧ Complaint token.kind message
  /-- No operator is ever unknown. -/
  known : ∀ token (error : RuntimeError), .runtime token error.message ∈ diagnostics →
    error.fault ≠ .unknownUnary ∧ error.fault ≠ .unknownBinary
  /-- Neither scanning nor parsing goes back to an earlier line. -/
  ordered : diagnostics.Pairwise fun earlier later =>
    earlier.stage = later.stage → earlier.line ≤ later.line

namespace Source

/-- The errors of a text are reported in the order of their lines, lexical ones first. -/
theorem diagnostics_ordered (text : String)
    : (ofString text).diagnostics.Pairwise fun earlier later =>
        earlier.stage = later.stage → earlier.line ≤ later.line := by
  obtain ⟨tokens, errors⟩ := Scan.ofPieces_ordered 1 (Lexicon.pieces text.toList)
  rw [diagnostics, List.pairwise_append, List.pairwise_map, List.pairwise_map]
  refine ⟨?_, ?_, ?_⟩
  · refine errors.imp ?_
    intro earlier later before _
    exact Int.ofNat_le.mpr before
  · refine (Parse.errors_ordered tokens).imp ?_
    intro earlier later before _
    exact before
  · intro lexical one syntactic other same
    obtain ⟨_, -, rfl⟩ := List.mem_map.mp one
    obtain ⟨_, -, rfl⟩ := List.mem_map.mp other
    cases same

theorem token_mem_of_diagnostics {text : String} {diagnostic : Diagnostic} {token : Token}
    (member : diagnostic ∈ (ofString text).diagnostics)
    (named : diagnostic.token? = some token)
    : token ∈ (Scan.ofSource text).tokens := by
  rcases List.mem_append.mp member with lexical | syntactic
  · obtain ⟨_, -, rfl⟩ := List.mem_map.mp lexical
    cases named
  · obtain ⟨error, inside, rfl⟩ := List.mem_map.mp syntactic
    cases named
    exact Parse.token_mem_of_error inside

/-- What is reported about a text before it runs comes from the text. -/
theorem provenance_of_diagnostics (text : String)
    : Provenance text (ofString text).diagnostics := by
  have silent : ∀ token message, .runtime token message ∉ (ofString text).diagnostics := by
    intro token message member
    cases isRuntime_of_diagnostics member
  exact {
    lines := line_of_diagnostics text
    tokens := fun _ member _ named => token_mem_of_diagnostics member named
    operators := fun token message member => absurd member (silent token message)
    known := fun token error member => absurd member (silent token error.message)
    ordered := diagnostics_ordered text }

/-- What is reported when a program fails comes from its text. -/
theorem provenance_of_failed {text : String} {statements : List Stmt} {level : Nat}
    {error : RuntimeError} (program : (ofString text).program = .ok statements)
    (failed : (Lox.interpret level statements).stop = some (.failed error))
    : Provenance text [.runtime error.token error.message] := by
  have token := token_mem_of_failed program failed
  have complaint := complaint_of_failed program failed
  obtain ⟨symbol, known⟩ := complaint.symbol
  have written := Scan.writtenIn_of_symbol token known
  constructor
  case lines =>
    intro diagnostic member
    obtain rfl := List.mem_singleton.mp member
    exact (Scan.ofSource_within text).tokens _ token
  case tokens =>
    intro diagnostic member found named
    obtain rfl := List.mem_singleton.mp member
    cases named
    exact token
  case operators =>
    intro found message member
    cases List.mem_singleton.mp member
    exact ⟨written, complaint⟩
  case known =>
    intro found other member
    obtain ⟨-, said⟩ := Diagnostic.runtime.inj (List.mem_singleton.mp member)
    rw [← said] at complaint
    exact complaint.known
  case ordered => exact List.pairwise_singleton _ _

end Source

/-- Whatever a text is, all that is reported about it in a session comes from the text: its lines,
its tokens and, when it runs, an operator in it that complains of operands.
-/
theorem diagnostics_come_from_text (session : Session) (text : String)
    : Provenance text (session.runSource text).2.diagnostics := by
  cases program : (Source.ofString text).program with
  | error failure =>
      rw [session.runSource_of_error program]
      exact Source.provenance_of_diagnostics text
  | ok statements =>
      rw [session.runSource_of_ok program]
      rcases session.interpret_diagnostics statements with none | ⟨error, failed, one⟩
      · rw [none]
        constructor <;> simp
      · rw [one]
        exact Source.provenance_of_failed program failed

end Lox
