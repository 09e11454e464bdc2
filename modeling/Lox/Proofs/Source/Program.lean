import Lox.Proofs.Grammar.Program
import Lox.Proofs.Scan.Pieces
import Lox.Proofs.Tree.Operators
import Lox.Source

/-! The programs of source texts.
The tokens of a scan have their text as their lexeme and a value as their literal, and the trees of
a program are over such tokens.
-/

namespace Lox

/-- The token is one that scans have before the end. -/
structure Token.Scanned (token : Token) : Prop where
  kind : token.kind ≠ .endOfInput
  lexeme : ∃ text : String, token.lexeme = .string text
  plain : token.literal.isPlain = true

theorem Token.Scanned.literal {token : Token} (scanned : token.Scanned)
    : token.literal.isValue = true :=
  Datum.isValue_of_isPlain scanned.plain

namespace Scan

open Lexicon

theorem kind_of_matches {kind : Token.Kind} {text : List Char} (h : Matches (.token kind text))
    : kind ≠ .endOfInput := by
  rintro rfl
  cases h with
  | symbol known => cases known
  | reserved known => cases known

theorem isPlain_of_denotes {kind : Token.Kind} {text : List Char} {literal : Datum}
    (h : Denotes kind text literal)
    : literal.isPlain = true := by
  cases h with
  | string => exact Text.isEncodable_ofString _
  | whole | fraction | none => rfl

theorem scanned_of_stands {place : Place} {token : Token} (matched : Matches place.piece)
    (h : Stands place token)
    : token.Scanned where
  kind := by
    rw [h.kind] at matched
    exact kind_of_matches matched
  lexeme := ⟨_, h.lexeme⟩
  plain := isPlain_of_denotes h.literal

theorem piece_mem_of_places {before : List Char} {pieces : List Piece} {place : Place}
    (h : place ∈ places before pieces)
    : place.piece ∈ pieces := by
  induction pieces generalizing before with
  | nil => cases h
  | cons piece rest ih =>
      rcases List.mem_cons.mp h with rfl | later
      · exact List.mem_cons_self
      · exact List.mem_cons_of_mem piece (ih later)

theorem exists_of_forall₂ {places : List Place} {tokens : List Token}
    (h : List.Forall₂ Stands places tokens)
    : ∀ token ∈ tokens, ∃ place ∈ places, Stands place token := by
  induction h with
  | nil =>
      intro token member
      cases member
  | cons first _ ih =>
      intro token member
      rcases List.mem_cons.mp member with rfl | later
      · exact ⟨_, List.mem_cons_self, first⟩
      · obtain ⟨place, inside, stands⟩ := ih token later
        exact ⟨place, List.mem_cons_of_mem _ inside, stands⟩

/-- A scan has its end behind all other tokens, and those are pieces of its text. -/
theorem ofSource_stands (source : String)
    : ∃ body last, (ofSource source).tokens = body ++ [last] ∧ last.kind = .endOfInput
      ∧ ∀ token ∈ body, ∃ place ∈ places [] (pieces source.toList),
          Matches place.piece ∧ Stands place token := by
  obtain ⟨body, last, tokens, stand, ends⟩ := (reports_pieces source).tokens
  refine ⟨body, last, tokens, ends.kind, fun token member => ?_⟩
  obtain ⟨place, kept, stands⟩ := exists_of_forall₂ stand token member
  have inside : place ∈ places [] (pieces source.toList) := (List.mem_filter.mp kept).1
  obtain ⟨front, back, same⟩ := List.append_of_mem (piece_mem_of_places inside)
  exact ⟨place, inside, ((division_pieces _).leading front _ back same).matched, stands⟩

theorem ofSource_tokens (source : String)
    : ∃ body last, (ofSource source).tokens = body ++ [last] ∧ last.kind = .endOfInput
      ∧ ∀ token ∈ body, token.Scanned := by
  obtain ⟨body, last, tokens, ends, standing⟩ := ofSource_stands source
  refine ⟨body, last, tokens, ends, fun token member => ?_⟩
  obtain ⟨place, -, matched, stands⟩ := standing token member
  exact scanned_of_stands matched stands

end Scan

namespace Source

theorem program_eq_ok {source : Source} {statements : List Stmt}
    (h : source.program = .ok statements)
    : source.parse.program = .ok statements ∧ source.scan.errors = [] := by
  unfold program at h
  split at h
  case h_1 => cases h
  case h_2 parsed =>
    split at h
    case isTrue empty =>
      cases h
      exact ⟨parsed, List.isEmpty_iff.mp empty⟩
    case isFalse => cases h

/-- The tokens of a program derive it. -/
theorem derived_of_program {text : String} {statements : List Stmt}
    (h : (ofString text).program = .ok statements)
    : (Scan.ofSource text).errors = []
      ∧ ∃ body last, (Scan.ofSource text).tokens = body ++ [last]
        ∧ last.kind = .endOfInput
        ∧ (∀ token ∈ body, token.Scanned)
        ∧ Grammar.Program body statements := by
  obtain ⟨body, last, tokens, ends, scanned⟩ := Scan.ofSource_tokens text
  obtain ⟨parsed, errors⟩ := program_eq_ok h
  change (Parse.ofTokens (Scan.ofSource text).tokens).program = _ at parsed
  rw [tokens] at parsed
  have inner := fun token member => (scanned token member).kind
  exact ⟨errors, body, last, tokens, ends, scanned,
    (Grammar.program_ok_iff inner ends statements).mp parsed⟩

/-- The trees of a program have what they are made of from tokens of the scan. -/
theorem satisfies_of_program {text : String} {statements : List Stmt}
    (h : (ofString text).program = .ok statements)
    : ∀ statement ∈ statements,
        statement.Satisfies (·.isPlain = true)
          fun token => token.Scanned ∧ token ∈ (Scan.ofSource text).tokens := by
  obtain ⟨-, body, last, tokens, -, scanned, derived⟩ := derived_of_program h
  refine derived.satisfies Grammar.constants_isPlain fun token inside => ?_
  refine ⟨⟨scanned token inside, ?_⟩, (scanned token inside).plain⟩
  rw [tokens]
  exact List.mem_append_left _ inside

theorem over_of_program {text : String} {statements : List Stmt}
    (h : (ofString text).program = .ok statements)
    : ∀ statement ∈ statements, statement.Over Token.Scanned :=
  fun statement member =>
    (satisfies_of_program h statement member).mono (fun _ => Datum.isValue_of_isPlain)
      fun _ => And.left

/-- The tokens of a text have an end of the input among them. -/
theorem parse_ended (text : String) : (ofString text).parse.ended = true := by
  obtain ⟨body, last, tokens, ends, -⟩ := Scan.ofSource_tokens text
  refine (Parse.continuing_ended .boundary _).mpr ⟨last, ?_, ends⟩
  rw [tokens]
  simp

/-- A text that is no program has a lexical or a syntax error. -/
theorem errors_of_error {text : String} {failure : Failure}
    (h : (ofString text).program = .error failure)
    : (ofString text).scan.errors ≠ [] ∨ (ofString text).parse.errors ≠ [] := by
  unfold program at h
  split at h
  case h_1 parsed =>
    right
    intro none
    rw [Parse.program, parse_ended, none] at parsed
    cases parsed
  case h_2 =>
    split at h
    case isTrue => cases h
    case isFalse some =>
      left
      intro none
      rw [none] at some
      exact some rfl

theorem diagnostics_of_ok {text : String} {statements : List Stmt}
    (h : (ofString text).program = .ok statements)
    : (ofString text).diagnostics = [] := by
  obtain ⟨parsed, lexical⟩ := program_eq_ok h
  have syntactic : (ofString text).parse.errors = [] := by
    unfold Parse.program at parsed
    split at parsed
    case isTrue => cases parsed
    case isFalse =>
      split at parsed
      case isTrue empty => exact List.isEmpty_iff.mp empty
      case isFalse => cases parsed
  rw [diagnostics, lexical, syntactic]
  rfl

end Source

end Lox
