import Lox.Proofs.Scan.Rendering
import Lox.Proofs.Source.Joining

/-! Programs of one expression.
Tokens that derive an expression are a program of that expression when a semicolon stands behind
them, with or without a gap in front of it.
-/

namespace Lox

namespace Scan

open Lexicon

theorem ofPieces_semicolon (line : Nat)
    : ofPieces line (pieces [';']) = ⟨[tokenOf .semicolon [';'] line, endToken line], []⟩ := by
  have semicolon : cut ';' [] = (.token .semicolon [';'], []) := rfl
  rw [pieces, semicolon, pieces]
  rfl

/-- Lexemes with a semicolon behind them become tokens, the semicolon and the end. -/
theorem Spaced.terminated {gap : List Char} {all : List Written} (start : Gap gap)
    (spaced : Spaced all)
    : ∃ cut line, List.Forall₂ Stands (lexemePlaces gap all) cut
      ∧ ofList (render gap all ++ [';'])
        = ⟨cut ++ [tokenOf .semicolon [';'] line, endToken line], []⟩ := by
  have breaks : ∀ c ∈ [';'].head?, Breaks c := by simp [breaks_semicolon]
  obtain ⟨cut, stand, scanned⟩ := spaced.ofPieces_append breaks (ofPieces_semicolon _)
  refine ⟨cut, 1 + (render gap all).count '\n', stand, ?_⟩
  rw [ofList, render, List.append_assoc, start.ofPieces_append]
  exact scanned

end Scan

namespace Source

open Scan

/-- An expression with a semicolon behind it is a program of one statement. -/
theorem program_of_expression {text : List Char} {cut : List Token} {line : Nat} {expr : Expr}
    (scanned : ofList text = ⟨cut ++ [tokenOf .semicolon [';'] line, endToken line], []⟩)
    (derived : Grammar.Derives Grammar.expression cut expr)
    : (ofString (String.ofList text)).program = .ok [.expression expr] := by
  have scanned : ofSource (String.ofList text)
      = ⟨(cut ++ [tokenOf .semicolon [';'] line]) ++ [endToken line], []⟩ := by
    rw [ofSource, String.toList_ofList, scanned, List.append_assoc]
    rfl
  obtain ⟨body, last, tokens, -, inner⟩ := ofSource_tokens (String.ofList text)
  rw [scanned] at tokens
  obtain ⟨rfl, -⟩ := List.append_inj' tokens rfl
  have statement : Grammar.Statement (cut ++ [tokenOf .semicolon [';'] line]) (.expression expr) :=
    .expression derived rfl
  have program := Grammar.Program.cons statement .nil
  rw [List.append_nil] at program
  have kinds := fun token member => (inner token member).kind
  exact program_of_derived (by rw [scanned]) (by rw [scanned]) kinds rfl program

end Source

end Lox
