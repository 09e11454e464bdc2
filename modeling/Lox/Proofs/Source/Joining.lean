import Lox.Proofs.Scan.Joining
import Lox.Proofs.Source.Program
import Lox.Proofs.Tree.Replacement

/-! Programs whose texts stand one below the other.
The text of one program, a line feed and the text of another one make up a program: the statements
of both, those of the second further down.
-/

namespace Lox

open Scan (lineFeeds)

theorem Grammar.keeps_moveDown (lines : Nat) : Keeps (.moveDown lines) where
  kind _ := rfl
  literal _ := rfl

namespace Source

/-- Tokens that a program derives are a program, if nothing else was in the text. -/
theorem program_of_derived {text : String} {body : List Token} {last : Token}
    {statements : List Stmt}
    (tokens : (Scan.ofSource text).tokens = body ++ [last])
    (errors : (Scan.ofSource text).errors = [])
    (inner : ∀ token ∈ body, token.kind ≠ .endOfInput)
    (ends : last.kind = .endOfInput)
    (derived : Grammar.Program body statements)
    : (ofString text).program = .ok statements := by
  have parsed := (Grammar.program_ok_iff inner ends statements).mpr derived
  rw [← tokens] at parsed
  simp [program, ofString, parsed, errors]

variable {first second : String} {upper lower : List Stmt}

/-- The scan of both texts is the scan of the upper one above the moved scan of the lower one. -/
theorem scan_joined (clean : (Scan.ofSource first).errors = []) (second : String)
    : Scan.ofSource (first ++ "\n" ++ second)
      = (Scan.ofSource first).above
          ((Scan.ofSource second).moveDown (1 + lineFeeds first.toList)) := by
  have closed : (Scan.ofSource first).Closed := by
    intro error member
    rw [clean] at member
    cases member
  exact Scan.ofSource_joined closed second

/-- Two programs one below the other are a program of the statements of both. -/
theorem program_joined (one : (ofString first).program = .ok upper)
    (other : (ofString second).program = .ok lower)
    : (ofString (first ++ "\n" ++ second)).program
      = .ok (upper ++ lower.map (.mapTokens (.moveDown (1 + lineFeeds first.toList)))) := by
  obtain ⟨clean, body, last, tokens, -, scanned, derived⟩ := derived_of_program one
  obtain ⟨clean', body', last', tokens', ends', scanned', derived'⟩ := derived_of_program other
  let move := Token.moveDown (1 + lineFeeds first.toList)
  have joined := scan_joined clean second
  have all : (Scan.ofSource (first ++ "\n" ++ second)).tokens
      = (body ++ body'.map move) ++ [move last'] := by
    simp [joined, Scan.above, Scan.moveDown, tokens, tokens', move]
  have none : (Scan.ofSource (first ++ "\n" ++ second)).errors = [] := by
    simp [joined, Scan.above, Scan.moveDown, clean, clean']
  have inner : ∀ token ∈ body ++ body'.map move, token.kind ≠ .endOfInput := by
    intro token member
    rcases List.mem_append.mp member with member | member
    · exact (scanned token member).kind
    · obtain ⟨before, inside, rfl⟩ := List.mem_map.mp member
      exact (scanned' before inside).kind
  have moved : Grammar.Program (body'.map move) (lower.map (.mapTokens move)) :=
    derived'.mapTokens (Grammar.keeps_moveDown _)
  exact program_of_derived all none inner ends' (derived.append moved)

end Source

end Lox
