import Lox.Proofs.Source.Program
import Lox.Session.Basic

/-! Sessions of one unit.
A unit that is a program runs as that program does, and reporting anything else about it leaves the
mark of an error behind.
-/

namespace Lox

variable {text : String}

theorem Diagnostic.textOf_append (first second : List Diagnostic)
    : textOf (first ++ second) = textOf first ++ textOf second := by
  simp [textOf]

/-- The error showed when a program ran, and not in its text. -/
def Diagnostic.isRuntime : Diagnostic → Bool
  | .runtime .. => true
  | .lexical .. | .syntactic .. => false

theorem Source.isRuntime_of_diagnostics {source : Source} {diagnostic : Diagnostic}
    (h : diagnostic ∈ source.diagnostics)
    : diagnostic.isRuntime = false := by
  rcases List.mem_append.mp h with lexical | syntactic
  · obtain ⟨error, -, rfl⟩ := List.mem_map.mp lexical
    rfl
  · obtain ⟨error, -, rfl⟩ := List.mem_map.mp syntactic
    rfl

/-- Something is reported about a text that is no program. -/
theorem Source.diagnostics_ne_nil {failure : Failure}
    (h : (ofString text).program = .error failure)
    : (ofString text).diagnostics ≠ [] := by
  intro none
  obtain ⟨lexical, syntactic⟩ := List.append_eq_nil_iff.mp none
  rcases errors_of_error h with some | some
  · exact some (List.map_eq_nil_iff.mp lexical)
  · exact some (List.map_eq_nil_iff.mp syntactic)

namespace Session

/-- A report leaves a mark for each of the two sorts of errors, and changes nothing else. By
induction on the diagnostics.
-/
theorem reportAll_eq (session : Session) (diagnostics : List Diagnostic)
    : session.reportAll diagnostics
      = { session with
          hadError := session.hadError || diagnostics.any (!·.isRuntime)
          hadRuntimeError := session.hadRuntimeError || diagnostics.any (·.isRuntime) } := by
  induction diagnostics generalizing session with
  | nil => simp [reportAll]
  | cons diagnostic rest ih =>
      refine (ih (session.report diagnostic)).trans ?_
      cases diagnostic with
      | lexical | syntactic | runtime => simp [report, Diagnostic.isRuntime]

/-- The report about a text that is no program leaves the mark of an error and no other. -/
theorem reportAll_of_error (session : Session) {failure : Source.Failure}
    (h : (Source.ofString text).program = .error failure)
    : session.reportAll (Source.ofString text).diagnostics = { session with hadError := true } := by
  have static : ∀ diagnostic ∈ (Source.ofString text).diagnostics, diagnostic.isRuntime = false :=
    fun _ => Source.isRuntime_of_diagnostics
  obtain ⟨first, rest, all⟩ := List.exists_cons_of_ne_nil (Source.diagnostics_ne_nil h)
  have runtime : (Source.ofString text).diagnostics.any (·.isRuntime) = false := by
    simpa using static
  have other : (Source.ofString text).diagnostics.any (!·.isRuntime) = true := by
    rw [all] at static ⊢
    simp [static first List.mem_cons_self]
  rw [reportAll_eq, runtime, other]
  simp

theorem interpret_level (session : Session) (statements : List Stmt)
    : (session.interpret statements).1.level = session.level := by
  unfold interpret
  simp only
  split <;> rfl

/-- A program runs without any report about its text. -/
theorem runSource_of_ok (session : Session) {statements : List Stmt}
    (h : (Source.ofString text).program = .ok statements)
    : session.runSource text = session.interpret statements := by
  have diagnostics := Source.diagnostics_of_ok h
  unfold runSource
  simp only [h, diagnostics]
  rfl

/-- A text that is no program is reported and does not run. -/
theorem runSource_of_error (session : Session) {failure : Source.Failure}
    (h : (Source.ofString text).program = .error failure)
    : session.runSource text
      = (session.reportAll (Source.ofString text).diagnostics,
        ⟨[], (Source.ofString text).diagnostics⟩) := by
  unfold runSource
  simp only [h]

end Session

end Lox
