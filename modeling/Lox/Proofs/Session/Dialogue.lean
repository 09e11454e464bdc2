import Lox.CommandLine
import Lox.Proofs.Evaluation.Sequence
import Lox.Proofs.Source.Lines
import Lox.Proofs.Text.Lines

/-! Dialogues: each line runs by itself.
What a unit shows does not depend on what happened in a session before it. So a dialogue shows for
each line what the line shows in a fresh session, and no error outlives its line.
-/

namespace Lox

theorem Event.textOf_prompt (events : List Event)
    : textOf (.prompt :: events) = "> " ++ textOf events :=
  textOf_cons .prompt events

theorem Event.outputOf_prompt (events : List Event)
    : outputOf (.prompt :: events) = "> " ++ outputOf events :=
  textOf_cons .prompt (events.filter (!·.isNote))

theorem Diagnostic.textOf_flatMap {α : Type} (diagnostics : α → List Diagnostic) (all : List α)
    : textOf (all.flatMap diagnostics)
      = Text.join (all.map fun one => textOf (diagnostics one)) := by
  induction all with
  | nil => rfl
  | cons one rest ih =>
      rw [List.flatMap_cons, textOf_append, ih, List.map_cons, Text.join_cons]

namespace Session

-----------------------------------------------------------------------------------------
-- What a unit shows
-----------------------------------------------------------------------------------------

theorem reportAll_level (session : Session) (diagnostics : List Diagnostic)
    : (session.reportAll diagnostics).level = session.level := by
  rw [reportAll_eq]

theorem runSource_level (session : Session) (text : String)
    : (session.runSource text).1.level = session.level := by
  cases program : (Source.ofString text).program with
  | ok statements => rw [session.runSource_of_ok program, interpret_level]
  | error => rw [session.runSource_of_error program, reportAll_level]

theorem interpret_transcript (session : Session) (statements : List Stmt)
    : (session.interpret statements).2 = ((fresh session.level).interpret statements).2 := by
  unfold interpret
  dsimp only [fresh]
  split <;> rfl

/-- What a unit shows depends on nothing of the session but its level of detail. -/
theorem runSource_transcript (session : Session) (text : String)
    : (session.runSource text).2 = ((fresh session.level).runSource text).2 := by
  cases program : (Source.ofString text).program with
  | ok statements =>
      rw [session.runSource_of_ok program, runSource_of_ok _ program, interpret_transcript]
  | error => rw [session.runSource_of_error program, runSource_of_error _ program]

-----------------------------------------------------------------------------------------
-- What lines show
-----------------------------------------------------------------------------------------

/-- What a line shows when it is the only unit of a session. -/
def transcriptOf (level : Nat) (line : List Char) : Transcript :=
  ((fresh level).runSource (String.ofList line)).2

theorem enter_transcript (session : Session) (line : List Char)
    : (session.enter line).2 = transcriptOf session.level line :=
  session.runSource_transcript _

theorem enter_level (session : Session) (line : List Char)
    : (session.enter line).1.level = session.level :=
  session.runSource_level _

/-- Lines show what each of them shows by itself, by induction on the lines. -/
theorem runLines_transcript (session : Session) (lines : List (List Char))
    : (session.runLines lines).2.events
        = lines.flatMap (fun line => .prompt :: (transcriptOf session.level line).events)
      ∧ (session.runLines lines).2.diagnostics
        = lines.flatMap (fun line => (transcriptOf session.level line).diagnostics) := by
  induction lines generalizing session with
  | nil => exact ⟨rfl, rfl⟩
  | cons line rest ih =>
      -- The line may change the session, but not its level, and nothing else matters to the rest.
      obtain ⟨events, diagnostics⟩ := ih (session.enter line).1
      rw [session.enter_level] at events diagnostics
      rw [List.flatMap_cons, List.flatMap_cons, ← events, ← diagnostics, ← session.enter_transcript]
      exact ⟨rfl, rfl⟩

/-- Behind a line no error is remembered, by induction on the lines. -/
theorem runLines_clean (session : Session) {lines : List (List Char)} (some : lines ≠ [])
    : (session.runLines lines).1.hadError = false
      ∧ (session.runLines lines).1.hadRuntimeError = false := by
  induction lines generalizing session with
  | nil => exact (some rfl).elim
  | cons line rest ih =>
      cases rest with
      | nil => exact ⟨rfl, rfl⟩
      | cons next others => exact ih (session.enter line).1 (List.cons_ne_nil next others)

/-- A dialogue ends without an error if it did not begin with one. -/
theorem exitStatus_runPrompt (level : Nat) (input : String)
    : ((fresh level).runPrompt input).1.exitStatus = 0 := by
  change ((fresh level).runLines (linesOf input)).1.exitStatus = 0
  cases lines : linesOf input with
  | nil => rfl
  | cons line rest =>
      have clean := (fresh level).runLines_clean (List.cons_ne_nil line rest)
      simp [exitStatus, clean]

-----------------------------------------------------------------------------------------
-- Dialogues
-----------------------------------------------------------------------------------------

/-- What a session shows for lines, from what each line shows by itself. -/
structure Independent (session : Session) (lines : List (List Char))
    (shown : Session × Transcript) : Prop where
  events :
    shown.2.events
      = lines.flatMap (fun line => .prompt :: (transcriptOf session.level line).events)
        ++ [.prompt, .line ""]
  text :
    Event.textOf shown.2.events
      = Text.join (lines.map fun line =>
          "> " ++ Event.textOf (transcriptOf session.level line).events) ++ "> \n"
  output :
    Event.outputOf shown.2.events
      = Text.join (lines.map fun line =>
          "> " ++ Event.outputOf (transcriptOf session.level line).events) ++ "> \n"
  diagnostics :
    shown.2.diagnostics
      = lines.flatMap fun line => (transcriptOf session.level line).diagnostics
  errors :
    Diagnostic.textOf shown.2.diagnostics
      = Text.join (lines.map fun line =>
          Diagnostic.textOf (transcriptOf session.level line).diagnostics)
  clean : lines ≠ [] → shown.1.hadError = false ∧ shown.1.hadRuntimeError = false
  unchanged : lines = [] → shown.1 = session
  /-- Each line is the first one of its unit. -/
  line : ∀ diagnostic ∈ shown.2.diagnostics, diagnostic.line = 1

/-- The only line of a unit without line feeds is line 1. -/
theorem line_of_transcriptOf {level : Nat} {line : List Char} (unbroken : '\n' ∉ line)
    {diagnostic : Diagnostic} (h : diagnostic ∈ (transcriptOf level line).diagnostics)
    : diagnostic.line = 1 := by
  obtain ⟨lower, upper⟩ := (fresh level).line_of_runSource _ diagnostic h
  rw [String.toList_ofList, Scan.lineFeeds, List.count_eq_zero.mpr unbroken] at upper
  omega

theorem independent_of_splits (session : Session) {input : String} {lines : List (List Char)}
    (splits : Text.Splits input.toList lines)
    : Independent session lines (session.runPrompt input) := by
  obtain rfl : lines = linesOf input := Text.splits_iff.mp splits
  obtain ⟨events, diagnostics⟩ := session.runLines_transcript (linesOf input)
  have shown
      : (session.runPrompt input).2.events
        = (linesOf input).flatMap
            (fun line => .prompt :: (transcriptOf session.level line).events)
          ++ [.prompt, .line ""] :=
    congrArg (· ++ [Event.prompt, .line ""]) events
  have reported
      : (session.runPrompt input).2.diagnostics
        = (linesOf input).flatMap (fun line => (transcriptOf session.level line).diagnostics) :=
    diagnostics
  refine ⟨shown, ?_, ?_, reported, ?_, session.runLines_clean, fun none => ?_,
    fun diagnostic member => ?_⟩
  · rw [shown, Event.textOf_append, Event.textOf_flatMap]
    simp only [Event.textOf_prompt]
    rfl
  · rw [shown, Event.outputOf_append, Event.outputOf_flatMap]
    simp only [Event.outputOf_prompt]
    rfl
  · rw [reported, Diagnostic.textOf_flatMap]
  · change (session.runLines (linesOf input)).1 = session
    rw [none]
    rfl
  · rw [reported] at member
    obtain ⟨line, inside, here⟩ := List.mem_flatMap.mp member
    exact line_of_transcriptOf (splits.feed_notMem line inside) here

/-- Whatever happened in a session, a dialogue shows for each line of its input what this line shows
by itself. It forgets the errors of its lines, so that a dialogue from the command line ends well.
-/
theorem lines_run_by_themselves
    : (∀ (session : Session) (input : String),
        ∃ lines, (∀ other, Text.Splits input.toList other ↔ other = lines)
          ∧ Independent session lines (session.runPrompt input))
      ∧ ∀ files input, (CommandLine.call files input []).ending = .status 0 := by
  refine ⟨fun session input => ?_, fun files input => ?_⟩
  · obtain ⟨lines, splits⟩ := Text.exists_splits input.toList
    obtain rfl := Text.splits_iff.mp splits
    exact ⟨_, fun _ => Text.splits_iff, session.independent_of_splits splits⟩
  · exact congrArg CommandLine.Ending.status (exitStatus_runPrompt 0 input)

end Session

end Lox
