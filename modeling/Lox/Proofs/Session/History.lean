import Lox.Proofs.Session.Course
import Lox.Proofs.Session.Dialogue
import Lox.Session.Step

/-! What a session remembers of its history.
The history of a session is what was reported in it, when reports were forgotten, and how the
programs in it ended. The state of the session tells which reports were not yet forgotten and how
the last program ended, in whatever order steps come.
-/

namespace Lox.Session

/-- Something that a session may remember. -/
inductive Happening where
  | reported (diagnostic : Diagnostic)
  | forgotten
  /-- A program ran, to its end or up to an error. -/
  | ran (failure : Option RuntimeError)

namespace Happening

def reported? : Happening → Option Diagnostic
  | .reported diagnostic => some diagnostic
  | .forgotten | .ran _ => none

def isForgotten : Happening → Bool
  | .forgotten => true
  | .reported _ | .ran _ => false

def isRun : Happening → Bool
  | .ran _ => true
  | .reported _ | .forgotten => false

/-- What happens when a program runs. Its error is remembered before it is reported. -/
def ofRun (run : Run) : List Happening :=
  match run.stop with
  | some (.failed error) =>
      [.ran (some error), .reported (.runtime error.token error.message)]
  | _ => [.ran none]

/-- What happens in a unit of source: it is reported, or it runs. -/
def ofUnit (level : Nat) (text : String) : List Happening :=
  match (Source.ofString text).program with
  | .error _ => (Source.ofString text).diagnostics.map .reported
  | .ok statements => ofRun (Lox.interpret level statements)

/-- What happens in a line of a dialogue. -/
def ofLine (level : Nat) (line : List Char) : List Happening :=
  ofUnit level (String.ofList line) ++ [.forgotten]

end Happening

/-- What happens in a step. -/
def Step.happenings (level : Nat) : Step → List Happening
  | .run text => Happening.ofUnit level text
  | .prompt input => (linesOf input).flatMap (Happening.ofLine level)
  | .reset => [.forgotten]
  | .report diagnostic => [.reported diagnostic]
  | .unary .. | .binary .. => []

/-- Performs steps one after another. -/
def performAll (session : Session) : List Step → Session × Transcript
  | [] => (session, ⟨[], []⟩)
  | step :: rest =>
      let effect := session.perform step
      let (last, others) := effect.session.performAll rest
      (last, ⟨effect.transcript.events ++ others.events,
        effect.transcript.diagnostics ++ others.diagnostics⟩)

-----------------------------------------------------------------------------------------
-- Steps as happenings
-----------------------------------------------------------------------------------------

/-- The session after something happened. -/
def after (session : Session) : Happening → Session
  | .reported diagnostic => session.report diagnostic
  | .forgotten => session.reset
  | .ran failure => { session with runtimeError := failure }

theorem after_level (session : Session) (happening : Happening)
    : (session.after happening).level = session.level := by
  cases happening with
  | reported diagnostic => cases diagnostic <;> rfl
  | forgotten | ran => rfl

theorem foldl_after_level (session : Session) (happenings : List Happening)
    : (happenings.foldl after session).level = session.level := by
  induction happenings generalizing session with
  | nil => rfl
  | cons happening rest ih => rw [List.foldl_cons, ih, after_level]

theorem interpret_eq_happenings (session : Session) (statements : List Stmt)
    : (session.interpret statements).1
        = (Happening.ofRun (Lox.interpret session.level statements)).foldl after session
      ∧ (session.interpret statements).2.diagnostics
        = (Happening.ofRun (Lox.interpret session.level statements)).filterMap
            Happening.reported? := by
  unfold interpret Happening.ofRun
  obtain ⟨events, stop⟩ := Lox.interpret session.level statements
  cases stop with
  | none => exact ⟨rfl, rfl⟩
  | some reason => cases reason <;> exact ⟨rfl, rfl⟩

/-- A unit does to a session what happens in it, and writes what is reported in it. -/
theorem runSource_eq_happenings (session : Session) (text : String)
    : (session.runSource text).1 = (Happening.ofUnit session.level text).foldl after session
      ∧ (session.runSource text).2.diagnostics
        = (Happening.ofUnit session.level text).filterMap Happening.reported? := by
  unfold Happening.ofUnit
  cases program : (Source.ofString text).program with
  | error failure =>
      rw [session.runSource_of_error program]
      refine ⟨?_, ?_⟩
      · rw [List.foldl_map]
        rfl
      · rw [List.filterMap_map]
        exact List.filterMap_some.symm
  | ok statements =>
      rw [session.runSource_of_ok program]
      exact session.interpret_eq_happenings statements

/-- Lines of a dialogue do to a session what happens in them, by induction on the lines. -/
theorem runLines_eq_happenings (session : Session) (lines : List (List Char))
    : (session.runLines lines).1
        = (lines.flatMap (Happening.ofLine session.level)).foldl after session
      ∧ (session.runLines lines).2.diagnostics
        = (lines.flatMap (Happening.ofLine session.level)).filterMap Happening.reported? := by
  induction lines generalizing session with
  | nil => exact ⟨rfl, rfl⟩
  | cons line rest ih =>
      obtain ⟨unit, written⟩ := session.runSource_eq_happenings (String.ofList line)
      obtain ⟨later, others⟩ := ih (session.enter line).1
      rw [session.enter_level] at later others
      have entered
          : (session.enter line).1 = (Happening.ofLine session.level line).foldl after session := by
        rw [Happening.ofLine, List.foldl_append, ← unit]
        rfl
      refine ⟨?_, ?_⟩
      · rw [List.flatMap_cons, List.foldl_append, ← entered, ← later]
        rfl
      · rw [List.flatMap_cons, List.filterMap_append, ← others, Happening.ofLine,
          List.filterMap_append, ← written]
        simp [Happening.reported?]
        rfl

/-- A step does to a session what happens in it, and writes what is reported in it. -/
theorem perform_eq_happenings (session : Session) (step : Step)
    : (session.perform step).session = (step.happenings session.level).foldl after session
      ∧ (session.perform step).transcript.diagnostics
        = (step.happenings session.level).filterMap Happening.reported? := by
  cases step with
  | run text => exact session.runSource_eq_happenings text
  | prompt input => exact session.runLines_eq_happenings (linesOf input)
  | reset | report | unary | binary => exact ⟨rfl, rfl⟩

/-- Steps do together what happens in all of them, by induction on the steps. -/
theorem performAll_eq_happenings (session : Session) (steps : List Step)
    : (session.performAll steps).1
        = (steps.flatMap (Step.happenings session.level)).foldl after session
      ∧ (session.performAll steps).2.diagnostics
        = (steps.flatMap (Step.happenings session.level)).filterMap Happening.reported? := by
  induction steps generalizing session with
  | nil => exact ⟨rfl, rfl⟩
  | cons step rest ih =>
      obtain ⟨first, written⟩ := session.perform_eq_happenings step
      obtain ⟨later, others⟩ := ih (session.perform step).session
      have level : (session.perform step).session.level = session.level := by
        rw [first, foldl_after_level]
      rw [level] at later others
      refine ⟨?_, ?_⟩
      · rw [List.flatMap_cons, List.foldl_append, ← first, ← later]
        rfl
      · rw [List.flatMap_cons, List.filterMap_append, ← written, ← others]
        rfl

-----------------------------------------------------------------------------------------
-- What still stands of a history
-----------------------------------------------------------------------------------------

/-- Something happened, and nothing that undoes it happened later. -/
def Stands (undoes : Happening → Bool) (history : List Happening) (happening : Happening) : Prop :=
  ∃ before after,
    history = before ++ happening :: after ∧ ∀ later ∈ after, undoes later = false

/-- The diagnostic was reported and not yet forgotten. -/
def Pending (history : List Happening) (diagnostic : Diagnostic) : Prop :=
  Stands Happening.isForgotten history (.reported diagnostic)

/-- The last program that ran was stopped by the error. -/
def StoppedBy (history : List Happening) (error : RuntimeError) : Prop :=
  Stands Happening.isRun history (.ran (some error))

theorem not_stands_nil {undoes : Happening → Bool} {happening : Happening}
    : ¬Stands undoes [] happening := by
  rintro ⟨before, after, same, -⟩
  cases before <;> cases same

/-- The last thing that happened stands, and of what happened before it what it does not undo. -/
theorem stands_concat_iff {undoes : Happening → Bool} {history : List Happening}
    {last happening : Happening}
    : Stands undoes (history ++ [last]) happening
      ↔ happening = last ∨ undoes last = false ∧ Stands undoes history happening := by
  constructor
  · rintro ⟨before, after, same, stands⟩
    rcases List.eq_nil_or_concat after with rfl | ⟨middle, other, rfl⟩
    · obtain ⟨-, one⟩ := List.append_inj' same rfl
      exact .inl (List.singleton_inj.mp one).symm
    · rw [List.concat_eq_append] at same stands
      rw [← List.cons_append, ← List.append_assoc] at same
      obtain ⟨rfl, one⟩ := List.append_inj' same rfl
      obtain rfl := List.singleton_inj.mp one
      obtain ⟨inner, here⟩ := List.forall_mem_append.mp stands
      exact .inr ⟨here last (List.mem_singleton_self last), before, middle, rfl, inner⟩
  · rintro (rfl | ⟨kept, before, after, rfl, stands⟩)
    · exact ⟨history, [], rfl, by simp⟩
    · refine ⟨before, after ++ [last], by simp, ?_⟩
      exact List.forall_mem_append.mpr ⟨stands, by simpa using kept⟩

variable {history : List Happening} {diagnostic : Diagnostic} {error : RuntimeError}

theorem pending_reported {last : Diagnostic}
    : Pending (history ++ [.reported last]) diagnostic
      ↔ diagnostic = last ∨ Pending history diagnostic := by
  simp [Pending, stands_concat_iff, Happening.isForgotten]

theorem not_pending_forgotten : ¬Pending (history ++ [.forgotten]) diagnostic := by
  simp [Pending, stands_concat_iff, Happening.isForgotten]

theorem pending_ran {failure : Option RuntimeError}
    : Pending (history ++ [.ran failure]) diagnostic ↔ Pending history diagnostic := by
  simp [Pending, stands_concat_iff, Happening.isForgotten]

theorem stoppedBy_reported
    : StoppedBy (history ++ [.reported diagnostic]) error ↔ StoppedBy history error := by
  simp [StoppedBy, stands_concat_iff, Happening.isRun]

theorem stoppedBy_forgotten
    : StoppedBy (history ++ [.forgotten]) error ↔ StoppedBy history error := by
  simp [StoppedBy, stands_concat_iff, Happening.isRun]

theorem stoppedBy_ran {failure : Option RuntimeError}
    : StoppedBy (history ++ [.ran failure]) error ↔ failure = some error := by
  simp [StoppedBy, stands_concat_iff, Happening.isRun, eq_comm]

-----------------------------------------------------------------------------------------
-- The state of a session
-----------------------------------------------------------------------------------------

/-- A diagnostic about a text was reported and not yet forgotten. -/
def TextRefused (history : List Happening) : Prop :=
  ∃ diagnostic, Pending history diagnostic ∧ diagnostic.isRuntime = false

/-- A diagnostic about a running program was reported and not yet forgotten. -/
def ProgramFailed (history : List Happening) : Prop :=
  ∃ diagnostic, Pending history diagnostic ∧ diagnostic.isRuntime = true

/-- The state of a session tells what still stands of its history. -/
structure Recalls (history : List Happening) (session : Session) : Prop where
  hadError : session.hadError = true ↔ TextRefused history
  hadRuntimeError : session.hadRuntimeError = true ↔ ProgramFailed history
  runtimeError : ∀ error, session.runtimeError = some error ↔ StoppedBy history error

theorem recalls_fresh (level : Nat) : Recalls [] (fresh level) where
  hadError := by simp [fresh, TextRefused, Pending, not_stands_nil]
  hadRuntimeError := by simp [fresh, ProgramFailed, Pending, not_stands_nil]
  runtimeError := by simp [fresh, StoppedBy, not_stands_nil]

/-- Whatever happens, the state still tells what stands, by cases on what happens. -/
theorem Recalls.after {session : Session} (recalls : Recalls history session)
    (happening : Happening)
    : Recalls (history ++ [happening]) (session.after happening) := by
  obtain ⟨hadError, hadRuntimeError, runtimeError⟩ := recalls
  unfold TextRefused at hadError
  unfold ProgramFailed at hadRuntimeError
  cases happening with
  | reported diagnostic =>
      cases diagnostic <;> constructor <;>
        simp [Session.after, report, TextRefused, ProgramFailed, pending_reported,
          stoppedBy_reported, or_and_right, exists_or, Diagnostic.isRuntime, hadError,
          hadRuntimeError, runtimeError]
  | forgotten =>
      constructor <;>
        simp [Session.after, reset, TextRefused, ProgramFailed, not_pending_forgotten,
          stoppedBy_forgotten, runtimeError]
  | ran failure =>
      constructor <;>
        simp [Session.after, TextRefused, ProgramFailed, pending_ran, stoppedBy_ran, hadError,
          hadRuntimeError]

/-- The state tells what stands after all that happens, by induction on what is still to happen. -/
theorem Recalls.foldl_after {session : Session} (recalls : Recalls history session)
    (happenings : List Happening)
    : Recalls (history ++ happenings) (happenings.foldl Session.after session) := by
  induction happenings generalizing history session with
  | nil => simpa using recalls
  | cons happening rest ih => simpa using ih (recalls.after happening)

/-- Where nothing runs, the error that stopped the last program stays. -/
theorem foldl_after_runtimeError (session : Session) {happenings : List Happening}
    (idle : ∀ happening ∈ happenings, happening.isRun = false)
    : (happenings.foldl after session).runtimeError = session.runtimeError := by
  induction happenings generalizing session with
  | nil => rfl
  | cons happening rest ih =>
      obtain ⟨first, later⟩ := List.forall_mem_cons.mp idle
      rw [List.foldl_cons, ih _ later]
      cases happening with
      | reported diagnostic => cases diagnostic <;> rfl
      | forgotten => rfl
      | ran => cases first

/-- No program runs in the step. -/
def Step.Idle : Step → Prop
  | .run text => ∃ failure, (Source.ofString text).program = .error failure
  | .prompt input => ∀ line ∈ linesOf input, ∃ failure,
      (Source.ofString (String.ofList line)).program = .error failure
  | .reset | .report _ | .unary .. | .binary .. => True

theorem isRun_of_ofUnit {level : Nat} {text : String} {failure : Source.Failure}
    (malformed : (Source.ofString text).program = .error failure)
    : ∀ happening ∈ Happening.ofUnit level text, happening.isRun = false := by
  simp [Happening.ofUnit, malformed, Happening.isRun]

theorem Step.Idle.isRun {level : Nat} {step : Step} (idle : step.Idle)
    : ∀ happening ∈ step.happenings level, happening.isRun = false := by
  cases step with
  | run text =>
      obtain ⟨failure, malformed⟩ := idle
      exact isRun_of_ofUnit malformed
  | prompt input =>
      intro happening member
      obtain ⟨line, inside, here⟩ := List.mem_flatMap.mp member
      obtain ⟨failure, malformed⟩ := idle line inside
      rcases List.mem_append.mp here with unit | forgotten
      · exact isRun_of_ofUnit malformed happening unit
      · obtain rfl := List.mem_singleton.mp forgotten
        rfl
  | reset | report => simp [happenings, Happening.isRun]
  | unary | binary => simp [happenings]

/-- What a session shows and what becomes of its state, by its history. -/
structure Recounts (history : List Happening) (shown : Session × Transcript) : Prop
    extends Recalls history shown.1 where
  written : shown.2.diagnostics = history.filterMap Happening.reported?
  refused : shown.1.exitStatus = 65 ↔ TextRefused history
  failed : shown.1.exitStatus = 70 ↔ ¬TextRefused history ∧ ProgramFailed history
  clean : shown.1.exitStatus = 0 ↔ ¬TextRefused history ∧ ¬ProgramFailed history

theorem exitStatus_eq_65_iff (session : Session)
    : session.exitStatus = 65 ↔ session.hadError = true := by
  unfold exitStatus
  cases session.hadError <;> cases session.hadRuntimeError <;> simp

theorem exitStatus_eq_70_iff (session : Session)
    : session.exitStatus = 70 ↔ ¬session.hadError = true ∧ session.hadRuntimeError = true := by
  unfold exitStatus
  cases session.hadError <;> cases session.hadRuntimeError <;> simp

theorem exitStatus_eq_0_iff (session : Session)
    : session.exitStatus = 0 ↔ ¬session.hadError = true ∧ ¬session.hadRuntimeError = true := by
  unfold exitStatus
  cases session.hadError <;> cases session.hadRuntimeError <;> simp

theorem Recalls.recounts {shown : Session × Transcript} (recalls : Recalls history shown.1)
    (written : shown.2.diagnostics = history.filterMap Happening.reported?)
    : Recounts history shown := by
  refine { recalls with written, refused := ?_, failed := ?_, clean := ?_ }
  · rw [exitStatus_eq_65_iff, recalls.hadError]
  · rw [exitStatus_eq_70_iff, recalls.hadError, recalls.hadRuntimeError]
  · rw [exitStatus_eq_0_iff, recalls.hadError, recalls.hadRuntimeError]

/-- After any steps, in any order, a session tells by its two marks which reports since the last
reset still stand, by its status the graver of them, and by its error how the last program ended.
A step in which no program runs leaves that error as it is.
-/
theorem session_recalls_history
    : (∀ level steps,
        Recounts (steps.flatMap (Step.happenings level)) ((fresh level).performAll steps))
      ∧ ∀ (session : Session) (step : Step), step.Idle →
          (session.perform step).session.runtimeError = session.runtimeError := by
  refine ⟨fun level steps => ?_, fun session step idle => ?_⟩
  · obtain ⟨state, written⟩ := (fresh level).performAll_eq_happenings steps
    have recalls := (recalls_fresh level).foldl_after (steps.flatMap (Step.happenings level))
    rw [List.nil_append] at recalls
    refine Recalls.recounts ?_ written
    rw [state]
    exact recalls
  · rw [(session.perform_eq_happenings step).1]
    exact session.foldl_after_runtimeError idle.isRun

/-- A malformed unit and a reset leave the error of the program that failed before them. -/
theorem session_recalls_history_behind_reset
    : let failed := (fresh 0).perform (.run "-nil;")
      let malformed := Step.run "("
      let refused := failed.session.perform malformed
      malformed.Idle
      ∧ Step.reset.Idle
      ∧ refused.session.runtimeError = failed.session.runtimeError
      ∧ (refused.session.perform .reset).session.runtimeError = refused.session.runtimeError
      ∧ failed.session.runtimeError = some ⟨⟨.minus, .string "-", .nil, 1⟩, .operandNotNumber⟩
      ∧ failed.session.exitStatus = 70
      ∧ refused.session.exitStatus = 65
      ∧ (refused.session.perform .reset).session.exitStatus = 0 := by
  intro failed malformed refused
  let ending : Token := ⟨.endOfInput, .string "", .nil, 1⟩
  have idle : malformed.Idle := ⟨.parse (.malformed [⟨ending, .operand⟩]), by cbv⟩
  refine ⟨idle, trivial, ?_, ?_, by cbv, by cbv, by cbv, by cbv⟩
  · exact session_recalls_history.2 failed.session malformed idle
  · exact session_recalls_history.2 refused.session .reset trivial

end Lox.Session
