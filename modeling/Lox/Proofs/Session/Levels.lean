import Lox.Proofs.Session.Interpretation
import Lox.Proofs.Session.Unit

/-! Levels of detail.
The level of a session decides which notes are taken and changes nothing else. The notes at a level
are those at the finest level, without the ones that belong to finer levels.
-/

namespace Lox

-----------------------------------------------------------------------------------------
-- Notes that belong to a level
-----------------------------------------------------------------------------------------

theorem Note.level_pos (note : Note) : 0 < note.level := by
  cases note <;> simp [Note.level]

theorem Note.level_le_three (note : Note) : note.level ≤ 3 := by
  cases note <;> simp [Note.level]

namespace Event

/-- Everything but the notes of finer levels happens at a level. -/
def occursAt (level : Nat) : Event → Bool
  | .note taken => taken.level ≤ level
  | _ => true

def note? : Event → Option Note
  | .note taken => some taken
  | _ => none

/-- The notes among events. -/
def notesOf (events : List Event) : List Note :=
  events.filterMap note?

theorem occursAt_zero (event : Event) : event.occursAt 0 = !event.isNote := by
  cases event with
  | prompt | line => rfl
  | note taken => simpa [occursAt, isNote] using taken.level_pos.ne'

theorem occursAt_of_three_le {level : Nat} (finest : 3 ≤ level) (event : Event)
    : event.occursAt level = true := by
  cases event with
  | prompt | line => rfl
  | note taken => simpa [occursAt] using taken.level_le_three.trans finest

/-- At the finest level everything happens. -/
theorem filter_occursAt_of_three_le {level : Nat} (finest : 3 ≤ level) (events : List Event)
    : events.filter (·.occursAt level) = events :=
  List.filter_eq_self.mpr fun event _ => event.occursAt_of_three_le finest

/-- Of what happens at a level, the notes are those that belong to it. -/
theorem notesOf_filter_occursAt (level : Nat) (events : List Event)
    : notesOf (events.filter (·.occursAt level)) = (notesOf events).filter (·.level ≤ level) := by
  rw [notesOf, notesOf, List.filterMap_filter, List.filter_filterMap]
  refine List.filterMap_congr fun event _ => ?_
  cases event with
  | prompt | line => rfl
  | note taken =>
      by_cases occurs : taken.level ≤ level <;> simp [occursAt, note?, Option.filter, occurs]

/-- A trace has the texts of the notes, each on a line of its own. -/
theorem traceOf_eq_join (events : List Event)
    : traceOf events = Text.join ((notesOf events).map fun note => note.text ++ "\n") := by
  rw [traceOf, textOf, notesOf, List.map_filterMap, ← List.filterMap_eq_map, List.filterMap_filter]
  refine congrArg Text.join (List.filterMap_congr fun event _ => ?_)
  cases event <;> rfl

end Event

-----------------------------------------------------------------------------------------
-- From a finer level to a coarser one
-----------------------------------------------------------------------------------------

/-- A run is told without the notes of levels that are finer. -/
def Retelling.atLevel (level : Nat) : Retelling :=
  ⟨id, Note.takenAt level⟩

theorem Note.mapTokens_id (note : Note) : note.mapTokens id = note := by
  cases note <;> rfl

theorem Retelling.suits_atLevel {coarse fine : Nat} (within : coarse ≤ fine)
    : (Retelling.atLevel coarse).Suits fine coarse where
  kind _ := rfl
  notes note := by
    rw [Retelling.atLevel, Note.mapTokens_id]
    unfold Note.takenAt
    by_cases taken : note.level ≤ coarse
    · simp [taken, taken.trans within]
    · by_cases finer : note.level ≤ fine <;> simp [taken, finer]

theorem Retelling.events_atLevel (level : Nat) (events : List Event)
    : events.flatMap (Retelling.atLevel level).event = events.filter (·.occursAt level) := by
  induction events with
  | nil => rfl
  | cons event rest ih =>
      rw [List.flatMap_cons, ih]
      cases event with
      | prompt | line => rfl
      | note taken =>
          by_cases occurs : taken.level ≤ level <;>
            simp [Retelling.event, Retelling.atLevel, Note.takenAt, Event.occursAt, occurs]

theorem Diagnostic.mapToken_id (diagnostic : Diagnostic) : diagnostic.mapToken id = diagnostic := by
  cases diagnostic <;> rfl

namespace Session

theorem runtimeError_atLevel (level : Nat) (error : Option RuntimeError)
    : error.map (Retelling.atLevel level).error = error := by
  cases error <;> rfl

/-- A coarser level changes what is noted and nothing else. -/
theorem interpret_coarser (session : Session) {coarse fine : Nat} (within : coarse ≤ fine)
    (statements : List Stmt)
    : (session.atLevel coarse).interpret statements
      = (((session.atLevel fine).interpret statements).1.atLevel coarse,
        { ((session.atLevel fine).interpret statements).2 with
          events := ((session.atLevel fine).interpret statements).2.events.filter
            (·.occursAt coarse) }) := by
  have told :=
    (session.atLevel fine).interpret_retold (Retelling.suits_atLevel within) (fun _ => rfl)
      statements
  have same : statements.map (.mapTokens id) = statements :=
    List.map_id'' Stmt.mapTokens_id statements
  change (session.atLevel coarse).interpret (statements.map (.mapTokens id)) = _ at told
  rw [same] at told
  rw [told, retold, Transcript.retold, runtimeError_atLevel, Retelling.events_atLevel]
  refine Prod.ext rfl ?_
  exact congrArg (Transcript.mk _) (List.map_id'' Diagnostic.mapToken_id _)

-----------------------------------------------------------------------------------------
-- All levels of one program
-----------------------------------------------------------------------------------------

/-- What a program does at every level of detail, beside what it does at level 0 and at level 3. -/
structure Nested (ran : Nat → Session × Transcript) : Prop where
  session : ∀ level, (ran level).1 = (ran 0).1.atLevel level
  diagnostics : ∀ level, (ran level).2.diagnostics = (ran 0).2.diagnostics
  output : ∀ level, Event.outputOf (ran level).2.events = Event.textOf (ran 0).2.events
  /-- Without the notes a run is the one at level 0. -/
  plain : ∀ level, (ran level).2.events.filter (!·.isNote) = (ran 0).2.events
  events : ∀ level, (ran level).2.events = (ran 3).2.events.filter (·.occursAt level)
  notes : ∀ level,
    Event.notesOf (ran level).2.events
      = (Event.notesOf (ran 3).2.events).filter (·.level ≤ level)
  trace : ∀ level,
    Event.traceOf (ran level).2.events
      = Text.join (((Event.notesOf (ran 3).2.events).filter (·.level ≤ level)).map
          fun note => note.text ++ "\n")
  finest : ∀ level, 3 ≤ level → (ran level).2.events = (ran 3).2.events

/-- A run that at each level tells what it tells at a finer one, without the notes of levels between
them, nests.
-/
theorem nested_of_coarser {ran : Nat → Session × Transcript}
    (kept : ∀ level, (ran level).1.level = level)
    (coarser
      : ∀ {coarse fine},
          coarse ≤ fine
          → ran coarse
            = ((ran fine).1.atLevel coarse,
              { (ran fine).2 with events := (ran fine).2.events.filter (·.occursAt coarse) }))
    : Nested ran := by
  have plain (level : Nat) : (ran level).2.events.filter (!·.isNote) = (ran 0).2.events := by
    rw [coarser level.zero_le]
    exact List.filter_congr fun event _ => event.occursAt_zero.symm
  have finest (level : Nat) (within : 3 ≤ level) : (ran level).2.events = (ran 3).2.events := by
    rw [coarser within]
    exact (Event.filter_occursAt_of_three_le le_rfl _).symm
  have events (level : Nat)
      : (ran level).2.events = (ran 3).2.events.filter (·.occursAt level) := by
    -- Level 3 is finer than the levels below it; above it no other notes are left to take.
    rcases Nat.le_total level 3 with within | within
    · rw [coarser within]
    · rw [finest level within, Event.filter_occursAt_of_three_le within]
  have notes (level : Nat)
      : Event.notesOf (ran level).2.events
        = (Event.notesOf (ran 3).2.events).filter (·.level ≤ level) := by
    rw [events level, Event.notesOf_filter_occursAt]
  refine ⟨fun level => ?_, fun level => ?_, fun level => ?_, plain, events, notes,
    fun level => ?_, finest⟩
  · rw [coarser level.zero_le]
    exact congrArg (fun level => Session.mk level _ _ _) (kept level)
  · rw [coarser level.zero_le]
  · rw [Event.outputOf, plain level]
  · rw [Event.traceOf_eq_join, notes level]

/-- Every level of detail nests in the finer ones, and none changes what a program does. -/
theorem interpret_nested (session : Session) (statements : List Stmt)
    : Nested fun level => (session.atLevel level).interpret statements := by
  apply nested_of_coarser
  · exact fun level => (session.atLevel level).interpret_level statements
  · exact fun within => session.interpret_coarser within statements

/-- An operator that fails was noted before, and has no result to note. -/
example
    : let plus := Token.mk .plus (.string "+") .nil 1
      let ran := fun level =>
        ((fresh level).interpret [.print (.binary (.literal .nil) plus (.literal .nil))]).2.events
      Event.notesOf (ran 3)
          = [.dispatch .plus .nil .nil, .stopped ⟨plus, .operandsNotAddable⟩]
        ∧ Event.notesOf (ran 2) = [.stopped ⟨plus, .operandsNotAddable⟩] :=
  ⟨rfl, rfl⟩

end Session

end Lox
