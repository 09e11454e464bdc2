import Lox.Proofs.Document.Loaded
import Lox.Proofs.Source.Writing

/-! Nothing but runtime errors comes of a program, and texts that cannot be written.
Every program that is loaded or read has values for literals, whatever tokens stand as operators. So
its run ends or fails at an operator, unless it is broken off where a text has a surrogate or an
integer that is too long.
-/

namespace Lox

/-- Nothing but runtime errors comes of running the statements, at any level of detail, and nothing
but a text that cannot be written keeps a session from it.
-/
structure Contained (statements : List Stmt) : Prop where
  literals : ∀ statement ∈ statements, ∀ value,
    .literal value ∈ statement.expr.parts → value.isValue = true
  evaluations : ∀ level, ∀ statement ∈ statements, ∀ part ∈ statement.expr.parts,
    part.Settles level
  /-- An evaluation is broken off only with the lexeme of one of its operators to blame. -/
  noted : ∀ level, ∀ statement ∈ statements, ∀ part ∈ statement.expr.parts,
    (part.evaluate level).writeError? ≠ none →
    ∃ operator ∈ part.operators, operator.isNotable = false
  quotients : ∀ level, ∀ statement ∈ statements, ∀ left operator right x y,
    .binary left operator right ∈ statement.expr.parts →
    operator.kind = .slash →
    (left.evaluate level).result = .ok (.number x) →
    (right.evaluate level).result = .ok (.number y) →
    (y == 0.0) = true →
    ∃ quotient,
      ((Expr.binary left operator right).evaluate level).result = .ok (.number quotient)
      ∧ quotient.isNaN = (x == 0.0 || x.isNaN)
      ∧ quotient.isInf = !(x == 0.0 || x.isNaN)
  /-- All that a run shows is about values and about operators of its statements. -/
  events : ∀ level, ∀ event ∈ (interpret level statements).events,
    let operators := statements.flatMap (·.expr.operators)
    event.Satisfies (·.isValue = true) (· ∈ operators)
    ∨ ∃ error,
        event = .note (.stopped error)
        ∧ (interpret level statements).stop = some (.failed error)
        ∧ error.token ∈ operators
  runs : ∀ level, (interpret level statements).Settles statements
  /-- A session shows the run, and reports the error that stops it. -/
  shown : ∀ session : Session,
    (session.deliver statements).error = none →
    session.deliver statements
      = ⟨(session.interpret statements).1, (session.interpret statements).2, none⟩
  /-- A run is broken off only with something to blame in the statements. -/
  blamed : ∀ (session : Session) error,
    (session.deliver statements).error = some error → error.Blames statements

theorem contained_of_valued {statements : List Stmt}
    (valued : ∀ statement ∈ statements, statement.expr.Valued)
    : Contained statements where
  literals statement member _ inside := (valued statement member).of_part inside
  evaluations level statement member _ inside :=
    ((valued statement member).of_part inside).settles level
  noted _ statement member _ inside :=
    Expr.exists_of_writeError ((valued statement member).of_part inside)
  quotients _ _ _ _ _ _ _ _ _ := Expr.evaluate_quotient
  events level event member := by
    refine interpret_satisfies closed_isValue (fun statement inside => Stmt.satisfies_iff.mpr ?_)
      member
    constructor
    · exact fun _ => (valued statement inside).of_part
    · exact fun operator here => List.mem_flatMap.mpr ⟨statement, inside, here⟩
  runs level := interpret_settles level valued
  shown _ := Session.deliver_of_error_eq_none
  blamed _ _ := Session.blames_of_deliver valued

/-- Whatever kinds, lexemes and literals the tokens of a document have, a program that is loaded
from it runs to its end or fails at one of its operators, unless a text cannot be written. So does
every program that is read, and there all texts can be written.
-/
theorem programs_fail_at_operators_or_in_writing
    : (∀ document statements, Document.loadProgram document = .ok statements → Contained statements)
      ∧ ∀ text statements, (Source.ofString text).program = .ok statements →
          Contained statements
          ∧ (Source.Numbered text →
              ∀ session : Session, (session.deliver statements).error = none) := by
  refine ⟨fun document statements loaded => ?_, fun text statements read => ⟨?_, ?_⟩⟩
  · refine contained_of_valued fun statement member => ?_
    exact (Document.stable_of_loadProgram loaded statement member).valued
  · refine contained_of_valued fun statement member => ?_
    exact (Source.over_of_program read statement member).valued
  · intro numbered session
    rw [session.deliver_of_program (Source.numbered_of_program numbered read)]

/-- A document with an operator that is none, and a text with one that does not suit its operand. -/
theorem programs_fail_at_operators_or_in_writing_of_two
    : let odd : Token := ⟨.endOfInput, .list [.nil], .object [], 0⟩
      let minus : Token := ⟨.minus, .string "-", .nil, 1⟩
      let loaded := [Stmt.print (.binary (.literal .nil) odd (.literal (.boolean true)))]
      let read := [Stmt.expression (.unary minus (.literal .nil))]
      Document.loadProgram (Node.program loaded).toDatum = .ok loaded
      ∧ Contained loaded
      ∧ (interpret 3 loaded).stop = some (.failed ⟨odd, .unknownBinary⟩)
      ∧ (Source.ofString "-nil;").program = .ok read
      ∧ Contained read
      ∧ Source.Numbered "-nil;"
      ∧ ((Session.fresh 3).deliver read).error = none
      ∧ (interpret 3 read).stop = some (.failed ⟨minus, .operandNotNumber⟩) := by
  intro odd minus loaded read
  have stable : ∀ statement ∈ loaded, statement.Over Token.Stable := by
    intro statement member
    obtain rfl := List.mem_singleton.mp member
    have plain : odd.Stable := by
      intro integer
      cases integer
    exact ⟨rfl, plain, rfl⟩
  have document := Document.loadProgram_toDatum stable
  have text : (Source.ofString "-nil;").program = .ok read := by cbv
  have numbered : Source.Numbered "-nil;" := by cbv
  obtain ⟨contained, written⟩ := programs_fail_at_operators_or_in_writing.2 _ _ text
  exact ⟨document, programs_fail_at_operators_or_in_writing.1 _ _ document, rfl, text, contained,
    numbered, written numbered _, rfl⟩

/-- An operator on a line with a number that is too long cannot even fail. -/
theorem deliver_error_of_long {line : Int} (long : Text.isShort line = false)
    : let minus : Token := ⟨.minus, .string "-", .nil, line⟩
      ((Session.fresh 0).deliver [.expression (.unary minus (.literal .nil))]).error
        = some .tooLong := by
  intro minus
  have short : (RuntimeError.mk minus .operandNotNumber).isShort = false := by
    rw [RuntimeError.isShort, long]
    rfl
  rw [Session.deliver_error]
  change (if (RuntimeError.mk minus .operandNotNumber).isShort then none else some .tooLong)
    = some WriteError.tooLong
  rw [short]
  rfl

/-- Two programs that are loaded from documents and broken off when they run: one notes an operator
whose lexeme is a surrogate, and the other fails on a line with a number that is too long.
-/
theorem loaded_programs_are_broken_off
    : let half : Surrogate := ⟨0xD800, by decide⟩
      let odd : Token := ⟨.bang, .string ⟨[.surrogate half]⟩, .nil, 1⟩
      let far : Token := ⟨.minus, .string "-", .nil, (10 ^ Text.maxDigits : Nat)⟩
      let negation := Expr.unary odd (.literal .nil)
      let noted := [Stmt.print negation]
      let failing := [Stmt.expression (.unary far (.literal .nil))]
      Document.loadProgram (Node.program noted).toDatum = .ok noted
      ∧ (negation.evaluate 2).writeError? = some (.unencodable ⟨half, 0, 1⟩)
      ∧ ((Session.fresh 2).deliver noted).error = some (.unencodable ⟨half, 0, 1⟩)
      ∧ Document.loadProgram (Node.program failing).toDatum = .ok failing
      ∧ ((Session.fresh 0).deliver failing).error = some .tooLong := by
  intro half odd far negation noted failing
  have loaded {statement : Stmt} (suits : statement.Over Token.Stable)
      : Document.loadProgram (Node.program [statement]).toDatum = .ok [statement] := by
    refine Document.loadProgram_toDatum fun other member => ?_
    obtain rfl := List.mem_singleton.mp member
    exact suits
  have plain {token : Token} (literal : token.literal = .nil) : token.Stable := by
    intro integer
    rw [literal] at integer
    cases integer
  exact ⟨loaded ⟨plain rfl, rfl⟩, rfl, rfl, loaded ⟨plain rfl, rfl⟩,
    deliver_error_of_long Text.not_isShort_pow⟩

end Lox
