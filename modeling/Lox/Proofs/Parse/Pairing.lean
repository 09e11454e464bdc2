import Lox.Proofs.Parse.Faults
import Lox.Proofs.Tree.Pairing

/-! Kinds and literals decide what is read.
Two readers that meet tokens of the same kinds with the same literals move in step, whatever the
lexemes and lines are. So they make the same attempts at the same places: where one comes to a
statement so does the other, with operators from the same places, and where one comes to an error so
does the other.
-/

namespace Lox

-----------------------------------------------------------------------------------------
-- Readers in step
-----------------------------------------------------------------------------------------

/-- The frames wait for the same operand. -/
inductive Frame.Paired (pairing : Pairing) : Frame → Frame → Prop where
  | unary {operator operator' : Token}
      (related : pairing.relates operator operator')
      : Paired pairing (.unary operator) (.unary operator')
  | binary {left left' : Expr} {operator operator' : Token}
      (first : Expr.Paired pairing left left')
      (related : pairing.relates operator operator')
      : Paired pairing (.binary left operator) (.binary left' operator')
  | group : Paired pairing .group .group

/-- The partial statements are of the same form, and all that was read of them is paired. -/
structure Partial.Paired (pairing : Pairing) (statement other : Partial) : Prop where
  form : statement.form = other.form
  frames : List.Forall₂ (Frame.Paired pairing) statement.frames other.frames
  operand : Option.Rel (Expr.Paired pairing) statement.operand other.operand

/-- A token makes the same of two partial statements. -/
inductive Partial.Step.Paired (pairing : Pairing) : Step → Step → Prop where
  | extended {statement statement' : Partial}
      (next : Partial.Paired pairing statement statement')
      : Paired pairing (.extended statement) (.extended statement')
  | completed {statement statement' : Stmt}
      (whole : Stmt.Paired pairing statement statement')
      : Paired pairing (.completed statement) (.completed statement')
  | misfit (expected : Expected)
      : Paired pairing (.misfit expected) (.misfit expected)

/-- The readers are in step. -/
inductive Position.Paired (pairing : Pairing) : Position → Position → Prop where
  | boundary : Paired pairing .boundary .boundary
  | inside {statement statement' : Partial}
      (within : Partial.Paired pairing statement statement')
      : Paired pairing (.inside statement) (.inside statement')
  | skipping : Paired pairing .skipping .skipping

/-- A token does the same to two readers. -/
inductive Position.Move.Paired (pairing : Pairing) : Move → Move → Prop where
  | advance {position position' : Position}
      (next : Position.Paired pairing position position')
      : Paired pairing (.advance position) (.advance position')
  | complete {statement statement' : Stmt}
      (whole : Stmt.Paired pairing statement statement')
      : Paired pairing (.complete statement) (.complete statement')
  | misfit (expected : Expected)
      : Paired pairing (.misfit expected) (.misfit expected)
  | finish : Paired pairing .finish .finish

/-- The attempts start and end at the same indices. They come to paired statements, or to errors
where the same is expected.
-/
inductive Attempt.Paired (pairing : Pairing) : Attempt → Attempt → Prop where
  | statement (first stop : Nat) {statement statement' : Stmt}
      (whole : Stmt.Paired pairing statement statement')
      : Paired pairing ⟨first, stop, .ok statement⟩ ⟨first, stop, .ok statement'⟩
  | error (first stop : Nat) {token token' : Token}
      (related : pairing.relates token token')
      (expected : Expected)
      : Paired pairing ⟨first, stop, .error ⟨token, expected⟩⟩
          ⟨first, stop, .error ⟨token', expected⟩⟩

/-- The faults are at the same place, and the same is expected there. So they have the same message.
-/
structure Fault.Paired (pairing : Pairing) (fault other : Fault) : Prop where
  place : fault.place = other.place
  related : pairing.relates fault.error.token other.error.token
  expected : fault.error.expected = other.error.expected

variable {pairing : Pairing} {token token' : Token}

-----------------------------------------------------------------------------------------
-- One token
-----------------------------------------------------------------------------------------

theorem Token.Alike.operand?_eq {other : Token} (alike : token.Alike other)
    : token.operand? = other.operand? := by
  rw [operand?, operand?, alike.kind, alike.literal]

theorem Form.statement_paired (form : Form) {expr expr' : Expr}
    (paired : Expr.Paired pairing expr expr')
    : Stmt.Paired pairing (form.statement expr) (form.statement expr') := by
  cases form with
  | expression => exact .expression paired
  | print => exact .print paired

namespace Partial

variable {operand operand' : Expr} {frames frames' : List Frame}

/-- Paired frames give paired operands to the same operators, by induction on the frames. -/
theorem settle_paired (strength : Nat) (operands : Expr.Paired pairing operand operand')
    (paired : List.Forall₂ (Frame.Paired pairing) frames frames')
    : Expr.Paired pairing (settle strength operand frames).1 (settle strength operand' frames').1
      ∧ List.Forall₂ (Frame.Paired pairing) (settle strength operand frames).2
          (settle strength operand' frames').2 := by
  induction paired generalizing operand operand' with
  | nil => exact ⟨operands, .nil⟩
  | cons frame rest ih =>
      cases frame with
      | unary related => exact ih (.unary related operands)
      | group => exact ⟨operands, .cons .group rest⟩
      | binary left related =>
          -- Alike operators bind equally tightly, so both take their operand or neither does.
          rw [settle, settle, (pairing.alike related).kind]
          split
          · exact ih (.binary left related operands)
          · exact ⟨operands, .cons (.binary left related) rest⟩

theorem feedOperand_paired (form : Form)
    (paired : List.Forall₂ (Frame.Paired pairing) frames frames')
    (related : pairing.relates token token')
    : Step.Paired pairing (feedOperand form frames token) (feedOperand form frames' token') := by
  have alike := pairing.alike related
  rw [feedOperand, feedOperand, alike.operand?_eq, alike.kind]
  cases token'.operand? with
  | some value => exact .extended ⟨rfl, paired, .some (.literal value)⟩
  | none =>
      dsimp only
      split
      · exact .extended ⟨rfl, .cons (.unary related) paired, .none⟩
      · split
        · exact .extended ⟨rfl, .cons .group paired, .none⟩
        · exact .misfit .operand

theorem feedEnd_paired (form : Form) (operands : Expr.Paired pairing operand operand')
    (paired : List.Forall₂ (Frame.Paired pairing) frames frames')
    (related : pairing.relates token token')
    : Step.Paired pairing (feedEnd form operand frames token)
        (feedEnd form operand' frames' token') := by
  rw [feedEnd.eq_def, feedEnd.eq_def, (pairing.alike related).kind]
  cases paired with
  | nil =>
      dsimp only
      split
      · exact .completed (form.statement_paired operands)
      · exact .misfit (.terminator form)
  | cons _ outer =>
      dsimp only
      split
      · exact .extended ⟨rfl, outer, .some (.grouping operands)⟩
      · exact .misfit .closing

theorem feedOperator_paired (form : Form) (operands : Expr.Paired pairing operand operand')
    (paired : List.Forall₂ (Frame.Paired pairing) frames frames')
    (related : pairing.relates token token')
    : Step.Paired pairing (feedOperator form operand frames token)
        (feedOperator form operand' frames' token') := by
  rw [feedOperator, feedOperator, (pairing.alike related).kind]
  cases token'.kind.strength? with
  | some strength =>
      obtain ⟨left, outer⟩ := settle_paired strength operands paired
      exact .extended ⟨rfl, .cons (.binary left related) outer, .none⟩
  | none =>
      obtain ⟨whole, outer⟩ := settle_paired 0 operands paired
      exact feedEnd_paired form whole outer related

theorem Paired.feed {statement other : Partial} (paired : Partial.Paired pairing statement other)
    (related : pairing.relates token token')
    : Step.Paired pairing (statement.feed token) (other.feed token') := by
  obtain ⟨form, frames, operand⟩ := statement
  obtain ⟨form', frames', operand'⟩ := other
  obtain ⟨forms, framed, operands⟩ := paired
  obtain rfl : form = form' := forms
  cases operands with
  | none => exact feedOperand_paired form framed related
  | some operands => exact feedOperator_paired form operands framed related

theorem empty_paired (form : Form) : Partial.Paired pairing (empty form) (empty form) :=
  ⟨rfl, .nil, .none⟩

theorem start_paired (related : pairing.relates token token')
    : Step.Paired pairing (start token) (start token') := by
  rw [start, start, (pairing.alike related).kind]
  split
  · exact .extended (empty_paired .print)
  · exact (empty_paired .expression).feed related

end Partial

namespace Position

theorem Move.paired_ofStep {step step' : Partial.Step}
    (paired : Partial.Step.Paired pairing step step')
    : Move.Paired pairing (.ofStep step) (.ofStep step') := by
  cases paired with
  | extended next => exact .advance (.inside next)
  | completed whole => exact .complete whole
  | misfit expected => exact .misfit expected

theorem afterSkipped_paired (related : pairing.relates token token')
    : Position.Paired pairing (afterSkipped token) (afterSkipped token') := by
  rw [afterSkipped, afterSkipped, (pairing.alike related).kind]
  split
  · exact .boundary
  · exact .skipping

variable {position other : Position}

theorem Paired.move (paired : Position.Paired pairing position other)
    (related : pairing.relates token token')
    : Move.Paired pairing (position.move token) (other.move token') := by
  have kinds := (pairing.alike related).kind
  have started := Move.paired_ofStep (Partial.start_paired related)
  cases paired with
  | inside within => exact Move.paired_ofStep (within.feed related)
  | boundary =>
      rw [Position.move, Position.move, kinds]
      split
      · exact .finish
      · exact started
  | skipping =>
      rw [Position.move, Position.move, kinds]
      split
      · exact .finish
      · split
        · exact started
        · exact .advance (afterSkipped_paired related)

/-- Readers in step stay in step. -/
theorem Paired.next (paired : Position.Paired pairing position other)
    (related : pairing.relates token token')
    : Position.Paired pairing (position.next token) (other.next token') := by
  have moves := paired.move related
  rw [Position.next, Position.next]
  generalize position.move token = move at moves ⊢
  generalize other.move token' = move' at moves ⊢
  cases moves with
  | advance next => exact next
  | complete => exact .boundary
  | misfit => exact afterSkipped_paired related
  | finish => exact paired

theorem Paired.firstAt_eq (paired : Position.Paired pairing position other) (first index : Nat)
    : position.firstAt first index = other.firstAt first index := by
  cases paired <;> rfl

/-- Where a token ends the attempt of one reader, it ends that of the other. -/
theorem Paired.ended (paired : Position.Paired pairing position other) (first index : Nat)
    (related : pairing.relates token token')
    : List.Forall₂ (Attempt.Paired pairing)
        ((position.outcome? token).map (Attempt.mk first index)).toList
        ((other.outcome? token').map (Attempt.mk first index)).toList := by
  have moves := paired.move related
  rw [outcome?, outcome?]
  generalize position.move token = move at moves ⊢
  generalize other.move token' = move' at moves ⊢
  cases moves with
  | complete whole => exact .cons (.statement first index whole) .nil
  | misfit expected => exact .cons (.error first index related expected) .nil
  | advance | finish => exact .nil

end Position

-----------------------------------------------------------------------------------------
-- All tokens
-----------------------------------------------------------------------------------------

namespace Parse

variable {tokens others : List Token}

/-- Readers in step make the same attempts, by induction on the tokens. -/
theorem attemptsFrom_paired {position other : Position} (first index : Nat)
    (paired : Position.Paired pairing position other)
    (related : List.Forall₂ pairing.relates tokens others)
    : List.Forall₂ (Attempt.Paired pairing) (attemptsFrom first index position tokens)
        (attemptsFrom first index other others) := by
  induction related generalizing first index position other with
  | nil => exact .nil
  | cons head _ ih =>
      rw [attemptsFrom, attemptsFrom, paired.firstAt_eq first index, (pairing.alike head).kind]
      refine List.rel_append (paired.ended _ index head) ?_
      split
      · exact .nil
      · exact ih _ _ (paired.next head)

theorem attempts_paired (related : List.Forall₂ pairing.relates tokens others)
    : List.Forall₂ (Attempt.Paired pairing) (attempts tokens) (attempts others) :=
  attemptsFrom_paired 0 0 .boundary related

theorem statements_paired (related : List.Forall₂ pairing.relates tokens others)
    : List.Forall₂ (Stmt.Paired pairing) (ofTokens tokens).statements
        (ofTokens others).statements := by
  rw [statements_eq, statements_eq]
  refine List.rel_filterMap ?_ (attempts_paired related)
  intro attempt attempt' paired
  cases paired with
  | statement _ _ whole => exact .some whole
  | error => exact .none

theorem faults_paired (related : List.Forall₂ pairing.relates tokens others)
    : List.Forall₂ (Fault.Paired pairing) (faults tokens) (faults others) := by
  refine List.rel_filterMap ?_ (attempts_paired related)
  intro attempt attempt' paired
  cases paired with
  | statement => exact .none
  | error _ _ related _ => exact .some ⟨rfl, related, rfl⟩

theorem errors_eq_nil_iff (related : List.Forall₂ pairing.relates tokens others)
    : (ofTokens tokens).errors = [] ↔ (ofTokens others).errors = [] := by
  have lengths := (faults_paired related).length_eq
  rw [errors_eq_faults, errors_eq_faults, List.map_eq_nil_iff, List.map_eq_nil_iff,
    ← List.length_eq_zero_iff, lengths, List.length_eq_zero_iff]

theorem ended_eq (related : List.Forall₂ pairing.relates tokens others)
    : (ofTokens tokens).ended = (ofTokens others).ended := by
  have kinds : tokens.map Token.kind = others.map Token.kind := by
    rw [← List.forall₂_eq_eq_eq]
    refine List.rel_map ?_ related
    intro token token' each
    exact (pairing.alike each).kind
  rw [Bool.eq_iff_iff, ofTokens, ofTokens, continuing_ended, continuing_ended, ← List.mem_map,
    ← List.mem_map, kinds]

-----------------------------------------------------------------------------------------
-- Two lists of tokens
-----------------------------------------------------------------------------------------

/-- Alike tokens at the same index, each in its own list. -/
def aligned (first second : List Token) : Pairing where
  relates token other :=
    token.Alike other ∧ ∃ index : Nat, first[index]? = some token ∧ second[index]? = some other
  alike := And.left

theorem forall_aligned {first second : List Token} (alike : List.Forall₂ Token.Alike first second)
    : List.Forall₂ (aligned first second).relates first second := by
  refine List.forall₂_of_length_eq_of_get alike.length_eq ?_
  intro index bound bound'
  exact ⟨alike.get bound bound', index, List.getElem?_eq_getElem bound,
    List.getElem?_eq_getElem bound'⟩

/-- What two lists of tokens come to is the same, but for lexemes and lines. -/
inductive SameReading (first second : List Token)
    : Except Failure (List Stmt) → Except Failure (List Stmt) → Prop where
  | exhausted : SameReading first second (.error .exhausted) (.error .exhausted)
  /-- In both lists, each error names the token at its place. -/
  | malformed
      (paired : List.Forall₂ (Fault.Paired (aligned first second)) (faults first) (faults second))
      (here : ∀ fault ∈ faults first, first[fault.place]? = some fault.error.token)
      (there : ∀ fault ∈ faults second, second[fault.place]? = some fault.error.token)
      : SameReading first second
          (.error (.malformed ((faults first).map Fault.error)))
          (.error (.malformed ((faults second).map Fault.error)))
  /-- At each node, the operators stand at one index, each in its own list. -/
  | program {statements others : List Stmt}
      (unspelled
        : statements.map (Stmt.mapTokens .unspelled) = others.map (Stmt.mapTokens .unspelled))
      (paired : List.Forall₂ (Stmt.Paired (aligned first second)) statements others)
      : SameReading first second (.ok statements) (.ok others)

/-- Lexemes and lines play no part in reading. Two lists of tokens that have the same kinds and
literals, index by index, both run out, or are both malformed, with the same expected at the same
places, or are both programs: the same ones but for lexemes and lines, with operators from the same
places.
-/
theorem reading_ignores_spelling {first second : List Token}
    (alike : List.Forall₂ Token.Alike first second)
    : SameReading first second (ofTokens first).program (ofTokens second).program := by
  have related := forall_aligned alike
  have ended := ended_eq related
  have errors := errors_eq_nil_iff related
  cases reached : (ofTokens first).ended with
  | false =>
      -- No end of the input is among the tokens of either list.
      rw [program, program, ← ended, reached]
      exact .exhausted
  | true =>
      rw [reached] at ended
      by_cases clean : (ofTokens first).errors = []
      · rw [program_of_errors_nil reached clean, program_of_errors_nil ended.symm (errors.mp clean)]
        have paired := statements_paired related
        exact .program (Pairing.program_unspelled paired) paired
      · rw [program_of_errors_ne_nil reached clean,
          program_of_errors_ne_nil ended.symm (mt errors.mpr clean), errors_eq_faults,
          errors_eq_faults]
        exact .malformed (faults_paired related) (fun _ member => (place_of_faults member).2)
          (fun _ member => (place_of_faults member).2)

/-- A difference with a sign in front, written on one line and over many. -/
theorem reading_ignores_spelling_of_difference
    : let kinds : List Token.Kind :=
        [.printKeyword, .minus, .leftParen, .nilKeyword, .minus, .nilKeyword, .rightParen,
          .semicolon, .endOfInput]
      let first := kinds.map fun kind => Token.mk kind .nil .nil 1
      let second := kinds.mapIdx fun index kind => Token.mk kind (.string kind.name) .nil index
      List.Forall₂ Token.Alike first second
      ∧ ∃ statements others,
          (ofTokens first).program = .ok statements
          ∧ (ofTokens second).program = .ok others
          ∧ List.Forall₂ (Stmt.Paired (aligned first second)) statements others := by
  intro kinds first second
  have alike : List.Forall₂ Token.Alike first second := by
    repeat' constructor
  have same := reading_ignores_spelling alike
  obtain ⟨statements, program⟩ : ∃ statements, (ofTokens first).program = .ok statements :=
    ⟨_, rfl⟩
  obtain ⟨others, program'⟩ : ∃ others, (ofTokens second).program = .ok others :=
    ⟨_, rfl⟩
  rw [program, program'] at same
  cases same with
  | program _ paired => exact ⟨alike, statements, others, program, program', paired⟩

end Parse

end Lox
