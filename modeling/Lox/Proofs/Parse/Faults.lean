import Lox.Proofs.Parse.Attempts
import Lox.Source

/-! Where the errors of a parse stand.
The reader moves on with every token and stops at the first end of the input. So its errors stand at
strictly increasing places up to there, and nothing behind it plays a part.
-/

namespace Lox

/-- An error of a parse and the index of the token that does not fit. -/
structure Fault where
  place : Nat
  error : SyntaxError

/-- The error that an attempt comes to, at the token with which it ends. -/
def Attempt.fault? (attempt : Attempt) : Option Fault :=
  attempt.error?.map (Fault.mk attempt.stop)

/-- The errors of a parse with their places, in the order in which they are found. -/
def Parse.faults (tokens : List Token) : List Fault :=
  (attempts tokens).filterMap Attempt.fault?

/-- The index of the first end of the input; it lies behind all tokens if there is none. -/
def Parse.firstEnd (tokens : List Token) : Nat :=
  tokens.findIdx (·.kind = .endOfInput)

theorem Position.token_of_outcome {position : Position} {token : Token} {error : SyntaxError}
    (h : position.outcome? token = some (.error error))
    : error.token = token := by
  unfold outcome? at h
  split at h <;> cases h
  rfl

/-- Outside a statement, no token is part of one that started before. -/
theorem Position.firstAt_of_outcome (first index : Nat) {position : Position} {token : Token}
    {outcome : Except SyntaxError Stmt}
    (h : position.outcome? token = some outcome)
    : (position.next token).firstAt first index = index := by
  unfold outcome? at h
  unfold next
  split at h <;> rename_i step
  · rw [step]
    rfl
  · rw [step]
    simp only [afterSkipped]
    split <;> rfl
  · cases h
  · cases h

namespace Parse

-----------------------------------------------------------------------------------------
-- Order
-----------------------------------------------------------------------------------------

/-- An attempt does not end before it starts, and its error names the token with which it ends. -/
theorem stop_of_attempts {tokens : List Token} {attempt : Attempt}
    (member : attempt ∈ attempts tokens)
    : attempt.first ≤ attempt.stop
      ∧ ∀ error, attempt.error? = some error → tokens[attempt.stop]? = some error.token := by
  refine forall_attemptsFrom tokens
    (fun first index _ => first ≤ index)
    (fun attempt =>
      attempt.first ≤ attempt.stop
      ∧ ∀ error, attempt.error? = some error → tokens[attempt.stop]? = some error.token)
    ?_ ?_ (Nat.le_refl 0) rfl attempt member
  · intro first index position token bound _ _
    exact Nat.le_succ_of_le (position.firstAt_le bound)
  · intro first index position token outcome bound here found
    refine ⟨position.firstAt_le bound, ?_⟩
    intro error same
    cases outcome with
    | ok => cases same
    | error found' =>
        cases same
        rw [Position.token_of_outcome found]
        exact here

/-- Before the first end of the input there is none. -/
theorem ne_endOfInput_of_lt {tokens : List Token} {index : Nat} {token : Token}
    (before : index < firstEnd tokens)
    (here : tokens[index]? = some token)
    : token.kind ≠ .endOfInput := by
  obtain ⟨bound, rfl⟩ := List.getElem?_eq_some_iff.mp here
  have other := List.not_of_lt_findIdx before
  simpa using other

theorem kind_firstEnd {tokens : List Token} {token : Token}
    (here : tokens[firstEnd tokens]? = some token)
    : token.kind = .endOfInput := by
  obtain ⟨bound, rfl⟩ := List.getElem?_eq_some_iff.mp here
  have found : decide (tokens[firstEnd tokens].kind = .endOfInput) = true :=
    List.findIdx_getElem (w := bound)
  exact of_decide_eq_true found

/-- No attempt reaches over the first end of the input. -/
theorem stop_le {tokens : List Token} {attempt : Attempt} (member : attempt ∈ attempts tokens)
    : attempt.stop ≤ firstEnd tokens := by
  refine forall_attemptsFrom tokens
    (fun _ index _ => index ≤ firstEnd tokens)
    (fun attempt => attempt.stop ≤ firstEnd tokens)
    ?_ ?_ (Nat.zero_le _) rfl attempt member
  · intro first index position token bound here inner
    refine Nat.lt_of_le_of_ne bound ?_
    rintro rfl
    exact inner (kind_firstEnd here)
  · intro first index position token outcome bound _ _
    exact bound

/-- All attempts from a place on start there or later. -/
theorem le_first_of_mem {lower first index : Nat} {position : Position} {tokens : List Token}
    {attempt : Attempt}
    (here : lower ≤ position.firstAt first index)
    (later : lower ≤ index)
    (member : attempt ∈ attemptsFrom first index position tokens)
    : lower ≤ attempt.first := by
  induction tokens generalizing first index position with
  | nil => cases member
  | cons token rest ih =>
      rcases List.mem_append.mp member with ended | after
      · obtain ⟨outcome, -, rfl⟩ := Option.map_eq_some_iff.mp (Option.mem_toList.mp ended)
        exact here
      · split at after
        · cases after
        · refine ih ?_ (Nat.le_succ_of_le later) after
          cases position.next token with
          | inside => exact here
          | boundary | skipping => exact Nat.le_succ_of_le later

/-- Attempts do not overlap: each one starts behind the token with which the one before ended. By
induction on the tokens.
-/
theorem attemptsFrom_pairwise (first index : Nat) (position : Position) (tokens : List Token)
    : (attemptsFrom first index position tokens).Pairwise
        (fun earlier later => earlier.stop < later.first) := by
  induction tokens generalizing first index position with
  | nil => exact .nil
  | cons token rest ih =>
      rw [attemptsFrom, List.pairwise_append]
      refine ⟨?_, ?_, ?_⟩
      · cases position.outcome? token with
        | none => exact .nil
        | some => exact List.pairwise_singleton _ _
      · split
        · exact .nil
        · exact ih _ _ _
      · intro attempt ended other after
        obtain ⟨outcome, found, rfl⟩ := Option.map_eq_some_iff.mp (Option.mem_toList.mp ended)
        split at after
        · cases after
        · have fresh :=
            Position.firstAt_of_outcome (position.firstAt first index) (index + 1) found
          exact le_first_of_mem (Nat.le_of_eq fresh.symm) (Nat.le_refl _) after

-----------------------------------------------------------------------------------------
-- Faults
-----------------------------------------------------------------------------------------

theorem errors_eq_faults (tokens : List Token)
    : (ofTokens tokens).errors = (faults tokens).map Fault.error := by
  rw [errors_eq, faults, List.map_filterMap]
  congr 1
  funext attempt
  rw [Attempt.fault?]
  cases attempt.error? <;> rfl

/-- The places of errors increase. -/
theorem faults_pairwise (tokens : List Token)
    : (faults tokens).Pairwise (fun earlier later => earlier.place < later.place) := by
  rw [faults, List.pairwise_filterMap]
  refine (attemptsFrom_pairwise 0 0 .boundary tokens).imp_of_mem ?_
  intro earlier later _ member apart fault found other foundOther
  obtain ⟨_, -, rfl⟩ := Option.map_eq_some_iff.mp found
  obtain ⟨_, -, rfl⟩ := Option.map_eq_some_iff.mp foundOther
  exact Nat.lt_of_lt_of_le apart (stop_of_attempts member).1

/-- Each error stands at its token, no later than the first end of the input. -/
theorem place_of_faults {tokens : List Token} {fault : Fault} (member : fault ∈ faults tokens)
    : fault.place ≤ firstEnd tokens ∧ tokens[fault.place]? = some fault.error.token := by
  obtain ⟨attempt, tried, found⟩ := List.mem_filterMap.mp member
  obtain ⟨error, same, rfl⟩ := Option.map_eq_some_iff.mp found
  exact ⟨stop_le tried, (stop_of_attempts tried).2 error same⟩

/-- With one place for each error, there are no more errors than places up to the end. -/
theorem length_errors_le (tokens : List Token)
    : (ofTokens tokens).errors.length ≤ firstEnd tokens + 1 := by
  let places := (faults tokens).map Fault.place
  have distinct : places.Nodup := by
    refine List.pairwise_map.mpr ((faults_pairwise tokens).imp ?_)
    intro earlier later apart
    exact Nat.ne_of_lt apart
  have bounded : places ⊆ List.range (firstEnd tokens + 1) := by
    intro place member
    obtain ⟨fault, inside, rfl⟩ := List.mem_map.mp member
    exact List.mem_range.mpr (Nat.lt_succ_of_le (place_of_faults inside).1)
  have fits : places.length ≤ (List.range (firstEnd tokens + 1)).length :=
    distinct.length_le_of_subset bounded
  rw [List.length_range, List.length_map] at fits
  rw [errors_eq_faults, List.length_map]
  exact fits

/-- Only the last error can stand at the end of the input. -/
theorem endOfInput_notMem_dropLast (tokens : List Token)
    : ∀ error ∈ (ofTokens tokens).errors.dropLast, error.token.kind ≠ .endOfInput := by
  rw [errors_eq_faults, ← List.map_dropLast]
  intro error member
  obtain ⟨fault, early, rfl⟩ := List.mem_map.mp member
  have ordered := faults_pairwise tokens
  have placed : ∀ fault ∈ faults tokens, _ := fun _ member => place_of_faults member
  rcases List.eq_nil_or_concat (faults tokens) with none | ⟨front, final, all⟩
  · rw [none] at early
    cases early
  · rw [List.concat_eq_append] at all
    rw [all, List.dropLast_concat] at early
    rw [all] at ordered placed
    have before : fault.place < final.place :=
      (List.pairwise_append.mp ordered).2.2 fault early final (List.mem_singleton_self final)
    have bound := (placed final (List.mem_append_right front (List.mem_singleton_self final))).1
    have here := (placed fault (List.mem_append_left [final] early)).2
    exact ne_endOfInput_of_lt (Nat.lt_of_lt_of_le before bound) here

-----------------------------------------------------------------------------------------
-- How reading ends
-----------------------------------------------------------------------------------------

/-- Without an end of the input among them the tokens run out, and only then. -/
theorem program_exhausted_iff (tokens : List Token)
    : (ofTokens tokens).program = .error .exhausted
      ↔ ∀ token ∈ tokens, token.kind ≠ .endOfInput := by
  have reached := continuing_ended .boundary tokens
  rw [program]
  cases ended : (ofTokens tokens).ended with
  | false =>
      have none : ¬∃ token ∈ tokens, token.kind = .endOfInput := by
        intro found
        exact Bool.noConfusion (ended.symm.trans (reached.mpr found))
      refine ⟨fun _ token member kind => none ⟨token, member, kind⟩, fun _ => rfl⟩
  | true =>
      obtain ⟨token, member, kind⟩ := reached.mp ended
      refine ⟨fun exhausted => ?_, fun inner => absurd kind (inner token member)⟩
      split at exhausted
      · rename_i impossible
        cases impossible
      · split at exhausted <;> cases exhausted

/-- Nothing behind the first end of the input is read. -/
theorem ofTokens_take_firstEnd {tokens : List Token} (other : List Token)
    (ended : ∃ token ∈ tokens, token.kind = .endOfInput)
    : ofTokens (tokens.take (firstEnd tokens + 1) ++ other) = ofTokens tokens := by
  have bound : firstEnd tokens < tokens.length := by
    simpa [firstEnd, List.findIdx_lt_length] using ended
  have ends : tokens[firstEnd tokens].kind = .endOfInput :=
    kind_firstEnd (List.getElem?_eq_getElem bound)
  have inner : ∀ token ∈ tokens.take (firstEnd tokens), token.kind ≠ .endOfInput := by
    intro token member
    obtain ⟨index, here⟩ := List.mem_iff_getElem?.mp member
    rw [List.getElem?_take] at here
    split at here
    · rename_i before
      exact ne_endOfInput_of_lt before here
    · cases here
  have split : tokens = tokens.take (firstEnd tokens)
      ++ tokens[firstEnd tokens] :: tokens.drop (firstEnd tokens + 1) := by simp
  have front : tokens.take (firstEnd tokens + 1)
      = tokens.take (firstEnd tokens) ++ [tokens[firstEnd tokens]] := by
    simp
  rw [front, List.append_assoc, List.singleton_append]
  conv => rhs; rw [split]
  rw [ofTokens, ofTokens, continuing_append _ _ inner, continuing_append _ _ inner,
    continuing_end _ other ends, continuing_end _ (tokens.drop (firstEnd tokens + 1)) ends]

/-- How the reading of tokens ends that have their first end of the input at an index. -/
structure EndsAt (tokens : List Token) (index : Nat) : Prop where
  /-- What stands behind the end plays no part. -/
  independent : ∀ other, ofTokens (tokens.take (index + 1) ++ other) = ofTokens tokens
  accepted : (ofTokens tokens).errors = [] →
    (ofTokens tokens).program = .ok (ofTokens tokens).statements
  malformed : (ofTokens tokens).errors ≠ [] →
    (ofTokens tokens).program = .error (.malformed (ofTokens tokens).errors)
  located : (ofTokens tokens).errors = (faults tokens).map Fault.error
  increasing : ((faults tokens).map Fault.place).Pairwise (· < ·)
  inside : ∀ fault ∈ faults tokens,
    fault.place ≤ index ∧ tokens[fault.place]? = some fault.error.token
  few : (ofTokens tokens).errors.length ≤ index + 1
  /-- Only the last error can stand at the end. -/
  before : ∀ error ∈ (ofTokens tokens).errors.dropLast, error.token.kind ≠ .endOfInput
  /-- Behind the errors of a scan, each error is reported once. -/
  reported : ∀ lexical : List LexicalError,
    (Source.mk ⟨tokens, lexical⟩ (ofTokens tokens)).diagnostics
      = lexical.map .ofLexical
        ++ (faults tokens).map fun fault =>
          .syntactic fault.error.token fault.error.expected.message

/-- Reading always ends: the tokens run out just when no end of the input is among them, and
otherwise the tokens up to the first end alone decide the outcome. Each error stands at a token of
its own, one after another, at most one of them at the end of the input and then as the last. All of
them are reported once, in this order, and there is a program just when there are none.
-/
theorem reading_ends_at_first_end
    : (∀ tokens,
        (ofTokens tokens).program = .error .exhausted
        ↔ ∀ token ∈ tokens, token.kind ≠ .endOfInput)
      ∧ ∀ tokens : List Token,
          (∃ token ∈ tokens, token.kind = .endOfInput) → EndsAt tokens (firstEnd tokens) := by
  refine ⟨program_exhausted_iff, ?_⟩
  intro tokens ended
  have reached := (continuing_ended .boundary tokens).mpr ended
  refine {
    independent := fun other => ofTokens_take_firstEnd other ended
    accepted := program_of_errors_nil reached
    malformed := program_of_errors_ne_nil reached
    located := errors_eq_faults tokens
    increasing := List.pairwise_map.mpr (faults_pairwise tokens)
    inside := fun fault member => place_of_faults member
    few := length_errors_le tokens
    before := endOfInput_notMem_dropLast tokens
    reported := ?_ }
  intro lexical
  rw [Source.diagnostics, errors_eq_faults, List.map_map]
  rfl

/-- Three errors: an operator without an operand, a parenthesis that a semicolon leaves open, and
one that the end leaves open. The operator behind the end plays no part.
-/
theorem reading_ends_at_first_end_of_open_parentheses
    : let word := fun kind => Token.mk kind .nil .nil 1
      let tokens :=
        [.star, .semicolon, .leftParen, .nilKeyword, .semicolon, .leftParen, .endOfInput,
          .plus].map word
      (∃ token ∈ tokens, token.kind = .endOfInput)
      ∧ (ofTokens tokens).program
        = .error (.malformed
            [⟨word .star, .operand⟩, ⟨word .semicolon, .closing⟩,
              ⟨word .endOfInput, .operand⟩]) := by
  intro word tokens
  have ended : ∃ token ∈ tokens, token.kind = .endOfInput :=
    ⟨word .endOfInput, by simp [tokens], rfl⟩
  have ending := reading_ends_at_first_end.2 tokens ended
  exact ⟨ended, ending.malformed (List.cons_ne_nil _ _)⟩

end Parse

end Lox
