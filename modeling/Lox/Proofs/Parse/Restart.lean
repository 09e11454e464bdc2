import Lox.Proofs.Parse.Faults

/-! Reading starts afresh behind an error.
The reader skips the token that does not fit, and then more of them up to the first place where a
statement may begin. What it finds from there on is what it finds in those tokens alone.
-/

namespace Lox

/-- The fault, with more tokens in front. -/
def Fault.moveOn (count : Nat) (fault : Fault) : Fault :=
  { fault with place := fault.place + count }

/-- The error of a token that does not fit at a position. -/
def Position.fault? (position : Position) (index : Nat) (token : Token) : Option Fault :=
  match position.move token with
  | .misfit expected => some ⟨index, ⟨token, expected⟩⟩
  | .advance _ | .complete _ | .finish => none

namespace Parse

/-- A statement may begin at the index: behind a semicolon, with a word that begins statements, or
where the input ends.
-/
inductive Opening (tokens : List Token) : Nat → Prop where
  | semicolon {index : Nat} {token : Token}
      (here : tokens[index]? = some token)
      (kind : token.kind = .semicolon)
      : Opening tokens (index + 1)
  | word {index : Nat} {token : Token}
      (here : tokens[index]? = some token)
      (kind : token.kind ∈
        [.classKeyword, .funKeyword, .varKeyword, .forKeyword, .ifKeyword, .whileKeyword,
          .printKeyword, .returnKeyword])
      : Opening tokens index
  | ending {index : Nat}
      (last : index = firstEnd tokens)
      : Opening tokens index

/-- The index is the first one behind the place where a statement may begin. -/
structure Restart (tokens : List Token) (place index : Nat) : Prop where
  behind : place < index
  bound : index ≤ firstEnd tokens
  opening : Opening tokens index
  least : ∀ other, place < other → other < index → ¬Opening tokens other

theorem Restart.unique {tokens : List Token} {place index other : Nat}
    (h : Restart tokens place index) (h' : Restart tokens place other)
    : other = index := by
  rcases Nat.lt_trichotomy other index with less | same | more
  · exact absurd h'.opening (h.least other h'.behind less)
  · exact same
  · exact absurd h.opening (h'.least index h.behind more)

-----------------------------------------------------------------------------------------
-- Faults from a position on
-----------------------------------------------------------------------------------------

/-- The faults that the reader finds from a position on; the next token has the given index. -/
def faultsFrom (index : Nat) (position : Position) (tokens : List Token) : List Fault :=
  (attemptsFrom index index position tokens).filterMap Attempt.fault?

theorem faults_eq (tokens : List Token) : faults tokens = faultsFrom 0 .boundary tokens :=
  rfl

theorem fault?_outcome (first index : Nat) (position : Position) (token : Token)
    : ((position.outcome? token).map (Attempt.mk first index)).toList.filterMap Attempt.fault?
      = (position.fault? index token).toList := by
  unfold Position.outcome? Position.fault?
  cases position.move token <;> rfl

/-- Where a statement started plays no part in its faults, by induction on the tokens. -/
theorem fault?_attemptsFrom (first other index : Nat) (position : Position) (tokens : List Token)
    : (attemptsFrom first index position tokens).filterMap Attempt.fault?
      = (attemptsFrom other index position tokens).filterMap Attempt.fault? := by
  induction tokens generalizing first other index position with
  | nil => rfl
  | cons token rest ih =>
      simp only [attemptsFrom, List.filterMap_append, fault?_outcome]
      split
      · rfl
      · rw [ih]

/-- The first token may have a fault, and the others have theirs from behind it on. -/
theorem faultsFrom_cons (index : Nat) (position : Position) (token : Token) (rest : List Token)
    : faultsFrom index position (token :: rest)
      = (position.fault? index token).toList
        ++ if token.kind = .endOfInput then []
          else faultsFrom (index + 1) (position.next token) rest := by
  simp only [faultsFrom, attemptsFrom, List.filterMap_append, fault?_outcome]
  split
  · rfl
  · rw [fault?_attemptsFrom]

/-- More tokens in front move the faults on, by induction on the tokens. -/
theorem faultsFrom_moveOn (index count : Nat) (position : Position) (tokens : List Token)
    : faultsFrom (index + count) position tokens
      = (faultsFrom index position tokens).map (.moveOn count) := by
  induction tokens generalizing index position with
  | nil => rfl
  | cons token rest ih =>
      have here
          : (position.fault? (index + count) token).toList
            = (position.fault? index token).toList.map (.moveOn count) := by
        unfold Position.fault?
        cases position.move token <;> rfl
      rw [faultsFrom_cons, faultsFrom_cons, List.map_append, here]
      split
      · rfl
      · rw [Nat.add_right_comm, ih]

/-- Where the next token does the same, so do all tokens. -/
theorem faultsFrom_congr (index : Nat) {position other : Position} {token : Token}
    (same : position.move token = other.move token) (rest : List Token)
    : faultsFrom index position (token :: rest) = faultsFrom index other (token :: rest) := by
  have fault : position.fault? index token = other.fault? index token := by
    rw [Position.fault?, same, Position.fault?]
  rw [faultsFrom_cons, faultsFrom_cons, fault]
  split
  · rfl
  · rename_i inner
    have next : position.next token = other.next token := by
      rw [Position.next, Position.next, same]
      cases step : other.move token with
      | advance | complete | misfit => rfl
      | finish => exact absurd (Position.endOfInput_of_finish step) inner
    rw [next]

-----------------------------------------------------------------------------------------
-- Skipping
-----------------------------------------------------------------------------------------

theorem beginsStatement_iff {kind : Token.Kind}
    : kind.beginsStatement = true
      ↔ kind ∈ [.classKeyword, .funKeyword, .varKeyword, .forKeyword, .ifKeyword, .whileKeyword,
          .printKeyword, .returnKeyword] := by
  cases kind <;> decide

variable {tokens : List Token} {index : Nat} {skipped token : Token}

/-- Where a statement may begin, a token does between statements what it does behind a skipped one.
-/
theorem Opening.move_eq (opening : Opening tokens (index + 1))
    (here : tokens[index]? = some skipped)
    (next : tokens[index + 1]? = some token)
    : (Position.afterSkipped skipped).move token = Position.boundary.move token := by
  by_cases semicolon : skipped.kind = .semicolon
  · rw [Position.afterSkipped, if_pos semicolon]
  · rw [Position.afterSkipped, if_neg semicolon]
    cases opening with
    | semicolon here' kind =>
        obtain rfl := Option.some.inj (here.symm.trans here')
        exact absurd kind semicolon
    | word next' kind =>
        obtain rfl := Option.some.inj (next.symm.trans next')
        have begins := beginsStatement_iff.mpr kind
        simp [Position.move, begins]
    | ending last =>
        rw [last] at next
        simp [Position.move, kind_firstEnd next]

/-- Where no statement may begin, the next token is skipped as well. -/
theorem move_eq_of_not_opening (closed : ¬Opening tokens (index + 1))
    (here : tokens[index]? = some skipped)
    (next : tokens[index + 1]? = some token)
    (inner : token.kind ≠ .endOfInput)
    : (Position.afterSkipped skipped).move token = .advance (.afterSkipped token) := by
  have semicolon : skipped.kind ≠ .semicolon := fun kind => closed (.semicolon here kind)
  have dull : token.kind.beginsStatement ≠ true :=
    fun begins => closed (.word next (beginsStatement_iff.mp begins))
  rw [Position.afterSkipped, if_neg semicolon, Position.move, if_neg inner, if_neg dull]

/-- Behind a skipped token, the reader skips to the first place where a statement may begin, by
induction on the tokens that are still to come.
-/
theorem exists_restart {rest : List Token} {place : Nat}
    (here : tokens[index]? = some skipped)
    (coming : tokens.drop (index + 1) = rest)
    (ended : firstEnd tokens < tokens.length)
    (inner : index < firstEnd tokens)
    (behind : place ≤ index)
    (closed : ∀ other, place < other → other ≤ index → ¬Opening tokens other)
    : ∃ restart, Restart tokens place restart
      ∧ faultsFrom (index + 1) (.afterSkipped skipped) rest
        = faultsFrom restart .boundary (tokens.drop restart) := by
  induction rest generalizing index skipped with
  | nil =>
      have short := List.drop_eq_nil_iff.mp coming
      omega
  | cons token later ih =>
      have next : tokens[index + 1]? = some token := by
        rw [← List.head?_drop, coming, List.head?_cons]
      by_cases opening : Opening tokens (index + 1)
      case pos =>
        refine ⟨index + 1, ⟨by omega, inner, opening, ?_⟩, ?_⟩
        · intro other after before
          exact closed other after (Nat.le_of_lt_succ before)
        · rw [coming]
          exact faultsFrom_congr _ (opening.move_eq here next) later
      case neg =>
        have before : index + 1 < firstEnd tokens :=
          Nat.lt_of_le_of_ne inner fun last => opening (.ending last)
        have more := ne_endOfInput_of_lt before next
        have step := move_eq_of_not_opening opening here next more
        have coming : tokens.drop (index + 1 + 1) = later := by
          rw [← List.drop_drop, coming, List.drop_one, List.tail_cons]
        have closed : ∀ other, place < other → other ≤ index + 1 → ¬Opening tokens other := by
          intro other after bound
          rcases Nat.le_succ_iff.mp bound with bound | rfl
          · exact closed other after bound
          · exact opening
        have skips
            : faultsFrom (index + 1) (.afterSkipped skipped) (token :: later)
              = faultsFrom (index + 1 + 1) (.afterSkipped token) later := by
          rw [faultsFrom_cons, if_neg more, Position.fault?, Position.next, step]
          rfl
        rw [skips]
        exact ih next coming before (Nat.le_succ_of_le behind) closed

-----------------------------------------------------------------------------------------
-- The first fault
-----------------------------------------------------------------------------------------

/-- Behind the first fault come those behind its token, by induction on the tokens. -/
theorem later_of_faultsFrom {rest : List Token} {position : Position} {first : Fault}
    {later : List Fault}
    (coming : tokens.drop index = rest)
    (met : faultsFrom index position rest = first :: later)
    : ∃ token, tokens[first.place]? = some token
      ∧ later
        = if token.kind = .endOfInput then []
          else faultsFrom (first.place + 1) (.afterSkipped token)
            (tokens.drop (first.place + 1)) := by
  induction rest generalizing index position with
  | nil => cases met
  | cons token rest ih =>
      have here : tokens[index]? = some token := by
        rw [← List.head?_drop, coming, List.head?_cons]
      have coming : tokens.drop (index + 1) = rest := by
        rw [← List.drop_drop, coming, List.drop_one, List.tail_cons]
      rw [faultsFrom_cons] at met
      cases step : position.move token with
      | misfit expected =>
          simp only [Position.fault?, Position.next, step] at met
          obtain ⟨rfl, rfl⟩ := List.cons.inj met
          exact ⟨token, here, by rw [coming]; rfl⟩
      | advance | complete | finish =>
          simp only [Position.fault?, step] at met
          split at met
          · cases met
          · exact ih coming met

/-- The reader meets its first fault at a token. If that is the end of the input, it is the only
one. Otherwise there is a first place behind it where a statement may begin, and the errors behind
the first one are those of the tokens from that place on, as if nothing stood in front of them.
-/
theorem errors_restart_behind_first {tokens : List Token} {first : Fault} {later : List Fault}
    (ended : ∃ token ∈ tokens, token.kind = .endOfInput)
    (met : faults tokens = first :: later)
    : (first.place = firstEnd tokens →
        (ofTokens tokens).program = .error (.malformed [first.error]))
      ∧ (first.place ≠ firstEnd tokens →
        ∃ index, (∀ other, Restart tokens first.place other ↔ other = index)
          ∧ (ofTokens tokens).program
            = .error (.malformed (first.error :: (ofTokens (tokens.drop index)).errors))
          ∧ later = (faults (tokens.drop index)).map (.moveOn index)) := by
  have errors : (ofTokens tokens).errors = first.error :: later.map Fault.error := by
    rw [errors_eq_faults, met, List.map_cons]
  have malformed : (ofTokens tokens).program = .error (.malformed (ofTokens tokens).errors) := by
    refine program_of_errors_ne_nil ((continuing_ended .boundary tokens).mpr ended) ?_
    rw [errors]
    exact List.cons_ne_nil _ _
  rw [malformed, errors]
  have start := (faults_eq tokens).symm.trans met
  obtain ⟨token, here, behind⟩ := later_of_faultsFrom List.drop_zero start
  constructor
  · intro last
    rw [last] at here
    rw [behind, if_pos (kind_firstEnd here), List.map_nil]
  · intro inner
    have reached : firstEnd tokens < tokens.length := by
      simpa [firstEnd, List.findIdx_lt_length] using ended
    have bound := (place_of_faults (met ▸ List.mem_cons_self : first ∈ faults tokens)).1
    have before : first.place < firstEnd tokens := Nat.lt_of_le_of_ne bound inner
    obtain ⟨index, restart, same⟩ :=
      exists_restart here rfl reached before (Nat.le_refl _) (by omega)
    rw [if_neg (ne_endOfInput_of_lt before here), same] at behind
    have moved : later = (faults (tokens.drop index)).map (.moveOn index) := by
      rw [behind, faults_eq, ← faultsFrom_moveOn, Nat.zero_add]
    refine ⟨index, fun other => ⟨restart.unique, ?_⟩, ?_, moved⟩
    · rintro rfl
      exact restart
    · rw [moved, errors_eq_faults, List.map_map]
      rfl

/-- A `+` does not fit behind a parenthesis. The `nil` behind it is skipped and the `var` is not,
with which the two errors behind the first one begin.
-/
theorem errors_restart_behind_first_at_word
    : let word := fun kind => Token.mk kind .nil .nil 1
      let tokens :=
        [.printKeyword, .leftParen, .plus, .nilKeyword, .varKeyword, .semicolon, .star,
          .endOfInput].map word
      let first := Fault.mk 2 ⟨word .plus, .operand⟩
      let later := [Fault.mk 4 ⟨word .varKeyword, .operand⟩, Fault.mk 6 ⟨word .star, .operand⟩]
      (∃ token ∈ tokens, token.kind = .endOfInput)
      ∧ faults tokens = first :: later
      ∧ first.place ≠ firstEnd tokens
      ∧ Restart tokens first.place 4
      ∧ later = (faults (tokens.drop 4)).map (.moveOn 4) := by
  intro word tokens first later
  have ended : ∃ token ∈ tokens, token.kind = .endOfInput := by decide
  have met : faults tokens = first :: later := rfl
  have inner : first.place ≠ firstEnd tokens := by decide
  have closed : ¬Opening tokens 3 := by
    intro opening
    cases opening with
    | semicolon here kind | word here kind =>
        cases here
        revert kind
        decide
    | ending last => exact absurd last (by decide)
  have restart : Restart tokens first.place 4 := by
    refine ⟨by decide, by decide, .word rfl (by decide), fun other after before => ?_⟩
    obtain rfl : other = 3 := Nat.le_antisymm (Nat.le_of_lt_succ before) after
    exact closed
  obtain ⟨index, least, -, same⟩ := (errors_restart_behind_first ended met).2 inner
  obtain rfl := (least 4).mp restart
  exact ⟨ended, met, inner, restart, same⟩

end Parse

end Lox
