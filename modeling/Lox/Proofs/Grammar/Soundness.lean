import Lox.Proofs.Grammar.Frames
import Lox.Parse.Program

/-! Whatever is read has a derivation.
The frames of a partial statement remember derivations of what stands before its operand. A token
that extends the statement extends them, and settling builds the derivations of larger expressions.
-/

namespace Lox.Grammar

/-- The tokens that frames were read from. The left operand of an operator is a chain of its level,
and it was complete when the operator took it.
-/
inductive Remember : List Frame → List Token → Prop
  | nil : Remember [] []
  | group {frames tokens opening}
    (rest : Remember frames tokens)
    (kind : opening.kind = .leftParen)
    : Remember (.group :: frames) (tokens ++ [opening])
  | unary {frames tokens operator}
    (rest : Remember frames tokens)
    (kind : operator.kind = .bang ∨ operator.kind = .minus)
    : Remember (.unary operator :: frames) (tokens ++ [operator])
  | binary {frames tokens level first left operator}
    (rest : Remember frames tokens)
    (admits : Admits (.chain level) frames)
    (chain : Derives (.chain level) first left)
    (member : operator.kind ∈ level.operators)
    : Remember (.binary left operator :: frames) (tokens ++ first ++ [operator])

theorem Remember.admits_unary {frames : List Frame} {tokens : List Token}
    (h : Remember frames tokens)
    : Admits .unary frames := by
  cases h with
  | nil | group => trivial
  | unary => exact Nat.le_refl _
  | @binary _ _ level _ _ _ _ _ _ member => exact ⟨level, member, level.rank_lt_five⟩

theorem Remember.admits_primary {frames : List Frame} {tokens : List Token}
    (h : Remember frames tokens)
    : Admits .primary frames :=
  h.admits_unary.tighten (Nat.le_succ _)

/-- The tokens that a form of statements begins with. -/
inductive Opens : Form → List Token → Prop
  | expression : Opens .expression []
  | print {keyword} (kind : keyword.kind = .printKeyword) : Opens .print [keyword]

/-- The tokens that an operand was read from, if there is one. It is always complete in itself. -/
inductive RememberOperand : Option Expr → List Token → Prop
  | none : RememberOperand none []
  | some {tokens operand} (h : Derives .primary tokens operand)
    : RememberOperand (some operand) tokens

/-- The tokens that a partial statement was read from. -/
inductive ReadFrom : Partial → List Token → Prop
  | intro {form frames operand opening before after}
    (opens : Opens form opening)
    (stack : Remember frames before)
    (last : RememberOperand operand after)
    : ReadFrom ⟨form, frames, operand⟩ (opening ++ before ++ after)

-----------------------------------------------------------------------------------------
-- Settling builds derivations
-----------------------------------------------------------------------------------------

/-- The innermost frame is a parenthesis or an operator that is weaker than the strength. -/
def Settled (strength : Nat) : List Frame → Prop
  | [] | .group :: _ => True
  | .unary _ :: _ => False
  | .binary _ operator :: _ =>
      ∃ level : Level, operator.kind ∈ level.operators ∧ level.rank < strength

theorem Settled.admits {level : Level} {frames : List Frame} (h : Settled level.rank frames)
    : Admits (.chain level) frames := by
  cases frames with
  | nil => trivial
  | cons frame rest =>
      cases frame with
      | unary => exact h.elim
      | group => trivial
      | binary => exact h

/-- The tokens are those of the frames, followed by those of a derivation of the operand that the
frames admit.
-/
def Holds (strength : Nat) (frames : List Frame) (operand : Expr) (tokens : List Token) : Prop :=
  ∃ symbol before after,
    before ++ after = tokens
    ∧ Remember frames before
    ∧ Derives symbol after operand
    ∧ Admits symbol frames
    ∧ strength ≤ symbol.rank

/-- Settling keeps the derivations of frames and operand, by induction on the frames: each operator
that takes the operand makes the derivation of a larger expression, at its own level.
-/
theorem Holds.settle {strength : Nat} {frames : List Frame} {operand : Expr} {tokens : List Token}
    (h : Holds strength frames operand tokens)
    (low : strength ≤ Symbol.unary.rank)
    : Holds strength (Partial.settle strength operand frames).2
        (Partial.settle strength operand frames).1 tokens
      ∧ Settled strength (Partial.settle strength operand frames).2 := by
  induction frames generalizing operand with
  | nil => exact ⟨h, trivial⟩
  | cons frame rest ih =>
      obtain ⟨symbol, before, after, rfl, remember, derives, admits, bound⟩ := h
      cases remember with
      | group remember kind =>
          exact ⟨⟨symbol, _, after, rfl, .group remember kind, derives, admits, bound⟩, trivial⟩
      | @unary _ before operator remember kind =>
          have whole : Derives .unary (operator :: after) (.unary operator operand) :=
            .unary kind (derives.loosen admits)
          exact ih ⟨.unary, before, operator :: after, by simp, remember, whole,
            remember.admits_unary, low⟩
      | @binary _ before level first left operator remember outer chain member =>
          obtain ⟨found, same, less⟩ := admits
          have levels : found.rank = level.rank :=
            Option.some.inj ((strength_of_mem same).symm.trans (strength_of_mem member))
          by_cases takes : strength ≤ level.rank
          · have right : Derives level.operand after operand :=
              derives.loosen (by rw [level.rank_operand]; omega)
            have whole
                : Derives (.chain level) (first ++ operator :: after)
                    (.binary left operator operand) :=
              .binary member chain right
            simp only [Partial.settle, strength_of_mem member, Option.any_some, takes, decide_true,
              if_true]
            exact ih ⟨.chain level, before, first ++ operator :: after, by simp, remember, whole,
              outer, takes⟩
          · simp only [Partial.settle, strength_of_mem member, Option.any_some, takes,
              decide_false, Bool.false_eq_true, if_false]
            exact ⟨⟨symbol, _, after, rfl, .binary remember outer chain member, derives,
              ⟨found, same, less⟩, bound⟩, level, member, Nat.lt_of_not_le takes⟩

-----------------------------------------------------------------------------------------
-- One more token
-----------------------------------------------------------------------------------------

theorem derives_of_operand {token : Token} {value : Datum} (h : token.operand? = some value)
    : Derives .primary [token] (.literal value) := by
  unfold Token.operand? at h
  split at h
  · exact Option.some.inj h ▸ .falsehood ‹_›
  · exact Option.some.inj h ▸ .truth ‹_›
  · exact Option.some.inj h ▸ .nil ‹_›
  · exact Option.some.inj h ▸ .number ‹_›
  · exact Option.some.inj h ▸ .string ‹_›
  · cases h

theorem holds_of_primary {strength : Nat} {frames : List Frame} {operand : Expr}
    {before after : List Token}
    (remember : Remember frames before)
    (derives : Derives .primary after operand)
    (low : strength ≤ Symbol.unary.rank)
    : Holds strength frames operand (before ++ after) :=
  ⟨.primary, before, after, rfl, remember, derives, remember.admits_primary,
    Nat.le_succ_of_le low⟩

/-- A token where an operand is due is remembered, if it fits. -/
theorem readFrom_feedOperand {form : Form} {frames : List Frame} {opening before : List Token}
    {token : Token} {next : Partial}
    (opens : Opens form opening)
    (remember : Remember frames before)
    (h : Partial.feedOperand form frames token = .extended next)
    : ReadFrom next (opening ++ before ++ [token]) := by
  unfold Partial.feedOperand at h
  split at h
  · rename_i value found
    cases h
    exact .intro opens remember (.some (derives_of_operand found))
  · split at h
    · rename_i isUnary
      cases h
      simpa using ReadFrom.intro opens (.unary remember (isUnary_iff.mp isUnary)) .none
    · split at h
      · rename_i kind
        cases h
        simpa using ReadFrom.intro opens (.group remember kind) .none
      · cases h

/-- Where operators end, the frames are those of the statement or of a parenthesis. -/
theorem Holds.settle_end {frames : List Frame} {operand : Expr} {tokens : List Token}
    (h : Holds 0 frames operand tokens)
    : ∃ before after,
        before ++ after = tokens
        ∧ Remember (Partial.settle 0 operand frames).2 before
        ∧ Derives expression after (Partial.settle 0 operand frames).1
        ∧ ∀ frame rest, (Partial.settle 0 operand frames).2 = frame :: rest → frame = .group := by
  obtain ⟨⟨symbol, before, after, same, remember, derives, _, _⟩, settled⟩ :=
    h.settle (Nat.zero_le _)
  refine ⟨before, after, same, remember, derives.loosen symbol.rank_pos, ?_⟩
  intro frame rest shape
  rw [shape] at settled
  cases frame with
  | unary => exact settled.elim
  | group => rfl
  | binary =>
      obtain ⟨level, _, impossible⟩ := settled
      exact absurd impossible (Nat.not_lt_zero _)

/-- A token that extends a partial statement is remembered by it. -/
theorem ReadFrom.extend {statement next : Partial} {tokens : List Token} {token : Token}
    (h : ReadFrom statement tokens)
    (step : statement.feed token = .extended next)
    : ReadFrom next (tokens ++ [token]) := by
  obtain @⟨form, frames, _, opening, before, after, opens, remember, last⟩ := h
  cases last with
  | none =>
      rw [List.append_nil]
      exact readFrom_feedOperand opens remember step
  | @some _ operand derives =>
      simp only [Partial.feed, Partial.feedOperator] at step
      split at step
      · rename_i strength found
        cases step
        obtain ⟨level, member, rfl⟩ := mem_of_strength found
        obtain ⟨⟨symbol, rest, chain, same, left, derivesLeft, _, bound⟩, settled⟩ :=
          (holds_of_primary remember derives (Nat.le_of_lt level.rank_lt_five)).settle
            (Nat.le_of_lt level.rank_lt_five)
        have tokens : opening ++ before ++ after ++ [token]
            = opening ++ (rest ++ chain ++ [token]) ++ [] := by
          simp [same]
        rw [tokens]
        exact .intro opens
          (.binary left settled.admits (derivesLeft.loosen bound) member) .none
      · obtain ⟨rest, inner, same, left, derivesInner, groups⟩ :=
          (holds_of_primary remember derives (Nat.zero_le _)).settle_end
        generalize (Partial.settle 0 operand frames).1 = whole at *
        generalize (Partial.settle 0 operand frames).2 = outer at *
        unfold Partial.feedEnd at step
        split at step
        · split at step <;> cases step
        · rename_i frame outer
          obtain rfl := groups frame outer rfl
          split at step
          · rename_i closing
            cases step
            cases left with
            | @group _ rest opener remember kind =>
                have tokens : opening ++ before ++ after ++ [token]
                    = opening ++ rest ++ (opener :: inner ++ [token]) := by
                  simp [← same]
                rw [tokens]
                exact .intro opens remember (.some (.grouping kind derivesInner closing))
          · cases step

/-- A token that completes a partial statement makes a derived statement. -/
theorem ReadFrom.complete {partialStatement : Partial} {statement : Stmt} {tokens : List Token}
    {token : Token}
    (h : ReadFrom partialStatement tokens)
    (step : partialStatement.feed token = .completed statement)
    : Statement (tokens ++ [token]) statement := by
  obtain @⟨form, frames, _, opening, before, after, opens, remember, last⟩ := h
  cases last with
  | none =>
      simp only [Partial.feed, Partial.feedOperand] at step
      repeat (first | cases step | split at step)
  | @some _ operand derives =>
      simp only [Partial.feed, Partial.feedOperator] at step
      split at step
      · cases step
      · obtain ⟨rest, inner, same, left, derivesInner, groups⟩ :=
          (holds_of_primary remember derives (Nat.zero_le _)).settle_end
        generalize (Partial.settle 0 operand frames).1 = whole at *
        generalize (Partial.settle 0 operand frames).2 = outer at *
        unfold Partial.feedEnd at step
        split at step
        · split at step
          · rename_i kind
            cases step
            cases left
            rw [List.nil_append] at same
            rw [List.append_assoc opening, ← same]
            cases opens with
            | expression => exact .expression derivesInner kind
            | print opener => exact .print opener derivesInner kind
          · cases step
        · split at step <;> cases step

end Lox.Grammar
