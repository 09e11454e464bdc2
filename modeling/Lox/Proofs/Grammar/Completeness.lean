import Lox.Proofs.Grammar.Frames
import Lox.Parse.Program

/-! Reading follows every derivation.
The tokens of a derived expression lead from any frames that admit its symbol to a partial statement
that settles as if the whole expression were its operand.
-/

namespace Lox.Grammar

/-- An operand on frames stands for the whole expression on fewer frames: operators up to the given
strength cannot tell the two apart.
-/
def StandsFor (strength : Nat) (operand : Expr) (frames : List Frame) (whole : Expr)
    (outer : List Frame)
    : Prop :=
  ∀ least ≤ strength, Partial.settle least operand frames = Partial.settle least whole outer

/-- Reading the tokens behind the frames leads to a partial statement for the expression. -/
def Leads (form : Form) (frames : List Frame) (strength : Nat) (tokens : List Token) (expr : Expr)
    : Prop :=
  ∃ operand inner,
    after? ⟨form, frames, none⟩ tokens = some ⟨form, inner, some operand⟩
    ∧ StandsFor strength operand inner expr frames

theorem leads_of_operand {form : Form} {frames : List Frame} {strength : Nat} {token : Token}
    {value : Datum} (h : token.operand? = some value)
    : Leads form frames strength [token] (.literal value) := by
  have step
      : (Partial.mk form frames none).feed token
        = .extended ⟨form, frames, some (.literal value)⟩ := by
    simp [Partial.feed, Partial.feedOperand, h]
  exact ⟨.literal value, frames, after?_cons [] step, fun _ _ => rfl⟩

/-- An operator of a level after a chain of the level takes the whole chain as its left operand. -/
theorem feed_operator {form : Form} {frames inner : List Frame} {operand left : Expr}
    {level : Level} {operator : Token}
    (member : operator.kind ∈ level.operators)
    (admits : Admits (.chain level) frames)
    (stands : StandsFor level.rank operand inner left frames)
    : (Partial.mk form inner (some operand)).feed operator
      = .extended ⟨form, .binary left operator :: frames, none⟩ := by
  have settled : Partial.settle level.rank operand inner = (left, frames) :=
    (stands level.rank (Nat.le_refl _)).trans (settle_of_admits left admits)
  simp [Partial.feed, Partial.feedOperator, strength_of_mem member, settled]

/-- A closing parenthesis makes a grouping of the expression behind the opening one. -/
theorem feed_closing {form : Form} {frames inner : List Frame} {operand whole : Expr}
    {strength : Nat} {token : Token}
    (kind : token.kind = .rightParen)
    (stands : StandsFor strength operand inner whole (.group :: frames))
    : (Partial.mk form inner (some operand)).feed token
      = .extended ⟨form, frames, some (.grouping whole)⟩ := by
  have settled : Partial.settle 0 operand inner = (whole, .group :: frames) :=
    stands 0 (Nat.zero_le _)
  simp [Partial.feed, Partial.feedOperator, kind, Token.Kind.strength?, settled, Partial.feedEnd]

/-- A semicolon completes the statement of the expression. -/
theorem feed_semicolon {form : Form} {inner : List Frame} {operand whole : Expr} {strength : Nat}
    {token : Token}
    (kind : token.kind = .semicolon)
    (stands : StandsFor strength operand inner whole [])
    : (Partial.mk form inner (some operand)).feed token = .completed (form.statement whole) := by
  have settled : Partial.settle 0 operand inner = (whole, []) := stands 0 (Nat.zero_le _)
  simp [Partial.feed, Partial.feedOperator, kind, Token.Kind.strength?, settled, Partial.feedEnd]

/-- Reading follows a derivation behind all frames that admit its symbol, by induction on the
derivation. A chain is read up to its last operator first, which settles it as a left operand.
-/
theorem Derives.leads {symbol : Symbol} {tokens : List Token} {expr : Expr}
    (h : Derives symbol tokens expr) (form : Form) (frames : List Frame)
    (admits : Admits symbol frames)
    : Leads form frames symbol.rank tokens expr := by
  induction h generalizing frames with
  | @operand level _ _ _ ih =>
      have order : level.rank ≤ level.operand.rank := level.rank_operand ▸ Nat.le_succ _
      obtain ⟨operand, inner, read, stands⟩ := ih frames (admits.tighten order)
      exact ⟨operand, inner, read, fun least bound => stands least (Nat.le_trans bound order)⟩
  | @binary level first operator second left right member _ _ leftLeads rightLeads =>
      obtain ⟨operand, inner, read, stands⟩ := leftLeads frames admits
      obtain ⟨last, deepest, readRight, standsRight⟩ :=
        rightLeads (.binary left operator :: frames) (admits_operand left frames member)
      refine ⟨last, deepest, ?_, ?_⟩
      · rw [after?_append _ read, after?_cons _ (feed_operator member admits stands)]
        exact readRight
      · intro least bound
        have below : least ≤ level.operand.rank :=
          level.rank_operand ▸ Nat.le_succ_of_le bound
        have takes : least ≤ level.rank := bound
        rw [standsRight least below]
        simp [Partial.settle, strength_of_mem member, takes]
  | primary _ ih =>
      obtain ⟨operand, inner, read, stands⟩ := ih frames (admits.tighten (by decide))
      refine ⟨operand, inner, read, fun least bound => stands least ?_⟩
      exact Nat.le_succ_of_le bound
  | @unary operator tokens operand kind _ ih =>
      obtain ⟨last, deepest, read, stands⟩ := ih (.unary operator :: frames) (Nat.le_refl _)
      refine ⟨last, deepest, ?_, fun least bound => (stands least bound).trans rfl⟩
      have noOperand : operator.operand? = none := by
        rcases kind with kind | kind <;> simp [Token.operand?, kind]
      have step
          : (Partial.mk form frames none).feed operator
            = .extended ⟨form, .unary operator :: frames, none⟩ := by
        simp [Partial.feed, Partial.feedOperand, noOperand, isUnary_iff.mpr kind]
      exact (after?_cons tokens step).trans read
  | falsehood kind | truth kind | nil kind | number kind | string kind =>
      exact leads_of_operand (by simp [Token.operand?, kind])
  | @grouping left tokens right inner opening _ closing ih =>
      obtain ⟨operand, deepest, read, stands⟩ := ih (.group :: frames) trivial
      refine ⟨.grouping inner, frames, ?_, fun _ _ => rfl⟩
      have opens
          : (Partial.mk form frames none).feed left
            = .extended ⟨form, .group :: frames, none⟩ := by
        simp [Partial.feed, Partial.feedOperand, Token.operand?, Token.Kind.isUnary, opening]
      rw [List.cons_append, after?_cons _ opens, after?_append _ read,
        after?_cons _ (feed_closing closing stands)]
      rfl

/-- Tokens that extend a partial statement are read before all others. -/
theorem continuing_after {statement next : Partial} {tokens : List Token} (rest : List Token)
    (h : after? statement tokens = some next)
    : Parse.continuing (.inside statement) (tokens ++ rest)
      = Parse.continuing (.inside next) rest := by
  induction tokens generalizing statement with
  | nil =>
      cases h
      rfl
  | cons token tokens ih =>
      rw [after?] at h
      split at h
      · rename_i step
        rw [List.cons_append, Parse.continuing]
        simp only [Position.move, step, Position.Move.ofStep]
        exact ih h
      · cases h

/-- The parse of one more statement in front. -/
def prepend (statement : Stmt) (parse : Parse) : Parse :=
  { parse with statements := statement :: parse.statements }

/-- A derived expression and its semicolon are read as a statement, inside a statement whose form is
known.
-/
theorem continuing_expression {tokens : List Token} {expr : Expr} {terminator : Token}
    (h : Derives expression tokens expr)
    (kind : terminator.kind = .semicolon)
    (form : Form) (rest : List Token)
    : Parse.continuing (.inside (.empty form)) (tokens ++ terminator :: rest)
      = prepend (form.statement expr) (Parse.continuing .boundary rest) := by
  obtain ⟨operand, inner, read, stands⟩ := h.leads form [] trivial
  rw [Partial.empty, continuing_after _ read, Parse.continuing]
  simp only [Position.move, feed_semicolon kind stands, Position.Move.ofStep, prepend]

/-- A derived expression is not empty, and its first token extends an empty statement. -/
theorem Derives.feed_first {tokens : List Token} {expr : Expr}
    (h : Derives expression tokens expr)
    : ∃ token rest next,
        tokens = token :: rest ∧ (Partial.empty .expression).feed token = .extended next := by
  obtain ⟨operand, inner, read, _⟩ := h.leads .expression [] trivial
  cases tokens with
  | nil => cases read
  | cons token rest =>
      rw [after?] at read
      split at read
      · rename_i next step
        exact ⟨token, rest, next, rfl, step⟩
      · cases read

/-- A token that begins an operand neither begins a print statement nor ends the input. -/
theorem move_boundary_of_extended {token : Token} {next : Partial}
    (h : (Partial.empty .expression).feed token = .extended next)
    : Position.boundary.move token = (Position.inside (.empty .expression)).move token := by
  have inside : token.kind ≠ .endOfInput ∧ token.kind ≠ .printKeyword := by
    constructor <;> intro kind <;>
      simp [Partial.feed, Partial.empty, Partial.feedOperand, Token.operand?, kind,
        Token.Kind.isUnary] at h
  simp [Position.move, inside.1, Partial.start, inside.2]

/-- The tokens of a derived statement are read as that statement. -/
theorem Statement.continuing {tokens : List Token} {statement : Stmt}
    (h : Statement tokens statement) (rest : List Token)
    : Parse.continuing .boundary (tokens ++ rest)
      = prepend statement (Parse.continuing .boundary rest) := by
  cases h with
  | @expression tokens expr terminator h kind =>
      obtain ⟨token, others, next, same, step⟩ := h.feed_first
      have first
          : Parse.continuing .boundary (tokens ++ terminator :: rest)
            = Parse.continuing (.inside (.empty .expression)) (tokens ++ terminator :: rest) := by
        rw [same, List.cons_append, Parse.continuing, Parse.continuing,
          move_boundary_of_extended step]
      rw [List.append_assoc]
      exact first.trans (continuing_expression h kind .expression rest)
  | @print keyword tokens expr terminator opening h kind =>
      have enters
          : Position.boundary.move keyword = .advance (.inside (.empty .print)) := by
        simp [Position.move, Partial.start, opening, Position.Move.ofStep]
      rw [List.cons_append, List.cons_append, Parse.continuing, enters, List.append_assoc]
      exact continuing_expression h kind .print rest

/-- The tokens of a derived program are read as that program, by induction on its statements. -/
theorem Program.continuing {tokens : List Token} {statements : List Stmt}
    (h : Program tokens statements) {last : Token} (ends : last.kind = .endOfInput)
    : Parse.continuing .boundary (tokens ++ [last]) = ⟨statements, [], true⟩ := by
  induction h with
  | nil => simp [Parse.continuing, Position.move, ends]
  | cons head _ ih =>
      rw [List.append_assoc, head.continuing, ih]
      rfl

end Lox.Grammar
