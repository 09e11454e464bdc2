import Lox.Proofs.Grammar.Program

/-! Beginnings of statements.
Whatever has been read of a statement can be completed: an operand is added where one is due, and
each open parenthesis is closed. A token that does not fit shows that no statement goes on with it.
-/

namespace Lox.Grammar

/-- Some statement begins with the tokens. -/
def Begins (tokens : List Token) : Prop :=
  ∃ rest statement, Statement (tokens ++ rest) statement

/-- Some statement begins with the tokens and goes on behind them. -/
def Unfinished (tokens : List Token) : Prop :=
  ∃ rest statement, rest ≠ [] ∧ Statement (tokens ++ rest) statement

theorem Unfinished.begins {tokens : List Token} (h : Unfinished tokens) : Begins tokens := by
  obtain ⟨rest, statement, -, derived⟩ := h
  exact ⟨rest, statement, derived⟩

theorem Begins.of_append {first second : List Token} (h : Begins (first ++ second))
    : Begins first := by
  obtain ⟨rest, statement, derived⟩ := h
  exact ⟨second ++ rest, statement, List.append_assoc first second rest ▸ derived⟩

-----------------------------------------------------------------------------------------
-- What has been read can be completed
-----------------------------------------------------------------------------------------

/-- Frames take an operand that they admit, and the parentheses among them can be closed behind it.
By induction on what the frames remember, from the innermost one outwards.
-/
theorem Remember.close {frames : List Frame} {before : List Token}
    (remember : Remember frames before)
    {symbol : Symbol} {after : List Token} {expr : Expr}
    (derives : Derives symbol after expr)
    (admits : Admits symbol frames)
    : ∃ closing whole, Derives expression (before ++ after ++ closing) whole := by
  induction remember generalizing symbol after expr with
  | nil =>
      have whole : Derives expression after expr := derives.loosen symbol.rank_pos
      exact ⟨[], expr, by simpa using whole⟩
  | @group frames before opening remember kind ih =>
      have whole : Derives expression after expr := derives.loosen symbol.rank_pos
      have grouped : Derives .primary (opening :: after ++ [⟨.rightParen, .nil, .nil, 0⟩])
          (.grouping expr) :=
        .grouping kind whole rfl
      obtain ⟨closing, whole, closed⟩ := ih grouped remember.admits_primary
      refine ⟨⟨.rightParen, .nil, .nil, 0⟩ :: closing, whole, ?_⟩
      simpa using closed
  | @unary frames before operator remember kind ih =>
      have applied : Derives .unary (operator :: after) (.unary operator expr) :=
        .unary kind (derives.loosen admits)
      obtain ⟨closing, whole, closed⟩ := ih applied remember.admits_unary
      refine ⟨closing, whole, ?_⟩
      simpa using closed
  | @binary frames before level first left operator remember outer chain member ih =>
      obtain ⟨found, same, less⟩ := admits
      have levels : found.rank = level.rank :=
        Option.some.inj ((strength_of_mem same).symm.trans (strength_of_mem member))
      have right : Derives level.operand after expr :=
        derives.loosen (by rw [level.rank_operand]; omega)
      obtain ⟨closing, whole, closed⟩ := ih (.binary member chain right) outer
      refine ⟨closing, whole, ?_⟩
      simpa using closed

theorem Opens.statement {form : Form} {opening tokens : List Token} {expr : Expr}
    (opens : Opens form opening)
    (derives : Derives Grammar.expression tokens expr)
    : Statement (opening ++ tokens ++ [⟨.semicolon, .nil, .nil, 0⟩]) (form.statement expr) := by
  cases opens with
  | expression => exact .expression derives rfl
  | print kind => exact .print kind derives rfl

/-- A partial statement can be completed. Where an operand is due, any one will do. -/
theorem ReadFrom.unfinished {statement : Partial} {tokens : List Token}
    (h : ReadFrom statement tokens)
    : Unfinished tokens := by
  obtain @⟨form, frames, operand, opening, before, after, opens, remember, last⟩ := h
  cases last with
  | none =>
      have filler : Derives .primary [⟨.nilKeyword, .nil, .nil, 0⟩] (.literal .nil) := .nil rfl
      obtain ⟨closing, whole, closed⟩ := remember.close filler remember.admits_primary
      refine ⟨⟨.nilKeyword, .nil, .nil, 0⟩ :: closing ++ [⟨.semicolon, .nil, .nil, 0⟩],
        form.statement whole, by simp, ?_⟩
      simpa using opens.statement closed
  | some derives =>
      obtain ⟨closing, whole, closed⟩ := remember.close derives remember.admits_primary
      refine ⟨closing ++ [⟨.semicolon, .nil, .nil, 0⟩], form.statement whole, by simp, ?_⟩
      simpa using opens.statement closed

-----------------------------------------------------------------------------------------
-- No statement goes on with a token that does not fit
-----------------------------------------------------------------------------------------

/-- A statement is read without errors, however it is divided. -/
theorem Begins.exists_clean {tokens : List Token} (h : Begins tokens)
    : ∃ rest, (Parse.continuing .boundary (tokens ++ rest)).errors = [] := by
  obtain ⟨rest, statement, derived⟩ := h
  have read := derived.continuing []
  rw [List.append_nil] at read
  exact ⟨rest, congrArg Parse.errors read⟩

-----------------------------------------------------------------------------------------
-- Statements end with their first semicolon
-----------------------------------------------------------------------------------------

/-- There is no semicolon inside an expression, by induction on its derivation. -/
theorem Derives.ne_semicolon {symbol : Symbol} {tokens : List Token} {expr : Expr}
    (h : Derives symbol tokens expr)
    : ∀ token ∈ tokens, token.kind ≠ .semicolon := by
  induction h with
  | operand _ ih | primary _ ih => exact ih
  | @binary level first operator second left right member _ _ leftIh rightIh =>
      intro token inside
      rcases List.mem_append.mp inside with inside | inside
      · exact leftIh token inside
      · rcases List.mem_cons.mp inside with rfl | inside
        · intro kind
          rw [kind] at member
          cases level <;> simp [Level.operators] at member
        · exact rightIh token inside
  | unary kind _ ih =>
      intro token inside
      rcases List.mem_cons.mp inside with rfl | inside
      · rcases kind with kind | kind <;> simp [kind]
      · exact ih token inside
  | falsehood kind | truth kind | nil kind | number kind | string kind =>
      intro token inside
      obtain rfl := List.mem_singleton.mp inside
      simp [kind]
  | grouping opening _ closing ih =>
      intro token inside
      rcases List.mem_append.mp inside with inside | inside
      · rcases List.mem_cons.mp inside with rfl | inside
        · simp [opening]
        · exact ih token inside
      · obtain rfl := List.mem_singleton.mp inside
        simp [closing]

theorem Statement.ends {tokens : List Token} {statement : Stmt} (h : Statement tokens statement)
    : ∃ body terminator,
        tokens = body ++ [terminator]
        ∧ terminator.kind = .semicolon
        ∧ ∀ token ∈ body, token.kind ≠ .semicolon := by
  cases h with
  | @expression tokens expr terminator h kind =>
      exact ⟨tokens, terminator, rfl, kind, h.ne_semicolon⟩
  | @print keyword tokens expr terminator opening h kind =>
      refine ⟨keyword :: tokens, terminator, rfl, kind, ?_⟩
      intro token inside
      rcases List.mem_cons.mp inside with rfl | inside
      · simp [opening]
      · exact h.ne_semicolon token inside

/-- No statement goes on behind another: the semicolon of the shorter one would be inside it. -/
theorem Statement.not_unfinished {first : List Token} {statement : Stmt}
    (whole : Statement first statement) (second : List Token)
    : ¬Unfinished (first ++ second) := by
  rintro ⟨rest, other, proper, longer⟩
  obtain ⟨front, inner, rfl, kind, -⟩ := whole.ends
  obtain ⟨body, terminator, same, -, none⟩ := longer.ends
  have inside : inner ∈ (front ++ [inner] ++ second ++ rest).dropLast := by
    rw [List.dropLast_append_of_ne_nil proper]
    simp
  rw [same, List.dropLast_concat] at inside
  exact none inner inside kind

end Lox.Grammar
