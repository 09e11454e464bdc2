import Lox.Proofs.Document.RoundTrip

/-! What loading lets through.
All literals of a node that is loaded are values, and no token in it carries an integer, so that
loading leaves the node as it is.
-/

namespace Lox.Document

-----------------------------------------------------------------------------------------
-- Literals and tokens
-----------------------------------------------------------------------------------------

theorem kind_of_withNumber {d value : Datum} (h : withNumber d = .ok value)
    : value.kind ≠ .integer := by
  cases d with
  | integer n =>
      unfold withNumber at h
      split at h
      case h_1 _ _ same =>
        cases same
        split at h
        · cases h
          intro kind
          cases kind
        · cases h
      case h_2 other => exact absurd rfl (other n)
  | nil | boolean | number | string | list | object =>
      cases h
      intro kind
      cases kind

theorem isValue_of_loadLiteral {d value : Datum} (h : loadLiteral d = .ok value)
    : value.isValue = true := by
  obtain ⟨found, -, checked⟩ := bind_eq_ok.mp h
  split at checked
  case isTrue isValue =>
    cases checked
    exact isValue
  case isFalse => cases checked

theorem stable_of_loadToken {d : Datum} {token : Token} (h : loadToken d = .ok token)
    : token.Stable := by
  cases d with
  | object fields =>
      simp only [loadToken, bind_eq_ok] at h
      obtain ⟨_, -, _, -, _, -, literal, found, _, -, _, -, same⟩ := h
      cases same
      exact kind_of_withNumber found
  | nil | boolean | number | string | integer | list => cases h

-----------------------------------------------------------------------------------------
-- Nodes
-----------------------------------------------------------------------------------------

section

/-- What is said of data is said of the data inside them, too. -/
structure Inherited (whole : Datum → Prop) : Prop where
  field : ∀ {fields : List (Text × Datum)} {name content},
    whole (.object fields) → fields.lookup name = some content → whole content
  item : ∀ {items item}, whole (.list items) → item ∈ items → whole item

variable {whole : Datum → Prop} {such : Token → Prop} {d : Datum}

/-- The literals of an expression that is loaded are values, and its operators are what tokens of
such data are, by induction on the expression.
-/
theorem satisfies_of_load (inherited : Inherited whole)
    (tokens : ∀ {d token}, whole d → loadToken d = .ok token → such token) (all : whole d)
    {expr : Expr} (h : load d = .ok (.expression expr))
    : expr.Satisfies (·.isValue = true) such := by
  induction expr generalizing d with
  | binary left operator right leftIh rightIh =>
      obtain ⟨_, _, rfl, -, made⟩ := made_of_load h
      cases made with
      | binary leftPart first operatorPart named rightPart second =>
          exact ⟨leftIh (inherited.field all leftPart) first,
            tokens (inherited.field all operatorPart) named,
            rightIh (inherited.field all rightPart) second⟩
  | grouping inner ih =>
      obtain ⟨_, _, rfl, -, made⟩ := made_of_load h
      cases made with
      | grouping part loaded => exact ih (inherited.field all part) loaded
  | literal value =>
      obtain ⟨_, _, -, -, made⟩ := made_of_load h
      cases made with
      | literal loaded => exact isValue_of_loadLiteral loaded
  | unary operator operand ih =>
      obtain ⟨_, _, rfl, -, made⟩ := made_of_load h
      cases made with
      | unary operatorPart named part loaded =>
          exact ⟨tokens (inherited.field all operatorPart) named,
            ih (inherited.field all part) loaded⟩

theorem satisfies_of_loadStatement (inherited : Inherited whole)
    (tokens : ∀ {d token}, whole d → loadToken d = .ok token → such token) (all : whole d)
    {stmt : Stmt} (h : load d = .ok (.statement stmt))
    : stmt.Satisfies (·.isValue = true) such := by
  obtain ⟨_, _, rfl, -, made⟩ := made_of_load h
  cases made with
  | printStatement part loaded | expressionStatement part loaded =>
      exact satisfies_of_load inherited tokens (inherited.field all part) loaded

/-- Statements are loaded one by one, by induction on the data. -/
theorem loadStatements_eq_ok {items : List Datum} {statements : List Stmt}
    (h : loadStatements items = .ok statements)
    : List.Forall₂ (fun item statement => load item = .ok (.statement statement))
        items statements := by
  induction items generalizing statements with
  | nil =>
      rw [loadStatements] at h
      cases h
      exact .nil
  | cons item rest ih =>
      rw [loadStatements] at h
      simp only [bind_eq_ok] at h
      obtain ⟨_, loaded, _, statement, _, others, same⟩ := h
      cases same
      exact .cons (asStatement_eq_ok statement ▸ loaded) (ih others)

theorem satisfies_of_loadStatements (inherited : Inherited whole)
    (tokens : ∀ {d token}, whole d → loadToken d = .ok token → such token) {items : List Datum}
    (all : whole (.list items)) {statements : List Stmt} (h : loadStatements items = .ok statements)
    : ∀ statement ∈ statements, statement.Satisfies (·.isValue = true) such := by
  have loaded := loadStatements_eq_ok h
  replace all : ∀ item ∈ items, whole item := fun _ => inherited.item all
  clear h
  induction loaded with
  | nil => exact fun _ member => nomatch member
  | cons first _ ih =>
      obtain ⟨here, later⟩ := List.forall_mem_cons.mp all
      exact List.forall_mem_cons.mpr
        ⟨satisfies_of_loadStatement inherited tokens here first, ih later⟩

theorem loaded_of_loadProgram {statements : List Stmt} (h : loadProgram d = .ok statements)
    : load d = .ok (.program statements) := by
  rw [loadProgram] at h
  split at h
  case isFalse => cases h
  case isTrue =>
    obtain ⟨node, loaded, program⟩ := bind_eq_ok.mp h
    cases node with
    | program others =>
        cases program
        exact loaded
    | statement | expression | token => cases program

/-- The literals of a program that is loaded are values, and its operators are what tokens of such
data are.
-/
theorem satisfies_of_loadProgram (inherited : Inherited whole)
    (tokens : ∀ {d token}, whole d → loadToken d = .ok token → such token) (all : whole d)
    {statements : List Stmt} (h : loadProgram d = .ok statements)
    : ∀ statement ∈ statements, statement.Satisfies (·.isValue = true) such := by
  obtain ⟨_, _, rfl, -, made⟩ := made_of_load (loaded_of_loadProgram h)
  cases made with
  | program body loaded =>
      exact satisfies_of_loadStatements inherited tokens (inherited.field all body) loaded

end

theorem inherited_true : Inherited fun _ => True :=
  ⟨fun _ _ => trivial, fun _ _ => trivial⟩

/-- Loading leaves what was loaded as it is. -/
theorem stable_of_load {d : Datum} {node : Node} (h : load d = .ok node) : node.Stable := by
  have tokens {d : Datum} {token : Token} (_ : True) (h : loadToken d = .ok token) :=
    stable_of_loadToken h
  obtain ⟨_, _, -, -, made⟩ := made_of_load h
  cases made with
  | program _ loaded => exact satisfies_of_loadStatements inherited_true tokens trivial loaded
  | token _ loaded => exact stable_of_loadToken loaded
  | printStatement | expressionStatement =>
      exact satisfies_of_loadStatement inherited_true tokens trivial h
  | binary | grouping | literal | unary => exact satisfies_of_load inherited_true tokens trivial h

theorem stable_of_loadProgram {d : Datum} {statements : List Stmt}
    (h : loadProgram d = .ok statements)
    : ∀ statement ∈ statements, statement.Over Token.Stable :=
  stable_of_load (loaded_of_loadProgram h)

end Lox.Document
