import Lox.Document.Load
import Lox.Proofs.Result

/-! How nodes are loaded.
An object is loaded as the node of its type whose parts its fields are loaded as, and nothing else
is loaded.
-/

namespace Lox.Document

-----------------------------------------------------------------------------------------
-- Parts
-----------------------------------------------------------------------------------------

theorem mem_of_lookup {fields : List (Text × Datum)} {name : Text} {content : Datum}
    (found : fields.lookup name = some content)
    : (name, content) ∈ fields := by
  obtain ⟨before, after, same, -⟩ := List.lookup_eq_some_iff.mp found
  simp [same]

theorem part_eq_ok {fields : List (Text × Datum)} {name : Text}
    {content : { content : Datum // sizeOf content < sizeOf (Datum.object fields) }}
    (h : part fields name = .ok content)
    : fields.lookup name = some content.val := by
  cases found : fields.lookup name with
  | none =>
      rw [part_of_lookup_none found] at h
      cases h
  | some datum =>
      rw [part_of_lookup found] at h
      cases h
      rfl

theorem asExpression_eq_ok {node : Node} {expr : Expr} (h : asExpression node = .ok expr)
    : node = .expression expr := by
  cases node with
  | expression => exact congrArg Node.expression (Except.ok.inj h)
  | program | statement | token => cases h

theorem asStatement_eq_ok {node : Node} {stmt : Stmt} (h : asStatement node = .ok stmt)
    : node = .statement stmt := by
  cases node with
  | statement => exact congrArg Node.statement (Except.ok.inj h)
  | program | expression | token => cases h

/-- A part that is there is passed on. -/
theorem part_bind {α : Type} {fields : List (Text × Datum)} {name : Text} {content : Datum}
    (h : fields.lookup name = some content)
    (next : { content : Datum // sizeOf content < sizeOf (Datum.object fields) }
      → Except LoadError α)
    : (part fields name >>= next) = next ⟨content, sizeOf_lookup_lt h⟩ := by
  rw [part_of_lookup h, ok_bind]

-----------------------------------------------------------------------------------------
-- Nodes
-----------------------------------------------------------------------------------------

/-- What an object with the fields is loaded as, by its type. -/
inductive Made (fields : List (Text × Datum)) : NodeType → Node → Prop
  | program {items : List Datum} {statements : List Stmt}
    (body : fields.lookup ↑"body" = some (.list items))
    (loaded : loadStatements items = .ok statements)
    : Made fields .program (.program statements)
  | token {content : Datum} {token : Token}
    (value : fields.lookup ↑"value" = some content)
    (loaded : loadToken content = .ok token)
    : Made fields .token (.token token)
  | printStatement {content : Datum} {expr : Expr}
    (part : fields.lookup ↑"expr" = some content)
    (loaded : load content = .ok (.expression expr))
    : Made fields .printStatement (.statement (.print expr))
  | expressionStatement {content : Datum} {expr : Expr}
    (part : fields.lookup ↑"expr" = some content)
    (loaded : load content = .ok (.expression expr))
    : Made fields .expressionStatement (.statement (.expression expr))
  | binary {first named second : Datum} {left right : Expr} {operator : Token}
    (firstPart : fields.lookup ↑"left" = some first)
    (firstLoaded : load first = .ok (.expression left))
    (operatorPart : fields.lookup ↑"operator" = some named)
    (operatorLoaded : loadToken named = .ok operator)
    (secondPart : fields.lookup ↑"right" = some second)
    (secondLoaded : load second = .ok (.expression right))
    : Made fields .binary (.expression (.binary left operator right))
  | grouping {content : Datum} {inner : Expr}
    (part : fields.lookup ↑"inner" = some content)
    (loaded : load content = .ok (.expression inner))
    : Made fields .grouping (.expression (.grouping inner))
  | literal {value : Datum}
    (loaded : loadLiteral (optionalPart fields "value") = .ok value)
    : Made fields .literal (.expression (.literal value))
  | unary {named content : Datum} {operator : Token} {operand : Expr}
    (operatorPart : fields.lookup ↑"operator" = some named)
    (operatorLoaded : loadToken named = .ok operator)
    (part : fields.lookup ↑"operand" = some content)
    (loaded : load content = .ok (.expression operand))
    : Made fields .unary (.expression (.unary operator operand))

/-- Only objects are loaded, each as its type says. -/
theorem made_of_load {d : Datum} {node : Node} (h : load d = .ok node)
    : ∃ fields type, d = .object fields ∧ loadType fields = .ok type ∧ Made fields type node := by
  cases d with
  | nil | boolean | number | string | integer | list =>
      rw [load] at h
      · cases h
      · intro _ object
        cases object
  | object fields =>
      rw [load] at h
      obtain ⟨type, found, h⟩ := bind_eq_ok.mp h
      refine ⟨fields, type, rfl, found, ?_⟩
      cases type with
      | program =>
          obtain ⟨⟨body, _⟩, listed, h⟩ := bind_eq_ok.mp h
          cases body with
          | list items =>
              obtain ⟨statements, loaded, same⟩ := bind_eq_ok.mp h
              cases same
              exact .program (part_eq_ok listed) loaded
          | nil | boolean | number | string | integer | object => cases h
      | token =>
          simp only [bind_eq_ok] at h
          obtain ⟨_, value, _, loaded, same⟩ := h
          cases same
          exact .token (part_eq_ok value) loaded
      | printStatement =>
          simp only [bind_eq_ok] at h
          obtain ⟨_, expr, _, loaded, _, expression, same⟩ := h
          cases same
          exact .printStatement (part_eq_ok expr) (asExpression_eq_ok expression ▸ loaded)
      | expressionStatement =>
          simp only [bind_eq_ok] at h
          obtain ⟨_, expr, _, loaded, _, expression, same⟩ := h
          cases same
          exact .expressionStatement (part_eq_ok expr) (asExpression_eq_ok expression ▸ loaded)
      | binary =>
          simp only [bind_eq_ok] at h
          obtain ⟨_, left, _, first, _, leftExpr, _, operator, _, named, _, right, _, second, _,
            rightExpr, same⟩ := h
          cases same
          exact .binary (part_eq_ok left) (asExpression_eq_ok leftExpr ▸ first)
            (part_eq_ok operator) named (part_eq_ok right) (asExpression_eq_ok rightExpr ▸ second)
      | grouping =>
          simp only [bind_eq_ok] at h
          obtain ⟨_, inner, _, loaded, _, expression, same⟩ := h
          cases same
          exact .grouping (part_eq_ok inner) (asExpression_eq_ok expression ▸ loaded)
      | literal =>
          obtain ⟨_, loaded, same⟩ := bind_eq_ok.mp h
          cases same
          exact .literal loaded
      | unary =>
          simp only [bind_eq_ok] at h
          obtain ⟨_, operator, _, named, _, operand, _, loaded, _, expression, same⟩ := h
          cases same
          exact .unary (part_eq_ok operator) named (part_eq_ok operand)
            (asExpression_eq_ok expression ▸ loaded)

/-- An object is loaded as its type says when its parts are. -/
theorem load_of_made {fields : List (Text × Datum)} {type : NodeType} {node : Node}
    (found : loadType fields = .ok type) (made : Made fields type node)
    : load (.object fields) = .ok node := by
  rw [load, found, ok_bind]
  cases made with
  | program body loaded =>
      refine (part_bind body _).trans ?_
      simp only [loaded, ok_bind]
      rfl
  | token value loaded =>
      refine (part_bind value _).trans ?_
      simp only [loaded, ok_bind]
      rfl
  | printStatement part loaded | expressionStatement part loaded | grouping part loaded =>
      refine (part_bind part _).trans ?_
      simp only [loaded, ok_bind]
      rfl
  | binary firstPart firstLoaded operatorPart operatorLoaded secondPart secondLoaded =>
      refine (part_bind firstPart _).trans ?_
      simp only [firstLoaded, ok_bind, asExpression]
      refine (part_bind operatorPart _).trans ?_
      simp only [operatorLoaded, ok_bind]
      refine (part_bind secondPart _).trans ?_
      simp only [secondLoaded, ok_bind]
      rfl
  | literal loaded =>
      simp only [loaded, ok_bind]
      rfl
  | unary operatorPart operatorLoaded part loaded =>
      refine (part_bind operatorPart _).trans ?_
      simp only [operatorLoaded, ok_bind]
      refine (part_bind part _).trans ?_
      simp only [loaded, ok_bind]
      rfl

end Lox.Document
