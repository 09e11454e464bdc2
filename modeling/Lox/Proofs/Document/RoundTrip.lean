import Lox.Proofs.Document.Nodes
import Lox.Proofs.Json.RoundTrip
import Lox.Proofs.Tree.Operators

/-! A document leads back to the node that it was made of.
Loading changes integers only, so that a node whose literals are values and whose tokens carry no
integer is loaded as it was.
-/

namespace Lox

/-- Loading leaves the token as it is. -/
def Token.Stable (token : Token) : Prop :=
  token.literal.kind ≠ .integer

/-- Loading leaves the node as it is. -/
def Node.Stable : Node → Prop
  | .program statements => ∀ statement ∈ statements, statement.Over Token.Stable
  | .statement stmt => stmt.Over Token.Stable
  | .expression expr => expr.Over Token.Stable
  | .token content => content.Stable

namespace Document

theorem ofName_name (type : NodeType) : NodeType.ofName? type.name = some type := by
  cases type <;> decide

theorem kind_ofName_name (kind : Token.Kind) : Token.Kind.ofName? kind.name = some kind := by
  cases kind <;> decide

theorem loadType_node (type : NodeType) (parts : List (Text × Datum))
    : loadType (("type", .string type.name) :: parts) = .ok type := by
  have found : optionalPart (("type", .string type.name) :: parts) "type" = .string type.name := rfl
  simp only [loadType, found, ofName_name]

theorem withNumber_of_kind {d : Datum} (h : d.kind ≠ .integer) : withNumber d = .ok d := by
  cases d with
  | integer => exact (h rfl).elim
  | _ => rfl

theorem loadLiteral_of_isValue {d : Datum} (h : d.isValue = true) : loadLiteral d = .ok d := by
  have kind : d.kind ≠ .integer := by
    intro same
    rw [Datum.isValue, same] at h
    cases h
  rw [loadLiteral, withNumber_of_kind kind, ok_bind, if_pos h]

theorem loadToken_toDatum {token : Token} (stable : token.Stable)
    : loadToken token.toDatum = .ok token := by
  rw [Token.toDatum, loadToken]
  refine (part_bind rfl _).trans ?_
  simp only [loadKind, kind_ofName_name, ok_bind]
  refine (part_bind rfl _).trans ?_
  have literal : optionalPart
      [("kind", .string token.kind.name), ("lexeme", token.lexeme), ("literal", token.literal),
        ("line", .integer token.line)] "literal" = token.literal := rfl
  simp only [literal, withNumber_of_kind stable, ok_bind]
  refine (part_bind rfl _).trans ?_
  rfl

/-- An expression is loaded from its document, by induction on the expression. -/
theorem load_toDatum (expr : Expr) (stable : expr.Over Token.Stable)
    : load expr.toDatum = .ok (.expression expr) := by
  induction expr with
  | binary left operator right leftIh rightIh =>
      obtain ⟨first, token, second⟩ := stable
      exact load_of_made (loadType_node .binary _)
        (.binary rfl (leftIh first) rfl (loadToken_toDatum token) rfl (rightIh second))
  | grouping inner ih => exact load_of_made (loadType_node .grouping _) (.grouping rfl (ih stable))
  | literal value =>
      exact load_of_made (loadType_node .literal _) (.literal (loadLiteral_of_isValue stable))
  | unary operator operand ih =>
      obtain ⟨token, inner⟩ := stable
      exact load_of_made (loadType_node .unary _)
        (.unary rfl (loadToken_toDatum token) rfl (ih inner))

theorem load_statement {stmt : Stmt} (stable : stmt.Over Token.Stable)
    : load stmt.toDatum = .ok (.statement stmt) := by
  cases stmt with
  | expression expr =>
      exact load_of_made (loadType_node .expressionStatement _)
        (.expressionStatement rfl (load_toDatum expr stable))
  | print expr =>
      exact load_of_made (loadType_node .printStatement _)
        (.printStatement rfl (load_toDatum expr stable))

theorem loadStatements_toDatum {statements : List Stmt}
    (stable : ∀ statement ∈ statements, statement.Over Token.Stable)
    : loadStatements (statements.map Stmt.toDatum) = .ok statements := by
  induction statements with
  | nil =>
      rw [List.map_nil, loadStatements]
  | cons statement rest ih =>
      have first := load_statement (stable statement List.mem_cons_self)
      have later := ih fun other member => stable other (List.mem_cons_of_mem statement member)
      rw [List.map_cons, loadStatements, first, ok_bind, later]
      rfl

/-- A node is loaded from its document. -/
theorem load_node {node : Node} (stable : node.Stable) : load node.toDatum = .ok node := by
  cases node with
  | program statements =>
      exact load_of_made (loadType_node .program _)
        (.program rfl (loadStatements_toDatum stable))
  | statement stmt => exact load_statement stable
  | expression expr => exact load_toDatum expr stable
  | token content =>
      exact load_of_made (loadType_node .token _) (.token rfl (loadToken_toDatum stable))

theorem loadProgram_toDatum {statements : List Stmt}
    (stable : ∀ statement ∈ statements, statement.Over Token.Stable)
    : loadProgram (Node.program statements).toDatum = .ok statements := by
  have program : isProgram (Node.program statements).toDatum = true := by
    simp only [Node.toDatum, programDatum, NodeType.node, isProgram, loadType_node, decide_true]
  have loaded : load (Node.program statements).toDatum = .ok (.program statements) :=
    load_node (show (Node.program statements).Stable from stable)
  rw [loadProgram, if_pos program, loaded, ok_bind]
  rfl

end Document

/-- What documents say of the token can be written. -/
structure Token.Writable (token : Token) : Prop where
  lexeme : token.lexeme.Writable
  literal : token.literal.Writable
  line : Text.isShort token.line = true

theorem NodeType.writable_node (type : NodeType) {parts : List (Text × Datum)}
    (names : (↑"type" :: parts.map Prod.fst).Nodup) (inner : WritableFields parts)
    : (type.node parts).Writable :=
  ⟨names, Text.isEncodable_ofString _, Text.isEncodable_ofString _, inner⟩

theorem Token.Writable.toDatum {token : Token} (h : token.Writable) : token.toDatum.Writable := by
  refine ⟨by simp, ?_, ?_, ?_, h.lexeme, ?_, h.literal, ?_, h.line, trivial⟩
  all_goals exact Text.isEncodable_ofString _

/-- A tree of literals and operators that can be written can be written, by induction on the
expression.
-/
theorem Expr.writable_toDatum {expr : Expr}
    (suits : expr.Satisfies Datum.Writable Token.Writable)
    : expr.toDatum.Writable := by
  have name := Text.isEncodable_ofString
  induction expr with
  | binary left operator right leftIh rightIh =>
      obtain ⟨first, token, second⟩ := suits
      exact NodeType.binary.writable_node (by simp)
        ⟨name _, leftIh first, name _, token.toDatum, name _, rightIh second, trivial⟩
  | grouping inner ih =>
      exact NodeType.grouping.writable_node (by simp) ⟨name _, ih suits, trivial⟩
  | literal value => exact NodeType.literal.writable_node (by simp) ⟨name _, suits, trivial⟩
  | unary operator operand ih =>
      obtain ⟨token, inner⟩ := suits
      exact NodeType.unary.writable_node (by simp)
        ⟨name _, token.toDatum, name _, ih inner, trivial⟩

theorem Stmt.writable_toDatum {stmt : Stmt}
    (suits : stmt.Satisfies Datum.Writable Token.Writable)
    : stmt.toDatum.Writable := by
  cases stmt with
  | expression expr | print expr =>
      exact NodeType.writable_node _ (by simp)
        ⟨Text.isEncodable_ofString _, Expr.writable_toDatum suits, trivial⟩

theorem writableItems_of_forall {items : List Datum} (h : ∀ item ∈ items, item.Writable)
    : WritableItems items := by
  induction items with
  | nil => trivial
  | cons item rest ih =>
      obtain ⟨first, later⟩ := List.forall_mem_cons.mp h
      exact ⟨first, ih later⟩

theorem writable_programDatum {body : List Datum} (h : ∀ item ∈ body, item.Writable)
    : (programDatum body).Writable :=
  NodeType.program.writable_node (by simp)
    ⟨Text.isEncodable_ofString _, writableItems_of_forall h, trivial⟩

/-- The document of a program of literals and operators that can be written can be written. -/
theorem Node.writable_toDatum {statements : List Stmt}
    (suits : ∀ statement ∈ statements, statement.Satisfies Datum.Writable Token.Writable)
    : (Node.program statements).toDatum.Writable := by
  refine writable_programDatum fun item member => ?_
  obtain ⟨statement, inside, rfl⟩ := List.mem_map.mp member
  exact Stmt.writable_toDatum (suits statement inside)

end Lox
