import Lox.Proofs.Document.Loaded

/-! Normal documents.
A document is made normal when it is loaded and written again. The normal documents are those of
nodes that loading leaves as they are, so that no document changes twice.
-/

namespace Lox.Document

/-- The document of the node that the document describes. -/
def normalize (d : Datum) : Except LoadError Datum := do
  return (← load d).toDatum

theorem normalize_eq_ok {d normal : Datum}
    : normalize d = .ok normal ↔ ∃ node, load d = .ok node ∧ node.toDatum = normal := by
  rw [normalize, bind_eq_ok]
  constructor
  · rintro ⟨node, loaded, same⟩
    exact ⟨node, loaded, Except.ok.inj same⟩
  · rintro ⟨node, loaded, rfl⟩
    exact ⟨node, loaded, rfl⟩

/-- A node that comes back from its document is one that loading leaves as it is. -/
theorem load_toDatum_iff (node : Node) : load node.toDatum = .ok node ↔ node.Stable :=
  ⟨stable_of_load, load_node⟩

/-- The documents that do not change are those of nodes that loading leaves as they are. -/
theorem normalize_self_iff (d : Datum)
    : normalize d = .ok d ↔ ∃ node : Node, node.Stable ∧ node.toDatum = d := by
  rw [normalize_eq_ok]
  constructor
  · rintro ⟨node, loaded, same⟩
    exact ⟨node, stable_of_load loaded, same⟩
  · rintro ⟨node, stable, rfl⟩
    exact ⟨node, load_node stable, rfl⟩

/-- Loading and writing are inverse up to the first normalization. A node comes back from its
document just if its literals are values and its tokens carry no integer, all nodes that are loaded
are such, and a document that was made normal is normal.
-/
theorem loading_inverts_writing
    : (∀ node : Node, load node.toDatum = .ok node ↔ node.Stable)
      ∧ (∀ d node, load d = .ok node → node.Stable)
      ∧ (∀ d, normalize d = .ok d ↔ ∃ node : Node, node.Stable ∧ node.toDatum = d)
      ∧ ∀ d normal, normalize d = .ok normal → normalize normal = .ok normal := by
  refine ⟨load_toDatum_iff, fun _ _ => stable_of_load, normalize_self_iff, fun d normal made => ?_⟩
  obtain ⟨node, loaded, rfl⟩ := normalize_eq_ok.mp made
  exact (normalize_self_iff _).mpr ⟨node, stable_of_load loaded, rfl⟩

/-- An odd document is made normal: an integer becomes a number, a truth value and a text become
lines, a literal that is missing becomes nil, a list stays, and a field without a meaning is left
out.
-/
theorem loading_inverts_writing_of_odd_document
    : let three := Float.ofInt 3
      let odd :=
        Datum.object
          [("comment", .integer 7), ("type", .string "Binary"),
            ("left", .object [("type", .string "Literal")]),
            ("operator", .object
              [("kind", .string "PLUS"), ("lexeme", .string "+"),
                ("literal", .list [.integer 1]), ("line", .boolean true)]),
            ("right", .object
              [("type", .string "Unary"),
                ("operator", .object
                  [("kind", .string "MINUS"), ("lexeme", .string "-"), ("line", .string " 2 ")]),
                ("operand", .object [("type", .string "Literal"), ("value", .integer 3)])])]
      let plus := Token.mk .plus (.string "+") (.list [.integer 1]) 1
      let minus := Token.mk .minus (.string "-") .nil 2
      let node :=
        Node.expression
          (.binary (.literal .nil) plus (.unary minus (.literal (.number three))))
      load odd = .ok node ∧ node.toDatum ≠ odd ∧ load node.toDatum = .ok node
        ∧ normalize node.toDatum = .ok node.toDatum := by
  intro three odd plus minus node
  have loaded : load odd = .ok node := by
    have left : load (.object [("type", .string "Literal")]) = .ok (.expression (.literal .nil)) :=
      load_of_made rfl (.literal rfl)
    have operand
        : load (.object [("type", .string "Literal"), ("value", .integer 3)])
          = .ok (.expression (.literal (.number three))) :=
      load_of_made rfl (.literal rfl)
    exact load_of_made rfl (.binary rfl left rfl rfl rfl
      (load_of_made rfl (.unary rfl rfl rfl operand)))
  have stable := loading_inverts_writing.2.1 odd node loaded
  refine ⟨loaded, ?_, (loading_inverts_writing.1 node).mpr stable, ?_⟩
  · simp [node, odd, Node.toDatum, Expr.toDatum, NodeType.node]
  · exact (loading_inverts_writing.2.2.1 _).mpr ⟨node, stable, rfl⟩

end Lox.Document
