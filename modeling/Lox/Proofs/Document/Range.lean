import Lox.Proofs.Document.Nodes
import Mathlib

/-! Documents whose numbers are in range.
Loading fails over the shape of a document or over a number that is out of range. Where all numbers
are in range it fails over the shape only, wherever in the document the fault is.
-/

namespace Lox

/-- The integers in the datum have doubles near them, and no number in it is infinite. -/
inductive Datum.InRange : Datum → Prop
  | nil : InRange .nil
  | boolean (truth : Bool) : InRange (.boolean truth)
  | number {x : Float} (finite : x.isInf = false) : InRange (.number x)
  | string (text : Text) : InRange (.string text)
  | integer {n : Int} {x : Float} (near : Number.ofInteger? n = some x) : InRange (.integer n)
  | list {items : List Datum} (all : ∀ item ∈ items, InRange item) : InRange (.list items)
  | object {fields : List (Text × Datum)} (all : ∀ field ∈ fields, InRange field.2)
    : InRange (.object fields)

theorem Datum.InRange.field {fields : List (Text × Datum)}
    (inRange : (Datum.object fields).InRange) {name : Text} {content : Datum}
    (found : fields.lookup name = some content)
    : content.InRange := by
  cases inRange with
  | object all => exact all _ (Document.mem_of_lookup found)

theorem Datum.InRange.optionalPart {fields : List (Text × Datum)}
    (inRange : (Datum.object fields).InRange) (name : Text)
    : (Document.optionalPart fields name).InRange := by
  unfold Document.optionalPart
  cases found : fields.lookup name with
  | none => exact .nil
  | some content => exact inRange.field found

/-- A double that is not infinite has a whole part if it is a number. -/
theorem Number.isNaN_of_truncate {x : Float} (none : truncate? x = none) (finite : x.isInf = false)
    : x.isNaN = true := by
  change x.toModel.unpack.isInf = false at finite
  change x.toModel.unpack.isNaN = true
  unfold truncate? at none
  cases form : x.toModel.unpack with
  | notANumber => rfl
  | infinity =>
      rw [form] at finite
      cases finite
  | zero | finite => simp [form] at none

namespace Document

/-- If the result is an error, it is one about the shape of a document. -/
def FailsByShape {α : Type} (result : Except LoadError α) : Prop :=
  ∀ error, result = .error error → error.isOutOfRange = false

variable {α β : Type} {fields : List (Text × Datum)} {d : Datum}

theorem failsByShape_ok (value : α) : FailsByShape (.ok value) := by
  intro error failed
  cases failed

theorem failsByShape_error {error : LoadError} (shape : error.isOutOfRange = false)
    : FailsByShape (.error error : Except LoadError α) := by
  intro other failed
  cases failed
  exact shape

theorem FailsByShape.bind {first : Except LoadError α} {next : α → Except LoadError β}
    (one : FailsByShape first)
    (other : ∀ value, first = .ok value → FailsByShape (next value))
    : FailsByShape (first >>= next) := by
  cases first with
  | error => exact failsByShape_error (one _ rfl)
  | ok value => exact other value rfl

-----------------------------------------------------------------------------------------
-- Parts of nodes
-----------------------------------------------------------------------------------------

theorem failsByShape_part (fields : List (Text × Datum)) (name : Text)
    : FailsByShape (part fields name) := by
  cases found : fields.lookup name with
  | none =>
      rw [part_of_lookup_none found]
      exact failsByShape_error rfl
  | some content =>
      rw [part_of_lookup found]
      exact failsByShape_ok _

theorem failsByShape_loadType (fields : List (Text × Datum)) : FailsByShape (loadType fields) := by
  unfold loadType
  split
  · split
    · exact failsByShape_ok _
    · exact failsByShape_error rfl
  · exact failsByShape_error rfl

theorem failsByShape_loadKind (d : Datum) : FailsByShape (loadKind d) := by
  unfold loadKind
  split
  · split
    · exact failsByShape_ok _
    · exact failsByShape_error rfl
  all_goals exact failsByShape_error rfl

theorem failsByShape_asExpression (node : Node) : FailsByShape (asExpression node) := by
  cases node with
  | expression => exact failsByShape_ok _
  | program | statement | token => exact failsByShape_error rfl

theorem failsByShape_asStatement (node : Node) : FailsByShape (asStatement node) := by
  cases node with
  | statement => exact failsByShape_ok _
  | program | expression | token => exact failsByShape_error rfl

theorem failsByShape_withNumber (inRange : d.InRange) : FailsByShape (withNumber d) := by
  cases inRange with
  | integer near =>
      simp only [withNumber, near]
      exact failsByShape_ok _
  | nil | boolean | number | string | list | object => exact failsByShape_ok _

theorem failsByShape_loadLiteral (inRange : d.InRange) : FailsByShape (loadLiteral d) := by
  refine (failsByShape_withNumber inRange).bind fun value _ => ?_
  split
  · exact failsByShape_ok _
  · exact failsByShape_error rfl

theorem failsByShape_loadLine (inRange : d.InRange) : FailsByShape (loadLine d) := by
  unfold loadLine lineOf
  cases inRange with
  | number finite =>
      dsimp only
      split
      · exact failsByShape_ok _
      · rename_i none
        rw [Number.isNaN_of_truncate none finite]
        exact failsByShape_error rfl
  | string =>
      dsimp only
      split
      · exact failsByShape_ok _
      · exact failsByShape_error rfl
      · exact failsByShape_error rfl
  | boolean | integer => exact failsByShape_ok _
  | nil | list | object => exact failsByShape_error rfl

theorem failsByShape_loadToken (inRange : d.InRange) : FailsByShape (loadToken d) := by
  cases d with
  | object fields =>
      refine (failsByShape_part fields "kind").bind fun kind _ => ?_
      refine (failsByShape_loadKind kind.val).bind fun _ _ => ?_
      refine (failsByShape_part fields "lexeme").bind fun _ _ => ?_
      refine (failsByShape_withNumber (inRange.optionalPart "literal")).bind fun _ _ => ?_
      refine (failsByShape_part fields "line").bind fun line found => ?_
      refine (failsByShape_loadLine (inRange.field (part_eq_ok found))).bind fun _ _ => ?_
      exact failsByShape_ok _
  | nil | boolean | number | string | integer | list => exact failsByShape_error rfl

-----------------------------------------------------------------------------------------
-- Nodes
-----------------------------------------------------------------------------------------

/-- Whatever the datum stands in place of, a node or the statements of a program, it fails to load
over its shape only.
-/
structure Loadable (d : Datum) : Prop where
  node : FailsByShape (load d)
  statements : ∀ items, d = .list items → FailsByShape (loadStatements items)

theorem failsByShape_loadStatements {items : List Datum}
    (all : ∀ item ∈ items, FailsByShape (load item))
    : FailsByShape (loadStatements items) := by
  induction items with
  | nil =>
      rw [loadStatements]
      exact failsByShape_ok _
  | cons item rest ih =>
      obtain ⟨first, later⟩ := List.forall_mem_cons.mp all
      rw [loadStatements]
      refine first.bind fun node _ => ?_
      refine (failsByShape_asStatement node).bind fun _ _ => ?_
      exact (ih later).bind fun _ _ => failsByShape_ok _

/-- A part that is to be an expression. -/
theorem FailsByShape.expression {content : Datum} {next : Expr → Except LoadError Node}
    (loads : FailsByShape (load content)) (later : ∀ expr, FailsByShape (next expr))
    : FailsByShape (load content >>= fun node => asExpression node >>= next) :=
  loads.bind fun node _ => (failsByShape_asExpression node).bind fun expr _ => later expr

/-- An object fails to load over its shape when its fields do, by cases on its type. -/
theorem failsByShape_object (inRange : (Datum.object fields).InRange)
    (parts : ∀ name content, fields.lookup name = some content → Loadable content)
    : FailsByShape (load (.object fields)) := by
  have inner : ∀ {name} {content : { d : Datum // sizeOf d < sizeOf (Datum.object fields) }},
      part fields name = .ok content → FailsByShape (load content.val) :=
    fun found => (parts _ _ (part_eq_ok found)).node
  have token : ∀ {name} {content : { d : Datum // sizeOf d < sizeOf (Datum.object fields) }},
      part fields name = .ok content → FailsByShape (loadToken content.val) :=
    fun found => failsByShape_loadToken (inRange.field (part_eq_ok found))
  rw [load]
  refine (failsByShape_loadType fields).bind fun type _ => ?_
  cases type with
  | program =>
      refine (failsByShape_part fields "body").bind fun body found => ?_
      obtain ⟨body, smaller⟩ := body
      cases body with
      | list items =>
          have loadable := parts _ _ (part_eq_ok found)
          exact (loadable.statements items rfl).bind fun _ _ => failsByShape_ok _
      | nil | boolean | number | string | integer | object => exact failsByShape_error rfl
  | token =>
      refine (failsByShape_part fields "value").bind fun _ found => ?_
      exact (token found).bind fun _ _ => failsByShape_ok _
  | printStatement | expressionStatement =>
      refine (failsByShape_part fields "expr").bind fun _ found => ?_
      exact (inner found).expression fun _ => failsByShape_ok _
  | grouping =>
      refine (failsByShape_part fields "inner").bind fun _ found => ?_
      exact (inner found).expression fun _ => failsByShape_ok _
  | literal =>
      have value := failsByShape_loadLiteral (inRange.optionalPart "value")
      exact value.bind fun _ _ => failsByShape_ok _
  | binary =>
      refine (failsByShape_part fields "left").bind fun _ left => ?_
      refine (inner left).expression fun _ => ?_
      refine (failsByShape_part fields "operator").bind fun _ operator => ?_
      refine (token operator).bind fun _ _ => ?_
      refine (failsByShape_part fields "right").bind fun _ right => ?_
      exact (inner right).expression fun _ => failsByShape_ok _
  | unary =>
      refine (failsByShape_part fields "operator").bind fun _ operator => ?_
      refine (token operator).bind fun _ _ => ?_
      refine (failsByShape_part fields "operand").bind fun _ operand => ?_
      exact (inner operand).expression fun _ => failsByShape_ok _

theorem failsByShape_of_not_object (other : ∀ fields, d ≠ .object fields)
    : FailsByShape (load d) := by
  rw [load]
  · exact failsByShape_error rfl
  · exact other

/-- Data in range fail to load over their shape only, by induction on the data. -/
theorem loadable_of_inRange (inRange : d.InRange) : Loadable d := by
  induction inRange with
  | nil | boolean | number | string | integer =>
      constructor
      · exact failsByShape_of_not_object (by simp)
      · intro items list
        cases list
  | list _ ih =>
      constructor
      · exact failsByShape_of_not_object (by simp)
      · intro items same
        cases same
        exact failsByShape_loadStatements fun item member => (ih item member).node
  | object all ih =>
      constructor
      · exact failsByShape_object (.object all) fun _ _ found => ih _ (mem_of_lookup found)
      · intro items list
        cases list

theorem failsByShape_loadProgram (inRange : d.InRange) : FailsByShape (loadProgram d) := by
  unfold loadProgram
  split
  · refine (loadable_of_inRange inRange).node.bind fun node _ => ?_
    cases node with
    | program => exact failsByShape_ok _
    | statement | expression | token => exact failsByShape_error rfl
  · exact failsByShape_error rfl

end Document

end Lox
