import Lox.Proofs.Tree.Operators
import Lox.Proofs.Tree.Replacement
import Lox.Tree.Text

/-! The shape of a tree's text.
The text of a tree is made of words, and of heads in parentheses with one or two operands behind
them. It shows where each operand ends, as long as nothing in a head or a word looks like a space
or a parenthesis.
-/

namespace Lox

/-- What the text of a tree is made of. -/
inductive Shape where
  | word (text : List Char)
  | one (head : List Char) (operand : Shape)
  | two (head : List Char) (left right : Shape)

namespace Shape

/-- The text of a shape. -/
def text : Shape → List Char
  | .word text => text
  | .one head operand => '(' :: head ++ ' ' :: operand.text ++ [')']
  | .two head left right => '(' :: head ++ ' ' :: left.text ++ ' ' :: right.text ++ [')']

/-- The character separates words or encloses them. -/
def delimits (c : Char) : Bool :=
  c = ' ' || c = '(' || c = ')'

/-- No character of the text separates or encloses words. -/
def Solid (text : List Char) : Prop :=
  ∀ c ∈ text, delimits c = false

instance (text : List Char) : Decidable (Solid text) :=
  decidable_of_iff (text.all (!delimits ·) = true) (by simp [Solid])

/-- All heads and words of the shape are solid. -/
def Legible : Shape → Prop
  | .word text => Solid text
  | .one head operand => Solid head ∧ operand.Legible
  | .two head left right => Solid head ∧ left.Legible ∧ right.Legible

/-- What stands behind a shape within a text: nothing, a space or a closing parenthesis. -/
def Ends (rest : List Char) : Prop :=
  ∀ c ∈ rest.head?, c = ' ' ∨ c = ')'

theorem Ends.nil : Ends [] := by
  intro c member
  cases member

theorem Ends.cons {c : Char} (h : c = ' ' ∨ c = ')') (rest : List Char) : Ends (c :: rest) := by
  intro _ member
  obtain rfl := Option.some.inj member
  exact h

theorem Ends.delimits {rest : List Char} (ends : Ends rest)
    : ∀ c ∈ rest.head?, delimits c = true := by
  intro c member
  rcases ends c member with rfl | rfl
  · rfl
  · rfl

variable {first second rest others : List Char}

/-- Where both go on with a delimiter, solid texts are over at the same place. -/
theorem Solid.append_inj (solid : Solid first) (solid' : Solid second)
    (ends : ∀ c ∈ rest.head?, delimits c = true) (ends' : ∀ c ∈ others.head?, delimits c = true)
    (same : first ++ rest = second ++ others)
    : first = second ∧ rest = others := by
  rcases List.append_eq_append_iff.mp same with ⟨more, rfl, rfl⟩ | ⟨more, rfl, rfl⟩
  · cases more with
    | nil => exact ⟨(List.append_nil first).symm, rfl⟩
    | cons c more => exact absurd (ends c rfl) (by simp [solid' c])
  · cases more with
    | nil => exact ⟨List.append_nil second, rfl⟩
    | cons c more => exact absurd (ends' c rfl) (by simp [solid c])

/-- A word does not begin with a parenthesis, and neither does what stands behind it. -/
theorem Solid.append_ne_opening (solid : Solid first) (ends : Ends rest) (more : List Char)
    : first ++ rest ≠ '(' :: more := by
  intro same
  cases first with
  | nil =>
      subst same
      rcases ends '(' rfl with space | closing
      · cases space
      · cases closing
  | cons c first =>
      obtain ⟨rfl, -⟩ := List.cons.inj same
      cases solid '(' List.mem_cons_self

/-- Heads end at the first space. -/
theorem Solid.head_inj (solid : Solid first) (solid' : Solid second)
    (same : '(' :: (first ++ ' ' :: rest) = '(' :: (second ++ ' ' :: others))
    : first = second ∧ rest = others := by
  have space : ∀ more : List Char, ∀ c ∈ (' ' :: more).head?, delimits c = true :=
    fun more => (Ends.cons (.inl rfl) more).delimits
  have inner := (List.cons.inj same).2
  obtain ⟨head, behind⟩ := solid.append_inj solid' (space rest) (space others) inner
  exact ⟨head, (List.cons.inj behind).2⟩

theorem text_one_append (head : List Char) (operand : Shape) (rest : List Char)
    : (one head operand).text ++ rest
      = '(' :: (head ++ ' ' :: (operand.text ++ ')' :: rest)) := by
  simp [text]

theorem text_two_append (head : List Char) (left right : Shape) (rest : List Char)
    : (two head left right).text ++ rest
      = '(' :: (head ++ ' ' :: (left.text ++ ' ' :: (right.text ++ ')' :: rest))) := by
  simp [text]

/-- Behind an operand stands either the parenthesis that closes or a space, and not both. -/
theorem closing_ne_space (rest others : List Char) : ')' :: rest ≠ ' ' :: others := by
  intro same
  cases (List.cons.inj same).1

/-- A text tells its shape and where it ends, by induction on the shape. -/
theorem text_append_inj {shape other : Shape} (legible : shape.Legible) (legible' : other.Legible)
    (ends : Ends rest) (ends' : Ends others) (same : shape.text ++ rest = other.text ++ others)
    : shape = other ∧ rest = others := by
  have closing : ∀ rest, Ends (')' :: rest) := Ends.cons (.inr rfl)
  have space : ∀ rest, Ends (' ' :: rest) := Ends.cons (.inl rfl)
  induction shape generalizing other rest others with
  | word text =>
      cases other with
      | word text' =>
          obtain ⟨rfl, behind⟩ := legible.append_inj legible' ends.delimits ends'.delimits same
          exact ⟨rfl, behind⟩
      | one head operand =>
          rw [text_one_append] at same
          exact absurd same (legible.append_ne_opening ends _)
      | two head left right =>
          rw [text_two_append] at same
          exact absurd same (legible.append_ne_opening ends _)
  | one head operand ih =>
      rw [text_one_append] at same
      cases other with
      | word text' => exact absurd same.symm (legible'.append_ne_opening ends' _)
      | one head' operand' =>
          rw [text_one_append] at same
          obtain ⟨rfl, inner⟩ := legible.1.head_inj legible'.1 same
          obtain ⟨rfl, behind⟩ := ih legible.2 legible'.2 (closing _) (closing _) inner
          exact ⟨rfl, (List.cons.inj behind).2⟩
      | two head' left' right' =>
          -- Behind the first operand, one text closes and the other one goes on.
          rw [text_two_append] at same
          obtain ⟨-, inner⟩ := legible.1.head_inj legible'.1 same
          obtain ⟨-, behind⟩ := ih legible.2 legible'.2.1 (closing _) (space _) inner
          exact absurd behind (closing_ne_space _ _)
  | two head left right leftIh rightIh =>
      rw [text_two_append] at same
      cases other with
      | word text' => exact absurd same.symm (legible'.append_ne_opening ends' _)
      | one head' operand' =>
          rw [text_one_append] at same
          obtain ⟨-, inner⟩ := legible.1.head_inj legible'.1 same
          obtain ⟨-, behind⟩ := leftIh legible.2.1 legible'.2 (space _) (closing _) inner
          exact absurd behind.symm (closing_ne_space _ _)
      | two head' left' right' =>
          rw [text_two_append] at same
          obtain ⟨rfl, inner⟩ := legible.1.head_inj legible'.1 same
          obtain ⟨rfl, behind⟩ := leftIh legible.2.1 legible'.2.1 (space _) (space _) inner
          obtain ⟨rfl, last⟩ :=
            rightIh legible.2.2 legible'.2.2 (closing _) (closing _) (List.cons.inj behind).2
          exact ⟨rfl, (List.cons.inj last).2⟩

/-- Legible shapes with the same text are the same. -/
theorem text_inj {shape other : Shape} (legible : shape.Legible) (legible' : other.Legible)
    (same : shape.text = other.text)
    : shape = other := by
  refine (text_append_inj legible legible' .nil .nil ?_).1
  rw [same]

end Shape

-----------------------------------------------------------------------------------------
-- Trees
-----------------------------------------------------------------------------------------

/-- The shape of an expression's text. -/
def Expr.shape : Expr → Shape
  | .binary left operator right => .two operator.lexeme.bare.characters left.shape right.shape
  | .grouping inner => .one "group".toList inner.shape
  | .literal value => .word value.label.characters
  | .unary operator operand => .one operator.lexeme.bare.characters operand.shape

/-- The shape of a statement's text. -/
def Stmt.shape : Stmt → Shape
  | .expression expr => .one ";".toList expr.shape
  | .print expr => .one "print".toList expr.shape

/-- The text of an expression has its shape, by induction on the expression. -/
theorem Expr.characters_text (expr : Expr) : expr.text.characters = expr.shape.text := by
  induction expr with
  | binary _ _ _ leftIh rightIh => simp [text, shape, Shape.text, leftIh, rightIh]
  | grouping _ ih => simp [text, shape, Shape.text, ih]
  | literal => rfl
  | unary _ _ ih => simp [text, shape, Shape.text, ih]

theorem Stmt.characters_text (stmt : Stmt) : stmt.text.characters = stmt.shape.text := by
  cases stmt <;> simp [text, shape, Shape.text, Expr.characters_text]

variable {change : Token → Token}

/-- Tokens with the same lexemes leave the text as it is, by induction on the expression. -/
theorem Expr.text_mapTokens (keeps : ∀ token, (change token).lexeme = token.lexeme) (expr : Expr)
    : (expr.mapTokens change).text = expr.text := by
  induction expr with
  | binary _ _ _ leftIh rightIh => simp [mapTokens, text, keeps, leftIh, rightIh]
  | grouping _ ih => simp [mapTokens, text, ih]
  | literal => rfl
  | unary _ _ ih => simp [mapTokens, text, keeps, ih]

theorem Stmt.text_mapTokens (keeps : ∀ token, (change token).lexeme = token.lexeme) (stmt : Stmt)
    : (stmt.mapTokens change).text = stmt.text := by
  cases stmt <;> simp [mapTokens, text, Expr.text_mapTokens keeps]

end Lox
