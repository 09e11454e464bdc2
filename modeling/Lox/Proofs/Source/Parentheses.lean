import Lox.Proofs.Source.Expressions

/-! Parentheses.
With parentheses around its operands, every expression can be written, and more parentheses change
neither the tree below them nor what comes of it.
-/

namespace Lox

/-- The token, wherever it stands. -/
def Token.placeless (token : Token) : Token :=
  { token with line := 0 }

/-- The expression without its groupings. -/
def Expr.ungrouped : Expr → Expr
  | .binary left operator right => .binary left.ungrouped operator right.ungrouped
  | .grouping inner => inner.ungrouped
  | .literal value => .literal value
  | .unary operator operand => .unary operator operand.ungrouped

/-- Groupings leave no trace in an evaluation, by induction on the expression. -/
theorem Expr.evaluate_ungrouped (level : Nat) (expr : Expr)
    : expr.ungrouped.evaluate level = expr.evaluate level := by
  induction expr with
  | binary _ _ _ leftIh rightIh => simp only [ungrouped, evaluate, leftIh, rightIh]
  | grouping _ ih => exact ih
  | literal => rfl
  | unary _ _ ih => simp only [ungrouped, evaluate, ih]

namespace Source

open Grammar Lexicon Scan

-----------------------------------------------------------------------------------------
-- Formulas
-----------------------------------------------------------------------------------------

/-- A lexeme that is an expression by itself. -/
inductive Leaf where
  | whole (digits : List Char) (h : Digits digits)
  | fraction (front back : List Char) (before : Digits front) (behind : Digits back)
  | string (content : List Char) (closed : '"' ∉ content)
  | truth
  | falsehood
  | nil

namespace Leaf

def kind : Leaf → Token.Kind
  | .whole .. | .fraction .. => .number
  | .string .. => .string
  | .truth => .trueKeyword
  | .falsehood => .falseKeyword
  | .nil => .nilKeyword

def lexeme : Leaf → List Char
  | .whole digits _ => digits
  | .fraction front back _ _ => front ++ '.' :: back
  | .string content _ => '"' :: content ++ ['"']
  | .truth => "true".toList
  | .falsehood => "false".toList
  | .nil => "nil".toList

def value : Leaf → Datum
  | .whole digits _ => .number (Decimal.ofDigits digits []).toFloat
  | .fraction front back _ _ => .number (Decimal.ofDigits front back).toFloat
  | .string content _ => .string (String.ofList content)
  | .truth => .boolean true
  | .falsehood => .boolean false
  | .nil => .nil

end Leaf

def unaryOperators : List Token.Kind :=
  [.bang, .minus]

def binaryOperators : List Token.Kind :=
  [.bangEqual, .equalEqual, .greater, .greaterEqual, .less, .lessEqual, .minus, .plus, .slash,
    .star]

/-- An expression of any shape, in which nothing tells where its parentheses are. -/
inductive Formula where
  | leaf (content : Leaf)
  | unary (operator : Token.Kind) (known : operator ∈ unaryOperators) (operand : Formula)
  | binary (left : Formula) (operator : Token.Kind) (known : operator ∈ binaryOperators)
      (right : Formula)

/-- The text of a kind whose tokens all have the same text. -/
def symbolText (kind : Token.Kind) : List Char :=
  (symbol? kind).getD []

/-- The tree of a formula, with operators that stand nowhere. -/
def Formula.tree : Formula → Expr
  | .leaf content => .literal content.value
  | .unary operator _ operand => .unary (tokenOf operator (symbolText operator) 0) operand.tree
  | .binary left operator _ right =>
      .binary left.tree (tokenOf operator (symbolText operator) 0) right.tree

/-- The lexemes, with the kinds of their tokens, write the formula. They are enclosed if they are
one leaf or stand in parentheses, and operands have to be. Parentheses may stand around anything.
-/
inductive Writes : Bool → Formula → List (Token.Kind × List Char) → Prop where
  | leaf {leaf : Leaf}
      : Writes true (.leaf leaf) [(leaf.kind, leaf.lexeme)]
  | unary {operator : Token.Kind} {known : operator ∈ unaryOperators} {operand : Formula}
      {lexemes : List (Token.Kind × List Char)}
      (h : Writes true operand lexemes)
      : Writes false (.unary operator known operand) ((operator, symbolText operator) :: lexemes)
  | binary {operator : Token.Kind} {known : operator ∈ binaryOperators} {left right : Formula}
      {first second : List (Token.Kind × List Char)}
      (before : Writes true left first)
      (behind : Writes true right second)
      : Writes false (.binary left operator known right)
        (first ++ (operator, symbolText operator) :: second)
  | parentheses {enclosed : Bool} {formula : Formula} {lexemes : List (Token.Kind × List Char)}
      (h : Writes enclosed formula lexemes)
      : Writes true formula ((.leftParen, ['(']) :: lexemes ++ [(.rightParen, [')'])])

/-- The text spells the formula: lexemes that write it, with blanks and comments between them, and
a semicolon.
-/
inductive Spells (formula : Formula) : List Char → Prop where
  | intro {enclosed : Bool} {gap : List Char} {all : List Written}
      (writes : Writes enclosed formula (all.map fun written => (written.kind, written.lexeme)))
      (start : Gap gap)
      (spaced : Spaced all)
      : Spells formula (render gap all ++ [';'])

-----------------------------------------------------------------------------------------
-- Lexemes
-----------------------------------------------------------------------------------------

variable {enclosed : Bool} {formula : Formula} {lexemes : List (Token.Kind × List Char)}

theorem Leaf.matched (leaf : Leaf) : Matches (.token leaf.kind leaf.lexeme) := by
  cases leaf with
  | whole _ h => exact .whole h
  | fraction _ _ before behind => exact .fraction before behind
  | string _ closed => exact .string closed
  | truth | falsehood | nil => exact .reserved rfl

/-- Every operator has a text of its own. -/
theorem symbol_of_operator {operator : Token.Kind}
    (known : operator ∈ unaryOperators ++ binaryOperators)
    : symbol? operator = some (symbolText operator) := by
  have all : ∀ kind ∈ unaryOperators ++ binaryOperators, symbol? kind = some (symbolText kind) := by
    decide
  exact all operator known

theorem matched_operator {operator : Token.Kind}
    (known : operator ∈ unaryOperators ++ binaryOperators)
    : Matches (.token operator (symbolText operator)) :=
  .symbol (symbol_of_operator known)

/-- Each lexeme belongs to its kind, by induction on how the formula is written. -/
theorem Writes.matched (writes : Writes enclosed formula lexemes)
    : ∀ lexeme ∈ lexemes, Matches (.token lexeme.1 lexeme.2) := by
  induction writes with
  | @leaf leaf => simpa using leaf.matched
  | @unary _ known _ _ _ ih =>
      rw [List.forall_mem_cons]
      exact ⟨matched_operator (List.mem_append_left _ known), ih⟩
  | @binary _ known _ _ _ _ _ _ leftIh rightIh =>
      rw [List.forall_mem_append, List.forall_mem_cons]
      exact ⟨leftIh, matched_operator (List.mem_append_right _ known), rightIh⟩
  | parentheses _ ih =>
      rw [List.forall_mem_append, List.forall_mem_cons, List.forall_mem_singleton]
      exact ⟨⟨.symbol rfl, ih⟩, .symbol rfl⟩

/-- Every formula can be written, with parentheses around each operator and its operands. -/
theorem exists_writes (formula : Formula) : ∃ lexemes, Writes true formula lexemes := by
  induction formula with
  | leaf => exact ⟨_, .leaf⟩
  | unary _ _ _ ih =>
      obtain ⟨_, writes⟩ := ih
      exact ⟨_, .parentheses (.unary writes)⟩
  | binary _ _ _ _ leftIh rightIh =>
      obtain ⟨_, before⟩ := leftIh
      obtain ⟨_, behind⟩ := rightIh
      exact ⟨_, .parentheses (.binary before behind)⟩

/-- The lexemes with a space behind each of them. -/
def spacedOut (lexemes : List (Token.Kind × List Char)) : List Written :=
  lexemes.map fun lexeme => ⟨lexeme.1, lexeme.2, [' ']⟩

theorem gap_of_spacedOut {written : Written} (member : written ∈ spacedOut lexemes)
    : written.gap = [' '] := by
  obtain ⟨_, -, rfl⟩ := List.mem_map.mp member
  rfl

theorem spaced_spacedOut (matched : ∀ lexeme ∈ lexemes, Matches (.token lexeme.1 lexeme.2))
    : Spaced (spacedOut lexemes) where
  lexemes written member := by
    obtain ⟨lexeme, inside, rfl⟩ := List.mem_map.mp member
    exact matched lexeme inside
  gaps written member := by
    rw [gap_of_spacedOut member]
    exact .blank blank_space .nil
  apart written member := by
    rw [gap_of_spacedOut (List.dropLast_subset _ member)]
    exact List.cons_ne_nil _ _
  blank written member c first := by
    rw [gap_of_spacedOut member] at first
    obtain rfl := Option.some.inj first
    exact blank_space

/-- Lexemes that write a formula spell it with a space behind each of them. -/
theorem Writes.spells (writes : Writes enclosed formula lexemes)
    : Spells formula (render [] (spacedOut lexemes) ++ [';']) := by
  have same
      : (spacedOut lexemes).map (fun written => (written.kind, written.lexeme)) = lexemes := by
    rw [spacedOut, List.map_map]
    exact List.map_id lexemes
  exact .intro (same.symm ▸ writes) .nil (spaced_spacedOut writes.matched)

-----------------------------------------------------------------------------------------
-- Reading what was written
-----------------------------------------------------------------------------------------

/-- The tokens are the lexemes, wherever they stand. -/
def Spelled (tokens : List Token) (lexemes : List (Token.Kind × List Char)) : Prop :=
  tokens.map .placeless = lexemes.map fun lexeme => tokenOf lexeme.1 lexeme.2 0

theorem kind_of_placeless {token : Token} {kind : Token.Kind} {text : List Char}
    (h : token.placeless = tokenOf kind text 0)
    : token.kind = kind :=
  congrArg Token.kind h

/-- The token of a leaf is the literal that the leaf stands for. -/
theorem Leaf.derives {leaf : Leaf} {token : Token}
    (h : token.placeless = tokenOf leaf.kind leaf.lexeme 0)
    : Derives .primary [token] (.literal leaf.value) := by
  have kind := kind_of_placeless h
  have literal : token.literal = literalOf leaf.kind leaf.lexeme := congrArg Token.literal h
  cases leaf with
  | whole digits digital =>
      have value : (Leaf.whole digits digital).value = token.literal :=
        (literal.trans (literalOf_whole digital)).symm
      rw [value]
      exact .number kind
  | fraction front back before behind =>
      have value : (Leaf.fraction front back before behind).value = token.literal :=
        (literal.trans (literalOf_fraction before)).symm
      rw [value]
      exact .number kind
  | string content closed =>
      have value : (Leaf.string content closed).value = token.literal :=
        (literal.trans (literalOf_string content)).symm
      rw [value]
      exact .string kind
  | truth => exact .truth kind
  | falsehood => exact .falsehood kind
  | nil => exact .nil kind

theorem exists_level {operator : Token.Kind} (known : operator ∈ binaryOperators)
    : ∃ level : Level, operator ∈ level.operators := by
  have all
      : ∀ kind ∈ binaryOperators,
          ∃ level ∈ [Level.equality, .comparison, .term, .factor], kind ∈ level.operators := by
    decide
  obtain ⟨level, -, member⟩ := all operator known
  exact ⟨level, member⟩

/-- What is enclosed is an operand, and what is not is still an expression. -/
def symbolOf (enclosed : Bool) : Symbol :=
  if enclosed then .primary else Grammar.expression

/-- The lexemes of a formula derive its tree within groupings, by induction on how it is written. -/
theorem Writes.derives (writes : Writes enclosed formula lexemes) {tokens : List Token}
    (spelled : Spelled tokens lexemes)
    : ∃ expr, Derives (symbolOf enclosed) tokens expr
      ∧ expr.ungrouped.mapTokens .placeless = formula.tree := by
  induction writes generalizing tokens with
  | leaf =>
      obtain ⟨token, rfl, same⟩ := List.map_eq_singleton_iff.mp spelled
      exact ⟨_, Leaf.derives same, rfl⟩
  | @unary operator known operand _ _ ih =>
      obtain ⟨token, others, rfl, same, later⟩ := List.map_eq_cons_iff.mp spelled
      obtain ⟨expr, derived, tree⟩ := ih later
      have kind : token.kind = .bang ∨ token.kind = .minus := by
        rw [kind_of_placeless same]
        simpa [unaryOperators] using known
      have unary : Derives .unary (token :: others) (.unary token expr) :=
        .unary kind (.primary derived)
      refine ⟨_, unary.loosen (by decide), ?_⟩
      rw [Expr.ungrouped, Expr.mapTokens, same, tree, Formula.tree]
  | @binary operator known left right _ _ _ _ leftIh rightIh =>
      rw [Spelled, List.map_append, List.map_cons] at spelled
      obtain ⟨first, rest, rfl, before, behind⟩ := List.map_eq_append_iff.mp spelled
      obtain ⟨token, second, rfl, same, behind⟩ := List.map_eq_cons_iff.mp behind
      obtain ⟨leftExpr, leftDerived, leftTree⟩ := leftIh before
      obtain ⟨rightExpr, rightDerived, rightTree⟩ := rightIh behind
      obtain ⟨level, member⟩ := exists_level known
      have kind : token.kind = operator := kind_of_placeless same
      rw [← kind] at member
      have binary : Derives (.chain level) (first ++ token :: second)
          (.binary leftExpr token rightExpr) :=
        .binary member (leftDerived.loosen (Symbol.rank_le_six _))
          (rightDerived.loosen (Symbol.rank_le_six _))
      refine ⟨_, binary.loosen level.rank_pos, ?_⟩
      rw [Expr.ungrouped, Expr.mapTokens, same, leftTree, rightTree, Formula.tree]
  | @parentheses enclosed formula _ _ ih =>
      rw [Spelled, List.cons_append, List.map_cons, List.map_append] at spelled
      obtain ⟨left, rest, rfl, opening, behind⟩ := List.map_eq_cons_iff.mp spelled
      obtain ⟨inner, last, rfl, within, closing⟩ := List.map_eq_append_iff.mp behind
      obtain ⟨right, rfl, ending⟩ := List.map_eq_singleton_iff.mp closing
      obtain ⟨expr, derived, tree⟩ := ih within
      refine ⟨.grouping expr, ?_, tree⟩
      have loose : Derives Grammar.expression inner expr := derived.loosen (Symbol.rank_pos _)
      exact .grouping (kind_of_placeless opening) loose (kind_of_placeless ending)

/-- A token that stands at a place is the lexeme there. -/
theorem placeless_of_stands {before text : List Char} {kind : Token.Kind} {token : Token}
    (h : Stands ⟨before, .token kind text⟩ token)
    : token.placeless = tokenOf kind text 0 := by
  obtain ⟨rfl, -⟩ := Piece.token.inj h.kind
  have lexeme : token.lexeme = .string (String.ofList text) := h.lexeme
  have literal : token.literal = literalOf token.kind text := h.literal.eq_literalOf
  rw [Token.placeless, lexeme, literal]
  rfl

/-- The tokens of a scan are the lexemes that they stand for. -/
theorem spelled_of_stands {before : List Char} {all : List Written} {cut : List Token}
    (stand : List.Forall₂ Stands (lexemePlaces before all) cut)
    : Spelled cut (all.map fun written => (written.kind, written.lexeme)) := by
  induction all generalizing before cut with
  | nil =>
      cases stand
      rfl
  | cons written rest ih =>
      cases stand with
      | cons first later =>
          rw [Spelled, List.map_cons, placeless_of_stands first, ih later]
          rfl

/-- Every formula can be spelled, with as many parentheses as one likes around any part of it. The
text is a program of one expression, which without its groupings is the tree of the formula. Without
its groupings, any expression has the value that it has with them, or fails as it does with them,
and leaves the same trace.
-/
theorem parentheses_express_every_formula
    : (∀ formula : Formula,
        (∃ text, Spells formula text)
        ∧ ∀ text, Spells formula text →
          ∃ expr, (ofString (String.ofList text)).program = .ok [.expression expr]
            ∧ expr.ungrouped.mapTokens .placeless = formula.tree)
      ∧ ∀ (expr : Expr) (level : Nat), expr.ungrouped.evaluate level = expr.evaluate level := by
  refine ⟨fun formula => ⟨?_, ?_⟩, fun expr level => expr.evaluate_ungrouped level⟩
  · obtain ⟨lexemes, writes⟩ := exists_writes formula
    exact ⟨_, writes.spells⟩
  · rintro text ⟨writes, start, spaced⟩
    obtain ⟨cut, line, stand, scanned⟩ := spaced.terminated start
    obtain ⟨expr, derived, tree⟩ := writes.derives (spelled_of_stands stand)
    exact ⟨expr, program_of_expression scanned (derived.loosen (Symbol.rank_pos _)), tree⟩

/-- Parentheses around two operands, and more of them around a leaf and around an operand. -/
theorem parentheses_express_product
    : let one := Formula.leaf (.whole ['1'] ⟨by decide, by simp [Digit]⟩)
      let left := Formula.unary .minus (by decide) one
      let right := Formula.binary one .minus (by decide) (.leaf .nil)
      let formula := Formula.binary left .star (by decide) right
      ∃ text, String.ofList text = "( - ( 1 ) ) * ( ( 1 - nil ) ) ;"
        ∧ Spells formula text
        ∧ ∃ expr, (ofString (String.ofList text)).program = .ok [.expression expr]
          ∧ expr.ungrouped.mapTokens .placeless = formula.tree := by
  intro one left right formula
  have before : Writes true left _ := .parentheses (.unary (.parentheses .leaf))
  have behind : Writes true right _ := .parentheses (.parentheses (.binary .leaf .leaf))
  have writes : Writes false formula _ := .binary before behind
  have spells := writes.spells
  exact ⟨_, rfl, spells, (parentheses_express_every_formula.1 formula).2 _ spells⟩

end Source

end Lox
