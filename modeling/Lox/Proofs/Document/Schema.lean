import Lox.Proofs.Document.Loaded

/-! The schema of documents.
Nothing here tells in which order a document is read, or which of its faults is found first. A
document that keeps to the schema mirrors one program, node by node, and that program is loaded;
every other document is refused.
-/

namespace Lox.Document

namespace Schema

/-- The integer has a double near it, so that it is no overflow. -/
def InRange (n : Int) : Prop :=
  (Float.ofInt n).isInf = false

/-- Anything but an integer that is out of range. -/
def Admitted (d : Datum) : Prop :=
  ∀ n, d = .integer n → InRange n

/-- What a literal may hold. -/
inductive Value : Datum → Prop where
  | nil
      : Value .nil
  | boolean (truth : Bool)
      : Value (.boolean truth)
  | string (text : Text)
      : Value (.string text)
  | number (x : Float)
      : Value (.number x)
  | integer {n : Int}
      (inRange : InRange n)
      : Value (.integer n)

/-- An object that describes an operator. -/
inductive Operator : Datum → Prop where
  | intro {fields : List (Text × Datum)} {kind : Token.Kind} {lexeme line : Datum} {n : Int}
      (kindField : fields.lookup ↑"kind" = some (.string kind.name))
      (lexemeField : fields.lookup ↑"lexeme" = some lexeme)
      (literal : ∀ d, fields.lookup ↑"literal" = some d → Admitted d)
      (lineField : fields.lookup ↑"line" = some line)
      (numeric : lineOf line = .ok n)
      : Operator (.object fields)

/-- An object that describes an expression. -/
inductive Expression : Datum → Prop where
  | binary {fields : List (Text × Datum)} {left operator right : Datum}
      (type : fields.lookup ↑"type" = some (.string "Binary"))
      (leftField : fields.lookup ↑"left" = some left)
      (leftOperand : Expression left)
      (operatorField : fields.lookup ↑"operator" = some operator)
      (token : Operator operator)
      (rightField : fields.lookup ↑"right" = some right)
      (rightOperand : Expression right)
      : Expression (.object fields)
  | grouping {fields : List (Text × Datum)} {inner : Datum}
      (type : fields.lookup ↑"type" = some (.string "Grouping"))
      (field : fields.lookup ↑"inner" = some inner)
      (expression : Expression inner)
      : Expression (.object fields)
  | unary {fields : List (Text × Datum)} {operator operand : Datum}
      (type : fields.lookup ↑"type" = some (.string "Unary"))
      (operatorField : fields.lookup ↑"operator" = some operator)
      (token : Operator operator)
      (field : fields.lookup ↑"operand" = some operand)
      (expression : Expression operand)
      : Expression (.object fields)
  | literal {fields : List (Text × Datum)}
      (type : fields.lookup ↑"type" = some (.string "Literal"))
      (value : ∀ d, fields.lookup ↑"value" = some d → Value d)
      : Expression (.object fields)

/-- An object that describes a statement. -/
inductive Statement : Datum → Prop where
  | print {fields : List (Text × Datum)} {expr : Datum}
      (type : fields.lookup ↑"type" = some (.string "PrintStmt"))
      (field : fields.lookup ↑"expr" = some expr)
      (expression : Expression expr)
      : Statement (.object fields)
  | expression {fields : List (Text × Datum)} {expr : Datum}
      (type : fields.lookup ↑"type" = some (.string "ExprStmt"))
      (field : fields.lookup ↑"expr" = some expr)
      (expression : Expression expr)
      : Statement (.object fields)

/-- An object that describes a program. -/
inductive Program : Datum → Prop where
  | intro {fields : List (Text × Datum)} {items : List Datum}
      (type : fields.lookup ↑"type" = some (.string "Program"))
      (body : fields.lookup ↑"body" = some (.list items))
      (statements : ∀ item ∈ items, Statement item)
      : Program (.object fields)

end Schema

/-- What a datum is taken for: an integer for the double near it, everything else for itself. -/
inductive Stands : Datum → Datum → Prop where
  | integer {n : Int}
      (inRange : Schema.InRange n)
      : Stands (.integer n) (.number (Float.ofInt n))
  | other {d : Datum}
      (kind : d.kind ≠ .integer)
      : Stands d d

namespace Mirrors

/-- The object describes the token. A literal that is missing is nil. -/
inductive Operator : Datum → Token → Prop where
  | intro {fields : List (Text × Datum)} {token : Token} {line : Datum}
      (kind : fields.lookup ↑"kind" = some (.string token.kind.name))
      (lexeme : fields.lookup ↑"lexeme" = some token.lexeme)
      (literal : Stands ((fields.lookup ↑"literal").getD .nil) token.literal)
      (lineField : fields.lookup ↑"line" = some line)
      (numeric : lineOf line = .ok token.line)
      : Operator (.object fields) token

/-- The object describes the expression. -/
inductive Expression : Datum → Expr → Prop where
  | binary {fields : List (Text × Datum)} {first named second : Datum} {left right : Expr}
      {operator : Token}
      (type : fields.lookup ↑"type" = some (.string "Binary"))
      (leftField : fields.lookup ↑"left" = some first)
      (leftOperand : Expression first left)
      (operatorField : fields.lookup ↑"operator" = some named)
      (token : Operator named operator)
      (rightField : fields.lookup ↑"right" = some second)
      (rightOperand : Expression second right)
      : Expression (.object fields) (.binary left operator right)
  | grouping {fields : List (Text × Datum)} {content : Datum} {inner : Expr}
      (type : fields.lookup ↑"type" = some (.string "Grouping"))
      (field : fields.lookup ↑"inner" = some content)
      (expression : Expression content inner)
      : Expression (.object fields) (.grouping inner)
  | unary {fields : List (Text × Datum)} {named content : Datum} {operator : Token}
      {operand : Expr}
      (type : fields.lookup ↑"type" = some (.string "Unary"))
      (operatorField : fields.lookup ↑"operator" = some named)
      (token : Operator named operator)
      (field : fields.lookup ↑"operand" = some content)
      (expression : Expression content operand)
      : Expression (.object fields) (.unary operator operand)
  | literal {fields : List (Text × Datum)} {value : Datum}
      (type : fields.lookup ↑"type" = some (.string "Literal"))
      (stands : Stands ((fields.lookup ↑"value").getD .nil) value)
      (isValue : value.isValue = true)
      : Expression (.object fields) (.literal value)

/-- The object describes the statement. -/
inductive Statement : Datum → Stmt → Prop where
  | print {fields : List (Text × Datum)} {content : Datum} {expr : Expr}
      (type : fields.lookup ↑"type" = some (.string "PrintStmt"))
      (field : fields.lookup ↑"expr" = some content)
      (expression : Expression content expr)
      : Statement (.object fields) (.print expr)
  | expression {fields : List (Text × Datum)} {content : Datum} {expr : Expr}
      (type : fields.lookup ↑"type" = some (.string "ExprStmt"))
      (field : fields.lookup ↑"expr" = some content)
      (expression : Expression content expr)
      : Statement (.object fields) (.expression expr)

/-- The object describes the program, statement by statement. -/
inductive Program : Datum → List Stmt → Prop where
  | intro {fields : List (Text × Datum)} {items : List Datum} {statements : List Stmt}
      (type : fields.lookup ↑"type" = some (.string "Program"))
      (body : fields.lookup ↑"body" = some (.list items))
      (each : List.Forall₂ Statement items statements)
      : Program (.object fields) statements

end Mirrors

variable {fields : List (Text × Datum)} {d value : Datum}

-----------------------------------------------------------------------------------------
-- Names, numbers and tokens
-----------------------------------------------------------------------------------------

/-- A part that may be missing is a string only if it is there. -/
theorem lookup_of_optionalPart {name text : Text}
    (h : optionalPart fields name = .string text)
    : fields.lookup name = some (.string text) := by
  unfold optionalPart at h
  cases found : fields.lookup name with
  | none =>
      rw [found] at h
      cases h
  | some content =>
      rw [found] at h
      exact congrArg some h

theorem loadType_eq_ok_iff (type : NodeType)
    : loadType fields = .ok type ↔ fields.lookup ↑"type" = some (.string type.name) := by
  constructor
  · intro h
    unfold loadType at h
    split at h
    case h_1 name part =>
      split at h
      case h_1 known named =>
        cases h
        have same := List.find?_some named
        obtain rfl := eq_of_beq same
        exact lookup_of_optionalPart part
      case h_2 => cases h
    case h_2 => cases h
  · intro h
    have part : optionalPart fields "type" = .string type.name := by simp [optionalPart, h]
    simp only [loadType, part, ofName_name]

theorem loadKind_eq_ok_iff {kind : Token.Kind}
    : loadKind d = .ok kind ↔ d = .string kind.name := by
  constructor
  · intro h
    unfold loadKind at h
    split at h
    case h_1 name =>
      split at h
      case h_1 known named =>
        cases h
        have same := List.find?_some named
        obtain rfl := eq_of_beq same
        rfl
      case h_2 => cases h
    all_goals cases h
  · rintro rfl
    simp only [loadKind, kind_ofName_name]

theorem ofInteger_eq_some_iff {n : Int} {x : Float}
    : Number.ofInteger? n = some x ↔ Schema.InRange n ∧ Float.ofInt n = x := by
  rw [Number.ofInteger?, Schema.InRange]
  split
  case isTrue infinite => simp [infinite]
  case isFalse finite => simp [finite]

theorem withNumber_eq_ok_iff : withNumber d = .ok value ↔ Stands d value := by
  constructor
  · intro h
    cases d with
    | integer n =>
        simp only [withNumber] at h
        split at h
        case h_1 x near =>
          cases h
          obtain ⟨inRange, rfl⟩ := ofInteger_eq_some_iff.mp near
          exact .integer inRange
        case h_2 => cases h
    | nil | boolean | number | string | list | object =>
        cases h
        exact .other Datum.Kind.noConfusion
  · intro h
    cases h with
    | integer inRange => simp only [withNumber, ofInteger_eq_some_iff.mpr ⟨inRange, rfl⟩]
    | other kind => exact withNumber_of_kind kind

theorem loadLiteral_eq_ok_iff
    : loadLiteral d = .ok value ↔ Stands d value ∧ value.isValue = true := by
  rw [loadLiteral, bind_eq_ok]
  constructor
  · rintro ⟨found, stands, checked⟩
    split at checked
    case isTrue isValue =>
      cases checked
      exact ⟨withNumber_eq_ok_iff.mp stands, isValue⟩
    case isFalse => cases checked
  · rintro ⟨stands, isValue⟩
    exact ⟨value, withNumber_eq_ok_iff.mpr stands, by rw [if_pos isValue]⟩

theorem loadLine_eq_ok_iff {n : Int} : loadLine d = .ok n ↔ lineOf d = .ok n := by
  unfold loadLine
  cases lineOf d <;> simp [Except.mapError]

theorem loadToken_eq_ok_iff {token : Token}
    : loadToken d = .ok token ↔ Mirrors.Operator d token := by
  constructor
  · intro h
    cases d with
    | object fields =>
        simp only [loadToken, bind_eq_ok] at h
        obtain ⟨_, kind, _, named, _, lexeme, _, literal, _, line, _, numeric, same⟩ := h
        cases same
        exact .intro (loadKind_eq_ok_iff.mp named ▸ part_eq_ok kind) (part_eq_ok lexeme)
          (withNumber_eq_ok_iff.mp literal) (part_eq_ok line) (loadLine_eq_ok_iff.mp numeric)
    | nil | boolean | number | string | integer | list => cases h
  · intro h
    cases h with
    | intro kind lexeme literal lineField numeric =>
        rw [loadToken]
        refine (part_bind kind _).trans ?_
        simp only [loadKind_eq_ok_iff.mpr rfl, ok_bind]
        refine (part_bind lexeme _).trans ?_
        simp only [withNumber_eq_ok_iff.mpr literal, optionalPart, ok_bind]
        refine (part_bind lineField _).trans ?_
        simp only [loadLine_eq_ok_iff.mpr numeric, ok_bind]
        rfl

-----------------------------------------------------------------------------------------
-- Nodes
-----------------------------------------------------------------------------------------

/-- An expression that is loaded is the one that the document mirrors, by induction on it. -/
theorem mirrors_of_load {expr : Expr} (h : load d = .ok (.expression expr))
    : Mirrors.Expression d expr := by
  induction expr generalizing d with
  | binary left operator right leftIh rightIh =>
      obtain ⟨fields, type, rfl, typed, made⟩ := made_of_load h
      have named := (loadType_eq_ok_iff type).mp typed
      cases made with
      | binary firstPart first operatorPart token secondPart second =>
          exact .binary named firstPart (leftIh first) operatorPart (loadToken_eq_ok_iff.mp token)
            secondPart (rightIh second)
  | grouping inner ih =>
      obtain ⟨fields, type, rfl, typed, made⟩ := made_of_load h
      have named := (loadType_eq_ok_iff type).mp typed
      cases made with
      | grouping part loaded => exact .grouping named part (ih loaded)
  | literal value =>
      obtain ⟨fields, type, rfl, typed, made⟩ := made_of_load h
      have named := (loadType_eq_ok_iff type).mp typed
      cases made with
      | literal loaded =>
          obtain ⟨stands, isValue⟩ := loadLiteral_eq_ok_iff.mp loaded
          exact .literal named stands isValue
  | unary operator operand ih =>
      obtain ⟨fields, type, rfl, typed, made⟩ := made_of_load h
      have named := (loadType_eq_ok_iff type).mp typed
      cases made with
      | unary operatorPart token part loaded =>
          exact .unary named operatorPart (loadToken_eq_ok_iff.mp token) part (ih loaded)

/-- The expression that a document mirrors is loaded, by induction on the mirroring. -/
theorem load_of_mirrors {expr : Expr} (h : Mirrors.Expression d expr)
    : load d = .ok (.expression expr) := by
  induction h with
  | binary type leftField _ operatorField token rightField _ leftIh rightIh =>
      exact load_of_made ((loadType_eq_ok_iff .binary).mpr type)
        (.binary leftField leftIh operatorField (loadToken_eq_ok_iff.mpr token) rightField rightIh)
  | grouping type field _ ih =>
      exact load_of_made ((loadType_eq_ok_iff .grouping).mpr type) (.grouping field ih)
  | unary type operatorField token field _ ih =>
      exact load_of_made ((loadType_eq_ok_iff .unary).mpr type)
        (.unary operatorField (loadToken_eq_ok_iff.mpr token) field ih)
  | literal type stands isValue =>
      exact load_of_made ((loadType_eq_ok_iff .literal).mpr type)
        (.literal (loadLiteral_eq_ok_iff.mpr ⟨stands, isValue⟩))

theorem load_eq_statement_iff {stmt : Stmt}
    : load d = .ok (.statement stmt) ↔ Mirrors.Statement d stmt := by
  constructor
  · intro h
    obtain ⟨fields, type, rfl, typed, made⟩ := made_of_load h
    have named := (loadType_eq_ok_iff type).mp typed
    cases made with
    | printStatement part loaded => exact .print named part (mirrors_of_load loaded)
    | expressionStatement part loaded => exact .expression named part (mirrors_of_load loaded)
  · intro h
    cases h with
    | print type field expression =>
        exact load_of_made ((loadType_eq_ok_iff .printStatement).mpr type)
          (.printStatement field (load_of_mirrors expression))
    | expression type field expression =>
        exact load_of_made ((loadType_eq_ok_iff .expressionStatement).mpr type)
          (.expressionStatement field (load_of_mirrors expression))

theorem loadStatements_of_forall₂ {items : List Datum} {statements : List Stmt}
    (each : List.Forall₂ (fun item statement => load item = .ok (.statement statement))
      items statements)
    : loadStatements items = .ok statements := by
  induction each with
  | nil => rw [loadStatements]
  | cons loaded _ ih =>
      rw [loadStatements, loaded, ok_bind, ih]
      rfl

theorem loadStatements_eq_ok_iff {items : List Datum} {statements : List Stmt}
    : loadStatements items = .ok statements
      ↔ List.Forall₂ Mirrors.Statement items statements := by
  have each : (fun item statement => load item = .ok (.statement statement))
      = Mirrors.Statement := by
    funext item statement
    exact propext load_eq_statement_iff
  rw [← each]
  exact ⟨loadStatements_eq_ok, loadStatements_of_forall₂⟩

/-- The program that a document mirrors is loaded, and nothing else is. -/
theorem loadProgram_eq_ok_iff {statements : List Stmt}
    : loadProgram d = .ok statements ↔ Mirrors.Program d statements := by
  constructor
  · intro h
    unfold loadProgram at h
    split at h
    case isFalse => cases h
    case isTrue =>
      obtain ⟨node, loaded, program⟩ := bind_eq_ok.mp h
      obtain ⟨fields, type, rfl, typed, made⟩ := made_of_load loaded
      have named := (loadType_eq_ok_iff type).mp typed
      cases made with
      | program body listed =>
          cases program
          exact .intro named body (loadStatements_eq_ok_iff.mp listed)
      | token | printStatement | expressionStatement | binary | grouping | literal | unary =>
          cases program
  · intro h
    cases h with
    | intro type body each =>
        have typed := (loadType_eq_ok_iff .program).mpr type
        have loaded := load_of_made typed (.program body (loadStatements_eq_ok_iff.mpr each))
        rw [loadProgram, isProgram, typed, if_pos (decide_eq_true rfl), loaded]
        rfl

-----------------------------------------------------------------------------------------
-- Schema
-----------------------------------------------------------------------------------------

/-- All data but the integers that are out of range are taken for something. -/
theorem Schema.admitted_iff : Schema.Admitted d ↔ ∃ value, Stands d value := by
  constructor
  · intro h
    cases d with
    | integer n => exact ⟨_, .integer (h n rfl)⟩
    | nil | boolean | number | string | list | object => exact ⟨_, .other Datum.Kind.noConfusion⟩
  · rintro ⟨value, stands⟩ n rfl
    cases stands with
    | integer inRange => exact inRange
    | other kind => exact absurd rfl kind

theorem Schema.admitted_nil : Schema.Admitted .nil := by
  intro n same
  cases same

theorem Schema.value_iff : Schema.Value d ↔ ∃ value, Stands d value ∧ value.isValue = true := by
  constructor
  · intro h
    cases h with
    | integer inRange => exact ⟨_, .integer inRange, rfl⟩
    | nil | boolean | string | number => exact ⟨_, .other Datum.Kind.noConfusion, rfl⟩
  · rintro ⟨value, stands, isValue⟩
    cases stands with
    | integer inRange => exact .integer inRange
    | other kind =>
        cases d with
        | nil => exact .nil
        | boolean truth => exact .boolean truth
        | string text => exact .string text
        | number x => exact .number x
        | integer | list | object => cases isValue

/-- A part that may be missing is nil then, so that a condition that nil meets is met. -/
theorem forall_lookup_iff {P : Datum → Prop} (nil : P .nil) (name : Text)
    : (∀ d, fields.lookup name = some d → P d) ↔ P ((fields.lookup name).getD .nil) := by
  cases fields.lookup name <;> simp [nil]

theorem Schema.operator_iff : Schema.Operator d ↔ ∃ token, Mirrors.Operator d token := by
  constructor
  · rintro ⟨kind, lexeme, literal, line, numeric⟩
    obtain ⟨value, stands⟩ :=
      admitted_iff.mp ((forall_lookup_iff admitted_nil "literal").mp literal)
    exact ⟨⟨_, _, value, _⟩, .intro kind lexeme stands line numeric⟩
  · rintro ⟨token, kind, lexeme, stands, line, numeric⟩
    have literal := admitted_iff.mpr ⟨_, stands⟩
    exact .intro kind lexeme ((forall_lookup_iff admitted_nil "literal").mpr literal) line numeric

/-- The expressions of the schema are those that mirror one, by induction on either. -/
theorem Schema.expression_iff : Schema.Expression d ↔ ∃ expr, Mirrors.Expression d expr := by
  constructor
  · intro h
    induction h with
    | binary type leftField _ operatorField token rightField _ leftIh rightIh =>
        obtain ⟨left, leftMirrors⟩ := leftIh
        obtain ⟨operator, named⟩ := operator_iff.mp token
        obtain ⟨right, rightMirrors⟩ := rightIh
        exact ⟨_, .binary type leftField leftMirrors operatorField named rightField rightMirrors⟩
    | grouping type field _ ih =>
        obtain ⟨inner, mirrors⟩ := ih
        exact ⟨_, .grouping type field mirrors⟩
    | unary type operatorField token field _ ih =>
        obtain ⟨operator, named⟩ := operator_iff.mp token
        obtain ⟨operand, mirrors⟩ := ih
        exact ⟨_, .unary type operatorField named field mirrors⟩
    | literal type value =>
        obtain ⟨value, stands, isValue⟩ :=
          value_iff.mp ((forall_lookup_iff .nil "value").mp value)
        exact ⟨_, .literal type stands isValue⟩
  · rintro ⟨expr, h⟩
    induction h with
    | binary type leftField _ operatorField token rightField _ leftIh rightIh =>
        exact .binary type leftField leftIh operatorField (operator_iff.mpr ⟨_, token⟩) rightField
          rightIh
    | grouping type field _ ih => exact .grouping type field ih
    | unary type operatorField token field _ ih =>
        exact .unary type operatorField (operator_iff.mpr ⟨_, token⟩) field ih
    | literal type stands isValue =>
        have value := value_iff.mpr ⟨_, stands, isValue⟩
        exact .literal type ((forall_lookup_iff .nil "value").mpr value)

theorem Schema.statement_iff : Schema.Statement d ↔ ∃ stmt, Mirrors.Statement d stmt := by
  constructor
  · intro h
    cases h with
    | print type field expression =>
        obtain ⟨expr, mirrors⟩ := expression_iff.mp expression
        exact ⟨_, .print type field mirrors⟩
    | expression type field expression =>
        obtain ⟨expr, mirrors⟩ := expression_iff.mp expression
        exact ⟨_, .expression type field mirrors⟩
  · rintro ⟨stmt, h⟩
    cases h with
    | print type field mirrors => exact .print type field (expression_iff.mpr ⟨_, mirrors⟩)
    | expression type field mirrors =>
        exact .expression type field (expression_iff.mpr ⟨_, mirrors⟩)

/-- Statements mirror one by one, by induction on the data. -/
theorem Schema.statements_iff {items : List Datum}
    : (∀ item ∈ items, Schema.Statement item)
      ↔ ∃ statements, List.Forall₂ Mirrors.Statement items statements := by
  constructor
  · intro h
    induction items with
    | nil => exact ⟨[], .nil⟩
    | cons item rest ih =>
        obtain ⟨first, later⟩ := List.forall_mem_cons.mp h
        obtain ⟨statement, mirrors⟩ := statement_iff.mp first
        obtain ⟨statements, others⟩ := ih later
        exact ⟨statement :: statements, .cons mirrors others⟩
  · rintro ⟨statements, each⟩
    induction each with
    | nil => exact fun _ member => nomatch member
    | cons mirrors _ ih => exact List.forall_mem_cons.mpr ⟨statement_iff.mpr ⟨_, mirrors⟩, ih⟩

theorem Schema.program_iff : Schema.Program d ↔ ∃ statements, Mirrors.Program d statements := by
  constructor
  · rintro ⟨type, body, statements⟩
    obtain ⟨statements, each⟩ := statements_iff.mp statements
    exact ⟨statements, .intro type body each⟩
  · rintro ⟨statements, type, body, each⟩
    exact .intro type body (statements_iff.mpr ⟨statements, each⟩)

/-- Exactly the documents of the schema are loaded, each as the program that it mirrors. All others
are refused.
-/
theorem loading_decides_schema
    : (∀ d, (∃ statements, loadProgram d = .ok statements) ↔ Schema.Program d)
      ∧ (∀ d, (∃ error, loadProgram d = .error error) ↔ ¬Schema.Program d)
      ∧ ∀ d statements, loadProgram d = .ok statements ↔ Mirrors.Program d statements := by
  have accepted : ∀ d, (∃ statements, loadProgram d = .ok statements) ↔ Schema.Program d := by
    intro d
    rw [Schema.program_iff]
    exact exists_congr fun statements => loadProgram_eq_ok_iff
  refine ⟨accepted, fun d => ?_, fun d statements => loadProgram_eq_ok_iff⟩
  rw [← accepted]
  cases loadProgram d <;> simp

end Lox.Document
