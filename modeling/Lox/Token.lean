import Lox.Datum.Text

/-! Tokens, the words of the language.
A token from a source text has the text it was cut from as its lexeme, and numbers and strings have
their value as their literal. Documents may give a token any lexeme and any literal.
-/

namespace Lox

/-- The kinds of tokens. -/
inductive Token.Kind where
  | leftParen
  | rightParen
  | leftBrace
  | rightBrace
  | comma
  | dot
  | minus
  | plus
  | semicolon
  | slash
  | star
  | bang
  | bangEqual
  | equal
  | equalEqual
  | greater
  | greaterEqual
  | less
  | lessEqual
  | identifier
  | string
  | number
  | andKeyword
  | classKeyword
  | elseKeyword
  | falseKeyword
  | funKeyword
  | forKeyword
  | ifKeyword
  | nilKeyword
  | orKeyword
  | printKeyword
  | returnKeyword
  | superKeyword
  | thisKeyword
  | trueKeyword
  | varKeyword
  | whileKeyword
  | endOfInput
deriving DecidableEq

namespace Token.Kind

/-- All kinds, in the order of their definition. -/
def all : List Kind :=
  [.leftParen, .rightParen, .leftBrace, .rightBrace, .comma, .dot, .minus, .plus, .semicolon,
    .slash, .star, .bang, .bangEqual, .equal, .equalEqual, .greater, .greaterEqual, .less,
    .lessEqual, .identifier, .string, .number, .andKeyword, .classKeyword, .elseKeyword,
    .falseKeyword, .funKeyword, .forKeyword, .ifKeyword, .nilKeyword, .orKeyword, .printKeyword,
    .returnKeyword, .superKeyword, .thisKeyword, .trueKeyword, .varKeyword, .whileKeyword,
    .endOfInput]

/-- The name of a kind in traces and documents. -/
def name : Kind → String
  | .leftParen => "LEFT_PAREN"
  | .rightParen => "RIGHT_PAREN"
  | .leftBrace => "LEFT_BRACE"
  | .rightBrace => "RIGHT_BRACE"
  | .comma => "COMMA"
  | .dot => "DOT"
  | .minus => "MINUS"
  | .plus => "PLUS"
  | .semicolon => "SEMICOLON"
  | .slash => "SLASH"
  | .star => "STAR"
  | .bang => "BANG"
  | .bangEqual => "BANG_EQUAL"
  | .equal => "EQUAL"
  | .equalEqual => "EQUAL_EQUAL"
  | .greater => "GREATER"
  | .greaterEqual => "GREATER_EQUAL"
  | .less => "LESS"
  | .lessEqual => "LESS_EQUAL"
  | .identifier => "IDENTIFIER"
  | .string => "STRING"
  | .number => "NUMBER"
  | .andKeyword => "AND"
  | .classKeyword => "CLASS"
  | .elseKeyword => "ELSE"
  | .falseKeyword => "FALSE"
  | .funKeyword => "FUN"
  | .forKeyword => "FOR"
  | .ifKeyword => "IF"
  | .nilKeyword => "NIL"
  | .orKeyword => "OR"
  | .printKeyword => "PRINT"
  | .returnKeyword => "RETURN"
  | .superKeyword => "SUPER"
  | .thisKeyword => "THIS"
  | .trueKeyword => "TRUE"
  | .varKeyword => "VAR"
  | .whileKeyword => "WHILE"
  | .endOfInput => "EOF"

/-- The kind that has the name. -/
def ofName? (name : Text) : Option Kind :=
  all.find? fun kind => kind.name == name

/-- The reserved words. -/
def keywords : List (String × Kind) :=
  [("and", .andKeyword), ("class", .classKeyword), ("else", .elseKeyword),
    ("false", .falseKeyword), ("fun", .funKeyword), ("for", .forKeyword), ("if", .ifKeyword),
    ("nil", .nilKeyword), ("or", .orKeyword), ("print", .printKeyword),
    ("return", .returnKeyword), ("super", .superKeyword), ("this", .thisKeyword),
    ("true", .trueKeyword), ("var", .varKeyword), ("while", .whileKeyword)]

/-- The kind of a word: a reserved one has a kind of its own, every other is an identifier. -/
def ofWord (word : String) : Kind :=
  (keywords.lookup word).getD .identifier

/-- The kinds that begin a statement or declaration. -/
def beginsStatement : Kind → Bool
  | .classKeyword | .funKeyword | .varKeyword | .forKeyword | .ifKeyword | .whileKeyword
  | .printKeyword | .returnKeyword => true
  | _ => false

end Token.Kind

/-- A word of the language and the line where it begins. -/
structure Token where
  kind : Token.Kind
  lexeme : Datum
  literal : Datum
  line : Int

namespace Token

/-- A one-line description: the kind, the lexeme and the literal. -/
def describe (token : Token) : Text :=
  token.kind.name ++ " " ++ token.lexeme.bare ++ " " ++ token.literal.inspect

end Token

end Lox
