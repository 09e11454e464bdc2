import Lox.Parse.Program
import Lox.Scan

/-! Diagnostics: what the user is told about an error.
Errors in the text of a program name a line and, where a token does not fit, that token. Errors of a
running program name a line after the message.
-/

namespace Lox

/-- An error as it is told to the user, by the place that it names. -/
inductive Diagnostic where
  | lexical (line : Int) (message : Text)
  | syntactic (token : Token) (message : Text)
  | runtime (token : Token) (message : Text)

namespace Diagnostic

def ofLexical (error : LexicalError) : Diagnostic :=
  .lexical error.line error.fault.message

def ofSyntactic (error : SyntaxError) : Diagnostic :=
  .syntactic error.token error.expected.message

/-- Where a token stands, as the user sees it. -/
def place (token : Token) : Text :=
  if token.kind = .endOfInput then " at end"
  else " at '" ++ token.lexeme.bare ++ "'"

/-- The text of a diagnostic, with the end of its last line. -/
def text : Diagnostic → Text
  | .lexical line message => "[line " ++ toString line ++ "] Error: " ++ message ++ "\n"
  | .syntactic token message =>
      "[line " ++ toString token.line ++ "] Error" ++ place token ++ ": " ++ message ++ "\n"
  | .runtime token message => message ++ "\n[line " ++ toString token.line ++ "]\n"

/-- The text of several diagnostics. -/
def textOf (diagnostics : List Diagnostic) : Text :=
  Text.join (diagnostics.map text)

end Diagnostic

end Lox
