import Lox.Diagnostic

/-! From a source text to a program.
A text is a program when it has no lexical error and its tokens have no syntax error. All errors of
both sorts are reported; the failure itself carries only the syntax errors when there are any.
-/

namespace Lox

/-- A source text after scanning and parsing. -/
structure Source where
  scan : Scan
  parse : Parse

namespace Source

def ofString (text : String) : Source :=
  let scan := Scan.ofSource text
  { scan, parse := Parse.ofTokens scan.tokens }

/-- Everything that is reported about the text: lexical errors first. -/
def diagnostics (source : Source) : List Diagnostic :=
  source.scan.errors.map .ofLexical ++ source.parse.errors.map .ofSyntactic

/-- Why a text is no program. -/
inductive Failure where
  | parse (failure : Parse.Failure)
  | scan (errors : List LexicalError)

def Failure.message : Failure → String
  | .parse failure => failure.message
  | .scan errors => toString errors.length ++ " lexical error(s)"

/-- The program that the text is. -/
def program (source : Source) : Except Failure (List Stmt) :=
  match source.parse.program with
  | .error failure => .error (.parse failure)
  | .ok statements =>
      if source.scan.errors.isEmpty then .ok statements
      else .error (.scan source.scan.errors)

end Source

end Lox
