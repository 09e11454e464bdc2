import Lox.Lexicon

/-! Scanning: from the pieces of a source text to its tokens.
Blanks and comments only move the line count on. Stray characters and unclosed strings become errors
and leave no token, so that a scan always reaches the end of its text.
-/

namespace Lox

/-- What makes a piece no part of a program. -/
inductive LexicalFault where
  | unexpectedCharacter
  | unterminatedString
deriving DecidableEq

def LexicalFault.message : LexicalFault → String
  | .unexpectedCharacter => "Unexpected character."
  | .unterminatedString => "Unterminated string."

structure LexicalError where
  line : Nat
  fault : LexicalFault
deriving DecidableEq

/-- The outcome of a scan. The tokens end with the end of the input. -/
structure Scan where
  tokens : List Token
  errors : List LexicalError

namespace Scan

/-- The number that digits write, with or without a point among them. -/
def numberOf (text : List Char) : Float :=
  (Decimal.ofDigits (text.takeWhile (· != '.')) ((text.dropWhile (· != '.')).drop 1)).toFloat

/-- The literal of a token that was cut from a text. -/
def literalOf (kind : Token.Kind) (text : List Char) : Datum :=
  match kind with
  | .number => .number (numberOf text)
  | .string => .string (String.ofList (text.drop 1).dropLast)
  | _ => .nil

/-- The token that a text makes on a line. -/
def tokenOf (kind : Token.Kind) (text : List Char) (line : Nat) : Token :=
  { kind, lexeme := .string (String.ofList text), literal := literalOf kind text, line }

/-- The token after all others. -/
def endToken (line : Nat) : Token :=
  tokenOf .endOfInput [] line

/-- The number of line feeds in a text. -/
def lineFeeds (text : List Char) : Nat :=
  text.count '\n'

/-- The scan of pieces, the first of which begins on the given line. A token and a stray character
belong to the line where they begin, an unclosed string to the line where the text ends.
-/
def ofPieces (line : Nat) : List Piece → Scan
  | [] => ⟨[endToken line], []⟩
  | piece :: rest =>
      let after := ofPieces (line + lineFeeds piece.text) rest
      match piece with
      | .token kind text => { after with tokens := tokenOf kind text line :: after.tokens }
      | .blank _ | .comment _ => after
      | .unclosed text =>
          { after with
            errors := ⟨line + lineFeeds text, .unterminatedString⟩ :: after.errors }
      | .stray _ => { after with errors := ⟨line, .unexpectedCharacter⟩ :: after.errors }

/-- The scan of characters, the first of which is on line 1. -/
def ofList (text : List Char) : Scan :=
  ofPieces 1 (Lexicon.pieces text)

/-- The scan of a source text. -/
def ofSource (source : String) : Scan :=
  ofList source.toList

end Scan

end Lox
