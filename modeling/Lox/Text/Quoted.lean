import Lox.Text.Basic
import Lox.Text.Printable

/-! Text between quotes on one line.
Single quotes are preferred; double quotes serve a text that has single quotes and no double ones.
Inside, the chosen quote and the backslash are escaped, and so is every code point without a visible
form.
-/

namespace Lox

namespace Text

/-- The hexadecimal digits of `n`, with zeros in front up to the width. -/
def hexDigits (width n : Nat) : List Char :=
  let digits := Nat.toDigits 16 n
  List.replicate (width - digits.length) '0' ++ digits

end Text

/-- A surrogate by its number. -/
def Surrogate.escaped (half : Surrogate) : List Char :=
  '\\' :: 'u' :: Text.hexDigits 4 half.code

namespace Text

/-- A code point as it stands between the given quotes. -/
def escaped (mark : Char) : CodePoint → List Char
  | .surrogate half => half.escaped
  | .scalar c =>
      if c = mark ∨ c = '\\' then ['\\', c]
      else if c = '\n' then ['\\', 'n']
      else if c = '\r' then ['\\', 'r']
      else if c = '\t' then ['\\', 't']
      else if isPrintable c then [c]
      else if c.toNat < 0x100 then '\\' :: 'x' :: hexDigits 2 c.toNat
      else if c.toNat < 0x10000 then '\\' :: 'u' :: hexDigits 4 c.toNat
      else '\\' :: 'U' :: hexDigits 8 c.toNat

/-- The quotes for a text. -/
def quoteMark (text : Text) : Char :=
  if text.points.contains (.scalar '\'') && !text.points.contains (.scalar '"') then '"' else '\''

/-- The text between its quotes. -/
def quoted (text : Text) : List Char :=
  let mark := text.quoteMark
  mark :: text.points.flatMap (escaped mark) ++ [mark]

/-- The text between its quotes, as a string. -/
def quote (text : Text) : String :=
  String.ofList text.quoted

end Text

end Lox
