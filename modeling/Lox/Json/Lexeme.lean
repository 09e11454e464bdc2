import Lox.Datum.Basic
import Lox.Number.Text
import Lox.Text.Numeral

/-! The lexemes of JSON text.
A text falls into brackets, separators, strings and the literals of other data. A lexeme is placed
by the text that begins with it. Lexemes that are not well-formed have their place as well,
because what is wrong with them matters only where such a lexeme may stand at all.
-/

namespace Lox.Json

/-- What can be wrong with JSON text. -/
inductive Fault where
  | value
  | comma
  | colon
  | fieldName
  | unterminatedString
  | controlCharacter
  | escape
  | unicodeEscape
  | extraData
  | byteOrderMark
  | tooLong (digits : Nat)
deriving DecidableEq

def Fault.message : Fault → String
  | .value => "Expecting value"
  | .comma => "Expecting ',' delimiter"
  | .colon => "Expecting ':' delimiter"
  | .fieldName => "Expecting property name enclosed in double quotes"
  | .unterminatedString => "Unterminated string starting at"
  | .controlCharacter => "Invalid control character at"
  | .escape => "Invalid \\escape"
  | .unicodeEscape => "Invalid \\uXXXX escape"
  | .extraData => "Extra data"
  | .byteOrderMark => "Unexpected UTF-8 BOM (decode using utf-8-sig)"
  | .tooLong digits => Text.tooLongText (": value has " ++ toString digits ++ " digits")

inductive Lexeme where
  | openBrace
  | closeBrace
  | openBracket
  | closeBracket
  | comma
  | colon
  | string (content : Text)
  | literal (value : Datum)
  /-- An integer with too many digits. -/
  | overlong (digits : Nat)
  /-- A string with a fault; the text from the fault on tells its place. -/
  | broken (fault : Fault) (place : List Char)
  /-- A character that begins no other lexeme. -/
  | stray
  | finish

/-- A lexeme with the text that begins with it. -/
structure Placed where
  lexeme : Lexeme
  place : List Char

def isBlank (c : Char) : Bool :=
  c = ' ' || c = '\t' || c = '\n' || c = '\r'

-----------------------------------------------------------------------------------------
-- Strings
-----------------------------------------------------------------------------------------

def hexValue? (c : Char) : Option Nat :=
  if c.isDigit then some (c.toNat - '0'.toNat)
  else if 'a' ≤ c ∧ c ≤ 'f' then some (c.toNat - 'a'.toNat + 10)
  else if 'A' ≤ c ∧ c ≤ 'F' then some (c.toNat - 'A'.toNat + 10)
  else none

/-- The number that the first four characters write in hexadecimal. The text goes on after them, for
a string cannot end there.
-/
def hexUnit? : List Char → Option Nat
  | a :: b :: c :: d :: _ :: _ => do
      return 4096 * (← hexValue? a) + 256 * (← hexValue? b) + 16 * (← hexValue? c) + (← hexValue? d)
  | _ => none

/-- The second half of a character that is written as two units. -/
def lowSurrogate? : List Char → Option Nat
  | '\\' :: 'u' :: rest => (hexUnit? rest).filter fun unit => 0xDC00 ≤ unit && unit < 0xE000
  | _ => none

/-- The code point that a unit writes by itself: half of a character is a surrogate. -/
def unitPoint (unit : Nat) : CodePoint :=
  if isHalf : 0xD800 ≤ unit ∧ unit < 0xE000 then .surrogate ⟨unit, isHalf⟩
  else .scalar (.ofNat unit)

/-- The code point that one or two units write, with the number of characters that write it. Two
halves make a character only if they stand next to each other and in their order.
-/
def unitsPoint (unit : Nat) (rest : List Char) : CodePoint × Nat :=
  let second :=
    if 0xD800 ≤ unit ∧ unit < 0xDC00 then lowSurrogate? (rest.drop 4) else none
  match second with
  | some low => (.scalar (.ofNat (0x10000 + (unit - 0xD800) * 0x400 + (low - 0xDC00))), 11)
  | none => (unitPoint unit, 5)

/-- The code point that an escape writes, with the number of characters after the backslash that
belong to it.
-/
def unescape : List Char → Except Fault (CodePoint × Nat)
  | [] => .error .unterminatedString
  | '"' :: _ => .ok (.scalar '"', 1)
  | '\\' :: _ => .ok (.scalar '\\', 1)
  | '/' :: _ => .ok (.scalar '/', 1)
  | 'b' :: _ => .ok (.scalar '\x08', 1)
  | 'f' :: _ => .ok (.scalar '\x0c', 1)
  | 'n' :: _ => .ok (.scalar '\n', 1)
  | 'r' :: _ => .ok (.scalar '\r', 1)
  | 't' :: _ => .ok (.scalar '\t', 1)
  | 'u' :: rest =>
      match hexUnit? rest with
      | some unit => .ok (unitsPoint unit rest)
      | none => .error .unicodeEscape
  | _ => .error .escape

/-- The rest of a string: its content and the text after it, or a fault and its place. -/
inductive StringEnd where
  | closed (content : List CodePoint) (after : List Char)
  | broken (fault : Fault) (place : List Char)

/-- One more code point in front of the content. -/
def StringEnd.cons (point : CodePoint) : StringEnd → StringEnd
  | .closed content after => .closed (point :: content) after
  | .broken fault place => .broken fault place

/-- Reads a string from behind its opening quote; `start` is the text from that quote on. -/
def readString (start : List Char) : List Char → StringEnd
  | [] => .broken .unterminatedString start
  | c :: rest =>
      if c = '"' then .closed [] rest
      else if c = '\\' then
        match unescape rest with
        | .ok (escaped, count) => (readString start (rest.drop count)).cons escaped
        | .error .unterminatedString => .broken .unterminatedString start
        | .error .unicodeEscape => .broken .unicodeEscape rest
        | .error fault => .broken fault (c :: rest)
      else if c.toNat < 32 then .broken .controlCharacter (c :: rest)
      else (readString start rest).cons (.scalar c)
termination_by text => text.length
decreasing_by
  all_goals simp only [List.length_drop, List.length_cons]; omega

-----------------------------------------------------------------------------------------
-- Numbers and other literals
-----------------------------------------------------------------------------------------

/-- The digits of a whole number without a sign; a zero in front stands by itself. -/
def cutWhole? : List Char → Option (List Char × List Char)
  | '0' :: rest => some (['0'], rest)
  | c :: rest =>
      if c.isDigit then some (c :: rest.takeWhile Char.isDigit, rest.dropWhile Char.isDigit)
      else none
  | [] => none

/-- The digits after a point, if there are any. -/
def cutFraction? : List Char → Option (List Char × List Char)
  | '.' :: digit :: rest =>
      if digit.isDigit then
        some (digit :: rest.takeWhile Char.isDigit, rest.dropWhile Char.isDigit)
      else none
  | _ => none

/-- The digits of a power of ten, if there are any. -/
def cutPowerDigits? (negative : Bool) : List Char → Option (Int × List Char)
  | digit :: rest =>
      if digit.isDigit then
        let size : Int := Nat.ofDigitChars 10 (digit :: rest.takeWhile Char.isDigit) 0
        some (if negative then -size else size, rest.dropWhile Char.isDigit)
      else none
  | [] => none

/-- A power of ten with its mark and its sign. -/
def cutPower? : List Char → Option (Int × List Char)
  | mark :: rest =>
      if mark = 'e' ∨ mark = 'E' then
        match rest with
        | '-' :: digits => cutPowerDigits? true digits
        | '+' :: digits => cutPowerDigits? false digits
        | digits => cutPowerDigits? false digits
      else none
  | [] => none

/-- The literal that the parts of a number make: an integer only if there is no other part, and then
only up to so many digits.
-/
def numberOf (negative : Bool) (whole : List Char) (fraction : Option (List Char))
    (power : Option Int)
    : Lexeme :=
  match fraction, power with
  | none, none =>
      let size : Int := Nat.ofDigitChars 10 whole 0
      if Text.maxDigits < whole.length then .overlong whole.length
      else .literal (.integer (if negative then -size else size))
  | _, _ =>
      let mantissa := Decimal.ofDigits whole (fraction.getD [])
      let size := Decimal.toFloat { mantissa with exponent := mantissa.exponent + power.getD 0 }
      .literal (.number (if negative then -size else size))

/-- A number without its sign. -/
def cutUnsigned? (negative : Bool) (text : List Char) : Option (Lexeme × List Char) :=
  match cutWhole? text with
  | none => none
  | some (whole, rest) =>
      let fraction := cutFraction? rest
      let rest := (fraction.map Prod.snd).getD rest
      let power := cutPower? rest
      let rest := (power.map Prod.snd).getD rest
      some (numberOf negative whole (fraction.map Prod.fst) (power.map Prod.fst), rest)

/-- A number. -/
def cutNumber? : List Char → Option (Lexeme × List Char)
  | '-' :: rest => cutUnsigned? true rest
  | text => cutUnsigned? false text

/-- The literals that are words. -/
def words : List (List Char × Datum) :=
  [("null".toList, .nil), ("true".toList, .boolean true), ("false".toList, .boolean false),
    ("NaN".toList, .number (0.0 / 0.0)), ("Infinity".toList, .number (1.0 / 0.0)),
    ("-Infinity".toList, .number (-1.0 / 0.0))]

/-- A literal that is a word. -/
def cutWord? (text : List Char) : Option (Lexeme × List Char) :=
  (words.find? fun word => word.1.isPrefixOf text).map fun word =>
    (.literal word.2, text.drop word.1.length)

-----------------------------------------------------------------------------------------
-- The lexemes of a text
-----------------------------------------------------------------------------------------

/-- The first lexeme of the text `c :: rest`, which begins with no blank, and the text after it. -/
def cut (c : Char) (rest : List Char) : Lexeme × List Char :=
  match c with
  | '\x7b' => (.openBrace, rest)
  | '\x7d' => (.closeBrace, rest)
  | '[' => (.openBracket, rest)
  | ']' => (.closeBracket, rest)
  | ',' => (.comma, rest)
  | ':' => (.colon, rest)
  | '"' =>
      match readString (c :: rest) rest with
      | .closed content after => (.string ⟨content⟩, after)
      | .broken fault place => (.broken fault place, rest)
  | _ =>
      match (cutWord? (c :: rest)).or (cutNumber? (c :: rest)) with
      | some found => found
      | none => (.stray, rest)

end Lox.Json
