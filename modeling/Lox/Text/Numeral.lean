/-! Whole numbers as people write them in text.
A numeral may be surrounded by blanks, may carry a sign, may use the decimal digits of any script
and may separate digits by single underscores. Texts of integers are limited in length, both ways.
-/

namespace Lox.Text

/-- The zeros of the scripts with decimal digits; nine more digits follow each (Unicode 14). -/
def scriptZeros : List Nat :=
  [0x30, 0x660, 0x6F0, 0x7C0, 0x966, 0x9E6, 0xA66, 0xAE6, 0xB66, 0xBE6, 0xC66, 0xCE6, 0xD66,
    0xDE6, 0xE50, 0xED0, 0xF20, 0x1040, 0x1090, 0x17E0, 0x1810, 0x1946, 0x19D0, 0x1A80, 0x1A90,
    0x1B50, 0x1BB0, 0x1C40, 0x1C50, 0xA620, 0xA8D0, 0xA900, 0xA9D0, 0xA9F0, 0xAA50, 0xABF0,
    0xFF10, 0x104A0, 0x10D30, 0x11066, 0x110F0, 0x11136, 0x111D0, 0x112F0, 0x11450, 0x114D0,
    0x11650, 0x116C0, 0x11730, 0x118E0, 0x11950, 0x11C50, 0x11D50, 0x11DA0, 0x16A60, 0x16AC0,
    0x16B50, 0x1D7CE, 0x1D7D8, 0x1D7E2, 0x1D7EC, 0x1D7F6, 0x1E140, 0x1E2F0, 0x1E950, 0x1FBF0]

/-- The value of a decimal digit of any script. -/
def digitValue? (c : Char) : Option Nat :=
  (scriptZeros.find? fun start => start ≤ c.toNat && c.toNat ≤ start + 9).map (c.toNat - ·)

/-- Blanks that may surround a numeral: spaces and line breaks of any script. -/
def isSpacing (c : Char) : Bool :=
  let n := c.toNat
  9 ≤ n && n ≤ 13 || n = 0x20 || n = 0x85 || n = 0xA0 || n = 0x1680
    || 0x2000 ≤ n && n ≤ 0x200A || n = 0x2028 || n = 0x2029 || n = 0x202F || n = 0x205F
    || n = 0x3000

/-- The text without the blanks at its two ends. -/
def stripSpacing (text : List Char) : List Char :=
  ((text.dropWhile isSpacing).reverse.dropWhile isSpacing).reverse

/-- The number that digits, each but the first after at most one underscore, write behind `value`.
-/
def digitsFrom? (value : Nat) : List Char → Option Nat
  | [] => some value
  | '_' :: c :: rest => do digitsFrom? (10 * value + (← digitValue? c)) rest
  | c :: rest => do digitsFrom? (10 * value + (← digitValue? c)) rest

/-- The number that unsigned digits write; there is at least one, and a digit comes first. -/
def natural? : List Char → Option Nat
  | [] => none
  | c :: rest => do digitsFrom? (← digitValue? c) rest

/-- The most digits that an integer may have in a text. -/
def maxDigits : Nat := 4300

/-- The integer has a text. -/
def isShort (n : Int) : Bool :=
  (Nat.toDigits 10 n.natAbs).length ≤ maxDigits

/-- Why a text gives no integer. -/
inductive NumeralError where
  | unreadable
  | tooLong (digits : Nat)
deriving DecidableEq

/-- The text of an error about too many digits. -/
def tooLongText (count : String) : String :=
  "Exceeds the limit (" ++ toString maxDigits ++ " digits) for integer string conversion" ++ count
    ++ "; use sys.set_int_max_str_digits() to increase the limit"

/-- The number that a text without blanks and signs writes. Its digits are counted before anything
that follows them is looked at.
-/
def unsigned (text : List Char) : Except NumeralError Nat :=
  let digits := text.takeWhile fun c => (digitValue? c).isSome || c = '_'
  let count := digits.countP (· ≠ '_')
  match natural? digits with
  | none => .error .unreadable
  | some n =>
      if maxDigits < count then .error (.tooLong count)
      else if digits.length < text.length then .error .unreadable
      else .ok n

/-- The whole number that a numeral writes. -/
def integer (text : List Char) : Except NumeralError Int :=
  match stripSpacing text with
  | '-' :: digits => (unsigned digits).map fun size => -Int.ofNat size
  | '+' :: digits => (unsigned digits).map Int.ofNat
  | digits => (unsigned digits).map Int.ofNat

end Lox.Text
