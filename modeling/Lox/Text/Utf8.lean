/-! Reading bytes as UTF-8 text.
A character takes one to four bytes. Only the shortest form of a character is accepted, and no half
of a surrogate pair. The first sequence of bytes that writes no character is the error.
-/

namespace Lox.Text.Utf8

inductive Fault where
  | start
  | continuation
  | ending
deriving DecidableEq

def Fault.message : Fault → String
  | .start => "invalid start byte"
  | .continuation => "invalid continuation byte"
  | .ending => "unexpected end of data"

/-- Bytes that write no character: the first of them, where it stands and how many they are. -/
structure Error where
  fault : Fault
  byte : UInt8
  position : Nat
  length : Nat
deriving DecidableEq

def Error.message (error : Error) : String :=
  let place :=
    if error.length = 1 then
      "byte 0x" ++ String.ofList (Nat.toDigits 16 error.byte.toNat) ++ " in position "
        ++ toString error.position
    else
      "bytes in position " ++ toString error.position ++ "-"
        ++ toString (error.position + error.length - 1)
  "'utf-8' codec can't decode " ++ place ++ ": " ++ error.fault.message

/-- What a first byte says about its character: the bits it holds itself, the number of bytes that
follow, and the range of the next of them.
-/
structure Lead where
  bits : Nat
  count : Nat
  low : Nat
  high : Nat

/-- The meaning of a first byte. The range of the second byte excludes longer forms, surrogates and
numbers beyond the last character.
-/
def lead? (byte : Nat) : Option Lead :=
  if byte < 0x80 then some ⟨byte, 0, 0x80, 0xBF⟩
  else if byte < 0xC2 then none
  else if byte < 0xE0 then some ⟨byte - 0xC0, 1, 0x80, 0xBF⟩
  else if byte = 0xE0 then some ⟨0, 2, 0xA0, 0xBF⟩
  else if byte = 0xED then some ⟨0xD, 2, 0x80, 0x9F⟩
  else if byte < 0xF0 then some ⟨byte - 0xE0, 2, 0x80, 0xBF⟩
  else if byte = 0xF0 then some ⟨0, 3, 0x90, 0xBF⟩
  else if byte < 0xF4 then some ⟨byte - 0xF0, 3, 0x80, 0xBF⟩
  else if byte = 0xF4 then some ⟨4, 3, 0x80, 0x8F⟩
  else none

/-- The number that `count` further bytes complete, or a fault and the number of bytes before it. -/
def follow (bits low high : Nat) : Nat → List UInt8 → Except (Fault × Nat) Nat
  | 0, _ => .ok bits
  | _ + 1, [] => .error (.ending, 0)
  | count + 1, byte :: rest =>
      if low ≤ byte.toNat ∧ byte.toNat ≤ high then
        (follow (64 * bits + (byte.toNat - 0x80)) 0x80 0xBF count rest).mapError
          fun (fault, before) => (fault, before + 1)
      else .error (.continuation, 0)

/-- The characters that bytes write, the first of which stands at a position. -/
def decodeFrom (position : Nat) : List UInt8 → Except Error (List Char)
  | [] => .ok []
  | byte :: rest =>
      match lead? byte.toNat with
      | none => .error ⟨.start, byte, position, 1⟩
      | some lead =>
          match follow lead.bits lead.low lead.high lead.count rest with
          | .error (fault, before) => .error ⟨fault, byte, position, before + 1⟩
          | .ok code =>
              (decodeFrom (position + lead.count + 1) (rest.drop lead.count)).map (.ofNat code :: ·)
termination_by bytes => bytes.length
decreasing_by simp only [List.length_drop, List.length_cons]; omega

/-- The characters that bytes write. -/
def decode (bytes : List UInt8) : Except Error (List Char) :=
  decodeFrom 0 bytes

/-- The bytes that write a text. -/
def encode (text : String) : List UInt8 :=
  text.toUTF8.toList

end Lox.Text.Utf8
