import Lox.Text.Quoted

/-! Texts on their way out.
Streams are encoded. Most refuse a text with a surrogate, and tell which one it is and where it
stands; the stream for errors shows surrogates by number instead.
-/

namespace Lox.Text

/-- Surrogates that keep a text from being encoded: the first of them, where it stands and how many
stand there together.
-/
structure EncodeError where
  first : Surrogate
  position : Nat
  length : Nat
deriving DecidableEq

def EncodeError.message (error : EncodeError) : String :=
  let place :=
    if error.length = 1 then
      "character '" ++ String.ofList error.first.escaped ++ "' in position "
        ++ toString error.position
    else
      "characters in position " ++ toString error.position ++ "-"
        ++ toString (error.position + error.length - 1)
  "'utf-8' codec can't encode " ++ place ++ ": surrogates not allowed"

/-- Why the text cannot be encoded, unless it can. -/
def encodeError? (text : Text) : Option EncodeError :=
  match text.points.dropWhile CodePoint.isScalar with
  | .surrogate first :: rest =>
      some
        { first
          position := (text.points.takeWhile CodePoint.isScalar).length
          length := (rest.takeWhile (!·.isScalar)).length + 1 }
  | _ => none

/-- A code point where surrogates are shown by number. -/
def shown : CodePoint → List Char
  | .scalar c => [c]
  | .surrogate half => half.escaped

/-- The text with its surrogates shown by number. -/
def spelled (text : Text) : String :=
  String.ofList (text.points.flatMap shown)

/-- A text is encoded unless it has surrogates. -/
theorem encodeError_eq_none_iff {text : Text}
    : text.encodeError? = none ↔ text.isEncodable = true := by
  obtain ⟨points⟩ := text
  rw [encodeError?, isEncodable]
  induction points with
  | nil => exact iff_of_true rfl rfl
  | cons point rest ih =>
      cases point with
      | scalar c =>
          rw [List.all_cons, CodePoint.isScalar, Bool.true_and, ← ih]
          dsimp only
          rw [List.dropWhile_cons_of_pos rfl]
          split <;> simp
      | surrogate half => simp [CodePoint.isScalar, List.dropWhile]

/-- Nothing is shown by number if there are no surrogates. -/
@[simp]
theorem spelled_ofString (text : String) : (text : Text).spelled = text := by
  rw [spelled, points_ofString, List.flatMap_map]
  exact (congrArg String.ofList (List.flatMap_singleton' _)).trans String.ofList_toList

/-- A text without surrogates is shown as it is. -/
theorem ofString_spelled {text : Text} (encodable : text.isEncodable = true)
    : (text.spelled : Text) = text := by
  rw [← ofString_string encodable, spelled_ofString]

end Lox.Text
