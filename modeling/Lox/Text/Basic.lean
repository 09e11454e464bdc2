/-! Texts.
A text is a sequence of code points. Nearly all of them are characters; the others are surrogates,
halves of characters that stand by themselves and that no encoding of a text has a place for. The
texts of people have characters only, and so have all sources, but a document can name a surrogate.
-/

namespace Lox

/-- Half of a character. -/
structure Surrogate where
  code : Nat
  isHalf : 0xD800 ≤ code ∧ code < 0xE000
deriving DecidableEq

/-- A character or a surrogate. -/
inductive CodePoint where
  | scalar (c : Char)
  | surrogate (half : Surrogate)
deriving DecidableEq

namespace CodePoint

def isScalar : CodePoint → Bool
  | .scalar _ => true
  | .surrogate _ => false

def char? : CodePoint → Option Char
  | .scalar c => some c
  | .surrogate _ => none

end CodePoint

/-- A text. -/
@[ext]
structure Text where
  points : List CodePoint
deriving DecidableEq

namespace Text

/-- A text of characters. -/
@[coe]
def ofString (text : String) : Text :=
  ⟨text.toList.map .scalar⟩

instance : Coe String Text := ⟨ofString⟩

instance : Append Text := ⟨fun first second => ⟨first.points ++ second.points⟩⟩

/-- One text after another. -/
def join (texts : List Text) : Text :=
  ⟨texts.flatMap points⟩

/-- The characters of a text, without its surrogates. -/
def characters (text : Text) : List Char :=
  text.points.filterMap CodePoint.char?

/-- The characters of a text as a string. -/
def string (text : Text) : String :=
  String.ofList text.characters

/-- The text has no surrogates. -/
def isEncodable (text : Text) : Bool :=
  text.points.all CodePoint.isScalar

variable {first second text : Text}

-----------------------------------------------------------------------------------------
-- Parts of texts
-----------------------------------------------------------------------------------------

@[simp]
theorem points_append : (first ++ second).points = first.points ++ second.points := rfl

@[simp]
theorem points_ofString (text : String) : (text : Text).points = text.toList.map .scalar := rfl

@[simp]
theorem append_empty (text : Text) : text ++ ("" : String) = text :=
  Text.ext (List.append_nil _)

theorem append_assoc (first second third : Text)
    : first ++ second ++ third = first ++ (second ++ third) :=
  Text.ext (List.append_assoc _ _ _)

@[simp]
theorem append_eq_empty_iff
    : first ++ second = ("" : String) ↔ first = ("" : String) ∧ second = ("" : String) := by
  simp [Text.ext_iff]

@[simp]
theorem join_nil : join [] = "" := rfl

@[simp]
theorem join_cons (text : Text) (rest : List Text) : join (text :: rest) = text ++ join rest := rfl

@[simp]
theorem join_append (texts others : List Text)
    : join (texts ++ others) = join texts ++ join others :=
  Text.ext List.flatMap_append

-----------------------------------------------------------------------------------------
-- Characters
-----------------------------------------------------------------------------------------

@[simp, norm_cast]
theorem ofString_append (first second : String)
    : ((first ++ second : String) : Text) = (first : Text) ++ (second : Text) := by
  ext1
  simp

@[simp]
theorem characters_ofString (text : String) : (text : Text).characters = text.toList := by
  rw [characters, points_ofString, List.filterMap_map]
  exact List.filterMap_some

@[simp]
theorem characters_append : (first ++ second).characters = first.characters ++ second.characters :=
  List.filterMap_append

@[simp]
theorem string_ofString (text : String) : (text : Text).string = text := by
  rw [string, characters_ofString, String.ofList_toList]

@[simp, norm_cast]
theorem ofString_inj {first second : String} : (first : Text) = second ↔ first = second := by
  refine ⟨fun same => ?_, congrArg ofString⟩
  rw [← string_ofString first, same, string_ofString]

@[simp]
theorem isEncodable_ofString (text : String) : (text : Text).isEncodable = true := by
  simp [isEncodable, CodePoint.isScalar]

@[simp]
theorem isEncodable_append
    : (first ++ second).isEncodable = (first.isEncodable && second.isEncodable) :=
  List.all_append

@[simp]
theorem isEncodable_join (texts : List Text)
    : (join texts).isEncodable = texts.all isEncodable := by
  induction texts with
  | nil => rfl
  | cons text rest ih => rw [join_cons, isEncodable_append, ih, List.all_cons]

/-- A text without surrogates has its characters and nothing else. -/
theorem map_characters (encodable : text.isEncodable = true)
    : text.characters.map .scalar = text.points := by
  obtain ⟨points⟩ := text
  rw [characters]
  induction points with
  | nil => rfl
  | cons point rest ih =>
      obtain ⟨scalar, others⟩ := Bool.and_eq_true_iff.mp encodable
      cases point with
      | scalar c => exact congrArg (CodePoint.scalar c :: ·) (ih others)
      | surrogate => cases scalar

/-- A text without surrogates is a string. -/
theorem ofString_string (encodable : text.isEncodable = true) : text.string = text := by
  ext1
  rw [points_ofString, string, String.toList_ofList, map_characters encodable]

end Text

end Lox
