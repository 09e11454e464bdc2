import Lox.Token

/-! The lexicon: how a source text falls into pieces.
Every text falls into pieces that are never empty and together are the whole text. A piece is a
token, a run of blanks, a comment, a string that is never closed, or a single stray character.
-/

namespace Lox

/-- A piece of source text. -/
inductive Piece where
  | token (kind : Token.Kind) (text : List Char)
  | blank (text : List Char)
  | comment (text : List Char)
  /-- A quote that no other quote closes, with all the text after it. -/
  | unclosed (text : List Char)
  /-- A character that begins no other piece. -/
  | stray (c : Char)
deriving DecidableEq

/-- The source text of a piece. -/
def Piece.text : Piece → List Char
  | .token _ text | .blank text | .comment text | .unclosed text => text
  | .stray c => [c]

namespace Lexicon

-----------------------------------------------------------------------------------------
-- Classes of characters
-----------------------------------------------------------------------------------------

def isBlank (c : Char) : Bool :=
  c = ' ' || c = '\t' || c = '\r' || c = '\n'

def startsWord (c : Char) : Bool :=
  c.isAlpha || c = '_'

def continuesWord (c : Char) : Bool :=
  c.isAlphanum || c = '_'

/-- The kind of a character that is a token by itself. -/
def punctuation? : Char → Option Token.Kind
  | '(' => some .leftParen
  | ')' => some .rightParen
  | '{' => some .leftBrace
  | '}' => some .rightBrace
  | ',' => some .comma
  | '.' => some .dot
  | '-' => some .minus
  | '+' => some .plus
  | ';' => some .semicolon
  | '*' => some .star
  | _ => none

/-- The kinds of a character alone and of the same character before an equals sign. -/
def comparison? : Char → Option (Token.Kind × Token.Kind)
  | '!' => some (.bang, .bangEqual)
  | '=' => some (.equal, .equalEqual)
  | '>' => some (.greater, .greaterEqual)
  | '<' => some (.less, .lessEqual)
  | _ => none

-----------------------------------------------------------------------------------------
-- The first piece of a text, and the text after it
-----------------------------------------------------------------------------------------

/-- Blanks, after a first one. -/
def cutBlank (c : Char) (rest : List Char) : Piece × List Char :=
  (.blank (c :: rest.takeWhile isBlank), rest.dropWhile isBlank)

/-- A word, after its first character. -/
def cutWord (c : Char) (rest : List Char) : Piece × List Char :=
  let word := c :: rest.takeWhile continuesWord
  (.token (.ofWord (String.ofList word)) word, rest.dropWhile continuesWord)

/-- A number, after the digits before its point. The point belongs to it only if a digit follows. -/
def cutFraction (whole : List Char) : List Char → Piece × List Char
  | '.' :: digit :: more =>
      if digit.isDigit then
        (.token .number (whole ++ '.' :: digit :: more.takeWhile Char.isDigit),
          more.dropWhile Char.isDigit)
      else (.token .number whole, '.' :: digit :: more)
  | after => (.token .number whole, after)

/-- A number, after its first digit. -/
def cutNumber (c : Char) (rest : List Char) : Piece × List Char :=
  cutFraction (c :: rest.takeWhile Char.isDigit) (rest.dropWhile Char.isDigit)

/-- A string, after its opening quote and its content; a quote follows or the text is over. -/
def closeString (content : List Char) : List Char → Piece × List Char
  | quote :: after => (.token .string ('"' :: content ++ [quote]), after)
  | [] => (.unclosed ('"' :: content), [])

/-- A string, after its opening quote. It may go over several lines. -/
def cutString (rest : List Char) : Piece × List Char :=
  closeString (rest.takeWhile (· != '"')) (rest.dropWhile (· != '"'))

/-- A comment up to the end of its line, or a slash. -/
def cutSlash (rest : List Char) : Piece × List Char :=
  match rest with
  | '/' :: more =>
      (.comment ('/' :: '/' :: more.takeWhile (· != '\n')), more.dropWhile (· != '\n'))
  | _ => (.token .slash ['/'], rest)

/-- A token of one character, or of that character and an equals sign. -/
def cutComparison (c : Char) (alone withEqual : Token.Kind) (rest : List Char)
    : Piece × List Char :=
  match rest with
  | '=' :: more => (.token withEqual [c, '='], more)
  | _ => (.token alone [c], rest)

/-- A token of one character, or a stray character. -/
def cutPunctuation (c : Char) (rest : List Char) : Piece × List Char :=
  match punctuation? c with
  | some kind => (.token kind [c], rest)
  | none => (.stray c, rest)

/-- The first piece of the text `c :: rest`, and the text after it. -/
def cut (c : Char) (rest : List Char) : Piece × List Char :=
  if isBlank c then cutBlank c rest
  else if startsWord c then cutWord c rest
  else if c.isDigit then cutNumber c rest
  else if c = '"' then cutString rest
  else if c = '/' then cutSlash rest
  else
    match comparison? c with
    | some (alone, withEqual) => cutComparison c alone withEqual rest
    | none => cutPunctuation c rest

theorem cutFraction_append (whole after : List Char)
    : (cutFraction whole after).1.text ++ (cutFraction whole after).2 = whole ++ after := by
  unfold cutFraction
  split
  · split <;> simp [Piece.text]
  · rfl

theorem closeString_append (content after : List Char)
    : (closeString content after).1.text ++ (closeString content after).2
      = '"' :: content ++ after := by
  cases after <;> simp [closeString, Piece.text]

/-- The first piece and the text after it make up the text. -/
theorem cut_append (c : Char) (rest : List Char)
    : (cut c rest).1.text ++ (cut c rest).2 = c :: rest := by
  unfold cut
  split
  · simp [cutBlank, Piece.text]
  split
  · simp [cutWord, Piece.text]
  split
  · simp [cutNumber, cutFraction_append]
  split
  · simp_all [cutString, closeString_append]
  split
  · unfold cutSlash
    split <;> simp_all [Piece.text]
  split
  · unfold cutComparison
    split <;> simp [Piece.text]
  · unfold cutPunctuation
    split <;> simp [Piece.text]

theorem cutFraction_text_ne_nil {whole : List Char} (after : List Char) (h : whole ≠ [])
    : (cutFraction whole after).1.text ≠ [] := by
  unfold cutFraction
  split
  · split <;> simp [Piece.text, h]
  · exact h

/-- A first piece is never empty. -/
theorem cut_text_ne_nil (c : Char) (rest : List Char) : (cut c rest).1.text ≠ [] := by
  unfold cut
  split
  · simp [cutBlank, Piece.text]
  split
  · simp [cutWord, Piece.text]
  split
  · exact cutFraction_text_ne_nil _ (by simp)
  split
  · unfold cutString closeString
    split <;> simp [Piece.text]
  split
  · unfold cutSlash
    split <;> simp [Piece.text]
  split
  · unfold cutComparison
    split <;> simp [Piece.text]
  · unfold cutPunctuation
    split <;> simp [Piece.text]

/-- The text after a first piece is shorter than the whole. -/
theorem length_cut_lt (c : Char) (rest : List Char) : (cut c rest).2.length < rest.length + 1 := by
  have total := congrArg List.length (cut_append c rest)
  have piece := List.length_pos_iff.mpr (cut_text_ne_nil c rest)
  simp only [List.length_append, List.length_cons] at total
  omega

/-- The pieces of a text, from its beginning to its end. -/
def pieces : List Char → List Piece
  | [] => []
  | c :: rest => (cut c rest).1 :: pieces (cut c rest).2
termination_by text => text.length
decreasing_by exact length_cut_lt c rest

end Lexicon

end Lox
