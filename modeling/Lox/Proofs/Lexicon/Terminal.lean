import Lox.Lexicon
import Mathlib

/-! The terminals of the lexicon, by the texts that they match.
Nothing here tells how a text is cut. Several terminals may match at one place, and one terminal may
match texts of several lengths there.
-/

namespace Lox

namespace Lexicon

/-- The text of a kind whose tokens all have the same text, where that is no word. -/
def symbol? : Token.Kind → Option (List Char)
  | .leftParen => some ['(']
  | .rightParen => some [')']
  | .leftBrace => some ['{']
  | .rightBrace => some ['}']
  | .comma => some [',']
  | .dot => some ['.']
  | .minus => some ['-']
  | .plus => some ['+']
  | .semicolon => some [';']
  | .slash => some ['/']
  | .star => some ['*']
  | .bang => some ['!']
  | .bangEqual => some ['!', '=']
  | .equal => some ['=']
  | .equalEqual => some ['=', '=']
  | .greater => some ['>']
  | .greaterEqual => some ['>', '=']
  | .less => some ['<']
  | .lessEqual => some ['<', '=']
  | _ => none

/-- The word that is reserved for a kind. -/
def reserved? : Token.Kind → Option String
  | .andKeyword => some "and"
  | .classKeyword => some "class"
  | .elseKeyword => some "else"
  | .falseKeyword => some "false"
  | .funKeyword => some "fun"
  | .forKeyword => some "for"
  | .ifKeyword => some "if"
  | .nilKeyword => some "nil"
  | .orKeyword => some "or"
  | .printKeyword => some "print"
  | .returnKeyword => some "return"
  | .superKeyword => some "super"
  | .thisKeyword => some "this"
  | .trueKeyword => some "true"
  | .varKeyword => some "var"
  | .whileKeyword => some "while"
  | _ => none

def Letter (c : Char) : Prop :=
  'A' ≤ c ∧ c ≤ 'Z' ∨ 'a' ≤ c ∧ c ≤ 'z' ∨ c = '_'

def Digit (c : Char) : Prop :=
  '0' ≤ c ∧ c ≤ '9'

def Blank (c : Char) : Prop :=
  c = ' ' ∨ c = '\t' ∨ c = '\r' ∨ c = '\n'

def Word (text : List Char) : Prop :=
  ∃ first others, text = first :: others ∧ Letter first ∧ ∀ c ∈ others, Letter c ∨ Digit c

def Digits (text : List Char) : Prop :=
  text ≠ [] ∧ ∀ c ∈ text, Digit c

/-- A terminal matches the text of the piece, and the piece is of its sort. -/
inductive Matches : Piece → Prop where
  | symbol {kind : Token.Kind} {text : List Char}
      (h : symbol? kind = some text)
      : Matches (.token kind text)
  | reserved {kind : Token.Kind} {text : List Char}
      (h : reserved? kind = some (String.ofList text))
      : Matches (.token kind text)
  | identifier {text : List Char}
      (word : Word text)
      (free : ∀ kind, reserved? kind ≠ some (String.ofList text))
      : Matches (.token .identifier text)
  | string {content : List Char}
      (closed : '"' ∉ content)
      : Matches (.token .string ('"' :: content ++ ['"']))
  | whole {digits : List Char}
      (h : Digits digits)
      : Matches (.token .number digits)
  | fraction {whole fraction : List Char}
      (before : Digits whole)
      (after : Digits fraction)
      : Matches (.token .number (whole ++ '.' :: fraction))
  | blank {text : List Char}
      (some : text ≠ [])
      (blanks : ∀ c ∈ text, Blank c)
      : Matches (.blank text)
  | comment {body : List Char}
      (line : '\n' ∉ body)
      : Matches (.comment ('/' :: '/' :: body))
  | unclosed {body : List Char}
      (never : '"' ∉ body)
      : Matches (.unclosed ('"' :: body))
  | stray {c : Char}
      (h : c ≠ '\n')
      : Matches (.stray c)

theorem isBlank_iff {c : Char} : isBlank c = true ↔ Blank c := by
  simp [isBlank, Blank, or_assoc]

theorem startsWord_iff {c : Char} : startsWord c = true ↔ Letter c := by
  simp [startsWord, Letter, Char.isAlpha, Char.isUpper, Char.isLower, Char.le_def, or_assoc]

theorem isDigit_iff {c : Char} : c.isDigit = true ↔ Digit c := by
  simp [Char.isDigit, Digit, Char.le_def]

theorem continuesWord_iff {c : Char} : continuesWord c = true ↔ Letter c ∨ Digit c := by
  rw [← startsWord_iff, ← isDigit_iff]
  simp only [continuesWord, startsWord, Char.isAlphanum, Bool.or_eq_true]
  exact or_right_comm

/-- The reserved words are words, by cases on the kind. -/
theorem word_of_reserved {kind : Token.Kind} {text : List Char}
    (h : reserved? kind = some (String.ofList text))
    : Word text := by
  have spelled : (reserved? kind).map String.toList = some text := by simp [h]
  cases kind <;> simp [reserved?] at spelled <;> subst spelled <;>
    refine ⟨_, _, rfl, ?_, ?_⟩ <;> simp [Letter, Digit]

/-- The keywords are the words that are reserved, by cases on the table and on the kind. -/
theorem lookup_keywords_iff {word : String} {kind : Token.Kind}
    : Token.Kind.keywords.lookup word = some kind ↔ reserved? kind = some word := by
  constructor
  · intro h
    have entry : (word, kind) ∈ Token.Kind.keywords := by
      obtain ⟨before, after, same, -⟩ := List.lookup_eq_some_iff.mp h
      simp [same]
    simp only [Token.Kind.keywords, List.mem_cons, Prod.mk.injEq, List.not_mem_nil, or_false]
      at entry
    rcases entry with h | h | h | h | h | h | h | h | h | h | h | h | h | h | h | h <;>
      · obtain ⟨rfl, rfl⟩ := h
        rfl
  · intro h
    cases kind <;> cases h <;> rfl

/-- A word is matched as its keyword, and as an identifier if it has none. -/
theorem matches_word {text : List Char} (h : Word text)
    : Matches (.token (.ofWord (String.ofList text)) text) := by
  unfold Token.Kind.ofWord
  cases found : Token.Kind.keywords.lookup (String.ofList text) with
  | none =>
      refine .identifier h ?_
      intro kind reserved
      rw [lookup_keywords_iff.mpr reserved] at found
      contradiction
  | some kind => exact .reserved (lookup_keywords_iff.mp found)

theorem Matches.text_ne_nil {piece : Piece} (h : Matches piece) : piece.text ≠ [] := by
  cases h with
  | @symbol kind text h =>
      rintro rfl
      cases kind <;> simp [symbol?] at h
  | reserved h =>
      obtain ⟨_, _, rfl, -, -⟩ := word_of_reserved h
      simp [Piece.text]
  | identifier word =>
      obtain ⟨_, _, rfl, -, -⟩ := word
      simp [Piece.text]
  | whole h => exact h.1
  | blank some => exact some
  | _ => simp [Piece.text]

end Lexicon

end Lox
