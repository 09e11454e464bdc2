/-! Line ends in text that is read from outside.
Three conventions for the end of a line are in use; inside the program only the line feed is.
-/

namespace Lox.Text

/-- The text with every carriage return, and every carriage return with the line feed after it,
replaced by one line feed.
-/
def unifyNewlines : List Char → List Char
  | [] => []
  | '\r' :: '\n' :: rest => '\n' :: unifyNewlines rest
  | c :: rest => (if c = '\r' then '\n' else c) :: unifyNewlines rest

/-- The lines of a text that follows an unfinished line, whose characters are given in reverse. -/
def linesFrom (line : List Char) : List Char → List (List Char)
  | [] => if line.isEmpty then [] else [line.reverse]
  | c :: rest => if c = '\n' then line.reverse :: linesFrom [] rest else linesFrom (c :: line) rest

/-- The lines of a text that has line feeds only. A last line without a line feed counts unless it
is empty.
-/
def lines (text : List Char) : List (List Char) :=
  linesFrom [] text

end Lox.Text
