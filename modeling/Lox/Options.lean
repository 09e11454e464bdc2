import Lox.Text.Numeral
import Lox.Text.Quoted

/-! Options of the command line.
Options and the script may be mixed. Long options may be shortened as long as they stay unique,
short ones may be joined, and a value may be attached with an equals sign. Two dashes end the
options.
-/

namespace Lox

/-- The options that there are. -/
inductive Switch where
  | help
  | verbose
  | emit
  | execute
  | print
deriving DecidableEq

namespace Switch

/-- All spellings of options. -/
def spellings : List (String × Switch) :=
  [("-h", .help), ("--help", .help), ("-v", .verbose), ("--emit-ast", .emit), ("--ast", .execute),
    ("--print-ast", .print)]

/-- The option as messages name it. -/
def name : Switch → String
  | .help => "-h/--help"
  | .verbose => "-v"
  | .emit => "--emit-ast"
  | .execute => "--ast"
  | .print => "--print-ast"

def takesValue : Switch → Bool
  | .help | .verbose => false
  | .emit | .execute | .print => true

end Switch

/-- What can be wrong with a command line. -/
inductive UsageError where
  | ambiguous (word : String) (spellings : List String)
  | needlessValue (switch : Switch) (value : String)
  | valueMissing (switch : Switch)
  | notTogether (switch other : Switch)
  | unrecognized (words : List String)

def UsageError.message : UsageError → String
  | .ambiguous word spellings =>
      "ambiguous option: " ++ word ++ " could match " ++ ", ".intercalate spellings
  | .needlessValue switch value =>
      "argument " ++ switch.name ++ ": ignored explicit argument " ++ Text.quote value
  | .valueMissing switch => "argument " ++ switch.name ++ ": expected one argument"
  | .notTogether switch other =>
      "argument " ++ switch.name ++ ": not allowed with argument " ++ other.name
  | .unrecognized words => "unrecognized arguments: " ++ " ".intercalate words

/-- Why a command line does not lead to a run: help was asked for, or there is an error. -/
inductive Refusal where
  | help
  | error (error : UsageError)

/-- A word of a command line. -/
inductive Word where
  | plain (text : String)
  /-- The first word of two dashes; all words after it are values. -/
  | separator
  /-- An option, with the text that is attached to it in the same word. -/
  | option (switch : Switch) (long : Bool) (attached : Option String)
  | unknown (text : String)

namespace Word

/-- The text before an equals sign, and the text attached with it. -/
def splitEqual? (text : List Char) : Option (String × String) :=
  match text.dropWhile (· != '=') with
  | _ :: after => some (String.ofList (text.takeWhile (· != '=')), String.ofList after)
  | [] => none

/-- The word for a spelling of an option. -/
def ofSpelling (spelling : String) (switch : Switch) (attached : Option String) : Word :=
  .option switch (spelling.startsWith "--") attached

/-- The spellings that a word may stand for, with the value attached to it: the beginning of a long
option, or a short option with more characters behind it.
-/
def candidates (text : String) : List (String × Word) :=
  let characters := text.toList
  match characters with
  | '-' :: '-' :: _ =>
      let (start, attached) :=
        match splitEqual? characters with
        | some (start, attached) => (start, some attached)
        | none => (text, none)
      Switch.spellings.filterMap fun (spelling, switch) =>
        if spelling.startsWith start then some (spelling, ofSpelling spelling switch attached)
        else none
  | first :: second :: rest =>
      let short := String.ofList [first, second]
      Switch.spellings.filterMap fun (spelling, switch) =>
        if spelling = short then
          some (spelling, ofSpelling spelling switch (some (String.ofList rest)))
        else none
  | _ => []

/-- A negative number, which is a value although it begins with a dash. -/
def isNegativeNumber (text : List Char) : Bool :=
  let isDigit := fun c => (Text.digitValue? c).isSome
  match text with
  | '-' :: rest =>
      let rest := if rest.getLast? = some '\n' then rest.dropLast else rest
      match rest.dropWhile isDigit with
      | [] => !rest.isEmpty
      | '.' :: fraction => !fraction.isEmpty && fraction.all isDigit
      | _ => false
  | _ => false

/-- The option that a word spells in full, with or without a value attached. -/
def spelledIn? (text : String) : Option Word :=
  match Switch.spellings.lookup text with
  | some switch => some (ofSpelling text switch none)
  | none => do
      let (spelling, attached) ← splitEqual? text.toList
      let switch ← Switch.spellings.lookup spelling
      return ofSpelling spelling switch (some attached)

/-- What a text means as a word before the separator. -/
def ofString (text : String) : Except UsageError Word :=
  if !text.startsWith "-" || text = "-" then .ok (.plain text)
  else
    match spelledIn? text with
    | some word => .ok word
    | none =>
        match candidates text with
        | [(_, word)] => .ok word
        | [] =>
            if isNegativeNumber text.toList || text.contains ' ' then .ok (.plain text)
            else .ok (.unknown text)
        | several => .error (.ambiguous text (several.map Prod.fst))

/-- The words of a command line. -/
def ofStrings : List String → Except UsageError (List Word)
  | [] => .ok []
  | text :: rest =>
      if text = "--" then .ok (.separator :: rest.map .plain)
      else do return (← ofString text) :: (← ofStrings rest)

end Word

/-- What a command line asks for. -/
structure Options where
  verbosity : Nat
  /-- The option that says what to do, and its value; an empty one is as good as none. -/
  mode : Option (Switch × String)
  /-- The script, once its place among the words is taken; the place may be taken without one. -/
  script : Option (Option String)
  /-- Words that nothing could be made of. -/
  extras : List String

namespace Options

/-- The options of an empty command line. -/
def initial : Options :=
  ⟨0, none, none, []⟩

/-- Takes an option with its value. Only one option may say what to do, though more than once. -/
def takeValue (options : Options) (switch : Switch) (value : String)
    : Except Refusal Options :=
  match options.mode with
  | some (other, _) =>
      if other = switch then .ok { options with mode := some (switch, value) }
      else .error (.error (.notTogether switch other))
  | none => .ok { options with mode := some (switch, value) }

/-- Takes an option without a value. -/
def take (options : Options) : Switch → Except Refusal Options
  | .help => .error .help
  | _ => .ok { options with verbosity := options.verbosity + 1 }

/-- The options in a word of short options. Each attached character has to be one more of them, and
an empty attached text is none.
-/
def cluster (switch : Switch) : List Char → Except UsageError (List Switch)
  | [] => .error (.needlessValue switch "")
  | c :: rest =>
      match Switch.spellings.lookup (String.ofList ['-', c]), rest with
      | none, _ => .error (.needlessValue switch (String.ofList (c :: rest)))
      | some next, [] => .ok [switch, next]
      | some next, rest => do return switch :: (← cluster next rest)

/-- Takes an option that has no value, with the text attached to it. -/
def takeAttached (options : Options) (switch : Switch) (long : Bool) (attached : String)
    : Except Refusal Options :=
  if long then .error (.error (.needlessValue switch attached))
  else
    match cluster switch attached.toList with
    | .ok switches => switches.foldlM take options
    | .error error => .error (.error error)

/-- The value in an attached text. Two dashes are never a value, so that nothing is left of them. -/
def attachedValue (attached : String) : String :=
  if attached = "--" then "" else attached

/-- Takes the words after the separator: the first is the script, if there is none yet. -/
def takeLast (options : Options) (words : List String) : Options :=
  match options.script, words with
  | some _, _ => { options with extras := options.extras ++ "--" :: words }
  | none, [] => { options with script := some none }
  | none, word :: rest =>
      { options with script := some (some word), extras := options.extras ++ rest }

/-- The text of a word where all words are values. -/
def textOf : Word → String
  | .plain text | .unknown text => text
  | .separator => "--"
  | .option switch _ _ => switch.name

/-- Takes words from left to right. A separator right after the script belongs to it. -/
def takeWords (options : Options) : List Word → Except Refusal Options
  | [] => .ok options
  | .plain text :: rest =>
      match options.script with
      | some _ => { options with extras := options.extras ++ [text] }.takeWords rest
      | none =>
          let options := { options with script := some (some text) }
          match rest with
          | .separator :: values =>
              .ok { options with extras := options.extras ++ values.map textOf }
          | _ => options.takeWords rest
  | .separator :: rest => .ok (options.takeLast (rest.map textOf))
  | .unknown text :: rest => { options with extras := options.extras ++ [text] }.takeWords rest
  | .option switch long attached :: rest =>
      if switch.takesValue then
        match attached, rest with
        | some attached, rest => do
            (← options.takeValue switch (attachedValue attached)).takeWords rest
        | none, .plain value :: rest => do (← options.takeValue switch value).takeWords rest
        | none, _ => .error (.error (.valueMissing switch))
      else
        match attached with
        | some attached => do (← options.takeAttached switch long attached).takeWords rest
        | none => do (← options.take switch).takeWords rest

/-- The options of a command line. -/
def ofArguments (arguments : List String) : Except Refusal Options :=
  match Word.ofStrings arguments with
  | .error error => .error (.error error)
  | .ok words => do
      let options ← initial.takeWords words
      if options.extras.isEmpty then .ok options
      else .error (.error (.unrecognized options.extras))

end Options

-----------------------------------------------------------------------------------------
-- Texts
-----------------------------------------------------------------------------------------

/-- The summary of how the program is called. -/
def usageText : String :=
  "usage: loxlang [-h] [-v]\n"
    ++ "               [--emit-ast LOX_FILE | --ast AST_JSON_FILE | --print-ast LOX_FILE]\n"
    ++ "               [script]\n"

/-- The answer to a request for help. -/
def helpText : String :=
  usageText ++ "\nLox expression interpreter\n\npositional arguments:\n"
    ++ "  script                Lox script (.lox) to execute\n\noptions:\n"
    ++ "  -h, --help            show this help message and exit\n"
    ++ "  -v                    increase debug verbosity (can be repeated)\n"
    ++ "  --emit-ast LOX_FILE   emit AST JSON for the given .lox file\n"
    ++ "  --ast AST_JSON_FILE   execute AST from a JSON file\n"
    ++ "  --print-ast LOX_FILE  print the parsed tree of each statement\n"

/-- The answer to a command line with an error. -/
def usageErrorText (error : UsageError) : String :=
  usageText ++ "loxlang: error: " ++ error.message ++ "\n"

end Lox
