import Lox.CommandLine
import Mathlib

/-! What a command line with a few usual words asks for.
A word that is no option names a file. The verbosity is the number of words that ask for more of
it.
-/

namespace Lox

variable {text : String}

/-- The word is taken for the name of a file. -/
def Word.Names (text : String) : Prop :=
  Word.ofString text = .ok (.plain text) ∧ text ≠ ""

theorem Word.names_of_plain (plain : text.startsWith "-" = false) (some : text ≠ "")
    : Word.Names text := by
  refine ⟨?_, some⟩
  rw [Word.ofString, plain]
  rfl

theorem Word.Names.ne_separator (names : Word.Names text) : text ≠ "--" := by
  rintro rfl
  have ambiguous : Word.ofString "--"
      = .error (.ambiguous "--" ["--help", "--emit-ast", "--ast", "--print-ast"]) := by cbv
  rw [Names, ambiguous] at names
  cases names.1

theorem Word.ofStrings_cons {word : Word} {rest : List String} {others : List Word}
    (ordinary : text ≠ "--") (first : Word.ofString text = .ok word)
    (later : Word.ofStrings rest = .ok others)
    : Word.ofStrings (text :: rest) = .ok (word :: others) := by
  rw [ofStrings, if_neg ordinary, first, later]
  rfl

theorem Word.ofStrings_singleton (names : Word.Names text)
    : Word.ofStrings [text] = .ok [.plain text] :=
  ofStrings_cons names.ne_separator names.1 rfl

/-- Words for verbosity in front of others. -/
theorem Word.ofStrings_verbose (count : Nat) {rest : List String} {words : List Word}
    (h : Word.ofStrings rest = .ok words)
    : Word.ofStrings (List.replicate count "-v" ++ rest)
      = .ok (List.replicate count (.option .verbose false none) ++ words) := by
  have verbose : Word.ofString "-v" = .ok (.option .verbose false none) := by cbv
  induction count with
  | zero => exact h
  | succ count ih => exact ofStrings_cons (by decide) verbose ih

namespace Options

theorem takeWords_verbose (count : Nat) (options : Options) (words : List Word)
    : options.takeWords (List.replicate count (Word.option .verbose false none) ++ words)
      = { options with verbosity := options.verbosity + count }.takeWords words := by
  induction count generalizing options with
  | zero => rfl
  | succ count ih =>
      have step : options.takeWords (Word.option .verbose false none
          :: (List.replicate count (Word.option .verbose false none) ++ words))
          = { options with verbosity := options.verbosity + 1 }.takeWords
            (List.replicate count (Word.option .verbose false none) ++ words) := by
        rw [takeWords.eq_def]
        rfl
      have total : options.verbosity + 1 + count = options.verbosity + (count + 1) := by omega
      rw [List.replicate_succ, List.cons_append, step, ih, total]

theorem ofArguments_script (count : Nat) (names : Word.Names text)
    : ofArguments (List.replicate count "-v" ++ [text])
      = .ok ⟨count, none, some (some text), []⟩ := by
  have taken : initial.takeWords
      (List.replicate count (.option .verbose false none) ++ [.plain text])
      = .ok ⟨count, none, some (some text), []⟩ := by
    rw [takeWords_verbose, initial, Nat.zero_add]
    rfl
  rw [ofArguments, Word.ofStrings_verbose count (Word.ofStrings_singleton names)]
  simp only [taken]
  rfl

theorem ofArguments_document (count : Nat) (names : Word.Names text)
    : ofArguments (List.replicate count "-v" ++ ["--ast", text])
      = .ok ⟨count, some (.execute, text), none, []⟩ := by
  have execute : Word.ofString "--ast" = .ok (.option .execute true none) := by cbv
  have words := Word.ofStrings_cons (by decide) execute (Word.ofStrings_singleton names)
  have taken : initial.takeWords (List.replicate count (.option .verbose false none)
      ++ [.option .execute true none, .plain text])
      = .ok ⟨count, some (.execute, text), none, []⟩ := by
    rw [takeWords_verbose, initial, Nat.zero_add]
    rfl
  rw [ofArguments, Word.ofStrings_verbose count words]
  simp only [taken]
  rfl

theorem ofArguments_emit (names : Word.Names text)
    : ofArguments ["--emit-ast", text] = .ok ⟨0, some (.emit, text), none, []⟩ := by
  have emit : Word.ofString "--emit-ast" = .ok (.option .emit true none) := by cbv
  have words := Word.ofStrings_cons (by decide) emit (Word.ofStrings_singleton names)
  rw [ofArguments, words]
  rfl

end Options

namespace CommandLine

variable (files : Files) (input : String)

theorem call_emit (names : Word.Names text)
    : call files input ["--emit-ast", text] = emit files (.ofString text) := by
  rw [call, Options.ofArguments_emit names]
  simp [Options.command, Option.filter_some, names.2, perform]

theorem call_script (level : Nat) (names : Word.Names text)
    : call files input (List.replicate level "-v" ++ [text])
      = withTrace files level (runScript · level (.ofString text)) := by
  rw [call, Options.ofArguments_script level names]
  simp [Options.command, Option.filter_some, names.2, perform]

theorem call_document (level : Nat) (names : Word.Names text)
    : call files input (List.replicate level "-v" ++ ["--ast", text])
      = withTrace files level (execute · level (.ofString text)) := by
  rw [call, Options.ofArguments_document level names]
  simp [Options.command, Option.filter_some, names.2, perform]

end CommandLine

end Lox
