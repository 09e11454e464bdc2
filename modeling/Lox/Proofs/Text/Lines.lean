import Lox.Text.Newlines
import Mathlib.Data.List.Basic

/-! The lines of a text that is read from outside.
A line ends at a line feed or at a carriage return, and a line feed right after a carriage return
belongs to the same end. The lines are thereby fixed, and no character that ends a line is in one.
-/

namespace Lox.Text

/-- No character of the line ends a line. -/
structure Unbroken (line : List Char) : Prop where
  feed : '\n' ∉ line
  carriage : '\r' ∉ line

/-- The end of a line, in front of the rest of a text. -/
inductive LineEnd : List Char → List Char → Prop where
  | feed (rest : List Char)
      : LineEnd ['\n'] rest
  | both (rest : List Char)
      : LineEnd ['\r', '\n'] rest
  | carriage {rest : List Char}
      (alone : rest.head? ≠ some '\n')
      : LineEnd ['\r'] rest

/-- The text is made of the lines, of which the last need not have an end. -/
inductive Splits : List Char → List (List Char) → Prop where
  | nil : Splits [] []
  | last {line : List Char}
      (some : line ≠ [])
      (unbroken : Unbroken line)
      : Splits line [line]
  | next {line ending rest : List Char} {lines : List (List Char)}
      (unbroken : Unbroken line)
      (ends : LineEnd ending rest)
      (later : Splits rest lines)
      : Splits (line ++ ending ++ rest) (line :: lines)

-----------------------------------------------------------------------------------------
-- Reading lines
-----------------------------------------------------------------------------------------

theorem unifyNewlines_cons {c : Char} (h : c ≠ '\r') (rest : List Char)
    : unifyNewlines (c :: rest) = c :: unifyNewlines rest := by
  rw [unifyNewlines, if_neg h]
  intro _ carriage
  exact (h carriage).elim

theorem unifyNewlines_append {line : List Char} (unbroken : '\r' ∉ line) (rest : List Char)
    : unifyNewlines (line ++ rest) = line ++ unifyNewlines rest := by
  induction line with
  | nil => rfl
  | cons c line ih =>
      obtain ⟨other, later⟩ := List.ne_and_not_mem_of_not_mem_cons unbroken
      rw [List.cons_append, unifyNewlines_cons other.symm, ih later, List.cons_append]

theorem unifyNewlines_of_notMem {text : List Char} (h : '\r' ∉ text)
    : unifyNewlines text = text := by
  simpa [unifyNewlines] using unifyNewlines_append h []

/-- However a line ends, it ends with a line feed inside the program. -/
theorem LineEnd.unifyNewlines {ending rest : List Char} (ends : LineEnd ending rest)
    : unifyNewlines (ending ++ rest) = '\n' :: Text.unifyNewlines rest := by
  cases ends with
  | feed => exact unifyNewlines_cons (by decide) rest
  | both => rfl
  | carriage alone =>
      rw [List.singleton_append, Text.unifyNewlines, if_pos rfl]
      rintro more -
      rintro rfl
      exact alone rfl

theorem linesFrom_append (before : List Char) {line : List Char} (unbroken : '\n' ∉ line)
    (rest : List Char)
    : linesFrom before (line ++ rest) = linesFrom (line.reverse ++ before) rest := by
  induction line generalizing before with
  | nil => rfl
  | cons c line ih =>
      obtain ⟨other, later⟩ := List.ne_and_not_mem_of_not_mem_cons unbroken
      rw [List.cons_append, linesFrom, if_neg other.symm, ih _ later, List.reverse_cons,
        List.append_assoc]
      rfl

/-- The lines are those that are read, by induction on the lines. -/
theorem Splits.lines_eq {text : List Char} {lines : List (List Char)} (h : Splits text lines)
    : Text.lines (unifyNewlines text) = lines := by
  induction h with
  | nil => rfl
  | @last line some unbroken =>
      have whole := linesFrom_append [] unbroken.feed []
      rw [List.append_nil, List.append_nil] at whole
      rw [unifyNewlines_of_notMem unbroken.carriage, Text.lines, whole, linesFrom,
        List.reverse_reverse, if_neg (by simpa using some)]
  | @next line ending rest lines unbroken ends _ ih =>
      rw [List.append_assoc, unifyNewlines_append unbroken.carriage, ends.unifyNewlines, Text.lines,
        linesFrom_append [] unbroken.feed, List.append_nil, linesFrom, if_pos rfl,
        List.reverse_reverse]
      exact congrArg (List.cons line) ih

-----------------------------------------------------------------------------------------
-- Every text has lines
-----------------------------------------------------------------------------------------

/-- A text is one line, or begins with a line and its end. -/
theorem exists_first_line (text : List Char)
    : Unbroken text
      ∨ ∃ line ending rest,
          text = line ++ ending ++ rest ∧ Unbroken line ∧ LineEnd ending rest := by
  induction text with
  | nil => exact .inl ⟨by simp, by simp⟩
  | cons c text ih =>
      by_cases feed : c = '\n'
      · subst feed
        exact .inr ⟨[], _, text, rfl, ⟨by simp, by simp⟩, .feed text⟩
      by_cases carriage : c = '\r'
      · subst carriage
        -- A line feed right behind the carriage return belongs to the same end.
        by_cases both : text.head? = some '\n'
        · obtain ⟨rest, rfl⟩ := List.head?_eq_some_iff.mp both
          exact .inr ⟨[], _, rest, rfl, ⟨by simp, by simp⟩, .both rest⟩
        · exact .inr ⟨[], _, text, rfl, ⟨by simp, by simp⟩, .carriage both⟩
      have longer {line : List Char} (unbroken : Unbroken line) : Unbroken (c :: line) :=
        ⟨List.not_mem_cons_of_ne_of_not_mem (Ne.symm feed) unbroken.feed,
          List.not_mem_cons_of_ne_of_not_mem (Ne.symm carriage) unbroken.carriage⟩
      rcases ih with whole | ⟨line, ending, rest, rfl, unbroken, ends⟩
      · exact .inl (longer whole)
      · exact .inr ⟨c :: line, ending, rest, rfl, longer unbroken, ends⟩

theorem LineEnd.ne_nil {ending rest : List Char} (ends : LineEnd ending rest) : ending ≠ [] := by
  cases ends <;> simp

/-- Every text is made of lines, by recursion on what is behind the first one. -/
theorem exists_splits (text : List Char) : ∃ lines, Splits text lines := by
  rcases exists_first_line text with whole | ⟨line, ending, rest, same, unbroken, ends⟩
  · by_cases empty : text = []
    · subst empty
      exact ⟨[], .nil⟩
    · exact ⟨[text], .last empty whole⟩
  · have shorter : rest.length < text.length := by
      have some := List.length_pos_iff.mpr ends.ne_nil
      simp only [same, List.length_append]
      omega
    obtain ⟨lines, later⟩ := exists_splits rest
    subst same
    exact ⟨line :: lines, .next unbroken ends later⟩
termination_by text.length

/-- A text is made of exactly the lines that are read from it. -/
theorem splits_iff {text : List Char} {lines : List (List Char)}
    : Splits text lines ↔ lines = Text.lines (unifyNewlines text) := by
  constructor
  · exact fun h => h.lines_eq.symm
  · rintro rfl
    obtain ⟨lines, h⟩ := exists_splits text
    exact h.lines_eq.symm ▸ h

/-- No line of a text has a line feed in it, by induction on the lines. -/
theorem Splits.feed_notMem {text : List Char} {lines : List (List Char)} (h : Splits text lines)
    : ∀ line ∈ lines, '\n' ∉ line := by
  induction h with
  | nil => simp
  | last _ unbroken =>
      intro other member
      exact List.mem_singleton.mp member ▸ unbroken.feed
  | next unbroken _ _ ih => exact List.forall_mem_cons.mpr ⟨unbroken.feed, ih⟩

end Lox.Text
