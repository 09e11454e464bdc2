import Lox.Proofs.Lexicon.Blanks

/-! Pieces with other text behind them.
A piece that is the longest match at its place stays it when text is taken away behind it. It also
stays it when a blank is put there, unless the piece goes on over the blank.
-/

namespace Lox.Lexicon

variable {piece : Piece} {text more : List Char}

/-- In its own text, a match is the longest one. -/
theorem Matches.leading (h : Matches piece) (proper : ∀ c, piece ≠ .stray c)
    : Leading piece piece.text where
  matched := h
  start := List.prefix_rfl
  longest _ _ start := start.length_le
  last c stray := absurd stray (proper c)

theorem Leading.of_prefix {shorter : List Char} (h : Leading piece text)
    (start : piece.text <+: shorter) (short : shorter <+: text)
    : Leading piece shorter where
  matched := h.matched
  start := start
  longest other matched found := h.longest other matched (found.trans short)
  last c stray other matched found := h.last c stray other matched (found.trans short)

theorem Leading.exists_cons (h : Leading piece text) : ∃ c rest, text = c :: rest := by
  refine List.exists_cons_of_ne_nil ?_
  rintro rfl
  exact h.matched.text_ne_nil (List.prefix_nil.mp h.start)

theorem Leading.append_break {stop : Char} (h : Leading piece text) (breaks : Breaks stop)
    (ends : EndsBefore stop piece) (more : List Char)
    : Leading piece (text ++ stop :: more) := by
  obtain ⟨c, rest, rfl⟩ := h.exists_cons
  obtain rfl := leading_iff.mp h
  rw [List.cons_append, leading_iff, cut_append_break breaks more ends]

theorem Leading.append_blank {blank : Char} (h : Leading piece text) (isBlank : Blank blank)
    (ends : EndsBefore blank piece) (more : List Char)
    : Leading piece (text ++ blank :: more) :=
  h.append_break isBlank.breaks ends more

/-- The pieces of a text are its leading piece and those of what is left. -/
theorem Leading.pieces_eq (h : Leading piece (piece.text ++ more))
    : pieces (piece.text ++ more) = piece :: pieces more := by
  have division : Division (piece.text ++ more) (piece :: pieces more) :=
    .cons h (division_pieces more)
  exact (division_iff.mp division).symm

/-- Behind a comment, there is a line feed or nothing. -/
theorem eq_lineFeed_of_comment {c : Char} (h : Leading (.comment text) (text ++ c :: more))
    : c = '\n' := by
  cases h.matched with
  | @comment body line =>
      by_contra different
      have inside : '\n' ∉ body ++ [c] := by simp [line, Ne.symm different]
      -- Otherwise the comment with one more character would be a longer match.
      have bound := h.longest (.comment ('/' :: '/' :: (body ++ [c]))) (.comment inside)
        ⟨more, by simp [Piece.text]⟩
      simp [Piece.text] at bound

/-- A comment ends with its line, whatever stands on the next one. -/
theorem leading_comment {body : List Char} (line : '\n' ∉ body) (more : List Char)
    : Leading (.comment ('/' :: '/' :: body)) ('/' :: '/' :: body ++ '\n' :: more) := by
  have comment : Matches (.comment ('/' :: '/' :: body)) := .comment line
  have alone := comment.leading fun _ => Piece.noConfusion
  exact alone.append_blank blank_lineFeed rfl more

end Lox.Lexicon
