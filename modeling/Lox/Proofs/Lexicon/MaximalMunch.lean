import Lox.Proofs.Lexicon.Terminal
import Mathlib.Data.List.TakeWhile

/-! A text is cut where its longest match ends.
The cut looks at one or two characters and then at a run of characters of one class, in a fixed
order. Whatever a terminal matches at the same place lies within that cut.
-/

namespace Lox

namespace Lexicon

/-- A beginning of a text that stays in a class is a beginning of the run of that class. -/
theorem prefix_takeWhile {p : Char → Bool} {head text : List Char}
    (start : head <+: text)
    (inside : ∀ c ∈ head, p c = true)
    : head <+: text.takeWhile p := by
  obtain ⟨after, rfl⟩ := start
  rw [List.takeWhile_append_of_pos inside]
  exact List.prefix_append _ _

/-- A character and the run of its class after it are of that class. -/
theorem forall_run {p : Char → Bool} {c : Char} {rest : List Char} (first : p c = true)
    : ∀ d ∈ c :: rest.takeWhile p, p d = true :=
  List.forall_mem_cons.mpr ⟨first, fun _ member => List.mem_takeWhile_imp member⟩

theorem forall_bne {stop : Char} {text : List Char} (h : stop ∉ text)
    : ∀ c ∈ text, (c != stop) = true := by
  intro c member
  exact bne_iff_ne.mpr (ne_of_mem_of_not_mem member h)

/-- A match that is no stray character begins the first piece, and is that piece if it is as long.
-/
def Within (piece first : Piece) : Prop :=
  piece.text <+: first.text ∧ (piece.text = first.text → piece = first)

theorem Within.refl (piece : Piece) : Within piece piece :=
  ⟨List.prefix_rfl, fun _ => rfl⟩

-----------------------------------------------------------------------------------------
-- Matches of each sort, against the cut
-----------------------------------------------------------------------------------------

variable {c : Char} {text body rest whole fraction : List Char}

theorem cut_blank (h : Blank c) : cut c rest = cutBlank c rest := by
  simp [cut, isBlank_iff.mpr h]

theorem not_blank_of_letter (h : Letter c) : ¬Blank c := by
  rintro (rfl | rfl | rfl | rfl) <;> revert h <;> simp [Letter]

theorem not_blank_of_digit (h : Digit c) : ¬Blank c := by
  rintro (rfl | rfl | rfl | rfl) <;> revert h <;> simp [Digit]

theorem not_letter_of_digit (h : Digit c) : ¬Letter c := by
  simp only [Letter, Digit, Char.le_def, UInt32.le_iff_toNat_le] at h ⊢
  rintro (⟨low, -⟩ | ⟨low, -⟩ | rfl)
  · exact absurd (Nat.le_trans low h.2) (by decide)
  · exact absurd (Nat.le_trans low h.2) (by decide)
  · exact absurd h.2 (by decide)

theorem cut_word (h : Letter c) : cut c rest = cutWord c rest := by
  simp [cut, isBlank_iff, startsWord_iff, not_blank_of_letter h, h]

theorem cut_number (h : Digit c) : cut c rest = cutNumber c rest := by
  simp [cut, isBlank_iff, startsWord_iff, isDigit_iff, not_blank_of_digit h,
    not_letter_of_digit h, h]

theorem cut_quote : cut '"' rest = cutString rest :=
  rfl

theorem cut_slash : cut '/' rest = cutSlash rest :=
  rfl

theorem blank_within
    (blanks : ∀ c ∈ text, Blank c)
    (some : text ≠ [])
    (start : text <+: c :: rest)
    : Within (.blank text) (cut c rest).1 := by
  obtain rfl | ⟨others, rfl, continued⟩ := List.prefix_cons_iff.mp start
  · contradiction
  · rw [cut_blank (blanks c (by simp))]
    refine ⟨?_, fun same => congrArg Piece.blank same⟩
    refine List.cons_prefix_cons.mpr ⟨rfl, prefix_takeWhile continued ?_⟩
    intro d member
    exact isBlank_iff.mpr (blanks d (by simp [member]))

theorem word_within {kind : Token.Kind}
    (word : Word text)
    (same : Token.Kind.ofWord (String.ofList text) = kind)
    (start : text <+: c :: rest)
    : Within (.token kind text) (cut c rest).1 := by
  obtain ⟨first, others, rfl, letter, continues⟩ := word
  obtain ⟨rfl, continued⟩ := List.cons_prefix_cons.mp start
  rw [cut_word letter]
  constructor
  · refine List.cons_prefix_cons.mpr ⟨rfl, prefix_takeWhile continued ?_⟩
    intro d member
    exact continuesWord_iff.mpr (continues d member)
  · intro equal
    simp only [cutWord, Piece.text] at equal ⊢
    rw [← equal, same]

theorem string_within
    (closed : '"' ∉ body)
    (start : '"' :: body ++ ['"'] <+: c :: rest)
    : Within (.token .string ('"' :: body ++ ['"'])) (cut c rest).1 := by
  obtain ⟨rfl, after, rest_eq⟩ := List.cons_prefix_cons.mp start
  have inside := forall_bne closed
  have cut_eq : (cut '"' rest).1 = .token .string ('"' :: body ++ ['"']) := by
    simp [cut_quote, cutString, closeString, ← rest_eq, List.takeWhile_append_of_pos inside,
      List.dropWhile_append_of_pos inside]
  rw [cut_eq]
  exact .refl _

theorem unclosed_within
    (never : '"' ∉ body)
    (start : '"' :: body <+: c :: rest)
    : Within (.unclosed ('"' :: body)) (cut c rest).1 := by
  obtain ⟨rfl, continued⟩ := List.cons_prefix_cons.mp start
  have inside := prefix_takeWhile continued (forall_bne never)
  rw [cut_quote, cutString]
  cases rest.dropWhile (· != '"') with
  | nil =>
      exact ⟨List.cons_prefix_cons.mpr ⟨rfl, inside⟩, fun same => congrArg Piece.unclosed same⟩
  | cons quote after =>
      constructor
      · exact List.cons_prefix_cons.mpr ⟨rfl, inside.trans (List.prefix_append _ _)⟩
      · intro same
        have length := congrArg List.length same
        have bound := inside.length_le
        simp [closeString, Piece.text] at length
        omega

theorem comment_within
    (line : '\n' ∉ body)
    (start : '/' :: '/' :: body <+: c :: rest)
    : Within (.comment ('/' :: '/' :: body)) (cut c rest).1 := by
  obtain ⟨rfl, after, rfl⟩ := List.cons_prefix_cons.mp start
  simp only [cut_slash, cutSlash, List.cons_append]
  refine ⟨?_, fun same => congrArg Piece.comment same⟩
  refine List.cons_prefix_cons.mpr ⟨rfl, List.cons_prefix_cons.mpr ⟨rfl, ?_⟩⟩
  exact prefix_takeWhile (List.prefix_append _ _) (forall_bne line)

/-- A number keeps the digits before its point. -/
theorem cutFraction_number (whole after : List Char)
    : ∃ more, (cutFraction whole after).1 = .token .number (whole ++ more) := by
  unfold cutFraction
  split
  · split
    · exact ⟨_, rfl⟩
    · exact ⟨[], by simp⟩
  · exact ⟨[], by simp⟩

theorem digits_within
    (digits : Digits text)
    (start : text <+: c :: rest)
    : Within (.token .number text) (cut c rest).1 := by
  obtain rfl | ⟨others, rfl, continued⟩ := List.prefix_cons_iff.mp start
  · exact absurd rfl digits.1
  · rw [cut_number (digits.2 c (by simp)), cutNumber]
    obtain ⟨more, number⟩ := cutFraction_number (c :: rest.takeWhile Char.isDigit)
      (rest.dropWhile Char.isDigit)
    rw [number]
    refine ⟨?_, fun same => congrArg (Piece.token .number) same⟩
    refine List.cons_prefix_cons.mpr ⟨rfl, ?_⟩
    refine (prefix_takeWhile continued ?_).trans (List.prefix_append _ _)
    intro d member
    exact isDigit_iff.mpr (digits.2 d (by simp [member]))

theorem fraction_within
    (before : Digits whole)
    (after : Digits fraction)
    (start : whole ++ '.' :: fraction <+: c :: rest)
    : Within (.token .number (whole ++ '.' :: fraction)) (cut c rest).1 := by
  obtain ⟨digit, others, rfl⟩ := List.exists_cons_of_ne_nil before.1
  obtain ⟨first, decimals, rfl⟩ := List.exists_cons_of_ne_nil after.1
  obtain ⟨rfl, more, rest_eq⟩ := List.cons_prefix_cons.mp start
  have inside : ∀ d ∈ others, d.isDigit = true := by
    intro d member
    exact isDigit_iff.mpr (before.2 d (by simp [member]))
  have firstDigit : first.isDigit = true := isDigit_iff.mpr (after.2 first (by simp))
  rw [cut_number (before.2 digit (by simp))]
  have cut_eq : (cutNumber digit rest).1
      = .token .number
        (digit :: others ++ '.' :: first :: (decimals ++ more).takeWhile Char.isDigit) := by
    simp [cutNumber, cutFraction, ← rest_eq, List.takeWhile_append_of_pos inside,
      List.dropWhile_append_of_pos inside, firstDigit]
  rw [cut_eq]
  refine ⟨?_, fun same => congrArg (Piece.token .number) same⟩
  refine (List.prefix_append_right_inj _).mpr ?_
  refine List.cons_prefix_cons.mpr ⟨rfl, List.cons_prefix_cons.mpr ⟨rfl, ?_⟩⟩
  refine prefix_takeWhile (List.prefix_append _ _) ?_
  intro d member
  exact isDigit_iff.mpr (after.2 d (by simp [member]))

/-- A token of one character is within a token of that character and an equals sign. -/
theorem comparison_within {alone withEqual kind : Token.Kind}
    (known : comparison? c = some (alone, withEqual))
    (start : text <+: c :: rest)
    (h : kind = alone ∧ text = [c] ∨ kind = withEqual ∧ text = [c, '='])
    : Within (.token kind text) (cutComparison c alone withEqual rest).1 := by
  unfold cutComparison
  rcases h with ⟨rfl, rfl⟩ | ⟨rfl, rfl⟩
  · split
    · exact ⟨⟨['='], rfl⟩, by simp [Piece.text]⟩
    · exact .refl _
  · obtain ⟨more, rfl⟩ := (List.cons_prefix_cons.mp start).2
    exact .refl _

/-- The one-character kinds, the slash, and the kinds that an equals sign may follow. -/
theorem symbol_sort {kind : Token.Kind} (h : symbol? kind = some text)
    : (∃ d, text = [d] ∧ punctuation? d = some kind)
      ∨ (kind = .slash ∧ text = ['/'])
      ∨ ∃ d alone withEqual, comparison? d = some (alone, withEqual)
        ∧ (kind = alone ∧ text = [d] ∨ kind = withEqual ∧ text = [d, '=']) := by
  cases kind <;> simp only [symbol?, Option.some.injEq, reduceCtorEq] at h <;> subst h
  case slash => exact .inr (.inl ⟨rfl, rfl⟩)
  case bang | equal | greater | less =>
    exact .inr (.inr ⟨_, _, _, rfl, .inl ⟨rfl, rfl⟩⟩)
  case bangEqual | equalEqual | greaterEqual | lessEqual =>
    exact .inr (.inr ⟨_, _, _, rfl, .inr ⟨rfl, rfl⟩⟩)
  all_goals exact .inl ⟨_, rfl, rfl⟩

theorem cut_punctuation {kind : Token.Kind} (h : punctuation? c = some kind)
    : cut c rest = (.token kind [c], rest) := by
  unfold punctuation? at h
  split at h <;> cases h <;> rfl

theorem cut_comparison {alone withEqual : Token.Kind}
    (h : comparison? c = some (alone, withEqual))
    : cut c rest = cutComparison c alone withEqual rest := by
  unfold comparison? at h
  split at h <;> cases h <;> rfl

theorem symbol_within {kind : Token.Kind}
    (h : symbol? kind = some text)
    (start : text <+: c :: rest)
    : Within (.token kind text) (cut c rest).1 := by
  rcases symbol_sort h with ⟨d, rfl, known⟩ | ⟨rfl, rfl⟩ | ⟨d, alone, withEqual, known, form⟩
  · obtain ⟨rfl, -⟩ := List.cons_prefix_cons.mp start
    rw [cut_punctuation known]
    exact .refl _
  · obtain ⟨rfl, -⟩ := List.cons_prefix_cons.mp start
    rw [cut_slash]
    unfold cutSlash
    split
    · exact ⟨⟨_, rfl⟩, by simp [Piece.text]⟩
    · exact .refl _
  · have head : d = c := by
      rcases form with ⟨-, rfl⟩ | ⟨-, rfl⟩ <;> exact (List.cons_prefix_cons.mp start).1
    subst head
    rw [cut_comparison known]
    exact comparison_within known start form

/-- What a terminal matches at the beginning of a text lies within its cut, by cases on the
terminal.
-/
theorem Matches.within_cut {piece : Piece}
    (h : Matches piece)
    (start : piece.text <+: c :: rest)
    (proper : ∀ d, piece ≠ .stray d)
    : Within piece (cut c rest).1 := by
  cases h with
  | symbol known => exact symbol_within known start
  | reserved known =>
      refine word_within (word_of_reserved known) ?_ start
      rw [Token.Kind.ofWord, lookup_keywords_iff.mpr known]
      rfl
  | identifier word free =>
      refine word_within word ?_ start
      cases found : Token.Kind.keywords.lookup (String.ofList _) with
      | none => rw [Token.Kind.ofWord, found]; rfl
      | some kind => exact absurd (lookup_keywords_iff.mp found) (free kind)
  | string closed => exact string_within closed start
  | whole digits => exact digits_within digits start
  | fraction before after => exact fraction_within before after start
  | blank some blanks => exact blank_within blanks some start
  | comment line => exact comment_within line start
  | unclosed never => exact unclosed_within never start
  | stray => exact absurd rfl (proper _)

theorem notMem_takeWhile_bne {stop : Char} {text : List Char}
    : stop ∉ text.takeWhile (· != stop) := by
  intro member
  have different := List.mem_takeWhile_imp member
  simp at different

theorem matches_cutFraction {digits after : List Char} (h : Digits digits)
    : Matches (cutFraction digits after).1 := by
  unfold cutFraction
  split
  · split
    case isTrue digit =>
      refine .fraction h ⟨by simp, ?_⟩
      intro d member
      exact isDigit_iff.mp (forall_run digit d member)
    case isFalse => exact .whole h
  · exact .whole h

theorem matches_cutString (rest : List Char) : Matches (cutString rest).1 := by
  have after := List.head?_dropWhile_not (· != '"') rest
  unfold cutString closeString
  cases tail : rest.dropWhile (· != '"') with
  | nil => exact .unclosed notMem_takeWhile_bne
  | cons quote more =>
      have closes : quote = '"' := by simpa [tail] using after
      subst closes
      exact .string notMem_takeWhile_bne

theorem matches_cutSlash (rest : List Char) : Matches (cutSlash rest).1 := by
  unfold cutSlash
  split
  · exact .comment notMem_takeWhile_bne
  · exact .symbol rfl

theorem matches_cutComparison {alone withEqual : Token.Kind}
    (known : comparison? c = some (alone, withEqual))
    (rest : List Char)
    : Matches (cutComparison c alone withEqual rest).1 := by
  unfold comparison? at known
  unfold cutComparison
  split at known <;> cases known <;> split <;> exact .symbol rfl

theorem matches_cutPunctuation (h : c ≠ '\n') (rest : List Char)
    : Matches (cutPunctuation c rest).1 := by
  unfold cutPunctuation
  split
  case h_1 kind known =>
    unfold punctuation? at known
    split at known <;> cases known <;> exact .symbol rfl
  case h_2 => exact .stray h

theorem matches_cut (c : Char) (rest : List Char) : Matches (cut c rest).1 := by
  unfold cut
  split
  case isTrue blank =>
    refine .blank (by simp) ?_
    intro d member
    exact isBlank_iff.mp (forall_run blank d member)
  split
  case isTrue letter =>
    refine matches_word ⟨c, _, rfl, startsWord_iff.mp letter, ?_⟩
    intro d member
    exact continuesWord_iff.mp (List.mem_takeWhile_imp member)
  split
  case isTrue digit =>
    apply matches_cutFraction
    refine ⟨by simp, ?_⟩
    intro d member
    exact isDigit_iff.mp (forall_run digit d member)
  split
  case isTrue => exact matches_cutString rest
  split
  case isTrue => exact matches_cutSlash rest
  split
  case h_1 known => exact matches_cutComparison known rest
  case h_2 =>
    refine matches_cutPunctuation ?_ rest
    rintro rfl
    contradiction

-----------------------------------------------------------------------------------------
-- The leading piece of a text
-----------------------------------------------------------------------------------------

/-- The longest match at the beginning of a text. A stray character is one that nothing else
matches.
-/
structure Leading (piece : Piece) (text : List Char) : Prop where
  matched : Matches piece
  start : piece.text <+: text
  longest : ∀ other, Matches other → other.text <+: text → other.text.length ≤ piece.text.length
  last : ∀ c, piece = .stray c → ∀ other, Matches other → other.text <+: text → other = piece

theorem cut_start (c : Char) (rest : List Char) : (cut c rest).1.text <+: c :: rest :=
  ⟨(cut c rest).2, cut_append c rest⟩

theorem leading_cut (c : Char) (rest : List Char) : Leading (cut c rest).1 (c :: rest) where
  matched := matches_cut c rest
  start := cut_start c rest
  longest := by
    intro other h start
    by_cases stray : ∃ d, other = .stray d
    · obtain ⟨d, rfl⟩ := stray
      exact List.length_pos_iff.mpr (cut_text_ne_nil c rest)
    · exact (h.within_cut start fun d same => stray ⟨d, same⟩).1.length_le
  last := by
    intro d strayed other h start
    by_cases stray : ∃ e, other = .stray e
    · obtain ⟨e, rfl⟩ := stray
      have own := cut_start c rest
      rw [strayed] at own ⊢
      rw [(List.cons_prefix_cons.mp start).1, (List.cons_prefix_cons.mp own).1]
    · obtain ⟨inside, whole⟩ := h.within_cut start fun e same => stray ⟨e, same⟩
      refine whole (inside.eq_of_length_le ?_)
      rw [strayed]
      exact List.length_pos_iff.mpr h.text_ne_nil

/-- There is one leading piece: equally long matches have the same text, and only a stray character
could have the text of another match.
-/
theorem leading_iff {piece : Piece} {c : Char} {rest : List Char}
    : Leading piece (c :: rest) ↔ piece = (cut c rest).1 := by
  constructor
  · intro h
    by_cases stray : ∃ d, piece = .stray d
    · obtain ⟨d, strayed⟩ := stray
      exact (h.last d strayed _ (matches_cut c rest) (cut_start c rest)).symm
    · obtain ⟨inside, whole⟩ := h.matched.within_cut h.start fun d same => stray ⟨d, same⟩
      exact whole (inside.eq_of_length_le (h.longest _ (matches_cut c rest) (cut_start c rest)))
  · rintro rfl
    exact leading_cut c rest

/-- The pieces, one after the other, make up the text, and each is the leading piece of what is left
of it.
-/
structure Division (text : List Char) (pieces : List Piece) : Prop where
  covers : pieces.flatMap Piece.text = text
  nonempty : ∀ piece ∈ pieces, piece.text ≠ []
  leading : ∀ before piece after, pieces = before ++ piece :: after →
    Leading piece ((piece :: after).flatMap Piece.text)

theorem Division.tail {text : List Char} {piece : Piece} {rest : List Piece}
    (h : Division text (piece :: rest))
    : Division (rest.flatMap Piece.text) rest where
  covers := rfl
  nonempty := fun other member => h.nonempty other (List.mem_cons_of_mem piece member)
  leading := by
    rintro before other after rfl
    exact h.leading (piece :: before) other after rfl

theorem division_nil : Division [] [] where
  covers := rfl
  nonempty := by simp
  leading := by simp

theorem Division.cons {text : List Char} {piece : Piece} {rest : List Piece}
    (first : Leading piece (piece.text ++ text))
    (h : Division text rest)
    : Division (piece.text ++ text) (piece :: rest) where
  covers := by rw [List.flatMap_cons, h.covers]
  nonempty := by
    intro other member
    rcases List.mem_cons.mp member with rfl | member
    · exact first.matched.text_ne_nil
    · exact h.nonempty other member
  leading := by
    intro before other after same
    cases before with
    | nil =>
        obtain ⟨rfl, rfl⟩ := List.cons.inj same
        rw [List.flatMap_cons, h.covers]
        exact first
    | cons _ before =>
        obtain ⟨-, split⟩ := List.cons.inj same
        exact h.leading before other after split

/-- The pieces of a text are its only division, by the recursion that cuts it. -/
theorem division_iff {text : List Char} {division : List Piece}
    : Division text division ↔ division = pieces text := by
  induction text using pieces.induct generalizing division with
  | case1 =>
      rw [pieces]
      constructor
      · intro h
        cases division with
        | nil => rfl
        | cons piece rest =>
            have empty := (List.append_eq_nil_iff.mp h.covers).1
            exact absurd empty (h.nonempty piece (by simp))
      · rintro rfl
        exact division_nil
  | case2 c rest ih =>
      rw [pieces]
      constructor
      · intro h
        cases division with
        | nil => cases h.covers
        | cons piece others =>
            have first := h.leading [] piece others rfl
            rw [h.covers, leading_iff] at first
            subst first
            have left : others.flatMap Piece.text = (cut c rest).2 := by
              have covers := h.covers
              rw [← cut_append c rest] at covers
              exact List.append_cancel_left covers
            rw [← ih.mp (left ▸ h.tail)]
      · rintro rfl
        rw [← cut_append c rest]
        refine .cons ?_ (ih.mpr rfl)
        rw [cut_append]
        exact leading_cut c rest

theorem division_pieces (text : List Char) : Division text (pieces text) :=
  division_iff.mpr rfl

end Lexicon

end Lox
