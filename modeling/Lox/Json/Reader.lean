import Lox.Json.Lexeme

/-! Reading JSON text.
The lexemes of a text are read one after another. What is open around the place of the next lexeme
decides whether it may stand there; the first that may not ends the reading with an error.
-/

namespace Lox.Json

-----------------------------------------------------------------------------------------
-- Lexemes shorten the text
-----------------------------------------------------------------------------------------

theorem StringEnd.cons_eq_closed {point : CodePoint} {tail : StringEnd} {content : List CodePoint}
    {after : List Char} (h : tail.cons point = .closed content after)
    : ∃ inner, tail = .closed inner after := by
  cases tail with
  | closed inner _ =>
      simp only [StringEnd.cons, StringEnd.closed.injEq] at h
      exact ⟨inner, by rw [h.2]⟩
  | broken => simp [StringEnd.cons] at h

theorem length_after_readString {start text after : List Char} {content : List CodePoint}
    (h : readString start text = .closed content after)
    : after.length < text.length := by
  fun_induction readString start text generalizing content after with
  | case1 => cases h
  | case2 =>
      simp only [StringEnd.closed.injEq] at h
      simp [h.2]
  | case3 _ _ count _ _ ih =>
      obtain ⟨inner, same⟩ := StringEnd.cons_eq_closed h
      have shorter := ih same
      simp only [List.length_drop, List.length_cons] at shorter ⊢
      omega
  | case4 | case5 | case6 | case7 => cases h
  | case8 c rest _ _ _ ih =>
      obtain ⟨inner, same⟩ := StringEnd.cons_eq_closed h
      have shorter := ih same
      simp only [List.length_cons]
      omega

theorem length_dropWhile_le (p : Char → Bool) (text : List Char)
    : (text.dropWhile p).length ≤ text.length :=
  (List.dropWhile_sublist p).length_le

theorem length_after_cutWhole {text whole after : List Char}
    (h : cutWhole? text = some (whole, after))
    : after.length < text.length := by
  unfold cutWhole? at h
  split at h
  · simp_all
  · split at h
    · simp only [Option.some.injEq, Prod.mk.injEq] at h
      rw [← h.2]
      exact Nat.lt_succ_of_le (length_dropWhile_le _ _)
    · cases h
  · cases h

theorem length_after_cutFraction {text digits after : List Char}
    (h : cutFraction? text = some (digits, after))
    : after.length ≤ text.length := by
  unfold cutFraction? at h
  split at h
  · split at h
    · simp only [Option.some.injEq, Prod.mk.injEq] at h
      rw [← h.2]
      have shorter := length_dropWhile_le Char.isDigit
      simp only [List.length_cons]
      exact Nat.le_trans (shorter _) (by omega)
    · cases h
  · cases h

theorem length_after_cutPowerDigits {negative : Bool} {text after : List Char} {power : Int}
    (h : cutPowerDigits? negative text = some (power, after))
    : after.length ≤ text.length := by
  unfold cutPowerDigits? at h
  split at h
  · split at h
    · simp only [Option.some.injEq, Prod.mk.injEq] at h
      rw [← h.2]
      exact Nat.le_trans (length_dropWhile_le _ _) (by simp)
    · cases h
  · cases h

theorem length_after_cutPower {text after : List Char} {power : Int}
    (h : cutPower? text = some (power, after))
    : after.length ≤ text.length := by
  unfold cutPower? at h
  split at h
  · split at h
    · split at h <;>
        exact Nat.le_trans (length_after_cutPowerDigits h) (by simp only [List.length_cons]; omega)
    · cases h
  · cases h

theorem length_after_cutUnsigned {negative : Bool} {text after : List Char} {lexeme : Lexeme}
    (h : cutUnsigned? negative text = some (lexeme, after))
    : after.length < text.length := by
  unfold cutUnsigned? at h
  split at h
  · cases h
  · rename_i whole rest found
    have wholeShorter := length_after_cutWhole found
    simp only [Option.some.injEq, Prod.mk.injEq] at h
    rw [← h.2]
    have fractionShorter
        : ((cutFraction? rest |>.map Prod.snd).getD rest).length ≤ rest.length := by
      cases found : cutFraction? rest with
      | none => simp
      | some parts => exact length_after_cutFraction found
    generalize (cutFraction? rest |>.map Prod.snd).getD rest = rest' at fractionShorter
    have powerShorter : ((cutPower? rest' |>.map Prod.snd).getD rest').length ≤ rest'.length := by
      cases found : cutPower? rest' with
      | none => simp
      | some parts => exact length_after_cutPower found
    omega

theorem length_after_cutNumber {text after : List Char} {lexeme : Lexeme}
    (h : cutNumber? text = some (lexeme, after))
    : after.length < text.length := by
  unfold cutNumber? at h
  split at h
  · exact Nat.lt_trans (length_after_cutUnsigned h) (by simp)
  · exact length_after_cutUnsigned h

theorem length_after_cutWord {c : Char} {rest after : List Char} {lexeme : Lexeme}
    (h : cutWord? (c :: rest) = some (lexeme, after))
    : after.length < rest.length + 1 := by
  obtain ⟨word, found, same⟩ := Option.map_eq_some_iff.mp h
  have member := List.mem_of_find?_eq_some found
  have positive : 0 < word.1.length := by
    simp only [words, List.mem_cons, List.not_mem_nil, or_false] at member
    rcases member with rfl | rfl | rfl | rfl | rfl | rfl <;> decide
  simp only [Prod.mk.injEq] at same
  rw [← same.2]
  simp only [List.length_drop, List.length_cons]
  omega

/-- The text after a lexeme is shorter than the text before it. -/
theorem length_cut_lt (c : Char) (rest : List Char)
    : (cut c rest).2.length < rest.length + 1 := by
  unfold cut
  split
  iterate 6 exact Nat.lt_succ_self _
  · split
    · rename_i found
      exact Nat.lt_succ_of_lt (length_after_readString found)
    · exact Nat.lt_succ_self _
  · split
    · rename_i placed found
      rcases Option.or_eq_some_iff.mp found with word | ⟨_, number⟩
      · exact length_after_cutWord word
      · exact length_after_cutNumber number
    · exact Nat.lt_succ_self _

/-- The lexemes of a text, with the end of the text last. -/
def lexemes : List Char → List Placed
  | [] => [⟨.finish, []⟩]
  | c :: rest =>
      if isBlank c then lexemes rest
      else ⟨(cut c rest).1, c :: rest⟩ :: lexemes (cut c rest).2
termination_by text => text.length
decreasing_by
  · exact Nat.lt_succ_self rest.length
  · exact length_cut_lt c rest

-----------------------------------------------------------------------------------------
-- The reader
-----------------------------------------------------------------------------------------

/-- Something open around the next lexeme. The items of a list are kept in reverse. -/
inductive Frame where
  | items (before : List Datum)
  | field (before : List (Text × Datum)) (name : Text)

/-- What may stand at the place of the next lexeme. -/
inductive State where
  | value (frames : List Frame)
  | firstItem (frames : List Frame)
  | firstName (frames : List Frame)
  | name (before : List (Text × Datum)) (frames : List Frame)
  | colon (before : List (Text × Datum)) (name : Text) (frames : List Frame)
  | after (value : Datum) (frames : List Frame)

/-- What a lexeme leads to. A fault without a place is at the lexeme itself. -/
inductive Step where
  | next (state : State)
  | done (value : Datum)
  | fault (fault : Fault) (place : Option (List Char))

/-- A lexeme where a value is due. -/
def stepValue (frames : List Frame) : Lexeme → Step
  | .openBrace => .next (.firstName frames)
  | .openBracket => .next (.firstItem frames)
  | .string content => .next (.after (.string content) frames)
  | .literal value => .next (.after value frames)
  | .overlong digits => .fault (.tooLong digits) none
  | .broken fault place => .fault fault (some place)
  | _ => .fault .value none

/-- A lexeme where the name of a field is due. -/
def stepName (before : List (Text × Datum)) (frames : List Frame) : Lexeme → Step
  | .string content => .next (.colon before content frames)
  | .broken fault place => .fault fault (some place)
  | _ => .fault .fieldName none

/-- A lexeme after a value. -/
def stepAfter (value : Datum) (frames : List Frame) (lexeme : Lexeme) : Step :=
  match frames with
  | [] =>
      match lexeme with
      | .finish => .done value
      | _ => .fault .extraData none
  | .items before :: outer =>
      match lexeme with
      | .comma => .next (.value (.items (value :: before) :: outer))
      | .closeBracket => .next (.after (.list (value :: before).reverse) outer)
      | _ => .fault .comma none
  | .field before name :: outer =>
      match lexeme with
      | .comma => .next (.name (Datum.putField before name value) outer)
      | .closeBrace => .next (.after (.object (Datum.putField before name value)) outer)
      | _ => .fault .comma none

/-- What a lexeme leads to from a state. -/
def step (state : State) (lexeme : Lexeme) : Step :=
  match state with
  | .value frames => stepValue frames lexeme
  | .firstItem frames =>
      match lexeme with
      | .closeBracket => .next (.after (.list []) frames)
      | _ => stepValue (.items [] :: frames) lexeme
  | .firstName frames =>
      match lexeme with
      | .closeBrace => .next (.after (.object []) frames)
      | _ => stepName [] frames lexeme
  | .name before frames => stepName before frames lexeme
  | .colon before name frames =>
      match lexeme with
      | .colon => .next (.value (.field before name :: frames))
      | _ => .fault .colon none
  | .after value frames => stepAfter value frames lexeme

/-- Reads lexemes from a state on. An error comes with the text from its place on. -/
def readFrom (state : State) : List Placed → Except (Fault × List Char) Datum
  | [] => .error (.value, [])
  | placed :: rest =>
      match step state placed.lexeme with
      | .next state => readFrom state rest
      | .done value => .ok value
      | .fault fault place => .error (fault, place.getD placed.place)

-----------------------------------------------------------------------------------------
-- Whole texts
-----------------------------------------------------------------------------------------

/-- A fault with its place in the whole text, counted in characters. -/
structure Error where
  fault : Fault
  offset : Nat
  line : Nat
  column : Nat
deriving DecidableEq

/-- The error at the place where `rest` is left of the text. -/
def Error.locate (fault : Fault) (text rest : List Char) : Error :=
  let before := text.take (text.length - rest.length)
  { fault
    offset := before.length
    line := before.count '\n' + 1
    column := (before.reverse.takeWhile (· != '\n')).length + 1 }

/-- The text of an error. An integer that is too long is told without its place. -/
def Error.message (error : Error) : String :=
  match error.fault with
  | .tooLong _ => error.fault.message
  | _ =>
      error.fault.message ++ ": line " ++ toString error.line ++ " column "
        ++ toString error.column ++ " (char " ++ toString error.offset ++ ")"

/-- The datum that a text writes. -/
def read (text : List Char) : Except Error Datum :=
  match text with
  | '\uFEFF' :: _ => .error (.locate .byteOrderMark text text)
  | _ =>
      match readFrom (.value []) (lexemes text) with
      | .ok value => .ok value
      | .error (fault, rest) => .error (.locate fault text rest)

end Lox.Json
