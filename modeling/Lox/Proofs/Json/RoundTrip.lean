import Lox.Proofs.Json.Numbers
import Lox.Proofs.Json.Strings

/-! Written data are read as they were.
The reader takes in the text of a datum up to its end and then stands behind that datum, whatever is
open around it. Fields come back in their order because no two of them share a name. Surrogates and
integers that are too long do not come back.
-/

namespace Lox

mutual

/-- The datum and the data inside can be written: strings have no surrogates, integers are not too
long, and no two fields of an object share a name.
-/
def Datum.Writable : Datum → Prop
  | .string text => text.isEncodable = true
  | .integer n => Text.isShort n = true
  | .list items => WritableItems items
  | .object fields => (fields.map Prod.fst).Nodup ∧ WritableFields fields
  | _ => True

def WritableItems : List Datum → Prop
  | [] => True
  | item :: rest => item.Writable ∧ WritableItems rest

def WritableFields : List (Text × Datum) → Prop
  | [] => True
  | (name, content) :: rest =>
      name.isEncodable = true ∧ content.Writable ∧ WritableFields rest

end

theorem Datum.putField_of_notMem {fields : List (Text × Datum)} {name : Text}
    (content : Datum) (h : name ∉ fields.map Prod.fst)
    : putField fields name content = fields ++ [(name, content)] := by
  induction fields with
  | nil => rfl
  | cons field rest ih =>
      obtain ⟨other, later⟩ := not_or.mp (fun member => h (List.mem_cons.mpr member))
      rw [putField, if_neg (Ne.symm other), ih later, List.cons_append]

namespace Json

variable {text rest after : List Char} {lexeme : Lexeme} {value : Datum}

theorem lexemes_cons {c : Char} (visible : isBlank c = false) (h : cut c rest = (lexeme, after))
    : lexemes (c :: rest) = ⟨lexeme, c :: rest⟩ :: lexemes after := by
  rw [lexemes, visible, h]
  rfl

theorem lexemes_blank {c : Char} (blank : isBlank c = true) (rest : List Char)
    : lexemes (c :: rest) = lexemes rest := by
  rw [lexemes, if_pos blank]

theorem lexemes_newLine (depth : Nat) (rest : List Char)
    : lexemes (newLine depth ++ rest) = lexemes rest := by
  rw [newLine, List.cons_append, lexemes_blank rfl]
  induction 2 * depth with
  | zero => rfl
  | succ count ih => rw [List.replicate_succ, List.cons_append, lexemes_blank rfl, ih]

theorem Writes.lexemes (written : Writes text lexeme) (stops : Stops rest)
    : ∃ place, lexemes (text ++ rest) = ⟨lexeme, place⟩ :: lexemes rest := by
  obtain ⟨c, after, rfl, visible, read⟩ := written
  exact ⟨_, lexemes_cons visible (read rest stops)⟩

theorem writes_stringText {text : Text} (encodable : text.isEncodable = true)
    : Writes (stringText text) (.string text) := by
  refine ⟨'"', text.characters.flatMap escaped ++ ['"'], rfl, rfl, fun rest _ => ?_⟩
  rw [List.append_assoc]
  exact cut_stringText encodable rest

theorem stops_newLine (depth : Nat) (rest : List Char) : Stops (newLine depth ++ rest) :=
  .cons _ (by decide)

theorem stops_writeItems (depth : Nat) (items : List Datum) (stops : Stops rest)
    : Stops (writeItems depth items ++ rest) := by
  cases items with
  | nil => exact stops
  | cons => exact .cons _ (by decide)

theorem stops_writeFields (depth : Nat) (fields : List (Text × Datum)) (stops : Stops rest)
    : Stops (writeFields depth fields ++ rest) := by
  cases fields with
  | nil => exact stops
  | cons => exact .cons _ (by decide)

-----------------------------------------------------------------------------------------
-- Reading what was written
-----------------------------------------------------------------------------------------

/-- In the state a value is due, with the given frames around it. -/
inductive Awaits : State → List Frame → Prop where
  | value (frames : List Frame) : Awaits (.value frames) frames
  | firstItem (frames : List Frame) : Awaits (.firstItem frames) (.items [] :: frames)

variable {state : State} {frames : List Frame}

theorem Awaits.step (awaits : Awaits state frames) (h : lexeme ≠ .closeBracket)
    : step state lexeme = stepValue frames lexeme := by
  cases awaits with
  | value => rfl
  | firstItem =>
      cases lexeme
      case closeBracket => exact (h rfl).elim
      all_goals rfl

/-- The lexeme that a bracket or a separator is. -/
def mark? : Char → Option Lexeme
  | '\x7b' => some .openBrace
  | '\x7d' => some .closeBrace
  | '[' => some .openBracket
  | ']' => some .closeBracket
  | ',' => some .comma
  | ':' => some .colon
  | _ => none

theorem lexemes_mark {c : Char} (mark : mark? c = some lexeme) (rest : List Char)
    : lexemes (c :: rest) = ⟨lexeme, c :: rest⟩ :: lexemes rest := by
  unfold mark? at mark
  split at mark
  iterate 6
    obtain rfl := Option.some.inj mark
    exact lexemes_cons rfl rfl
  cases mark

theorem readFrom_mark {c : Char} {next : State} (mark : mark? c = some lexeme)
    (step : step state lexeme = .next next)
    : readFrom state (lexemes (c :: rest)) = readFrom next (lexemes rest) := by
  rw [lexemes_mark mark, readFrom]
  simp only [step]

theorem readFrom_writes {next : State} (written : Writes text lexeme) (stops : Stops rest)
    (step : step state lexeme = .next next)
    : readFrom state (lexemes (text ++ rest)) = readFrom next (lexemes rest) := by
  obtain ⟨place, lexemes⟩ := written.lexemes stops
  rw [lexemes, readFrom]
  simp only [step]

theorem Awaits.literal (awaits : Awaits state frames) (written : Writes text (.literal value))
    (stops : Stops rest)
    : readFrom state (lexemes (text ++ rest)) = readFrom (.after value frames) (lexemes rest) :=
  readFrom_writes written stops (awaits.step nofun)

theorem writes_null : Writes "null".toList (.literal .nil) :=
  ⟨'n', "ull".toList, rfl, rfl, fun _ _ => rfl⟩

theorem writes_true : Writes "true".toList (.literal (.boolean true)) :=
  ⟨'t', "rue".toList, rfl, rfl, fun _ _ => rfl⟩

theorem writes_false : Writes "false".toList (.literal (.boolean false)) :=
  ⟨'f', "alse".toList, rfl, rfl, fun _ _ => rfl⟩

/-- A name with its colon is read where a name is due. -/
theorem readFrom_name {before : List (Text × Datum)} {name : Text}
    (encodable : name.isEncodable = true)
    (h : step state (.string name) = .next (.colon before name frames))
    : readFrom state (lexemes (stringText name ++ ':' :: ' ' :: rest))
      = readFrom (.value (.field before name :: frames)) (lexemes rest) := by
  rw [readFrom_writes (writes_stringText encodable) (.cons _ (by decide)) h]
  refine (readFrom_mark rfl rfl).trans ?_
  rw [lexemes_blank rfl]

theorem notMem_of_nodup {before rest : List (Text × Datum)} {name : Text} {content : Datum}
    (h : ((before ++ (name, content) :: rest).map Prod.fst).Nodup)
    : name ∉ before.map Prod.fst := by
  rw [List.map_append, List.nodup_append] at h
  exact fun member => h.2.2 name member name List.mem_cons_self rfl

mutual

/-- The text of a datum is read as that datum, by recursion on the datum. -/
theorem readFrom_write {state : State} {frames : List Frame} {rest : List Char} (depth : Nat)
    (d : Datum) (writable : d.Writable)
    (awaits : Awaits state frames) (stops : Stops rest)
    : readFrom state (lexemes (write depth d ++ rest))
      = readFrom (.after d frames) (lexemes rest) := by
  cases d with
  | nil =>
      rw [write]
      exact awaits.literal writes_null stops
  | boolean truth =>
      cases truth with
      | true =>
          rw [write]
          exact awaits.literal writes_true stops
      | false =>
          rw [write]
          exact awaits.literal writes_false stops
  | number x =>
      rw [write]
      exact awaits.literal (writes_numberText x) stops
  | string text =>
      rw [write, readFrom_writes (writes_stringText writable) stops (awaits.step nofun)]
  | integer n =>
      rw [write]
      exact awaits.literal (writes_integerText writable) stops
  | list items =>
      cases items with
      | nil =>
          have text : "[]".toList = ['[', ']'] := rfl
          rw [write, text]
          refine (readFrom_mark rfl (awaits.step (by nofun))).trans ?_
          exact readFrom_mark rfl rfl
      | cons item others =>
          obtain ⟨first, later⟩ := writable
          rw [write]
          simp only [List.cons_append, List.append_assoc, List.nil_append]
          refine (readFrom_mark rfl (awaits.step (by nofun))).trans ?_
          rw [lexemes_newLine, readFrom_write (depth + 1) item first (.firstItem frames)
            (stops_writeItems _ _ (stops_newLine _ _))]
          exact readFrom_writeItems (depth + 1) depth others [] item later
  | object fields =>
      cases fields with
      | nil =>
          rw [write]
          refine (readFrom_mark rfl (awaits.step (by nofun))).trans ?_
          exact readFrom_mark rfl rfl
      | cons field others =>
          obtain ⟨name, content⟩ := field
          obtain ⟨names, encodable, first, later⟩ := writable
          rw [write]
          simp only [List.cons_append, List.append_assoc, List.nil_append]
          refine (readFrom_mark rfl (awaits.step (by nofun))).trans ?_
          rw [lexemes_newLine, readFrom_name encodable rfl,
            readFrom_write (depth + 1) content first (.value _)
              (stops_writeFields _ _ (stops_newLine _ _))]
          exact readFrom_writeFields (depth + 1) depth others [] name content later names

/-- The items after a first one are read up to the end of their list. -/
theorem readFrom_writeItems {frames : List Frame} {rest : List Char} (depth outer : Nat)
    (items before : List Datum) (item : Datum)
    (writable : WritableItems items)
    : readFrom (.after item (.items before :: frames))
        (lexemes (writeItems depth items ++ (newLine outer ++ ']' :: rest)))
      = readFrom (.after (.list ((item :: before).reverse ++ items)) frames) (lexemes rest) := by
  cases items with
  | nil =>
      rw [writeItems, List.nil_append, lexemes_newLine, List.append_nil]
      exact readFrom_mark rfl rfl
  | cons next others =>
      obtain ⟨first, later⟩ := writable
      rw [writeItems]
      simp only [List.cons_append, List.append_assoc]
      refine (readFrom_mark rfl rfl).trans ?_
      rw [lexemes_newLine, readFrom_write depth next first (.value _)
        (stops_writeItems _ _ (stops_newLine _ _)),
        readFrom_writeItems depth outer others (item :: before) next later]
      simp only [List.reverse_cons, List.append_assoc, List.cons_append, List.nil_append]

/-- The fields after a first one are read up to the end of their object. -/
theorem readFrom_writeFields {frames : List Frame} {rest : List Char} (depth outer : Nat)
    (fields before : List (Text × Datum)) (name : Text) (content : Datum)
    (writable : WritableFields fields)
    (names : ((before ++ (name, content) :: fields).map Prod.fst).Nodup)
    : readFrom (.after content (.field before name :: frames))
        (lexemes (writeFields depth fields ++ (newLine outer ++ '\x7d' :: rest)))
      = readFrom (.after (.object (before ++ (name, content) :: fields)) frames)
          (lexemes rest) := by
  cases fields with
  | nil =>
      have fresh := notMem_of_nodup names
      rw [writeFields, List.nil_append, lexemes_newLine]
      refine (readFrom_mark rfl rfl).trans ?_
      rw [Datum.putField_of_notMem content fresh]
  | cons next others =>
      obtain ⟨other, inner⟩ := next
      obtain ⟨encodable, first, later⟩ := writable
      have fresh := notMem_of_nodup names
      rw [writeFields]
      simp only [List.cons_append, List.append_assoc]
      refine (readFrom_mark rfl rfl).trans ?_
      rw [lexemes_newLine, Datum.putField_of_notMem content fresh,
        readFrom_name encodable rfl,
        readFrom_write depth inner first (.value _) (stops_writeFields _ _ (stops_newLine _ _)),
        readFrom_writeFields depth outer others (before ++ [(name, content)]) other inner later
          (by simpa using names)]
      simp only [List.append_assoc, List.singleton_append]

end

theorem cut_byteOrderMark (rest : List Char) : cut '\uFEFF' rest = (.stray, rest) :=
  rfl

/-- A datum is read from its text. -/
theorem read_write {d : Datum} (writable : d.Writable) : read (write 0 d) = .ok d := by
  have done : readFrom (.value []) (lexemes (write 0 d)) = .ok d := by
    have read := readFrom_write 0 d writable (.value []) .nil
    rw [List.append_nil] at read
    rw [read, lexemes]
    rfl
  unfold read
  split
  case h_1 rest same =>
    rw [same, lexemes_cons rfl (cut_byteOrderMark rest)] at done
    cases done
  case h_2 => rw [done]

theorem carriageReturn_notMem_newLine (depth : Nat) : '\r' ∉ newLine depth := by
  intro member
  rcases List.mem_cons.mp member with same | member
  · revert same
    decide
  · have space := List.eq_of_mem_replicate member
    revert space
    decide

mutual

theorem carriageReturn_notMem_write (depth : Nat) (d : Datum) : '\r' ∉ write depth d := by
  cases d with
  | nil =>
      rw [write]
      decide
  | boolean truth => cases truth <;> rw [write] <;> decide
  | number x =>
      rw [write]
      exact carriageReturn_notMem_numberText x
  | string text =>
      rw [write]
      exact carriageReturn_notMem_stringText text
  | integer n =>
      rw [write]
      exact carriageReturn_notMem_integerText n
  | list items =>
      cases items with
      | nil =>
          rw [write]
          decide
      | cons item others =>
          have inner := carriageReturn_notMem_write (depth + 1) item
          have later := carriageReturn_notMem_writeItems (depth + 1) others
          rw [write]
          simp [carriageReturn_notMem_newLine, inner, later]
  | object fields =>
      cases fields with
      | nil =>
          rw [write]
          decide
      | cons field others =>
          obtain ⟨name, content⟩ := field
          have inner := carriageReturn_notMem_write (depth + 1) content
          have later := carriageReturn_notMem_writeFields (depth + 1) others
          rw [write]
          simp [carriageReturn_notMem_newLine, carriageReturn_notMem_stringText, inner, later]

theorem carriageReturn_notMem_writeItems (depth : Nat) (items : List Datum)
    : '\r' ∉ writeItems depth items := by
  cases items with
  | nil => exact List.not_mem_nil
  | cons item others =>
      have inner := carriageReturn_notMem_write depth item
      have later := carriageReturn_notMem_writeItems depth others
      rw [writeItems]
      simp [carriageReturn_notMem_newLine, inner, later]

theorem carriageReturn_notMem_writeFields (depth : Nat) (fields : List (Text × Datum))
    : '\r' ∉ writeFields depth fields := by
  cases fields with
  | nil => exact List.not_mem_nil
  | cons field others =>
      obtain ⟨name, content⟩ := field
      have inner := carriageReturn_notMem_write depth content
      have later := carriageReturn_notMem_writeFields depth others
      rw [writeFields]
      simp [carriageReturn_notMem_newLine, carriageReturn_notMem_stringText, inner, later]

end

end Json

end Lox
