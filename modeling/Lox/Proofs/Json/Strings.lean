import Lox.Json.Reader
import Lox.Json.Writer

/-! Written strings are read as they were.
Each character is read from what stands for it, so that the first quote that stands by itself is the
one that closes the string.
-/

namespace Lox.Json

/-- The hexadecimal digits of control characters, by evaluation. -/
theorem hexDigits_control
    : ∀ n < 32,
      Text.hexDigits 4 n = ['0', '0', Nat.digitChar (n / 16), Nat.digitChar (n % 16)] := by
  decide

theorem hexValue_digitChar : ∀ n < 16, hexValue? (Nat.digitChar n) = some n := by
  decide

theorem hexUnit_hexDigits {n : Nat} (h : n < 32) (next : Char) (rest : List Char)
    : hexUnit? (Text.hexDigits 4 n ++ next :: rest) = some n := by
  have high := hexValue_digitChar (n / 16) (by omega)
  have low := hexValue_digitChar (n % 16) (by omega)
  have zero : hexValue? '0' = some 0 := rfl
  have total : 4096 * 0 + 256 * 0 + 16 * (n / 16) + n % 16 = n := by omega
  rw [hexDigits_control n h]
  simp only [List.cons_append, List.nil_append, hexUnit?, zero, high, low]
  exact congrArg some total

theorem unescape_hexDigits {c : Char} (h : c.toNat < 32) (next : Char) (rest : List Char)
    : unescape ('u' :: Text.hexDigits 4 c.toNat ++ next :: rest) = .ok (.scalar c, 5) := by
  have unit : unitsPoint c.toNat (Text.hexDigits 4 c.toNat ++ next :: rest) = (.scalar c, 5) := by
    unfold unitsPoint unitPoint
    rw [if_neg (by omega), dif_neg (by omega), Char.ofNat_toNat]
  rw [List.cons_append, unescape, hexUnit_hexDigits h]
  exact congrArg Except.ok unit

/-- A backslash with what follows it is read as one code point. -/
theorem readString_escape {start after rest : List Char} {point : CodePoint} {count : Nat}
    (h : unescape after = .ok (point, count))
    (same : after.drop count = rest)
    : readString start ('\\' :: after) = (readString start rest).cons point := by
  rw [readString, if_neg (by decide), if_pos rfl]
  simp only [h, same]

theorem readString_escaped (start : List Char) (c next : Char) (rest : List Char)
    : readString start (escaped c ++ next :: rest)
      = (readString start (next :: rest)).cons (.scalar c) := by
  unfold escaped
  split
  case isTrue marked =>
    rcases marked with rfl | rfl <;> exact readString_escape rfl rfl
  case isFalse plain =>
    obtain ⟨quote, backslash⟩ := not_or.mp plain
    split
    case isTrue feed =>
      subst feed
      exact readString_escape rfl rfl
    split
    case isTrue carriage =>
      subst carriage
      exact readString_escape rfl rfl
    split
    case isTrue tab =>
      subst tab
      exact readString_escape rfl rfl
    split
    case isTrue backspace =>
      subst backspace
      exact readString_escape rfl rfl
    split
    case isTrue form =>
      subst form
      exact readString_escape rfl rfl
    split
    case isTrue control =>
      refine readString_escape (unescape_hexDigits control next rest) ?_
      rw [hexDigits_control _ control]
      rfl
    case isFalse visible =>
      rw [List.singleton_append, readString, if_neg quote, if_neg backslash, if_neg visible]

/-- A string is read from its text, by induction on the string. -/
theorem readString_flatMap (start text rest : List Char)
    : readString start (text.flatMap escaped ++ '"' :: rest)
      = .closed (text.map .scalar) rest := by
  induction text with
  | nil => rw [List.flatMap_nil, List.nil_append, readString, if_pos rfl, List.map_nil]
  | cons c text ih =>
      obtain ⟨next, others, tail⟩ :=
        List.exists_cons_of_ne_nil (l := text.flatMap escaped ++ '"' :: rest) (by simp)
      rw [List.flatMap_cons, List.append_assoc, tail, readString_escaped, ← tail, ih]
      rfl

theorem cut_stringText {text : Text} (encodable : text.isEncodable = true) (rest : List Char)
    : cut '"' (text.characters.flatMap escaped ++ '"' :: rest) = (.string text, rest) := by
  simp only [cut, readString_flatMap, Text.map_characters encodable]

theorem carriageReturn_notMem_hexDigits
    : ∀ n < 32, '\r' ∉ Text.hexDigits 4 n := by
  decide

theorem carriageReturn_notMem_escaped (c : Char) : '\r' ∉ escaped c := by
  unfold escaped
  split
  case isTrue marked =>
    rcases marked with rfl | rfl <;> decide
  split
  case isTrue => decide
  split
  case isTrue => decide
  case isFalse carriage =>
    split
    case isTrue => decide
    split
    case isTrue => decide
    split
    case isTrue => decide
    split
    case isTrue control =>
      intro member
      rcases List.mem_cons.mp member with same | member
      · revert same
        decide
      · rcases List.mem_cons.mp member with same | member
        · revert same
          decide
        · exact carriageReturn_notMem_hexDigits _ control member
    case isFalse =>
      intro member
      exact carriage (List.mem_singleton.mp member).symm

theorem carriageReturn_notMem_stringText (text : Text) : '\r' ∉ stringText text := by
  intro member
  simp only [stringText, List.cons_append, List.mem_cons, List.mem_append, List.mem_flatMap,
    List.not_mem_nil, or_false] at member
  rcases member with same | ⟨c, -, member⟩ | same
  · revert same
    decide
  · exact carriageReturn_notMem_escaped c member
  · revert same
    decide

end Lox.Json
