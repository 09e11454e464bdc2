import Lox.Text.Utf8

/-! Texts survive being written to a file and read again.
The bytes of a character lead back to it, whatever stands behind them.
-/

namespace Lox.Text.Utf8

variable {bits low high count code position n : Nat} {rest : List UInt8} {lead : Lead}

theorem follow_cons (small : n < 256) (inside : low ≤ n ∧ n ≤ high)
    (h : follow (64 * bits + (n - 0x80)) 0x80 0xBF count rest = .ok code)
    : follow bits low high (count + 1) (.ofNat n :: rest) = .ok code := by
  have byte : (UInt8.ofNat n).toNat = n := UInt8.toNat_ofNat_of_lt' small
  rw [follow, byte, if_pos inside, h]
  rfl

theorem decodeFrom_cons (small : n < 256) (first : lead? n = some lead)
    (h : follow lead.bits lead.low lead.high lead.count rest = .ok code)
    : decodeFrom position (.ofNat n :: rest)
      = (decodeFrom (position + lead.count + 1) (rest.drop lead.count)).map (.ofNat code :: ·) := by
  have byte : (UInt8.ofNat n).toNat = n := UInt8.toNat_ofNat_of_lt' small
  rw [decodeFrom, byte, first]
  simp only [h]

/-- A first byte and the bytes that follow it are read as one character. -/
theorem decodeFrom_lead {tail : List UInt8} {c : Char} (position : Nat) (small : n < 256)
    (first : lead? n = some lead) (count : lead.count = tail.length) (same : Char.ofNat code = c)
    (h : follow lead.bits lead.low lead.high tail.length (tail ++ rest) = .ok code)
    : ∃ after, decodeFrom position (.ofNat n :: (tail ++ rest))
      = (decodeFrom after rest).map (c :: ·) := by
  rw [← count] at h
  refine ⟨position + lead.count + 1, ?_⟩
  rw [decodeFrom_cons small first h, same, count, List.drop_left]

theorem lead_two (h : 2 ≤ n ∧ n ≤ 0x1F) (second : Nat) (inside : 0x80 ≤ second ∧ second ≤ 0xBF)
    : ∃ lead, lead? (n + 0xC0) = some lead ∧ lead.bits = n ∧ lead.count = 1
      ∧ lead.low ≤ second ∧ second ≤ lead.high := by
  refine ⟨⟨n + 0xC0 - 0xC0, 1, 0x80, 0xBF⟩, ?_, by simp, rfl, inside⟩
  unfold lead?
  rw [if_neg (by omega), if_neg (by omega), if_pos (by omega)]

/-- The first byte of three says what the second may be. -/
theorem lead_three (h : n ≤ 0xF) (second : Nat)
    (long : n = 0 → 0xA0 ≤ second) (whole : n = 0xD → second ≤ 0x9F)
    (inside : 0x80 ≤ second ∧ second ≤ 0xBF)
    : ∃ lead, lead? (n + 0xE0) = some lead ∧ lead.bits = n ∧ lead.count = 2
      ∧ lead.low ≤ second ∧ second ≤ lead.high := by
  by_cases zero : n = 0
  · subst zero
    exact ⟨_, rfl, rfl, rfl, long rfl, inside.2⟩
  · by_cases surrogate : n = 0xD
    · subst surrogate
      exact ⟨_, rfl, rfl, rfl, inside.1, whole rfl⟩
    · refine ⟨⟨n + 0xE0 - 0xE0, 2, 0x80, 0xBF⟩, ?_, by simp, rfl, inside⟩
      unfold lead?
      rw [if_neg (by omega), if_neg (by omega), if_neg (by omega), if_neg (by omega),
        if_neg (by omega), if_pos (by omega)]

/-- The first byte of four says what the second may be. -/
theorem lead_four (h : n ≤ 4) (second : Nat)
    (long : n = 0 → 0x90 ≤ second) (last : n = 4 → second ≤ 0x8F)
    (inside : 0x80 ≤ second ∧ second ≤ 0xBF)
    : ∃ lead, lead? (n + 0xF0) = some lead ∧ lead.bits = n ∧ lead.count = 3
      ∧ lead.low ≤ second ∧ second ≤ lead.high := by
  by_cases zero : n = 0
  · subst zero
    exact ⟨_, rfl, rfl, rfl, long rfl, inside.2⟩
  · by_cases top : n = 4
    · subst top
      exact ⟨_, rfl, rfl, rfl, inside.1, last rfl⟩
    · refine ⟨⟨n + 0xF0 - 0xF0, 3, 0x80, 0xBF⟩, ?_, by simp, rfl, inside⟩
      unfold lead?
      rw [if_neg (by omega), if_neg (by omega), if_neg (by omega), if_neg (by omega),
        if_neg (by omega), if_neg (by omega), if_neg (by omega), if_pos (by omega)]

/-- The bytes of a character are read as that character, by the number of its bytes. -/
theorem decodeFrom_encodeChar (position : Nat) (c : Char) (rest : List UInt8)
    : ∃ after, decodeFrom position (String.utf8EncodeChar c ++ rest)
      = (decodeFrom after rest).map (c :: ·) := by
  have scalar : c.val.toNat < 0xD800 ∨ 0xDFFF < c.val.toNat ∧ c.val.toNat < 0x110000 := c.valid
  have same : Char.ofNat c.val.toNat = c := Char.ofNat_toNat c
  unfold String.utf8EncodeChar
  generalize c.val.toNat = v at scalar same
  simp only
  split
  case isTrue one =>
    have first : lead? v = some ⟨v, 0, 0x80, 0xBF⟩ := by
      unfold lead?
      rw [if_pos (by omega)]
    exact decodeFrom_lead position (by omega) first rfl same rfl
  split
  case isTrue two =>
    obtain ⟨lead, first, bits, count, range⟩ :=
      lead_two (n := v / 64 % 32) (by omega) (v % 64 + 0x80) (by omega)
    have code : 64 * (v / 64 % 32) + (v % 64 + 0x80 - 0x80) = v := by omega
    refine decodeFrom_lead position (by omega) first ?_ same ?_
    · exact count
    · rw [bits]
      apply follow_cons (by omega) range
      rw [code]
      rfl
  split
  case isTrue three =>
    obtain ⟨lead, first, bits, count, range⟩ :=
      lead_three (n := v / 4096 % 16) (by omega) (v / 64 % 64 + 0x80) (by omega) (by omega)
        (by omega)
    have code : 64 * (64 * (v / 4096 % 16) + (v / 64 % 64 + 0x80 - 0x80))
        + (v % 64 + 0x80 - 0x80) = v := by omega
    refine decodeFrom_lead position (by omega) first ?_ same ?_
    · exact count
    · rw [bits]
      apply follow_cons (by omega) range
      apply follow_cons (by omega) (by omega)
      rw [code]
      rfl
  case isFalse =>
    obtain ⟨lead, first, bits, count, range⟩ :=
      lead_four (n := v / 262144 % 8) (by omega) (v / 4096 % 64 + 0x80) (by omega) (by omega)
        (by omega)
    have code : 64 * (64 * (64 * (v / 262144 % 8) + (v / 4096 % 64 + 0x80 - 0x80))
        + (v / 64 % 64 + 0x80 - 0x80)) + (v % 64 + 0x80 - 0x80) = v := by omega
    refine decodeFrom_lead position (by omega) first ?_ same ?_
    · exact count
    · rw [bits]
      apply follow_cons (by omega) range
      apply follow_cons (by omega) (by omega)
      apply follow_cons (by omega) (by omega)
      rw [code]
      rfl

theorem toList_loop (bytes : ByteArray) (i : Nat) (before : List UInt8)
    : ByteArray.toList.loop bytes i before = before.reverse ++ bytes.data.toList.drop i := by
  fun_induction ByteArray.toList.loop bytes i before with
  | case1 i before inside ih =>
      have bound : i < bytes.data.toList.length := by simpa using inside
      rw [ih, List.drop_eq_getElem_cons bound]
      simp [ByteArray.get!, inside]
  | case2 i before outside =>
      have bound : bytes.data.toList.length ≤ i := by simpa using outside
      rw [List.drop_eq_nil_of_le bound, List.append_nil]

theorem toList_toByteArray (bytes : List UInt8) : bytes.toByteArray.toList = bytes := by
  rw [ByteArray.toList, toList_loop, List.toList_data_toByteArray]
  rfl

theorem encode_eq (text : String) : encode text = text.toList.flatMap String.utf8EncodeChar := by
  have bytes : encode (String.ofList text.toList)
      = text.toList.flatMap String.utf8EncodeChar := toList_toByteArray _
  rwa [String.ofList_toList] at bytes

theorem decodeFrom_encode (position : Nat) (text : List Char)
    : decodeFrom position (text.flatMap String.utf8EncodeChar) = .ok text := by
  induction text generalizing position with
  | nil =>
      rw [List.flatMap_nil, decodeFrom]
  | cons c text ih =>
      rw [List.flatMap_cons]
      obtain ⟨after, step⟩ := decodeFrom_encodeChar position c (text.flatMap String.utf8EncodeChar)
      rw [step, ih after]
      rfl

/-- A text is read from the bytes that write it. -/
theorem decode_encode (text : String) : decode (encode text) = .ok text.toList := by
  rw [encode_eq]
  exact decodeFrom_encode 0 text.toList

end Lox.Text.Utf8
