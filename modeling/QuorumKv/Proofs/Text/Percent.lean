import Mathlib.Data.List.Basic
import QuorumKv.Text.Percent
import QuorumKv.Proofs.Text.Utf8

/-! What is percent-encoded reads back as it was, also when it is encoded a second time by a rule
that leaves escapes alone. -/
namespace QuorumKv.Text.Percent

/-- The characters of an escape. -/
def escapeChars : List Char := "%0123456789ABCDEF".toList

/-- A rule that leaves the escapes of another one as they are. -/
def SparesEscapes (special : UInt8 → Bool) : Prop :=
  ∀ c ∈ escapeChars, special (UInt8.ofNat c.toNat) = false

theorem upperDigit_of_lt {n : Nat} (small : n < 16) :
    upperDigit n < 0x80 ∧ hexByte? (upperDigit n) = some n ∧
      Char.ofNat (upperDigit n).toNat ∈ escapeChars := by
  have each : ∀ n < 16, upperDigit n < 0x80 ∧ hexByte? (upperDigit n) = some n ∧
      Char.ofNat (upperDigit n).toNat ∈ escapeChars := by decide
  exact each n small

theorem ascii_escapeByte {b d : UInt8} (listed : d ∈ escapeByte b) :
    d < 0x80 ∧ Char.ofNat d.toNat ∈ escapeChars := by
  have bound := b.toNat_lt
  simp only [escapeByte, List.mem_cons, List.not_mem_nil, or_false] at listed
  obtain rfl | rfl | rfl := listed
  · decide
  · have digit := upperDigit_of_lt (show b.toNat / 16 < 16 by omega)
    exact ⟨digit.1, digit.2.2⟩
  · have digit := upperDigit_of_lt (show b.toNat % 16 < 16 by omega)
    exact ⟨digit.1, digit.2.2⟩

theorem decodeBytes_escapeByte (b : UInt8) (rest : Bytes) :
    decodeBytes (escapeByte b ++ rest) = b :: decodeBytes rest := by
  have bound := b.toNat_lt
  have high := (upperDigit_of_lt (show b.toNat / 16 < 16 by omega)).2.1
  have low := (upperDigit_of_lt (show b.toNat % 16 < 16 by omega)).2.1
  have join : b.toNat / 16 * 16 + b.toNat % 16 = b.toNat := by omega
  simp only [escapeByte, List.cons_append, List.nil_append, decodeBytes, high, low, join,
    UInt8.ofNat_toNat]

theorem decodeBytes_cons {b : UInt8} (plain : b ≠ 37) (rest : Bytes) :
    decodeBytes (b :: rest) = b :: decodeBytes rest := by
  rw [decodeBytes]
  intro _ _ _ same _
  exact plain same

theorem decodeBytes_encodeBytes {special : UInt8 → Bool} (mark : special 37 = true)
    (bytes : Bytes) : decodeBytes (encodeBytes special bytes) = bytes := by
  induction bytes with
  | nil => rfl
  | cons b rest ih =>
    rw [encodeBytes, List.flatMap_cons, ← encodeBytes]
    split
    · rw [decodeBytes_escapeByte, ih]
    · rename_i shown
      have plain : b ≠ 37 := by
        rintro rfl
        simp [mark] at shown
      rw [List.singleton_append, decodeBytes_cons plain, ih]

/-- What a character is written as. -/
def charText (special : UInt8 → Bool) (c : Char) : List Char :=
  (encodeBytes special (String.utf8EncodeChar c)).map fun b => Char.ofNat b.toNat

theorem encodeBytes_flatMap {α : Type} (special : UInt8 → Bool) (f : α → Bytes) (as : List α) :
    encodeBytes special (as.flatMap f) = as.flatMap fun a => encodeBytes special (f a) := by
  simp only [encodeBytes, List.flatMap_assoc]

theorem toList_encode (special : UInt8 → Bool) (text : String) :
    (encode special text).toList = text.toList.flatMap (charText special) := by
  rw [encode, String.toList_ofList, Utf8.encode, encodeBytes_flatMap, List.map_flatMap]
  rfl

/-- A character stands for itself or is escaped as a whole. -/
theorem charText_cases (special : UInt8 → Bool) (c : Char) :
    (charText special c = [c] ∧ special (UInt8.ofNat c.toNat) = false) ∨
      ∀ d ∈ charText special c, d ∈ escapeChars := by
  by_cases shown : c.toNat < 0x80 ∧ special (UInt8.ofNat c.toNat) = false
  · refine .inl ⟨?_, shown.2⟩
    have small : ¬ (0x80 : UInt8) ≤ UInt8.ofNat c.toNat := by
      simp [UInt8.le_iff_toNat_le, Nat.mod_eq_of_lt (show c.toNat < 256 by omega)]
      omega
    simp [charText, encodeBytes, Utf8.encodeChar_of_ascii shown.1, small, shown.2,
      Nat.mod_eq_of_lt (show c.toNat < 256 by omega)]
  · refine .inr fun d listed => ?_
    have escaped : ∀ b ∈ String.utf8EncodeChar c, 0x80 ≤ b || special b := by
      intro b here
      by_cases ascii : c.toNat < 0x80
      · rw [Utf8.encodeChar_of_ascii ascii, List.mem_singleton] at here
        have marked : special (UInt8.ofNat c.toNat) = true := by
          simpa [ascii] using shown
        simp [here, marked]
      · simp [Utf8.high_of_mem_encodeChar (Nat.not_lt.mp ascii) here]
    obtain ⟨e, written, rfl⟩ := List.mem_map.mp listed
    obtain ⟨b, here, written⟩ := List.mem_flatMap.mp written
    rw [if_pos (escaped b here)] at written
    exact (ascii_escapeByte written).2

theorem mem_encode {special : UInt8 → Bool} {text : String} {d : Char}
    (listed : d ∈ (encode special text).toList) :
    d ∈ escapeChars ∨ d ∈ text.toList ∧ special (UInt8.ofNat d.toNat) = false := by
  rw [toList_encode] at listed
  obtain ⟨c, held, here⟩ := List.mem_flatMap.mp listed
  obtain ⟨same, shown⟩ | escaped := charText_cases special c
  · rw [same, List.mem_singleton] at here
    exact .inr (here ▸ ⟨held, shown⟩)
  · exact .inl (escaped d here)

theorem ascii_encodeBytes {special : UInt8 → Bool} {bytes : Bytes} {d : UInt8}
    (listed : d ∈ encodeBytes special bytes) : d < 0x80 := by
  obtain ⟨b, -, here⟩ := List.mem_flatMap.mp listed
  split at here
  · exact (ascii_escapeByte here).1
  · rename_i shown
    rw [List.mem_singleton.mp here]
    simp only [Bool.or_eq_true, decide_eq_true_eq, not_or, UInt8.not_le] at shown
    exact shown.1

/-- ASCII as text has the bytes that it was made of. -/
theorem encode_ofAscii (bytes : Bytes) (ascii : ∀ b ∈ bytes, b < 0x80) :
    Utf8.encode (String.ofList (bytes.map fun b => Char.ofNat b.toNat)) = bytes := by
  have one : ∀ b ∈ bytes, String.utf8EncodeChar (Char.ofNat b.toNat) = [b] := by
    intro b listed
    have small : b.toNat < 0x80 := UInt8.lt_iff_toNat_lt.mp (ascii b listed)
    have point : (Char.ofNat b.toNat).toNat = b.toNat := Utf8.val_ofNat (.inl (by omega))
    rw [Utf8.encodeChar_of_ascii (by omega), point, UInt8.ofNat_toNat]
  rw [Utf8.encode, String.toList_ofList, List.flatMap_map, List.flatMap_congr one,
    List.flatMap_singleton']

theorem utf8_encode (special : UInt8 → Bool) (text : String) :
    Utf8.encode (encode special text) = encodeBytes special (Utf8.encode text) :=
  encode_ofAscii _ fun _ => ascii_encodeBytes

theorem decode_encode {special : UInt8 → Bool} (mark : special 37 = true) (text : String) :
    decodeBytes (Utf8.encode (encode special text)) = Utf8.encode text := by
  rw [utf8_encode, decodeBytes_encodeBytes mark]

theorem encodeBytes_escapeByte {special : UInt8 → Bool} (spares : SparesEscapes special)
    (b : UInt8) : encodeBytes special (escapeByte b) = escapeByte b := by
  have each : ∀ d ∈ escapeByte b, (if 0x80 ≤ d || special d then escapeByte d else [d]) = [d] := by
    intro d listed
    obtain ⟨ascii, escape⟩ := ascii_escapeByte listed
    have spared := spares _ escape
    have small : d.toNat < 0x80 := UInt8.lt_iff_toNat_lt.mp ascii
    have point : (Char.ofNat d.toNat).toNat = d.toNat := Utf8.val_ofNat (.inl (by omega))
    rw [point, UInt8.ofNat_toNat] at spared
    rw [if_neg (by simpa [spared] using ascii)]
  rw [encodeBytes, List.flatMap_congr each, List.flatMap_singleton']

/-- Two rules in turn are one that escapes what either escapes. -/
theorem encodeBytes_encodeBytes {outer : UInt8 → Bool} (inner : UInt8 → Bool)
    (spares : SparesEscapes outer) (bytes : Bytes) :
    encodeBytes outer (encodeBytes inner bytes) =
      encodeBytes (fun b => inner b || outer b) bytes := by
  rw [encodeBytes.eq_1 inner, encodeBytes_flatMap, encodeBytes.eq_1 fun b => inner b || outer b]
  refine List.flatMap_congr fun b _ => ?_
  by_cases escaped : 0x80 ≤ b || inner b
  · have either : (0x80 ≤ b || (inner b || outer b)) = true := by
      rw [← Bool.or_assoc, escaped, Bool.true_or]
    rw [if_pos escaped, if_pos either, encodeBytes_escapeByte spares]
  · rw [if_neg escaped, encodeBytes, List.flatMap_singleton, ← Bool.or_assoc,
      Bool.eq_false_iff.mpr escaped, Bool.false_or]
    simp only [Bool.or_eq_true, not_or] at escaped
    rw [Bool.eq_false_iff.mpr escaped.1, Bool.false_or]

theorem decode_encode_encode {inner outer : UInt8 → Bool} (mark : inner 37 = true)
    (spares : SparesEscapes outer) (text : String) :
    decodeBytes (Utf8.encode (encode outer (encode inner text))) = Utf8.encode text := by
  rw [utf8_encode, utf8_encode, encodeBytes_encodeBytes inner spares, decodeBytes_encodeBytes]
  simp [mark]

end QuorumKv.Text.Percent
