import QuorumKv.Text.Utf8

/-! Reading what was written gives the text back, and a line feed in the bytes is one in the
text. -/
namespace QuorumKv.Text.Utf8

theorem ofNat_between (low high : UInt8) (n : Nat) (hn : n < 256) :
    (low ≤ UInt8.ofNat n && UInt8.ofNat n ≤ high) =
      (decide (low.toNat ≤ n) && decide (n ≤ high.toNat)) := by
  have e : (UInt8.ofNat n).toNat = n := by simp [Nat.mod_eq_of_lt hn]
  simp only [UInt8.le_iff_toNat_le, e]

theorem ofNat_beq (b : UInt8) (n : Nat) (hn : n < 256) :
    (UInt8.ofNat n == b) = decide (n = b.toNat) := by
  have e : (UInt8.ofNat n).toNat = n := by simp [Nat.mod_eq_of_lt hn]
  rw [Bool.eq_iff_iff, beq_iff_eq, decide_eq_true_eq, ← UInt8.toNat_inj, e]

/-- The first byte of `n` says its own payload, and what may follow it. -/
theorem opening?_ofNat (n : Nat) (hn : n < 256) :
    opening? (UInt8.ofNat n) =
      if n ≤ 0x7F then some ⟨n, 0, 0x80, 0xBF⟩
      else if 0xC2 ≤ n ∧ n ≤ 0xDF then some ⟨n - 0xC0, 1, 0x80, 0xBF⟩
      else if n = 0xE0 then some ⟨0, 2, 0xA0, 0xBF⟩
      else if n = 0xED then some ⟨0xD, 2, 0x80, 0x9F⟩
      else if 0xE1 ≤ n ∧ n ≤ 0xEF then some ⟨n - 0xE0, 2, 0x80, 0xBF⟩
      else if n = 0xF0 then some ⟨0, 3, 0x90, 0xBF⟩
      else if 0xF1 ≤ n ∧ n ≤ 0xF3 then some ⟨n - 0xF0, 3, 0x80, 0xBF⟩
      else if n = 0xF4 then some ⟨4, 3, 0x80, 0x8F⟩
      else none := by
  have e : (UInt8.ofNat n).toNat = n := by simp [Nat.mod_eq_of_lt hn]
  have le : (UInt8.ofNat n ≤ (0x7F : UInt8)) ↔ n ≤ 0x7F := by
    simp only [UInt8.le_iff_toNat_le, e]; rfl
  unfold opening?
  simp only [le, ofNat_between _ _ n hn, ofNat_beq _ n hn, e, Bool.and_eq_true, decide_eq_true_eq]
  rfl

theorem follow_cons (n : Nat) (low high : UInt8) (point t : Nat) (rest : Bytes) (ht : t < 64)
    (hl : low.toNat ≤ t + 0x80) (hh : t + 0x80 ≤ high.toNat) :
    follow (n + 1) low high point (UInt8.ofNat (t + 0x80) :: rest) =
      follow n 0x80 0xBF (point * 64 + t) rest := by
  have e : (UInt8.ofNat (t + 0x80)).toNat = t + 0x80 := by
    simp [Nat.mod_eq_of_lt (show t + 0x80 < 256 by omega)]
  rw [follow, ofNat_between _ _ _ (by omega)]
  simp only [hl, hh, decide_true, Bool.and_self, if_true, e, Nat.add_sub_cancel]

/-- Bytes that follow the first one carry six bits each. -/
theorem follow_one (low high : UInt8) (point t v : Nat) (rest : Bytes) (ht : t < 64)
    (hl : low.toNat ≤ t + 0x80) (hh : t + 0x80 ≤ high.toNat) (join : point * 64 + t = v) :
    follow 1 low high point (UInt8.ofNat (t + 0x80) :: rest) = (some v, rest) := by
  rw [follow_cons 0 low high point t rest ht hl hh, join, follow]

theorem follow_two (low high : UInt8) (point t u v : Nat) (rest : Bytes) (ht : t < 64) (hu : u < 64)
    (hl : low.toNat ≤ t + 0x80) (hh : t + 0x80 ≤ high.toNat)
    (join : (point * 64 + t) * 64 + u = v) :
    follow 2 low high point (UInt8.ofNat (t + 0x80) :: UInt8.ofNat (u + 0x80) :: rest) =
      (some v, rest) := by
  rw [follow_cons 1 low high point t _ ht hl hh]
  exact follow_one _ _ _ u v rest hu (by simp) (by simp; omega) join

theorem follow_three (low high : UInt8) (point t u w v : Nat) (rest : Bytes) (ht : t < 64)
    (hu : u < 64) (hw : w < 64) (hl : low.toNat ≤ t + 0x80) (hh : t + 0x80 ≤ high.toNat)
    (join : ((point * 64 + t) * 64 + u) * 64 + w = v) :
    follow 3 low high point (UInt8.ofNat (t + 0x80) :: UInt8.ofNat (u + 0x80) ::
      UInt8.ofNat (w + 0x80) :: rest) = (some v, rest) := by
  rw [follow_cons 2 low high point t _ ht hl hh]
  exact follow_two _ _ _ u w v rest hu hw (by simp) (by simp; omega) join

theorem piece_of {b : UInt8} {o : Opening} {bytes rest : Bytes} {v : Nat}
    (opens : opening? b = some o)
    (follows : follow o.follow o.low o.high o.payload bytes = (some v, rest)) :
    piece b bytes = (.char (Char.ofNat v), rest) := by
  simp only [piece, opens, follows]

theorem piece_one (v : Nat) (hv : v ≤ 0x7F) (rest : Bytes) :
    piece (UInt8.ofNat v) rest = (.char (Char.ofNat v), rest) := by
  apply piece_of
  · rw [opening?_ofNat v (by omega), if_pos hv]
  · rfl

theorem piece_two (v : Nat) (lo : 0x7F < v) (hi : v ≤ 0x7FF) (rest : Bytes) :
    piece (UInt8.ofNat (v / 64 % 0x20 + 0xC0)) (UInt8.ofNat (v % 0x40 + 0x80) :: rest) =
      (.char (Char.ofNat v), rest) := by
  apply piece_of
  · rw [opening?_ofNat _ (by omega), if_neg (by omega), if_pos (by omega)]
  · exact follow_one _ _ _ _ v rest (by omega) (by simp) (by simp; omega) (by simp; omega)

/-- A surrogate is no character, which is what 0xED narrows its second byte for. -/
theorem piece_three (v : Nat) (lo : 0x7FF < v) (hi : v ≤ 0xFFFF)
    (valid : v < 0xD800 ∨ 0xDFFF < v) (rest : Bytes) :
    piece (UInt8.ofNat (v / 4096 % 0x10 + 0xE0)) (UInt8.ofNat (v / 64 % 0x40 + 0x80) ::
      UInt8.ofNat (v % 0x40 + 0x80) :: rest) = (.char (Char.ofNat v), rest) := by
  have opens := opening?_ofNat (v / 4096 % 0x10 + 0xE0) (by omega)
  rw [if_neg (by omega), if_neg (by omega)] at opens
  by_cases first : v / 4096 = 0
  · rw [if_pos (by omega)] at opens
    refine piece_of opens
        (follow_two _ _ _ _ _ v rest (by omega) (by omega) ?_ ?_ ?_) <;>
        simp <;> omega
  · rw [if_neg (by omega)] at opens
    by_cases narrow : v / 4096 = 0xD
    · rw [if_pos (by omega)] at opens
      refine piece_of opens
        (follow_two _ _ _ _ _ v rest (by omega) (by omega) ?_ ?_ ?_) <;>
        simp <;> omega
    · rw [if_neg (by omega), if_pos (by omega)] at opens
      refine piece_of opens
        (follow_two _ _ _ _ _ v rest (by omega) (by omega) ?_ ?_ ?_) <;>
        simp <;> omega

theorem piece_four (v : Nat) (lo : 0xFFFF < v) (hi : v < 0x110000) (rest : Bytes) :
    piece (UInt8.ofNat (v / 262144 % 0x08 + 0xF0)) (UInt8.ofNat (v / 4096 % 0x40 + 0x80) ::
      UInt8.ofNat (v / 64 % 0x40 + 0x80) :: UInt8.ofNat (v % 0x40 + 0x80) :: rest) =
      (.char (Char.ofNat v), rest) := by
  have opens := opening?_ofNat (v / 262144 % 0x08 + 0xF0) (by omega)
  rw [if_neg (by omega), if_neg (by omega), if_neg (by omega), if_neg (by omega),
    if_neg (by omega)] at opens
  by_cases first : v / 262144 = 0
  · rw [if_pos (by omega)] at opens
    refine piece_of opens
        (follow_three _ _ _ _ _ _ v rest (by omega) (by omega) (by omega) ?_ ?_ ?_) <;>
        simp <;> omega
  · rw [if_neg (by omega)] at opens
    by_cases last : v / 262144 = 4
    · rw [if_neg (by omega), if_pos (by omega)] at opens
      refine piece_of opens
        (follow_three _ _ _ _ _ _ v rest (by omega) (by omega) (by omega) ?_ ?_ ?_) <;>
        simp <;> omega
    · rw [if_pos (by omega)] at opens
      refine piece_of opens
        (follow_three _ _ _ _ _ _ v rest (by omega) (by omega) (by omega) ?_ ?_ ?_) <;>
        simp <;> omega

/-- A written character is read as one piece, whatever follows it. -/
theorem pieces_encodeChar (c : Char) (rest : Bytes) :
    pieces (String.utf8EncodeChar c ++ rest) = .char c :: pieces rest := by
  have valid : c.val.toNat < 0xD800 ∨ 0xDFFF < c.val.toNat ∧ c.val.toNat < 0x110000 := c.valid
  have back : Char.ofNat c.val.toNat = c := Char.ofNat_toNat c
  unfold String.utf8EncodeChar
  dsimp only
  split
  · rw [List.cons_append, pieces, piece_one _ ‹_›, back, List.nil_append]
  · split
    · rw [List.cons_append, List.cons_append, pieces, piece_two _ (by omega) ‹_›, back,
        List.nil_append]
    · split
      · simp only [List.cons_append, List.nil_append]
        rw [pieces, piece_three _ (by omega) ‹_› (by omega), back]
      · simp only [List.cons_append, List.nil_append]
        rw [pieces, piece_four _ (by omega) (by omega), back]

theorem pieces_nil : pieces [] = [] := by
  rw [pieces]

theorem pieces_encode (cs : List Char) :
    pieces (cs.flatMap String.utf8EncodeChar) = cs.map .char := by
  induction cs with
  | nil => exact pieces_nil
  | cons c cs ih => rw [List.flatMap_cons, pieces_encodeChar, ih, List.map_cons]

theorem decodeLossy_encode (text : String) : decodeLossy (encode text) = text := by
  have shown : Piece.shown ∘ Piece.char = id := rfl
  rw [decodeLossy, encode, pieces_encode, List.map_map, shown, List.map_id, String.ofList_toList]

theorem decode?_encode (text : String) : decode? (encode text) = some text := by
  have read : (text.toList.map Piece.char).mapM Piece.char? = some text.toList := by
    rw [List.mapM_map]
    exact (List.mapM_pure).trans (congrArg some (List.map_id' _))
  rw [decode?, encode, pieces_encode, read, Option.map_some, String.ofList_toList]

theorem encode_append (s t : String) : encode (s ++ t) = encode s ++ encode t := by
  simp [encode]

theorem length_encode (text : String) : (encode text).length = text.utf8ByteSize := by
  rw [← String.size_toByteArray, ← String.utf8Encode_toList, List.utf8Encode,
    List.size_toByteArray, encode]

theorem val_ofNat {v : Nat} (valid : v < 0xD800 ∨ 0xDFFF < v ∧ v < 0x110000) :
    (Char.ofNat v).val.toNat = v := by
  have known : v.isValidChar := valid
  rw [Char.ofNat, dif_pos known]
  rfl

theorem encodeChar_of_ascii {c : Char} (ascii : c.toNat < 0x80) :
    String.utf8EncodeChar c = [UInt8.ofNat c.toNat] := by
  unfold String.utf8EncodeChar
  exact if_pos (Nat.le_of_lt_succ ascii)

/-- Outside ASCII no byte of a character is one of ASCII. -/
theorem high_of_mem_encodeChar {c : Char} (wide : 0x80 ≤ c.toNat) {b : UInt8}
    (listed : b ∈ String.utf8EncodeChar c) : 0x80 ≤ b := by
  have high : ∀ n : Nat, 0x80 ≤ n → n < 256 → (0x80 : UInt8) ≤ UInt8.ofNat n := by
    intro n low bound
    simpa [UInt8.le_iff_toNat_le, Nat.mod_eq_of_lt bound] using low
  have point : ¬ c.val.toNat ≤ 0x7F := Nat.not_le.mpr wide
  unfold String.utf8EncodeChar at listed
  dsimp only at listed
  rw [if_neg point] at listed
  split at listed
  · simp only [List.mem_cons, List.not_mem_nil, or_false] at listed
    obtain rfl | rfl := listed <;> exact high _ (by omega) (by omega)
  · split at listed <;> simp only [List.mem_cons, List.not_mem_nil, or_false] at listed
    · obtain rfl | rfl | rfl := listed <;> exact high _ (by omega) (by omega)
    · obtain rfl | rfl | rfl | rfl := listed <;> exact high _ (by omega) (by omega)

theorem lf_mem_encodeChar (c : Char) : Bytes.lf ∈ String.utf8EncodeChar c ↔ c = '\n' := by
  constructor
  · intro listed
    by_cases ascii : c.toNat < 0x80
    · rw [encodeChar_of_ascii ascii, List.mem_singleton, ← UInt8.toNat_inj] at listed
      have point : c.toNat = Bytes.lf.toNat := by
        simpa [Nat.mod_eq_of_lt (show c.toNat < 256 by omega)] using listed.symm
      rw [← Char.ofNat_toNat c, point]
      decide
    · exact absurd (high_of_mem_encodeChar (Nat.not_lt.mp ascii) listed) (by decide)
  · rintro rfl
    decide

/-- A line feed in the bytes is one in the text. -/
theorem lf_mem_encode (text : String) : Bytes.lf ∈ encode text ↔ '\n' ∈ text.toList := by
  simp only [encode, List.mem_flatMap, lf_mem_encodeChar, exists_eq_right]

end QuorumKv.Text.Utf8
