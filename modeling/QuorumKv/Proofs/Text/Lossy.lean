import Mathlib.Data.List.TakeWhile
import QuorumKv.Proofs.Text.Blank
import QuorumKv.Proofs.Text.Utf8
import QuorumKv.Total

/-! How much of the bytes that were read is found again in the text. A character takes as many bytes
as it has in UTF-8, except for U+FFFD, which a single broken byte may have become. -/
namespace QuorumKv.Text

namespace Utf8

theorem follow_succ_some {n : Nat} {low high : UInt8} {point v : Nat} {bytes left : Bytes}
    (read : follow (n + 1) low high point bytes = (some v, left)) :
    ∃ b rest, bytes = b :: rest ∧ low.toNat ≤ b.toNat ∧ b.toNat ≤ high.toNat ∧
      follow n 0x80 0xBF (point * 64 + (b.toNat - 0x80)) rest = (some v, left) := by
  cases bytes with
  | nil => simp [follow] at read
  | cons b rest =>
    rw [follow] at read
    split at read
    · rename_i between
      simp only [Bool.and_eq_true, decide_eq_true_eq, UInt8.le_iff_toNat_le] at between
      exact ⟨b, rest, rfl, between.1, between.2, read⟩
    · simp at read

theorem follow_one_some {low high : UInt8} {point v : Nat} {bytes left : Bytes}
    (read : follow 1 low high point bytes = (some v, left)) :
    ∃ b, bytes = b :: left ∧ low.toNat ≤ b.toNat ∧ b.toNat ≤ high.toNat ∧
      v = point * 64 + (b.toNat - 0x80) := by
  obtain ⟨b, rest, rfl, low_le, le_high, read⟩ := follow_succ_some read
  simp only [follow, Prod.mk.injEq, Option.some.injEq] at read
  obtain ⟨rfl, rfl⟩ := read
  exact ⟨b, rfl, low_le, le_high, rfl⟩

theorem follow_two_some {low high : UInt8} {point v : Nat} {bytes left : Bytes}
    (read : follow 2 low high point bytes = (some v, left)) :
    ∃ b d, bytes = b :: d :: left ∧ low.toNat ≤ b.toNat ∧ b.toNat ≤ high.toNat ∧
      0x80 ≤ d.toNat ∧ d.toNat ≤ 0xBF ∧
      v = (point * 64 + (b.toNat - 0x80)) * 64 + (d.toNat - 0x80) := by
  obtain ⟨b, rest, rfl, low_le, le_high, read⟩ := follow_succ_some read
  obtain ⟨d, rfl, more, less, value⟩ := follow_one_some read
  exact ⟨b, d, rfl, low_le, le_high, by simpa using more, by simpa using less, value⟩

theorem follow_three_some {low high : UInt8} {point v : Nat} {bytes left : Bytes}
    (read : follow 3 low high point bytes = (some v, left)) :
    ∃ b d e, bytes = b :: d :: e :: left ∧ low.toNat ≤ b.toNat ∧ b.toNat ≤ high.toNat ∧
      0x80 ≤ d.toNat ∧ d.toNat ≤ 0xBF ∧ 0x80 ≤ e.toNat ∧ e.toNat ≤ 0xBF ∧
      v = ((point * 64 + (b.toNat - 0x80)) * 64 + (d.toNat - 0x80)) * 64 + (e.toNat - 0x80) := by
  obtain ⟨b, rest, rfl, low_le, le_high, read⟩ := follow_succ_some read
  obtain ⟨d, e, rfl, more, less, others⟩ := follow_two_some read
  exact ⟨b, d, e, rfl, low_le, le_high, by simpa using more, by simpa using less, others⟩

theorem eq_ofNat {b : UInt8} {n : Nat} (same : b.toNat = n) : b = UInt8.ofNat n := by
  rw [← same, UInt8.ofNat_toNat]

theorem encodeChar_one {b : UInt8} {v : Nat} {left : Bytes} (small : v ≤ 0x7F)
    (first : b.toNat = v) : b :: left = String.utf8EncodeChar (Char.ofNat v) ++ left := by
  unfold String.utf8EncodeChar
  dsimp only
  rw [val_ofNat (by omega), if_pos small, eq_ofNat first]
  rfl

theorem encodeChar_two {b low high : UInt8} {payload v : Nat} {bytes left : Bytes}
    (read : follow 1 low high payload bytes = (some v, left)) (first : b.toNat = payload + 0xC0)
    (some_bits : 2 ≤ payload) (few : payload < 0x20) (low_ge : 0x80 ≤ low.toNat)
    (high_le : high.toNat ≤ 0xBF) :
    b :: bytes = String.utf8EncodeChar (Char.ofNat v) ++ left := by
  obtain ⟨d, rfl, more, less, value⟩ := follow_one_some read
  unfold String.utf8EncodeChar
  dsimp only
  rw [val_ofNat (by omega), if_neg (by omega), if_pos (by omega),
    @eq_ofNat b (v / 64 % 0x20 + 0xC0) (by omega), @eq_ofNat d (v % 0x40 + 0x80) (by omega)]
  rfl

/-- The bounds on the second byte keep out what is shorter in UTF-8, and surrogates. -/
theorem encodeChar_three {b low high : UInt8} {payload v : Nat} {bytes left : Bytes}
    (read : follow 2 low high payload bytes = (some v, left)) (first : b.toNat = payload + 0xE0)
    (few : payload < 0x10) (low_ge : 0x80 ≤ low.toNat) (high_le : high.toNat ≤ 0xBF)
    (long : payload = 0 → 0xA0 ≤ low.toNat) (scalar : payload = 0xD → high.toNat ≤ 0x9F) :
    b :: bytes = String.utf8EncodeChar (Char.ofNat v) ++ left := by
  obtain ⟨d, e, rfl, more, less, more', less', value⟩ := follow_two_some read
  unfold String.utf8EncodeChar
  dsimp only
  rw [val_ofNat (by omega), if_neg (by omega), if_neg (by omega), if_pos (by omega),
    @eq_ofNat b (v / 4096 % 0x10 + 0xE0) (by omega),
    @eq_ofNat d (v / 64 % 0x40 + 0x80) (by omega), @eq_ofNat e (v % 0x40 + 0x80) (by omega)]
  rfl

theorem encodeChar_four {b low high : UInt8} {payload v : Nat} {bytes left : Bytes}
    (read : follow 3 low high payload bytes = (some v, left)) (first : b.toNat = payload + 0xF0)
    (few : payload ≤ 4) (low_ge : 0x80 ≤ low.toNat) (high_le : high.toNat ≤ 0xBF)
    (long : payload = 0 → 0x90 ≤ low.toNat) (scalar : payload = 4 → high.toNat ≤ 0x8F) :
    b :: bytes = String.utf8EncodeChar (Char.ofNat v) ++ left := by
  obtain ⟨d, e, f, rfl, more, less, more', less', more'', less'', value⟩ := follow_three_some read
  unfold String.utf8EncodeChar
  dsimp only
  rw [val_ofNat (by omega), if_neg (by omega), if_neg (by omega), if_neg (by omega),
    @eq_ofNat b (v / 262144 % 0x08 + 0xF0) (by omega),
    @eq_ofNat d (v / 4096 % 0x40 + 0x80) (by omega),
    @eq_ofNat e (v / 64 % 0x40 + 0x80) (by omega), @eq_ofNat f (v % 0x40 + 0x80) (by omega)]
  rfl

/-- A piece that is a character took exactly the bytes of that character. -/
theorem encodeChar_of_piece {b : UInt8} {c : Char} {rest left : Bytes}
    (read : piece b rest = (.char c, left)) : b :: rest = String.utf8EncodeChar c ++ left := by
  have announced := opening?_ofNat b.toNat b.toNat_lt
  rw [UInt8.ofNat_toNat] at announced
  unfold piece at read
  split at read
  · simp at read
  · rename_i o opens
    rw [opens] at announced
    split at read
    · rename_i point left' followed
      simp only [Prod.mk.injEq, Piece.char.injEq] at read
      obtain ⟨rfl, rfl⟩ := read
      -- one case for each row of the table of first bytes
      repeat' split at announced
      all_goals simp only [Option.some.injEq, reduceCtorEq] at announced
      all_goals subst announced
      all_goals dsimp only at followed
      · simp only [follow, Prod.mk.injEq, Option.some.injEq] at followed
        obtain ⟨rfl, rfl⟩ := followed
        exact encodeChar_one ‹_› rfl
      · exact encodeChar_two followed (by omega) (by omega) (by omega) (by simp) (by simp)
      · exact encodeChar_three followed (by omega) (by omega) (by simp) (by simp) (by simp)
          (by simp)
      · exact encodeChar_three followed (by omega) (by omega) (by simp) (by simp) (by simp)
          (by simp)
      · exact encodeChar_three followed (by omega) (by omega) (by simp) (by simp)
          (by omega) (by omega)
      · exact encodeChar_four followed (by omega) (by omega) (by simp) (by simp) (by simp) (by simp)
      · exact encodeChar_four followed (by omega) (by omega) (by simp) (by simp)
          (by omega) (by omega)
      · exact encodeChar_four followed (by omega) (by omega) (by simp) (by simp) (by simp) (by simp)
    · simp at read

/-- A byte with which reading begins anew, whatever was read before. -/
def IsStart (b : UInt8) : Prop :=
  b < 0x80 ∨ 0xBF < b

instance (b : UInt8) : Decidable (IsStart b) :=
  inferInstanceAs (Decidable (b < 0x80 ∨ 0xBF < b))

theorem bounds_of_opening {b : UInt8} {o : Opening} (opens : opening? b = some o) :
    0x80 ≤ o.low ∧ o.high ≤ 0xBF := by
  unfold opening? at opens
  repeat' split at opens
  all_goals simp only [Option.some.injEq, reduceCtorEq] at opens
  all_goals
    subst opens
    dsimp only
    decide

theorem follow_append {n : Nat} {low high : UInt8} {point : Nat} {b : UInt8} (bytes rest : Bytes)
    (low_ge : 0x80 ≤ low) (high_le : high ≤ 0xBF) (start : IsStart b) :
    follow n low high point (bytes ++ b :: rest) =
      ((follow n low high point bytes).1, (follow n low high point bytes).2 ++ b :: rest) := by
  induction n generalizing low high point bytes with
  | zero => rfl
  | succ n ih =>
    cases bytes with
    | nil =>
      have outside : ¬(low ≤ b ∧ b ≤ high) := by
        rintro ⟨above, below⟩
        obtain ascii | lead := start
        · exact absurd (UInt8.le_trans low_ge above) (UInt8.not_le.mpr ascii)
        · exact absurd (UInt8.le_trans below high_le) (UInt8.not_le.mpr lead)
      simp [follow, outside]
    | cons d bytes =>
      rw [List.cons_append, follow, follow]
      split
      · exact ih bytes (UInt8.le_refl _) (UInt8.le_refl _)
      · rfl

theorem piece_append {b d : UInt8} (bytes rest : Bytes) (start : IsStart b) :
    piece d (bytes ++ b :: rest) = ((piece d bytes).1, (piece d bytes).2 ++ b :: rest) := by
  unfold piece
  split
  · rfl
  · rename_i o opens
    obtain ⟨low_ge, high_le⟩ := bounds_of_opening opens
    rw [follow_append bytes rest low_ge high_le start]
    rcases follow o.follow o.low o.high o.payload bytes with ⟨point, left⟩
    cases point <;> rfl

theorem pieces_append {b : UInt8} (bytes rest : Bytes) (start : IsStart b) :
    pieces (bytes ++ b :: rest) = pieces bytes ++ pieces (b :: rest) := by
  fun_induction pieces bytes with
  | case1 => rfl
  | case2 d bytes ih => rw [List.cons_append, pieces, piece_append bytes rest start, ih]; rfl

theorem decodeLossy_lf (bytes : Bytes) :
    decodeLossy (bytes ++ [Bytes.lf]) = decodeLossy bytes ++ "\n" := by
  have single : pieces [Bytes.lf] = [.char '\n'] := pieces_encode ['\n']
  rw [decodeLossy, pieces_append bytes [] (by decide), single, List.map_append,
    String.ofList_append]
  rfl

/-- The least number of bytes that are read as a character. -/
def leastSize (c : Char) : Nat :=
  if c = replacement then 1 else c.utf8Size

def leastRoom (cs : List Char) : Nat :=
  total (cs.map leastSize)

theorem leastSize_pos (c : Char) : 0 < leastSize c := by
  unfold leastSize
  split
  · decide
  · exact c.utf8Size_pos

theorem leastSize_le (c : Char) : leastSize c ≤ c.utf8Size := by
  unfold leastSize
  split
  · exact c.utf8Size_pos
  · exact Nat.le_refl _

theorem leastRoom_cons (c : Char) (cs : List Char) :
    leastRoom (c :: cs) = leastSize c + leastRoom cs :=
  rfl

theorem leastRoom_append (cs ds : List Char) :
    leastRoom (cs ++ ds) = leastRoom cs + leastRoom ds := by
  simp [leastRoom, total_append]

/-- In a text without U+FFFD nothing is lost. -/
theorem leastRoom_of_whole {text : String} (whole : replacement ∉ text.toList) :
    leastRoom text.toList = text.utf8ByteSize := by
  have each (cs : List Char) (other : replacement ∉ cs) :
      leastRoom cs = (cs.flatMap String.utf8EncodeChar).length := by
    induction cs with
    | nil => rfl
    | cons c cs ih =>
      rw [List.mem_cons, not_or] at other
      have kept : leastSize c = c.utf8Size := if_neg (Ne.symm other.1)
      rw [leastRoom_cons, kept, ih other.2, List.flatMap_cons, List.length_append,
        String.length_utf8EncodeChar]
  rw [← length_encode, encode, each _ whole]

theorem leastSize_piece_le (b : UInt8) (rest : Bytes) :
    leastSize (piece b rest).1.shown + (piece b rest).2.length ≤ rest.length + 1 := by
  cases read : piece b rest with
  | mk first left =>
    cases first with
    | char c =>
      have parts := congrArg List.length (encodeChar_of_piece read)
      have least := leastSize_le c
      rw [List.length_append, String.length_utf8EncodeChar, List.length_cons] at parts
      change leastSize c + left.length ≤ rest.length + 1
      omega
    | broken =>
      have shorter := length_piece_le b rest
      have one : leastSize Piece.broken.shown = 1 := rfl
      rw [read] at shorter
      rw [one]
      omega

theorem leastRoom_decodeLossy_le (bytes : Bytes) :
    leastRoom (decodeLossy bytes).toList ≤ bytes.length := by
  rw [decodeLossy, String.toList_ofList]
  fun_induction pieces bytes with
  | case1 => exact Nat.le_refl 0
  | case2 b rest ih =>
    have first := leastSize_piece_le b rest
    rw [List.map_cons, leastRoom_cons, List.length_cons]
    omega

end Utf8

/-- Every word of a text that ends in a blank took its own bytes and those of a blank. Blanks at the
front are for none of the words, which is what carries the induction over a word. -/
theorem room_words_le {cs : List Char} (ends : ∀ c, cs.getLast? = some c → isBlank c = true) :
    total ((words cs).map fun w => Utf8.leastRoom w + 1) ≤ Utf8.leastRoom cs ∧
      (∀ c, cs.head? = some c → isBlank c = true →
        total ((words cs).map fun w => Utf8.leastRoom w + 1) < Utf8.leastRoom cs) := by
  fun_induction words cs with
  | case1 => simp [Utf8.leastRoom, total]
  | case2 c cs blank ih =>
    have later := (ih fun d last => ends d (by rw [List.getLast?_cons, last]; rfl)).1
    have some_room := Utf8.leastSize_pos c
    rw [Utf8.leastRoom_cons]
    exact ⟨by omega, fun _ _ _ => by omega⟩
  | case3 c cs solid ih =>
    have parts : c :: cs = (c :: cs.takeWhile (!isBlank ·)) ++ cs.dropWhile (!isBlank ·) := by
      rw [List.cons_append, List.takeWhile_append_dropWhile]
    have room := congrArg Utf8.leastRoom parts
    rw [Utf8.leastRoom_append] at room
    have no_blank : ∀ d, (c :: cs).head? = some d → isBlank d ≠ true := by
      rintro _ ⟨⟩
      exact solid
    refine ⟨?_, fun d first blank => absurd blank (no_blank d first)⟩
    cases left : cs.dropWhile (!isBlank ·) with
    | nil =>
      have word : ∀ d ∈ c :: cs, isBlank d = false := by
        rw [List.forall_mem_cons]
        exact ⟨by simpa using solid, by simpa using List.dropWhile_eq_nil_iff.mp left⟩
      have last := List.getLast?_eq_some_getLast (List.cons_ne_nil c cs)
      exact absurd (ends _ last) (by simp [word _ (List.getLast_mem _)])
    | cons d ds =>
      have blank : isBlank d = true := by
        have stopped := List.head?_dropWhile_not (!isBlank ·) cs
        simpa [left] using stopped
      have ending : ∀ e, (cs.dropWhile (!isBlank ·)).getLast? = some e → isBlank e = true := by
        intro e last
        apply ends
        rw [parts, List.getLast?_append, last, Option.some_or]
      have later := (ih ending).2 d (by rw [left]; rfl) blank
      rw [left] at later room
      rw [List.map_cons, total]
      omega

/-- The words of a line, each with one blank behind it, take no more than the line. -/
theorem room_splitWords_le (bytes : Bytes) :
    total ((splitWords (Utf8.decodeLossy (bytes ++ [Bytes.lf]))).map
      fun w => Utf8.leastRoom w.toList + 1) ≤ bytes.length + 1 := by
  have ends : ∀ c, (Utf8.decodeLossy (bytes ++ [Bytes.lf])).toList.getLast? = some c →
      isBlank c = true := by
    intro c last
    rw [Utf8.decodeLossy_lf, String.toList_append, List.getLast?_append] at last
    obtain rfl : '\n' = c := by simpa using last
    decide
  have words_le := (room_words_le ends).1
  have text_le := Utf8.leastRoom_decodeLossy_le (bytes ++ [Bytes.lf])
  rw [List.length_append, List.length_singleton] at text_le
  rw [splitWords, List.map_map]
  simp only [Function.comp_def, String.toList_ofList]
  exact Nat.le_trans words_le text_le

end QuorumKv.Text
