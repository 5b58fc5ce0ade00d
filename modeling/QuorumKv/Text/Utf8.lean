import QuorumKv.Bytes

/-! UTF-8 (RFC 3629). Reading yields one piece per character and one per broken sequence, so the
strict and the forgiving decoder differ only in what they make of a broken piece. -/
namespace QuorumKv.Text.Utf8

/-- What a first byte announces: its own payload, how many bytes follow, and the bounds on the
first of those. Later ones are always 0x80 to 0xBF. -/
structure Opening where
  payload : Nat
  follow : Nat
  low : UInt8
  high : UInt8

def opening? (b : UInt8) : Option Opening :=
  if b ≤ 0x7F then some ⟨b.toNat, 0, 0x80, 0xBF⟩
  else if 0xC2 ≤ b && b ≤ 0xDF then some ⟨b.toNat - 0xC0, 1, 0x80, 0xBF⟩
  else if b == 0xE0 then some ⟨0, 2, 0xA0, 0xBF⟩
  else if b == 0xED then some ⟨0xD, 2, 0x80, 0x9F⟩
  else if 0xE1 ≤ b && b ≤ 0xEF then some ⟨b.toNat - 0xE0, 2, 0x80, 0xBF⟩
  else if b == 0xF0 then some ⟨0, 3, 0x90, 0xBF⟩
  else if 0xF1 ≤ b && b ≤ 0xF3 then some ⟨b.toNat - 0xF0, 3, 0x80, 0xBF⟩
  else if b == 0xF4 then some ⟨4, 3, 0x80, 0x8F⟩
  else none

/-- The code point once all announced bytes are read, or none at the first byte that cannot
follow, which is left unread. -/
def follow : Nat → UInt8 → UInt8 → Nat → Bytes → Option Nat × Bytes
  | 0, _, _, point, rest => (some point, rest)
  | _ + 1, _, _, _, [] => (none, [])
  | n + 1, low, high, point, b :: rest =>
    if low ≤ b && b ≤ high then follow n 0x80 0xBF (point * 64 + (b.toNat - 0x80)) rest
    else (none, b :: rest)

theorem length_follow_le (n : Nat) (low high : UInt8) (point : Nat) (bytes : Bytes) :
    (follow n low high point bytes).2.length ≤ bytes.length := by
  induction n generalizing low high point bytes with
  | zero => simp [follow]
  | succ n ih =>
    cases bytes with
    | nil => simp [follow]
    | cons b rest =>
      simp only [follow]
      split
      · exact Nat.le_succ_of_le (ih ..)
      · simp

/-- A character, or a maximal run of bytes that begins like one and is cut short. -/
inductive Piece where
  | char (c : Char)
  | broken
  deriving DecidableEq

/-- The first piece of `b :: rest` and what follows it. -/
def piece (b : UInt8) (rest : Bytes) : Piece × Bytes :=
  match opening? b with
  | none => (.broken, rest)
  | some o =>
    match follow o.follow o.low o.high o.payload rest with
    | (some point, rest) => (.char (Char.ofNat point), rest)
    | (none, rest) => (.broken, rest)

theorem length_piece_le (b : UInt8) (rest : Bytes) :
    (piece b rest).2.length ≤ rest.length := by
  unfold piece
  split
  · simp
  · rename_i o _
    have h := length_follow_le o.follow o.low o.high o.payload rest
    split <;> simp_all

def pieces : Bytes → List Piece
  | [] => []
  | b :: rest => (piece b rest).1 :: pieces (piece b rest).2
termination_by bytes => bytes.length
decreasing_by exact Nat.lt_succ_of_le (length_piece_le b rest)

/-- U+FFFD, which stands for every broken piece. -/
def replacement : Char := '\uFFFD'

def Piece.shown : Piece → Char
  | .char c => c
  | .broken => replacement

def Piece.char? : Piece → Option Char
  | .char c => some c
  | .broken => none

def decodeLossy (bytes : Bytes) : String :=
  String.ofList ((pieces bytes).map Piece.shown)

def decode? (bytes : Bytes) : Option String :=
  ((pieces bytes).mapM Piece.char?).map String.ofList

/-- The bytes behind a byte order mark. -/
def dropMark : Bytes → Bytes
  | 0xEF :: 0xBB :: 0xBF :: bytes => bytes
  | bytes => bytes

def encode (text : String) : Bytes :=
  text.toList.flatMap String.utf8EncodeChar

end QuorumKv.Text.Utf8
