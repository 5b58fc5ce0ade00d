import QuorumKv.Bytes

/-! The BLAKE3 hash without key. The input is cut into chunks of 1024 bytes, each chunk is chained
block by block, and the chunks are joined in a binary tree whose left side is as large a power of
two as it can be. -/
namespace QuorumKv.Hash.Blake3

abbrev Words := List UInt32

/-- Eight words that stand for everything hashed so far in a chunk or a subtree. -/
abbrev Chain := Words

def initial : Chain :=
  [0x6A09E667, 0xBB67AE85, 0x3C6EF372, 0xA54FF53A, 0x510E527F, 0x9B05688C, 0x1F83D9AB, 0x5BE0CD19]

/-- The order in which each round takes the words that the round before it took. -/
def permutation : List Nat := [2, 6, 3, 10, 7, 0, 4, 13, 1, 11, 12, 5, 9, 14, 15, 8]

def chunkStart : UInt32 := 1

def chunkEnd : UInt32 := 2

def parent : UInt32 := 4

def root : UInt32 := 8

def rotateRight (x : UInt32) (n : UInt32) : UInt32 :=
  (x >>> n) ||| (x <<< (32 - n))

/-- Mixes two message words into four words of the state. -/
def mix (state : Array UInt32) (a b c d : Nat) (x y : UInt32) : Array UInt32 :=
  let word (s : Array UInt32) (i : Nat) : UInt32 := s.getD i 0
  let va := word state a + word state b + x
  let vd := rotateRight (word state d ^^^ va) 16
  let vc := word state c + vd
  let vb := rotateRight (word state b ^^^ vc) 12
  let va := va + vb + y
  let vd := rotateRight (vd ^^^ va) 8
  let vc := vc + vd
  let vb := rotateRight (vb ^^^ vc) 7
  (((state.setIfInBounds a va).setIfInBounds b vb).setIfInBounds c vc).setIfInBounds d vd

/-- The columns of the state, then its diagonals. -/
def lanes : List (Nat × Nat × Nat × Nat) :=
  [(0, 4, 8, 12), (1, 5, 9, 13), (2, 6, 10, 14), (3, 7, 11, 15),
   (0, 5, 10, 15), (1, 6, 11, 12), (2, 7, 8, 13), (3, 4, 9, 14)]

def mixLanes : List (Nat × Nat × Nat × Nat) → Words → Array UInt32 → Array UInt32
  | (a, b, c, d) :: rest, x :: y :: words, state => mixLanes rest words (mix state a b c d x y)
  | _, _, state => state

def rounds : Nat → Words → Array UInt32 → Array UInt32
  | 0, _, state => state
  | n + 1, block, state =>
    let words := block.toArray
    rounds n (permutation.map fun i => words.getD i 0) (mixLanes lanes block state)

/-- One block of at most 64 bytes, with everything that its compression depends on. -/
structure Block where
  chain : Chain
  words : Words
  counter : Nat
  length : Nat
  flags : UInt32

def Block.compress (b : Block) (extra : UInt32) : Chain :=
  let start := b.chain ++ initial.take 4 ++
    [UInt32.ofNat b.counter, UInt32.ofNat (b.counter >>> 32), UInt32.ofNat b.length,
      b.flags ||| extra]
  let state := rounds 7 b.words start.toArray
  (List.range 8).map fun i => state.getD i 0 ^^^ state.getD (i + 8) 0

/-- Sixteen words, least significant byte first, the missing bytes taken as zero. -/
def blockWords (bytes : Bytes) : Words :=
  let padded := (bytes ++ List.replicate (64 - bytes.length) 0).toArray
  (List.range 16).map fun i =>
    (List.range 4).foldr (fun j w => w * 256 + (padded.getD (4 * i + j) 0).toUInt32) 0

/-- The last block of a chunk, which its node in the tree still has to compress. -/
def chunkBlock (counter : Nat) (chain : Chain) (flags : UInt32) (bytes : Bytes) : Block :=
  if bytes.length ≤ 64 then
    ⟨chain, blockWords bytes, counter, bytes.length, flags ||| chunkEnd⟩
  else
    let block : Block := ⟨chain, blockWords (bytes.take 64), counter, 64, flags⟩
    chunkBlock counter (block.compress 0) 0 (bytes.drop 64)
termination_by bytes.length
decreasing_by simp [List.length_drop]; omega

def join (left right : Block) : Block :=
  ⟨initial, left.compress 0 ++ right.compress 0, 0, 64, parent⟩

/-- The largest power of two below `n`, for `n` at least 2. -/
def leftChunks (n : Nat) : Nat := 1 <<< (n - 1).log2

/-- `height` bounds the depth of the tree over the `chunks` chunks that `bytes` holds. -/
def tree : (height : Nat) → (first chunks : Nat) → Bytes → Block
  | 0, first, _, bytes => chunkBlock first initial chunkStart bytes
  | height + 1, first, chunks, bytes =>
    if chunks ≤ 1 then chunkBlock first initial chunkStart bytes
    else
      let left := leftChunks chunks
      join (tree height first left (bytes.take (left * 1024)))
        (tree height (first + left) (chunks - left) (bytes.drop (left * 1024)))

def wordBytes (w : UInt32) : Bytes :=
  [w.toUInt8, (w >>> 8).toUInt8, (w >>> 16).toUInt8, (w >>> 24).toUInt8]

/-- The 32-byte hash. -/
def digest (bytes : Bytes) : Bytes :=
  let chunks := (bytes.length + 1023) / 1024
  ((tree (chunks.log2 + 1) 0 chunks bytes).compress root).flatMap wordBytes

end QuorumKv.Hash.Blake3
