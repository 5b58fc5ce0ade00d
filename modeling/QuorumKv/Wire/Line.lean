import QuorumKv.Bytes
import QuorumKv.Text.Digits
import QuorumKv.Text.Utf8

/-! Lines on a connection. A line ends with its line feed or after 8192 bytes, whichever comes
first, so no peer can make a reader hold more than that. -/
namespace QuorumKv.Wire

def maxLine : Nat := 8192

/-- At most `n` bytes up to and including the first line feed, and what follows them. -/
def splitLine : Nat → Bytes → Bytes × Bytes
  | 0, bytes => ([], bytes)
  | _ + 1, [] => ([], [])
  | n + 1, b :: bytes =>
    if b = Bytes.lf then ([b], bytes)
    else (b :: (splitLine n bytes).1, (splitLine n bytes).2)

theorem splitLine_append (n : Nat) (bytes : Bytes) :
    (splitLine n bytes).1 ++ (splitLine n bytes).2 = bytes := by
  induction n generalizing bytes with
  | zero => simp [splitLine]
  | succ n ih =>
    cases bytes with
    | nil => simp [splitLine]
    | cons b bytes =>
      simp only [splitLine]
      split
      · simp
      · simp [ih]

theorem splitLine_ne_nil (n : Nat) (bytes : Bytes) (h : bytes ≠ []) :
    (splitLine (n + 1) bytes).1 ≠ [] := by
  cases bytes with
  | nil => exact absurd rfl h
  | cons b bytes =>
    simp only [splitLine]
    split <;> simp

theorem length_splitLine_lt (bytes : Bytes) (h : bytes ≠ []) :
    (splitLine maxLine bytes).2.length < bytes.length := by
  have parts := congrArg List.length (splitLine_append maxLine bytes)
  have filled : 0 < (splitLine maxLine bytes).1.length :=
    List.length_pos_iff.mpr (splitLine_ne_nil 8191 bytes h)
  rw [List.length_append] at parts
  omega

def endsLine (line : Bytes) : Bool :=
  line.getLast? == some Bytes.lf

/-- Whether the line can still grow: it has no line feed yet and more bytes may arrive. -/
def isOpen (line : Bytes) (ended : Bool) : Bool :=
  !ended && !endsLine line && line.length < maxLine

/-- The text of a line without its end. -/
def lineText (line : Bytes) : String :=
  let text := Text.Utf8.decodeLossy line
  String.ofList (text.toList.reverse.dropWhile fun c => c == '\r' || c == '\n').reverse

/-- The bytes of a data block of the announced size and its line end, counted in a 64-bit word,
which wraps around. -/
def blockLength (size : Nat) : Nat :=
  (size + 2) % Text.bound64

/-- A text and the line end. -/
def line (text : String) : Bytes :=
  Text.Utf8.encode text ++ Bytes.crlf

end QuorumKv.Wire
