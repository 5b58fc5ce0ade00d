import QuorumKv.Item
import QuorumKv.Wire.Line
import QuorumKv.Text.Blank
import QuorumKv.Text.Digits

/-! What clients send: one command line, and after `set` a data block of the announced size. A
reader takes one frame at a time and leaves the rest; every frame but the end of the stream takes
at least one byte. -/
namespace QuorumKv.Wire

inductive Request where
  | get (keys : List String) (withRev : Bool)
  | set (key : String) (item : Item) (noreply : Bool)
  | delete (key : String) (noreply : Bool)
  | version
  | quit
  deriving DecidableEq

inductive Frame where
  | request (r : Request)
  /-- A command that is answered with an error line. -/
  | rejected (why : Failure)
  | unknown
  | eof
  /-- The stream ended inside a data block. -/
  | cut
  deriving DecidableEq

/-- The announcement of a data block. -/
structure SetLine where
  key : String
  flags : UInt32
  rev : Revision
  size : Nat
  noreply : Bool

def setLine? : List String → Option SetLine
  | key :: flags :: rev :: size :: rest => do
    let flags ← Text.uint32? flags
    let rev ← Text.int64? rev >>= Revision.ofInt?
    let size ← Text.uint64? size
    return ⟨key, flags, rev, size, rest.head? == some "noreply"⟩
  | _ => none

/-- The verdict on a data block that has been read with its line end. -/
def SetLine.accept (s : SetLine) (block : Bytes) : Frame :=
  if block.drop s.size ≠ Bytes.crlf then .rejected .badChunk
  else if s.rev.isTombstone then .rejected (.protocol s!"negative revision {s.rev.val}")
  else .request (.set s.key ⟨s.flags, block.take s.size, s.rev⟩ s.noreply)

/-- Reads the data block after a `set` line. A block over the limit is read and thrown away up to
four times the limit; a larger one is refused unread. Without a result the block is not complete
yet. -/
def SetLine.readBlock (s : SetLine) (bodyMax : Nat) (ended : Bool) (bytes : Bytes) :
    Option (Frame × Bytes) :=
  if 4 * bodyMax < s.size then
    some (.rejected (.protocol s!"declared size {s.size} is not acceptable"), bytes)
  else if bodyMax < s.size then
    if (bytes.take (s.size + 2)).length = s.size + 2 || ended then
      some (.rejected (.tooLarge s.size bodyMax), bytes.drop (s.size + 2))
    else none
  else
    let block := bytes.take (blockLength s.size)
    if block.length = blockLength s.size then
      some (s.accept block, bytes.drop (blockLength s.size))
    else if ended then some (.cut, [])
    else none

def getCommand (withRev : Bool) (keys : List String) : Frame :=
  if keys.isEmpty then .rejected (.protocol "get without key")
  else .request (.get keys withRev)

def deleteCommand : List String → Frame
  | [] => .rejected (.protocol "delete without key")
  | key :: rest => .request (.delete key (rest.head? == some "noreply"))

/-- What a line of words says, and what is left after the data block that may belong to it. -/
def readCommand (bodyMax : Nat) (ended : Bool) (command : String) (args : List String)
    (bytes : Bytes) : Option (Frame × Bytes) :=
  if command = "set" then
    match setLine? args with
    | some s => s.readBlock bodyMax ended bytes
    | none => some (.rejected (.protocol "bad set line"), bytes)
  else if command = "get" then some (getCommand false args, bytes)
  else if command = "gets" then some (getCommand true args, bytes)
  else if command = "delete" then some (deleteCommand args, bytes)
  else if command = "version" then some (.request .version, bytes)
  else if command = "quit" then some (.request .quit, bytes)
  else some (.unknown, bytes)

/-- The next frame. Blank lines are skipped. Without a result the frame is not complete yet, which
only happens while more bytes may arrive. -/
def readFrame (bodyMax : Nat) (ended : Bool) (bytes : Bytes) : Option (Frame × Bytes) :=
  if _ : bytes = [] then
    if ended then some (.eof, []) else none
  else
    let line := (splitLine maxLine bytes).1
    if isOpen line ended then none
    else if !endsLine line then
      some (.rejected (.protocol "line too long"), (splitLine maxLine bytes).2)
    else
      match Text.splitWords (Text.Utf8.decodeLossy line) with
      | [] => readFrame bodyMax ended (splitLine maxLine bytes).2
      | command :: args => readCommand bodyMax ended command args (splitLine maxLine bytes).2
termination_by bytes.length
decreasing_by exact length_splitLine_lt bytes (by assumption)

end QuorumKv.Wire
