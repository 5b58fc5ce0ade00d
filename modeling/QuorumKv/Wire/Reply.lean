import QuorumKv.Item
import QuorumKv.Wire.Line
import QuorumKv.Text.Blank
import QuorumKv.Text.Digits

/-! What a node answers, and how the proxy writes requests and reads the answers. -/
namespace QuorumKv.Wire

def valueHeader (key : String) (item : Item) (withRev : Bool) : String :=
  let plain := s!"VALUE {key} {item.flags.toNat} {item.value.length}"
  if withRev then s!"{plain} {item.rev.val}" else plain

def value (key : String) (item : Item) (withRev : Bool) : Bytes :=
  line (valueHeader key item withRev) ++ item.value ++ Bytes.crlf

def values (found : List (String × Item)) (withRev : Bool) : Bytes :=
  (found.flatMap fun (key, item) => value key item withRev) ++ line "END"

def getRequest (keys : List String) (withRev : Bool) : Bytes :=
  line ((if withRev then "gets " else "get ") ++ " ".intercalate keys)

def setRequest (key : String) (item : Item) : Bytes :=
  line s!"set {key} {item.flags.toNat} {item.rev.val} {item.value.length}" ++
    item.value ++ Bytes.crlf

def deleteRequest (key : String) : Bytes :=
  line ("delete " ++ key)

/-- A step of reading: a result or a failure with what is left, or nothing until more arrives. -/
inductive Reading (α : Type) where
  | done (result : α) (rest : Bytes)
  | failed (why : Failure) (rest : Bytes)
  | waiting

def readLine (ended : Bool) (bytes : Bytes) : Reading String :=
  if bytes = [] then
    if ended then .failed (.connection "connection closed by peer") [] else .waiting
  else if isOpen (splitLine maxLine bytes).1 ended then .waiting
  else .done (lineText (splitLine maxLine bytes).1) (splitLine maxLine bytes).2

theorem length_readLine_lt {ended : Bool} {bytes rest : Bytes} {text : String}
    (h : readLine ended bytes = .done text rest) : rest.length < bytes.length := by
  unfold readLine at h
  split at h
  · split at h <;> simp at h
  · rename_i filled
    split at h
    · simp at h
    · obtain ⟨-, rfl⟩ := Reading.done.inj h
      exact length_splitLine_lt bytes filled

/-- The announcement of one value. -/
structure ValueLine where
  key : String
  flags : UInt32
  size : Nat
  rev : Revision

def valueFields? : List String → Option ValueLine
  | [] | [_] | [_, _] => none
  | key :: flags :: size :: rest => do
    let flags ← Text.uint32? flags
    let size ← Text.uint64? size
    let rev ← match rest with
      | rev :: _ => Text.int64? rev >>= Revision.ofInt?
      | [] => pure Revision.auto
    return ⟨key, flags, size, rev⟩

def valueLine (bodyMax : Nat) (line : String) : Except Failure ValueLine :=
  match (Text.splitAtEach ' ' line.toList).map String.ofList with
  | "VALUE" :: key :: flags :: size :: rest =>
    match valueFields? (key :: flags :: size :: rest) with
    | none => throw (.protocol ("bad VALUE line: " ++ line))
    | some v =>
      if bodyMax < v.size then throw (.protocol s!"value of {v.size} bytes exceeds limit")
      else pure v
  | _ => throw (.protocol ("unexpected reply: " ++ line))

/-- Reads values up to `END` behind those already found. -/
def readValuesAfter (bodyMax : Nat) (ended : Bool) (found : List (String × Item))
    (bytes : Bytes) : Reading (List (String × Item)) :=
  match _ : readLine ended bytes with
  | .waiting => .waiting
  | .failed why rest => .failed why rest
  | .done line rest =>
    if line = "END" then .done found.reverse rest
    else
      match valueLine bodyMax line with
      | .error why => .failed why rest
      | .ok v =>
        let block := rest.take (blockLength v.size)
        let left := rest.drop (blockLength v.size)
        if block.length = blockLength v.size then
          if block.drop v.size = Bytes.crlf then
            readValuesAfter bodyMax ended
              ((v.key, ⟨v.flags, block.take v.size, v.rev⟩) :: found) left
          else .failed (.protocol "bad data chunk from node") left
        else if ended then .failed (.io "early eof") []
        else .waiting
termination_by bytes.length
decreasing_by
  have := length_readLine_lt (by assumption)
  simp only [List.length_drop]
  omega

def readValues (bodyMax : Nat) (ended : Bool) (bytes : Bytes) :
    Reading (List (String × Item)) :=
  readValuesAfter bodyMax ended [] bytes

end QuorumKv.Wire
