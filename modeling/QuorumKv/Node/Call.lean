import QuorumKv.Ask
import QuorumKv.Assoc
import QuorumKv.Key
import QuorumKv.Wire.Reply

/-! How a question is put to a storage node over a connection, and how its answer is read. A node is
always asked for revisions, so that it tells of tombstones as well. -/
namespace QuorumKv.Ask

/-- The longest metadata that is read. -/
def metaMax : Nat := 4096

def toWire : Ask → Bytes
  | get key => Wire.getRequest [key] true
  | getMeta key => Wire.getRequest [Key.metaQueryFor key] false
  | getMulti keys => Wire.getRequest keys true
  | set key item => Wire.setRequest key item
  | delete key => Wire.deleteRequest key

/-- The end of an exchange. Whatever it means, an answer that could be read to its end leaves the
connection fit for the next exchange. -/
structure Exchange (α : Type) where
  result : Except Failure α
  isClean : Bool
  rest : Bytes

def Exchange.ofReading {α β : Type} (interpret : α → Except Failure β) :
    Wire.Reading α → Option (Exchange β)
  | .done a rest => some ⟨interpret a, true, rest⟩
  | .failed why rest => some ⟨throw why, false, rest⟩
  | .waiting => none

def metaOf : List (String × Item) → Except Failure (Option Meta)
  | [] => pure none
  | (_, item) :: _ => (Meta.ofLine (Text.Utf8.decodeLossy item.value)).map some

def storedOf (node key line : String) : Except Failure Unit :=
  if line == "STORED" then pure ()
  else if line == "EXISTS" then throw (.stale key)
  else throw (.node node line)

def deletedOf (node line : String) : Except Failure Bool :=
  if line == "DELETED" then pure true
  else if line == "NOT_FOUND" then pure false
  else throw (.node node line)

/-- Reads a node's answer; nothing while more has to arrive. -/
def readAnswer (node : String) (bodyMax : Nat) (ended : Bool) (bytes : Bytes) :
    (q : Ask) → Option (Exchange q.Answer)
  | get key =>
    Exchange.ofReading (fun values => pure (Assoc.get? values key))
      (Wire.readValues bodyMax ended bytes)
  | getMeta _ => Exchange.ofReading metaOf (Wire.readValues metaMax ended bytes)
  | getMulti _ => Exchange.ofReading pure (Wire.readValues bodyMax ended bytes)
  | set key _ => Exchange.ofReading (storedOf node key) (Wire.readLine ended bytes)
  | delete _ => Exchange.ofReading (deletedOf node) (Wire.readLine ended bytes)

end QuorumKv.Ask
