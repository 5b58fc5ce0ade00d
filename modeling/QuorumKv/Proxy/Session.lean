import QuorumKv.Config
import QuorumKv.Dispatch
import QuorumKv.Release
import QuorumKv.Wire.Reply
import QuorumKv.Wire.Stream

/-! The proxy on the wire. Every frame of a session has one reply, which is empty when the client
asked for none. Keys that are not acceptable are left out of what is looked up. -/
namespace QuorumKv.Proxy

open Dispatch (Script)

/-- What the store behind this session looks like from here. -/
structure Session where
  limits : Config.Limits
  hasNew : Bool

namespace Session

def accepts (s : Session) (key : String) : Bool :=
  (Key.validate s.limits.maxKeyLength key).isOk

/-- Looks up the metadata that some keys query, and adds it to what was found before. -/
def lookupMetas (s : Session) :
    List String → Assoc String Item → Script (Except Failure (Assoc String Item))
  | [], found => return .ok found
  | requested :: rest, found =>
    match Key.metaQuery? requested with
    | some key =>
      if s.accepts key then do
        match ← Dispatch.getMeta s.hasNew key with
        | .error e => return .error e
        | .ok none => s.lookupMetas rest found
        | .ok (some m) =>
          s.lookupMetas rest (found.put requested ⟨0, Text.Utf8.encode m.line, m.rev⟩)
      else s.lookupMetas rest found
    | none => s.lookupMetas rest found

/-- Looks up plain keys. A single one is read with its quorum. -/
def lookupPlain (s : Session) : List String → Script (Except Failure (Assoc String Item))
  | [] => return .ok []
  | [key] => do
    match ← Dispatch.get s.hasNew key with
    | .error e => return .error e
    | .ok none => return .ok []
    | .ok (some item) => return .ok [(key, item)]
  | keys => Dispatch.getMulti s.hasNew keys

def isPlain (s : Session) (requested : String) : Bool :=
  (Key.metaQuery? requested).isNone && s.accepts requested

/-- What a get line finds, in the order of its keys. -/
def lookup (s : Session) (keys : List String) : Script (Except Failure (List (String × Item))) := do
  match ← s.lookupMetas keys [] with
  | .error e => return .error e
  | .ok metas =>
    match ← s.lookupPlain (keys.filter s.isPlain) with
    | .error e => return .error e
    | .ok found =>
      let item? (key : String) : Option Item := (Assoc.get? metas key).or (Assoc.get? found key)
      return .ok (keys.filterMap fun key => (item? key).map fun item => (key, item))

/-- A value is held in memory while it is written. -/
def writeValue (withRev : Bool) (key : String) (item : Item) : Script Bytes :=
  .holding ⟨.getData, item.value.length⟩ (return Wire.value key item withRev)

def writeValues (withRev : Bool) : List (String × Item) → Script Bytes
  | [] => return Wire.line "END"
  | (key, item) :: rest => do
    let first ← writeValue withRev key item
    return first ++ (← writeValues withRev rest)

def storeItem (s : Session) (key : String) (item : Item) : Script String := do
  if s.accepts key then
    match ← Dispatch.set s.hasNew key item with
    | .ok () => return "STORED"
    | .error e => return e.wireReply
  else return "SERVER_ERROR write failed"

def deleteKey (s : Session) (key : String) : Script String := do
  if s.accepts key then
    match ← Dispatch.delete s.hasNew key with
    | .ok true => return "DELETED"
    | .ok false => return "NOT_FOUND"
    | .error e => return e.wireReply
  else return "NOT_FOUND"

/-- A status line, unless the client asked for none. -/
def status (noreply : Bool) (text : String) : Bytes :=
  if noreply then [] else Wire.line text

def execute (s : Session) : Wire.Request → Script Bytes
  | .get keys withRev => do
    match ← s.lookup keys with
    | .ok values => writeValues withRev values
    | .error _ => return Wire.line "SERVER_ERROR read failed"
  | .set key item noreply => return status noreply (← s.storeItem key item)
  | .delete key noreply => return status noreply (← s.deleteKey key)
  | .version => return Wire.line ("VERSION " ++ release)
  | .quit => return []

def reply (s : Session) : Wire.Frame → Script Bytes
  | .request r => s.execute r
  | .rejected why => return Wire.line why.wireReply
  | .unknown => return Wire.line "ERROR"
  | .eof | .cut => return []

def replies (s : Session) : List Wire.Frame → Script (List Bytes)
  | [] => return []
  | frame :: frames => do
    let first ← s.reply frame
    return first :: (← s.replies frames)

/-- The replies to everything that a client sends before it closes its side, one for each frame. -/
def run (s : Session) (bytes : Bytes) : Script (List Bytes) :=
  s.replies (Wire.answered (Wire.frames s.limits.bodyMax bytes))

end Session

end QuorumKv.Proxy
