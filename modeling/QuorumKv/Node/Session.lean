import QuorumKv.Config
import QuorumKv.Key
import QuorumKv.Release
import QuorumKv.Store
import QuorumKv.Wire.Reply
import QuorumKv.Wire.Stream

/-! A storage node on the wire. Every frame of a session has one reply, which is empty when the
client asked for none. -/
namespace QuorumKv.Node

/-- What a get line finds under one of its keys: metadata for a metadata query, else the item. With
revisions, tombstones are found too. -/
def find? (store : Store) (withRev : Bool) (requested : String) : Option Item :=
  match Key.metaQuery? requested with
  | some key => (store.getMeta? key).map fun m => ⟨0, Text.Utf8.encode m.line, m.rev⟩
  | none => if withRev then store.getVersioned? requested else store.get? requested

def found (store : Store) (withRev : Bool) (keys : List String) : List (String × Item) :=
  keys.filterMap fun key => (find? store withRev key).map fun item => (key, item)

def storeItem (limits : Config.Limits) (now : Nat) (key : String) (item : Item) (store : Store) :
    String × Store :=
  match Key.validate limits.maxKeyLength key with
  | .error _ => ("SERVER_ERROR write failed", store)
  | .ok () =>
    match store.set key item now with
    | (.ok _, store) => ("STORED", store)
    | (.error e, store) => (e.wireReply, store)

/-- A status line, unless the client asked for none. -/
def status (noreply : Bool) (text : String) : Bytes :=
  if noreply then [] else Wire.line text

/-- At a time in seconds. -/
def execute (limits : Config.Limits) (now : Nat) (request : Wire.Request) (store : Store) :
    Bytes × Store :=
  match request with
  | .get keys withRev => (Wire.values (found store withRev keys) withRev, store)
  | .set key item noreply =>
    let (text, store) := storeItem limits now key item store
    (status noreply text, store)
  | .delete key noreply =>
    let (found, store) := store.delete key now
    (status noreply (if found then "DELETED" else "NOT_FOUND"), store)
  | .version => (Wire.line ("VERSION " ++ release), store)
  | .quit => ([], store)

def reply (limits : Config.Limits) (now : Nat) (frame : Wire.Frame) (store : Store) :
    Bytes × Store :=
  match frame with
  | .request r => execute limits now r store
  | .rejected why => (Wire.line why.wireReply, store)
  | .unknown => (Wire.line "ERROR", store)
  | .eof | .cut => ([], store)

def replies (limits : Config.Limits) (now : Nat) :
    List Wire.Frame → Store → List Bytes × Store
  | [], store => ([], store)
  | frame :: frames, store =>
    let (first, store) := reply limits now frame store
    let (rest, store) := replies limits now frames store
    (first :: rest, store)

/-- The replies to everything that a client sends before it closes its side, one for each frame. -/
def session (limits : Config.Limits) (now : Nat) (bytes : Bytes) (store : Store) :
    List Bytes × Store :=
  replies limits now (Wire.answered (Wire.frames limits.bodyMax bytes)) store

end QuorumKv.Node
