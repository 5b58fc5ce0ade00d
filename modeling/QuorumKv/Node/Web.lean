import QuorumKv.Config
import QuorumKv.Key
import QuorumKv.Store
import QuorumKv.Web.Service

/-! The web service of a storage node: values under their keys, metadata, statistics. -/
namespace QuorumKv

def Meta.toDocument (m : Meta) : Document :=
  .table [("rev", .int m.rev.val), ("hash", .nat m.hash.toNat), ("flags", .nat m.flags.toNat),
    ("size", .nat m.size), ("timestamp", .nat m.timestamp), ("chunk_id", .nat m.chunk.toNat),
    ("offset", .nat m.offset)]

def Store.Stats.toDocument (s : Store.Stats) : Document :=
  .table [("live_keys", .nat s.liveKeys), ("tombstones", .nat s.tombstones),
    ("live_bytes", .nat s.liveBytes), ("log_position", .nat s.logPosition)]

namespace Node

open Web (Request Response Target Handler Resource)

def missing (key : String) : Response :=
  .explain 404 ("key not found: " ++ key)

/-- Serves one key, if it is acceptable. -/
def atKey (limits : Config.Limits) (serve : String → Request → Store → Response × Store) :
    Handler Store := fun texts request _ store =>
  let key := texts.headD ""
  match Key.validate limits.maxKeyLength key with
  | .error e => (.ofFailure e, store)
  | .ok () => serve key request store

def readValue (key : String) (_ : Request) (store : Store) : Response × Store :=
  match store.get? key with
  | some item => (.octets (Web.itemHeaders item) item.value, store)
  | none => (missing key, store)

/-- A header's value, or the default when there is none. -/
def headerOr {α : Type} (request : Request) (name : String) (read : Bytes → Option α)
    (default : α) : Except Failure α :=
  match Web.header? request.headers name with
  | none => pure default
  | some bytes =>
    match read bytes with
    | some a => pure a
    | none => throw (.protocol s!"bad {name} header")

/-- The item that a request brings. -/
def broughtItem (request : Request) : Except Failure Item := do
  let flags ← headerOr request Web.flagsHeader Web.flags? 0
  let rev ← headerOr request Web.revisionHeader Web.revision? .auto
  return ⟨flags, request.body, rev⟩

def storeValue (now : Nat) (key : String) (request : Request) (store : Store) : Response × Store :=
  match broughtItem request with
  | .error e => (.ofFailure e, store)
  | .ok item =>
    match store.set key item now with
    | (.ok rev, store) =>
      (.document 200 (.table [("key", .text key), ("revision", .int rev.val)]), store)
    | (.error e, store) => (.ofFailure e, store)

/-- A body over the limit is not even looked at. -/
def limitBody (limits : Config.Limits) (handle : Handler Store) : Handler Store :=
  fun texts request target store =>
    if limits.bodyMax < request.body.length then (.text 413 "length limit exceeded", store)
    else handle texts request target store

def deleteValue (now : Nat) (key : String) (_ : Request) (store : Store) : Response × Store :=
  match store.delete key now with
  | (true, store) => (.document 200 (.table [("deleted", .text key)]), store)
  | (false, store) => (missing key, store)

def readMeta (key : String) (_ : Request) (store : Store) : Response × Store :=
  match store.getMeta? key with
  | some m => (.document 200 m.toDocument, store)
  | none => (missing key, store)

def readStats : Handler Store := fun _ _ _ store =>
  (.document 200 store.stats.toDocument, store)

/-- At a time in seconds. -/
def resources (limits : Config.Limits) (now : Nat) : List (Resource Store) :=
  [⟨[.word "kv", .any],
      [("GET", atKey limits readValue),
        ("PUT", limitBody limits (atKey limits (storeValue now))),
        ("DELETE", atKey limits (deleteValue now))]⟩,
    ⟨[.word "kv", .any, .word "meta"], [("GET", atKey limits readMeta)]⟩,
    ⟨[.word "stats"], [("GET", readStats)]⟩]

def respond (limits : Config.Limits) (now : Nat) (request : Request) (store : Store) :
    Response × Store :=
  Web.serve (resources limits now) request store

end Node

end QuorumKv
