import QuorumKv.Assoc
import QuorumKv.Dispatch.Script

/-! The requests of clients. The table that is live when a request begins decides which store it
goes to. Reads go to the primary of the key's stage, and to the fallback when the primary has
nothing; writes go to the primary and, once that has succeeded, to the mirror, whose failures
never reach the client. `hasNew` tells whether there is a new store at all. -/
namespace QuorumKv.Dispatch

open Migration (Side Stage Table)

/-- A table may be installed only if every store it needs is there. -/
def checkTable (hasNew : Bool) (t : Table) : Except Failure Unit :=
  if !hasNew && t.uses .new then
    throw (.config "switch table routes keys to the new backend, but none is configured")
  else pure ()

/-- Asks a store, if it is there. -/
def askStore (hasNew : Bool) (cmd : String) (side : Side) (q : Ask) : Script q.Outcome :=
  if side = .new ∧ hasNew = false then .done (throw (.disabled "new backend not configured"))
  else .call cmd side q

/-- Asks the primary, and the fallback when the primary has nothing. -/
def lookup (hasNew : Bool) (cmd key : String) (q : Ask) : Script q.Outcome := do
  let stage := (← Script.snapshot).route key
  match ← askStore hasNew cmd stage.primary q with
  | .error e => return .error e
  | .ok found =>
    match stage.fallback with
    | some side => if q.isMiss found then askStore hasNew cmd side q else return .ok found
    | none => return .ok found

def get (hasNew : Bool) (key : String) : Script (Except Failure (Option Item)) :=
  lookup hasNew "get" key (.get key)

def getMeta (hasNew : Bool) (key : String) : Script (Except Failure (Option Meta)) :=
  lookup hasNew "getm" key (.getMeta key)

/-- Asks a store for a group of keys and adds what it has to what was found before. -/
def askGroup (hasNew : Bool) (side : Side) (keys : List String) (found : Assoc String Item) :
    Script (Except Failure (Assoc String Item)) := do
  if keys.isEmpty then return .ok found
  match ← askStore hasNew "gets" side (.getMulti keys) with
  | .ok values => return .ok (values.foldl (fun m (key, item) => m.put key item) found)
  | .error e => return .error e

/-- Asks the legacy store for its keys, then the new store for its own. -/
def askGroups (hasNew : Bool) (keysOf : Side → List String) (found : Assoc String Item) :
    Script (Except Failure (Assoc String Item)) := do
  match ← askGroup hasNew .legacy (keysOf .legacy) found with
  | .ok found => askGroup hasNew .new (keysOf .new) found
  | .error e => return .error e

/-- Several keys under one snapshot of the table. Keys with the same primary are asked for together;
those that it does not have are asked for at their fallback. -/
def getMulti (hasNew : Bool) (keys : List String) :
    Script (Except Failure (List (String × Item))) := do
  let table ← Script.snapshot
  let primaries (side : Side) := keys.filter fun key => (table.route key).primary = side
  match ← askGroups hasNew primaries [] with
  | .error e => return .error e
  | .ok found =>
    let missed := keys.filter fun key => !found.contains key
    let fallbacks (side : Side) := missed.filter fun key => (table.route key).fallback = some side
    match ← askGroups hasNew fallbacks found with
    | .error e => return .error e
    | .ok found => return .ok (found.inOrder keys)

/-- Copies a write to the mirror. A failure is only noted. -/
def mirror (hasNew : Bool) (cmd key : String) (stage : Stage) (side : Side) (q : Ask) :
    Script (Option q.Answer) := do
  match ← askStore hasNew cmd side q with
  | .ok r => return some r
  | .error e => .note (.mirrorFailed ⟨cmd, key, stage, side, e⟩) (return none)

def set (hasNew : Bool) (key : String) (item : Item) : Script (Except Failure Unit) :=
  .holding ⟨.setData, item.value.length⟩ do
    let stage := (← Script.snapshot).route key
    match ← askStore hasNew "set" stage.primary (.set key item) with
    | .error e => return .error e
    | .ok () =>
      match stage.mirror with
      | none => return .ok ()
      | some side =>
        let _ ← Script.holding ⟨.mirrorData, item.value.length⟩
          (mirror hasNew "set" key stage side (.set key item))
        return .ok ()

/-- A key that only the fallback had counts as found. -/
def delete (hasNew : Bool) (key : String) : Script (Except Failure Bool) := do
  let stage := (← Script.snapshot).route key
  match ← askStore hasNew "delete" stage.primary (.delete key) with
  | .error e => return .error e
  | .ok found =>
    match stage.mirror with
    | none => return .ok found
    | some side =>
      let copied ← mirror hasNew "delete" key stage side (.delete key)
      return .ok (found || (stage.fallback == some side && copied == some true))

/-- The request that a question asks for. -/
def request (hasNew : Bool) : (q : Ask) → Script q.Outcome
  | .get key => get hasNew key
  | .getMeta key => getMeta hasNew key
  | .getMulti keys => getMulti hasNew keys
  | .set key item => set hasNew key item
  | .delete key => delete hasNew key

end QuorumKv.Dispatch
