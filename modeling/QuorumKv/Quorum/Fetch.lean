import QuorumKv.Assoc
import QuorumKv.Item
import QuorumKv.Key

/-! Several keys from their replicas at once. The keys of a bucket are asked for together, at the
best live main first; what it does not have is asked for at the next. A tombstone settles that a
key is absent. Each bucket goes its own way, and a main that fails is passed over. -/
namespace QuorumKv.Quorum

inductive Fetch.Stage where
  /-- Not begun. -/
  | waiting
  /-- One main is being asked, and these are next. -/
  | asking (rest : List String)
  | done
  deriving DecidableEq

/-- The keys of one bucket. -/
structure Fetch.Group where
  bucket : Nat
  missing : List String
  found : List (String × Item)
  stage : Fetch.Stage
  deriving DecidableEq

structure Fetch where
  keys : List String
  groups : List Fetch.Group
  deriving DecidableEq

namespace Fetch

/-- Takes out one occurrence; the last element moves to its place. -/
def swapErase (keys : List String) (key : String) : List String :=
  match keys.idxOf? key, keys.getLast? with
  | some i, some last => (keys.set i last).dropLast
  | _, _ => keys

namespace Group

/-- Takes what a node has for one key, unless it was found already. -/
def takeValue (g : Group) (value : String × Item) : Group :=
  if value.1 ∈ g.missing then
    { g with
      missing := swapErase g.missing value.1
      found := if value.2.rev.isTombstone then g.found else g.found ++ [value] }
  else g

/-- Asks the first of some mains for all that is missing, if anything is. -/
def askNext (g : Group) (mains : List String) : Group × List String :=
  match mains with
  | addr :: rest =>
    if g.missing.isEmpty then ({ g with stage := .done }, [])
    else ({ g with stage := .asking rest }, [addr])
  | [] => ({ g with stage := .done }, [])

/-- Begins with the mains in the order in which they are ranked now. -/
def begin (g : Group) (ranked : List String) : Group × List String :=
  if g.stage = .waiting then g.askNext ranked else (g, [])

/-- Takes the answer of a node; gives the node to call now. -/
def absorb (g : Group) (r : Except Failure (List (String × Item))) : Group × List String :=
  match g.stage with
  | .asking rest =>
    match r with
    | .ok values => (values.foldl takeValue g).askNext rest
    | .error _ => g.askNext rest
  | _ => (g, [])

end Group

def start (buckets : Nat) (keys : List String) : Fetch where
  keys := keys
  groups := (Key.byBucket buckets keys).map fun (bucket, keys) => ⟨bucket, keys, [], .waiting⟩

def group? (s : Fetch) (bucket : Nat) : Option Group :=
  s.groups.find? fun g => g.bucket == bucket

def putGroup (s : Fetch) (g : Group) : Fetch :=
  { s with groups := s.groups.map fun h => if h.bucket = g.bucket then g else h }

/-- A bucket that has not begun. -/
def waiting? (s : Fetch) : Option Nat :=
  (s.groups.find? fun g => g.stage == .waiting).map (·.bucket)

/-- Everything found, in the order of the keys, once all buckets are done. It never fails. -/
def result? (s : Fetch) : Option (List (String × Item)) :=
  if s.groups.all fun g => g.stage == .done then
    let found := (s.groups.flatMap (·.found)).foldl (fun m (key, item) => Assoc.put m key item) []
    some (Assoc.inOrder found s.keys)
  else none

end Fetch

end QuorumKv.Quorum
