import QuorumKv.Key
import QuorumKv.Text.Order
import QuorumKv.Text.Quoted

/-! Routing by bucket. Each bucket has main nodes and backup nodes in a fixed order. A router is
built from a plan once and never changes; a new plan makes a new router. -/
namespace QuorumKv.Route

/-- A node and the ids of its buckets, in hexadecimal. An id behind a minus sign makes the node a
backup of that bucket. -/
structure Entry where
  addr : String
  buckets : List String
  deriving DecidableEq

/-- `backup` lists the nodes that back up every bucket. -/
structure Plan where
  buckets : Nat
  main : List Entry
  backup : List String
  deriving DecidableEq

/-- Every address that the plan mentions. -/
def Plan.addresses (plan : Plan) : List String :=
  Text.sortedSet (plan.main.map (·.addr) ++ plan.backup)

structure Replicas where
  mains : List String
  backups : List String
  deriving DecidableEq, Inhabited

def Replicas.all (r : Replicas) : List String :=
  r.mains ++ r.backups

/-- A node serves a bucket. -/
structure Listing where
  addr : String
  bucket : Nat
  isBackup : Bool
  deriving DecidableEq

def readBucket (buckets : Nat) (addr raw : String) : Except Failure Listing :=
  let (id, isBackup) := match raw.toList with
    | '-' :: id => (id, true)
    | id => (id, false)
  match Text.unsigned? 16 Text.bound64 (Text.trimList Text.isBlank id) with
  | none => throw (.config s!"node {addr}: bad bucket id {Text.quoted raw}")
  | some bucket =>
    if bucket < buckets then pure ⟨addr, bucket, isBackup⟩
    else
      let shown := Text.lowerHex bucket
      throw (.config s!"node {addr}: bucket {shown} out of range (numbucket = {buckets})")

/-- Adds the listing that one id of one entry stands for. -/
def addListing (buckets : Nat) (done : List Listing) (item : String × String) :
    Except Failure (List Listing) := do
  let listing ← readBucket buckets item.1 item.2
  if done.any fun l => l.addr == listing.addr && l.bucket == listing.bucket then
    let shown := Text.lowerHex listing.bucket
    throw (.config s!"node {listing.addr} listed twice for bucket {shown}")
  else pure (done ++ [listing])

/-- The ids of all entries, each with its node. -/
def Plan.items (plan : Plan) : List (String × String) :=
  plan.main.flatMap fun entry => entry.buckets.map fun id => (entry.addr, id)

/-- Appends a node that backs up every bucket, unless it already serves this one. -/
def addBackup (r : Replicas) (addr : String) : Replicas :=
  if addr ∈ r.mains ∨ addr ∈ r.backups then r else ⟨r.mains, r.backups ++ [addr]⟩

/-- The nodes of one bucket: the listed ones in order, then the nodes that back up every bucket. -/
def replicasOf (listings : List Listing) (backup : List String) (bucket : Nat) : Replicas :=
  let here := listings.filter fun l => l.bucket == bucket
  let listed : Replicas :=
    ⟨(here.filter fun l => !l.isBackup).map (·.addr), (here.filter (·.isBackup)).map (·.addr)⟩
  backup.foldl addBackup listed

end QuorumKv.Route

namespace QuorumKv

/-- The nodes of each bucket, by number. There is at least one bucket. -/
structure Router where
  replicas : List Route.Replicas
  deriving DecidableEq

namespace Router

open Route

def ofPlan (plan : Plan) : Except Failure Router := do
  if plan.buckets = 0 then throw (.config "numbucket must be positive")
  let listings ← plan.items.foldlM (addListing plan.buckets) []
  let replicas := (List.range plan.buckets).map (replicasOf listings plan.backup)
  match replicas.findIdx? fun r => r.mains.isEmpty with
  | some bucket => throw (.config s!"bucket {Text.lowerHex bucket} has no main node")
  | none => return ⟨replicas⟩

def buckets (r : Router) : Nat :=
  r.replicas.length

def bucketOf (r : Router) (key : String) : Nat :=
  Key.bucket r.buckets key

/-- The nodes of a bucket; a number beyond the last bucket starts over at the first. -/
def resolve (r : Router) (bucket : Nat) : Replicas :=
  r.replicas.getD (bucket % r.buckets) default

/-- Every address, in text order. -/
def addresses (r : Router) : List String :=
  Text.sortedSet (r.replicas.flatMap Replicas.all)

/-- The nodes of each bucket under its number in hexadecimal, in text order. -/
def snapshot (r : Router) : List (String × Replicas) :=
  Text.byName (((List.range r.buckets).map Text.lowerHex).zip r.replicas)

end Router

end QuorumKv
