import QuorumKv.Cluster.Member
import QuorumKv.Cluster.Operation
import QuorumKv.Buffer
import QuorumKv.Metrics.Registry
import QuorumKv.Node.Call
import QuorumKv.Node.Session

/-! The proxy and its storage nodes as one state that moves in small steps: operations begin,
calls are admitted by the circuit breaker, reach the nodes, fail or come back, and their answers
reach the operations. Any order of steps is possible, so a statement about all runs covers every
interleaving, every delay and every failure. -/
namespace QuorumKv.Cluster

inductive Call.Stage (q : Ask) where
  /-- The circuit breaker was not asked yet. -/
  | waiting
  /-- Under way, on a connection with bytes that were left unread. -/
  | running (since : Nat) (unread : Bytes)
  /-- The node has done its part; the answer is on its way, unless it will never be complete. -/
  | served (since : Nat) (answer : Option (Ask.Exchange q.Answer))
  /-- The proxy knows how the call ended. A call that the breaker refused says nothing on health. -/
  | ended (result : q.Outcome) (outcome : Option Health.Outcome)
  /-- The operation has the result; the outcome is still to be recorded. -/
  | delivered (outcome : Option Health.Outcome)

/-- One call to one node. -/
structure Call where
  operation : Nat
  bucket : Nat
  member : Nat
  q : Ask
  /-- Whether the operation waits for this call alone. -/
  isAwaited : Bool
  /-- What the call holds in memory until it ends. -/
  guard : Option Buffer.Guard
  stage : Call.Stage q

structure Operation where
  q : Ask
  /-- The routes that were live when it began; it keeps to them. -/
  topology : Topology
  deadline : Nat
  state : Operation.State

end Cluster

open Cluster

/-- Times are milliseconds; `epoch` is the second at which they begin. -/
structure Cluster where
  replication : Config.Replication
  /-- The longest value that the proxy reads from a node. -/
  bodyMax : Nat
  /-- What the nodes accept. -/
  nodeLimits : Config.Limits
  epoch : Nat
  now : Nat
  stores : Assoc String Store
  members : List Member
  topology : Topology
  /-- By number, like the calls. -/
  operations : Assoc Nat Operation
  calls : Assoc Nat Call
  next : Nat
  buffers : Buffers
  metrics : Metrics.Registry

namespace Cluster

def settings (c : Cluster) : Health.Settings :=
  .ofConfig c.replication

/-- The second that nodes write on their records. -/
def seconds (c : Cluster) : Nat :=
  c.epoch + c.now / 1000

def store (c : Cluster) (addr : String) : Store :=
  (c.stores.get? addr).getD Store.empty

def putStore (c : Cluster) (addr : String) (s : Store) : Cluster :=
  { c with stores := c.stores.put addr s }

def member? (c : Cluster) (number : Nat) : Option Member :=
  c.members[number]?

def updateMember (c : Cluster) (number : Nat) (change : Member → Member) : Cluster :=
  { c with members := c.members.modify number change }

/-- The members of a topology by address. -/
def membersOf (c : Cluster) (t : Topology) : List (String × Member) :=
  t.numbers.filterMap fun (addr, number) => (c.member? number).map fun m => (addr, m)

/-- The health of a topology's nodes. -/
def monitor (c : Cluster) (t : Topology) : Health.Monitor :=
  ⟨c.settings, (c.membersOf t).map fun (addr, m) => (addr, m.health)⟩

def live (c : Cluster) (t : Topology) (addrs : List String) : List String :=
  (c.monitor t).live addrs c.now

def rank (c : Cluster) (t : Topology) (addrs : List String) : List String :=
  (c.monitor t).rank addrs c.now

/-- A cluster with its first routes, in which nothing has happened yet. -/
def build (replication : Config.Replication) (limits : Config.Limits) (plan : Route.Plan)
    (nodeLimits : Config.Limits) (epoch : Nat) : Except Failure Cluster := do
  let router ← Router.ofPlan plan
  let (numbers, members) := enrollAll (.ofConfig replication) 0 [] [] router
  return {
    replication, nodeLimits, epoch, members
    bodyMax := limits.bodyMax
    now := 0
    stores := []
    topology := ⟨router, numbers, 0⟩
    operations := []
    calls := []
    next := 0
    buffers := .empty
    metrics := .empty }

/-- Puts new routes in place. A plan that makes no router changes nothing. -/
def reload (c : Cluster) (plan : Route.Plan) : Except Failure Cluster := do
  let router ← Router.ofPlan plan
  let (numbers, members) := enrollAll c.settings c.now c.topology.numbers c.members router
  return { c with members := members, topology := ⟨router, numbers, c.topology.version + 1⟩ }

/-! ## Operations -/

def hold (c : Cluster) : Option Buffer.Guard → Cluster
  | some g => { c with buffers := c.buffers.hold g }
  | none => c

def release (c : Cluster) : Option Buffer.Guard → Cluster
  | some g => { c with buffers := c.buffers.release g }
  | none => c

/-- A set holds its value once for every replica that it is sent to. -/
def guardOf : Ask → Option Buffer.Guard
  | .set _ item => some ⟨.replicaData, item.value.length⟩
  | _ => none

/-- Adds a call of an operation to a node of its topology. -/
def spawn (number bucket : Nat) (op : Operation) (c : Cluster) (addr : String) : Cluster :=
  match op.topology.numbers.get? addr with
  | none => c
  | some member =>
    let q := op.state.question bucket op.q
    let call : Call :=
      ⟨number, bucket, member, q, op.state.isSequential, guardOf q, .waiting⟩
    ({ c with calls := c.calls.put c.next call, next := c.next + 1 } : Cluster).hold call.guard

/-- Counts that backups were brought in. -/
def engage (c : Cluster) (times : Nat) : Cluster :=
  { c with metrics := { c.metrics with
      backupWrites := c.metrics.backupWrites + UInt64.ofNat times } }

/-- Puts an operation in its place and makes the calls that it wants to make. -/
def place (c : Cluster) (number bucket : Nat) (op : Operation) (calls : List String) : Cluster :=
  calls.foldl (spawn number bucket op) { c with operations := c.operations.put number op }

/-- An operation goes on in a new state. -/
def proceed (c : Cluster) (number bucket : Nat) (op : Operation) (state : Operation.State)
    (calls : List String) : Cluster :=
  (c.engage (state.engaged - op.state.engaged)).place number bucket { op with state := state } calls

/-- The bucket that a question is about. A multi-get has one for each group of its keys. -/
def bucketOf (t : Topology) : Ask → Nat
  | .get key | .getMeta key | .set key _ | .delete key => t.router.bucketOf key
  | .getMulti _ => 0

def openWrite (c : Cluster) (key : String) (bucket : Nat) : Operation.State × List String :=
  let replicas := c.topology.router.resolve bucket
  let (m, calls) := Quorum.Write.start key c.replication.n c.replication.w bucket
    (c.live c.topology replicas.mains) (c.live c.topology replicas.backups)
  (.write m, calls)

def openRead {α : Type} (c : Cluster) (bucket : Nat) : Quorum.Read α × List String :=
  Quorum.Read.start c.replication.r
    (c.rank c.topology (c.topology.router.resolve bucket).mains)

/-- The first state of an operation, and the nodes that it calls first. -/
def opening (c : Cluster) (bucket : Nat) : Ask → Operation.State × List String
  | .get _ =>
    let (m, calls) := c.openRead bucket
    (.read m, calls)
  | .getMeta _ =>
    let (m, calls) := c.openRead bucket
    (.readMeta m, calls)
  | .getMulti keys => (.fetch (Quorum.Fetch.start c.topology.router.buckets keys), [])
  | .set key _ => c.openWrite key bucket
  | .delete key => c.openWrite key bucket

def timeout (c : Cluster) : Ask → Nat
  | .get _ | .getMeta _ | .getMulti _ => c.replication.readTimeout
  | .set _ _ | .delete _ => c.replication.writeTimeout

/-- Begins an operation, under the next free number. -/
def begin (c : Cluster) (q : Ask) : Cluster :=
  let bucket := bucketOf c.topology q
  let (state, calls) := c.opening bucket q
  let op : Operation := ⟨q, c.topology, c.now + c.timeout q, state⟩
  (({ c with next := c.next + 1 } : Cluster).engage state.engaged).place c.next bucket op calls

/-- Begins with one bucket of a fetch. -/
def beginBucket (c : Cluster) (number bucket : Nat) : Cluster :=
  match c.operations.get? number with
  | none => c
  | some op =>
    match op.state with
    | .fetch m =>
      match m.group? bucket with
      | none => c
      | some g =>
        let (g, calls) := g.begin (c.rank op.topology (op.topology.router.resolve bucket).mains)
        c.proceed number bucket op (.fetch (m.putGroup g)) calls
    | _ => c

def result? (c : Cluster) (number : Nat) (q : Ask) : Option q.Outcome :=
  (c.operations.get? number).bind fun op => op.state.result? q

/-! ## Calls -/

def setStage (c : Cluster) (number : Nat) (call : Call) (stage : Call.Stage call.q) : Cluster :=
  { c with calls := c.calls.put number { call with stage := stage } }

/-- A call ends and lets go of what it held. -/
def endCall (c : Cluster) (number : Nat) (call : Call) (result : call.q.Outcome)
    (outcome : Option Health.Outcome) : Cluster :=
  let ended : Call := { call with guard := none, stage := .ended result outcome }
  ({ c with calls := c.calls.put number ended } : Cluster).release call.guard

def addrOf (c : Cluster) (call : Call) : String :=
  ((c.member? call.member).map Member.addr).getD ""

/-- Asks the circuit breaker for permission. -/
def ask (c : Cluster) (number : Nat) : Cluster :=
  match c.calls.get? number with
  | none => c
  | some call =>
    match call.stage, c.member? call.member with
    | .waiting, some m =>
      let (permission, health) := m.health.ask c.now
      let m := { m with health := health }
      if permission.isAllowed then
        let (unread, m) := m.takeConnection
        (c.updateMember call.member fun _ => m).setStage number call (.running c.now unread)
      else
        (c.updateMember call.member fun _ => m).endCall number call
          (.error (.connection (m.addr ++ ": circuit open"))) none
    | _, _ => c

/-- What a node sends back to a question. -/
def serveAt (c : Cluster) (addr : String) (q : Ask) : Bytes × Store :=
  let (replies, store) := Node.session c.nodeLimits c.seconds q.toWire (c.store addr)
  (replies.flatten, store)

/-- A node does its part of a call. -/
def serve (c : Cluster) (number : Nat) : Cluster :=
  match c.calls.get? number with
  | none => c
  | some call =>
    match call.stage with
    | .running since unread =>
      let addr := c.addrOf call
      let (bytes, store) := c.serveAt addr call.q
      let answer := call.q.readAnswer addr c.bodyMax false (unread ++ bytes)
      (c.putStore addr store).setStage number call (.served since answer)
    | _ => c

/-- The size of an item that was stored. -/
def storedSize : (q : Ask) → q.Outcome → Option Nat
  | .set _ item, .ok _ => some item.value.length
  | _, _ => none

def recordSizes (c : Cluster) (member : Nat) (sizes : List Nat) : Cluster :=
  c.updateMember member fun m => { m with health := sizes.foldl Health.Node.recordSize m.health }

def micros (c : Cluster) (since : Nat) : Nat :=
  (c.now - since) * 1000

/-- The answer reaches the proxy, which keeps the connection if it is still good. -/
def finish (c : Cluster) (number : Nat) : Cluster :=
  match c.calls.get? number with
  | none => c
  | some call =>
    match call.stage with
    | .served since (some answer) =>
      let c := if answer.isClean then
          c.updateMember call.member fun m => m.keepConnection c.replication.maxIdle answer.rest
        else c
      let c := c.recordSizes call.member (storedSize call.q answer.result).toList
      c.endCall number call answer.result (some (.of answer.result (c.micros since)))
    | _ => c

/-- A call fails, before or after the node has done its part. -/
def fail (c : Cluster) (number : Nat) (why : Failure) : Cluster :=
  match c.calls.get? number with
  | none => c
  | some call =>
    let result : call.q.Outcome := .error why
    match call.stage with
    | .running since _ | .served since _ =>
      c.endCall number call result (some (.of result (c.micros since)))
    | _ => c

/-- Records how a call ended with the health of its node. -/
def recordOutcome (c : Cluster) (member : Nat) : Option Health.Outcome → Cluster
  | none => c
  | some outcome =>
    match c.member? member with
    | none => c
    | some m =>
      let (health, event) := m.health.record outcome c.now
      let trips : UInt64 := match event with
        | some (.opened _ _ _) => 1
        | _ => 0
      { c.updateMember member fun m => { m with health := health } with
        metrics := { c.metrics with breakerTrips := c.metrics.breakerTrips + trips } }

/-- Hands a result to the operation that asked for it, if it is still there. -/
def hand (c : Cluster) (call : Call) (result : call.q.Outcome) : Cluster :=
  match c.operations.get? call.operation with
  | none => c
  | some op =>
    let bucket := op.topology.router.resolve call.bucket
    let r := op.state.absorb (c.live op.topology bucket.backups) (c.addrOf call) call.bucket
      call.q result
    (c.recordSizes call.member r.sizes).proceed call.operation call.bucket op r.state r.calls

/-- The operation learns the result. An operation that waits for this call alone learns it after the
outcome was recorded, any other before. -/
def deliver (c : Cluster) (number : Nat) : Cluster :=
  match c.calls.get? number with
  | none => c
  | some call =>
    match call.stage with
    | .ended result outcome =>
      if call.isAwaited then
        let c := c.recordOutcome call.member outcome
        ({ c with calls := c.calls.erase number } : Cluster).hand call result
      else (c.setStage number call (.delivered outcome)).hand call result
    | _ => c

/-- Records the outcome of a call whose result was delivered; the call is over. -/
def record (c : Cluster) (number : Nat) : Cluster :=
  match c.calls.get? number with
  | none => c
  | some call =>
    match call.stage with
    | .delivered outcome =>
      ({ c with calls := c.calls.erase number } : Cluster).recordOutcome call.member outcome
    | _ => c

/-- The deadline of an operation passes. -/
def expire (c : Cluster) (number : Nat) : Cluster :=
  match c.operations.get? number with
  | none => c
  | some op =>
    if op.deadline < c.now then
      { c with operations := c.operations.put number { op with state := op.state.expire } }
    else c

/-- Whoever asked has the answer, or no longer waits for it. -/
def forget (c : Cluster) (number : Nat) : Cluster :=
  { c with operations := c.operations.erase number }

inductive Step where
  | begin (q : Ask)
  | beginBucket (operation bucket : Nat)
  | ask (call : Nat)
  | serve (call : Nat)
  | finish (call : Nat)
  | fail (call : Nat) (why : Failure)
  | deliver (call : Nat)
  | record (call : Nat)
  | expire (operation : Nat)
  | forget (operation : Nat)
  | tick (milliseconds : Nat)
  | reload (plan : Route.Plan)

/-- One step. A step that is not possible changes nothing. -/
def step (c : Cluster) : Step → Cluster
  | .begin q => c.begin q
  | .beginBucket operation bucket => c.beginBucket operation bucket
  | .ask call => c.ask call
  | .serve call => c.serve call
  | .finish call => c.finish call
  | .fail call why => c.fail call why
  | .deliver call => c.deliver call
  | .record call => c.record call
  | .expire operation => c.expire operation
  | .forget operation => c.forget operation
  | .tick milliseconds => { c with now := c.now + milliseconds }
  | .reload plan =>
    match c.reload plan with
    | .ok c => c
    | .error _ => c

def run (c : Cluster) (steps : List Step) : Cluster :=
  steps.foldl step c

end Cluster

end QuorumKv
