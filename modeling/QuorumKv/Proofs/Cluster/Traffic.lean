import QuorumKv.Cluster
import QuorumKv.Proofs.Assoc
import QuorumKv.Proofs.Health.Rank

/-! What the answers in a cluster depend on, and how one event changes it. Health, clocks and
accounts decide who is asked and when, but not what is answered, so they are left out here; what
they decide is any choice that the routes allow. -/
namespace QuorumKv.Cluster

/-- A node's address, and what was left unread on its ready connections. -/
def Member.pipe (m : Member) : String × List Bytes :=
  (m.addr, m.idle)

structure Traffic where
  replication : Config.Replication
  bodyMax : Nat
  nodeLimits : Config.Limits
  topology : Topology
  stores : Assoc String Store
  pipes : List (String × List Bytes)
  operations : Assoc Nat Operation
  calls : Assoc Nat Call
  next : Nat

def traffic (c : Cluster) : Traffic where
  replication := c.replication
  bodyMax := c.bodyMax
  nodeLimits := c.nodeLimits
  topology := c.topology
  stores := c.stores
  pipes := c.members.map Member.pipe
  operations := c.operations
  calls := c.calls
  next := c.next

/-- Something that happens. A node may also get bytes that no call waits for: late ones of a call
that the proxy gave up, or those of another client. -/
inductive Event where
  | step (s : Step)
  | arrive (addr : String) (bytes : Bytes)

def happen (c : Cluster) : Event → Cluster
  | .step s => c.step s
  | .arrive addr bytes =>
    c.putStore addr (Node.session c.nodeLimits c.seconds bytes (c.store addr)).2

/-- Which questions begin, which of the questions of an operation are served, and which bytes
arrive otherwise. -/
structure Rules where
  begins : Ask → Prop
  serves : Nat → Ask → Prop
  arrives : Bytes → Prop

/-- Whether an event keeps to the rules. The routes stay. -/
def Rules.Allow (rules : Rules) (c : Cluster) : Event → Prop
  | .step (.begin q) => rules.begins q
  | .step (.serve number) =>
    ∀ call, c.calls.get? number = some call → rules.serves call.operation call.q
  | .step (.reload _) => False
  | .step _ => True
  | .arrive _ bytes => rules.arrives bytes

/-- Any number of events, in any order. -/
inductive Run (rules : Rules) (c : Cluster) : Cluster → Prop where
  | start : Run rules c c
  | next {d e} : Run rules c d → rules.Allow d e → Run rules c (d.happen e)

namespace Traffic

def addrOf (t : Traffic) (call : Call) : String :=
  ((t.pipes[call.member]?).map (·.1)).getD ""

def store (t : Traffic) (addr : String) : Store :=
  (t.stores.get? addr).getD Store.empty

/-- The reply of a node at a time in seconds, and its store then. -/
def session (t : Traffic) (now : Nat) (addr : String) (bytes : Bytes) : List Bytes × Store :=
  Node.session t.nodeLimits now bytes (t.store addr)

def spawn (number bucket : Nat) (op : Operation) (t : Traffic) (addr : String) : Traffic :=
  match op.topology.numbers.get? addr with
  | none => t
  | some member =>
    let q := op.state.question bucket op.q
    { t with
      calls := t.calls.put t.next
        ⟨number, bucket, member, q, op.state.isSequential, guardOf q, .waiting⟩
      next := t.next + 1 }

def place (t : Traffic) (number bucket : Nat) (op : Operation) (addrs : List String) : Traffic :=
  addrs.foldl (spawn number bucket op) { t with operations := t.operations.put number op }

def putCall (t : Traffic) (number : Nat) (call : Call) (stage : Call.Stage call.q)
    (guard : Option Buffer.Guard) : Traffic :=
  { t with calls := t.calls.put number { call with guard := guard, stage := stage } }

/-- The operation of a call takes its result. -/
def hand (t : Traffic) (liveBackups : List String) (call : Call) (result : call.q.Outcome) :
    Traffic :=
  match t.operations.get? call.operation with
  | none => t
  | some op =>
    let r := op.state.absorb liveBackups (t.addrOf call) call.bucket call.q result
    t.place call.operation call.bucket { op with state := r.state } r.calls

/-- A choice among some nodes, in an order of its own. -/
def Ranking (ranked nodes : List String) : Prop :=
  ∃ chosen, chosen.Sublist nodes ∧ ranked.Perm chosen

/-- How an operation can begin. -/
inductive Opening (t : Traffic) (bucket : Nat) :
    Ask → Operation.State → List String → Prop where
  | get (key : String) {ranked : List String}
      (ranking : Ranking ranked (t.topology.router.resolve bucket).mains) :
      Opening t bucket (.get key) (.read (Quorum.Read.start t.replication.r ranked).1)
        (Quorum.Read.start (α := Item) t.replication.r ranked).2
  | getMeta (key : String) {ranked : List String}
      (ranking : Ranking ranked (t.topology.router.resolve bucket).mains) :
      Opening t bucket (.getMeta key) (.readMeta (Quorum.Read.start t.replication.r ranked).1)
        (Quorum.Read.start (α := Meta) t.replication.r ranked).2
  | getMulti (keys : List String) :
      Opening t bucket (.getMulti keys)
        (.fetch (Quorum.Fetch.start t.topology.router.buckets keys)) []
  | set (key : String) (item : Item) {mains backups : List String}
      (live : mains.Sublist (t.topology.router.resolve bucket).mains)
      (spare : backups.Sublist (t.topology.router.resolve bucket).backups) :
      Opening t bucket (.set key item)
        (.write (Quorum.Write.start key t.replication.n t.replication.w bucket mains backups).1)
        (Quorum.Write.start key t.replication.n t.replication.w bucket mains backups).2
  | delete (key : String) {mains backups : List String}
      (live : mains.Sublist (t.topology.router.resolve bucket).mains)
      (spare : backups.Sublist (t.topology.router.resolve bucket).backups) :
      Opening t bucket (.delete key)
        (.write (Quorum.Write.start key t.replication.n t.replication.w bucket mains backups).1)
        (Quorum.Write.start key t.replication.n t.replication.w bucket mains backups).2

inductive Move (rules : Rules) (t : Traffic) : Traffic → Prop where
  | idle : Move rules t t
  | begin {q : Ask} {state : Operation.State} {addrs : List String} (deadline : Nat)
      (allowed : rules.begins q)
      (opening : Opening t (bucketOf t.topology q) q state addrs) :
      Move rules t (({ t with next := t.next + 1 } : Traffic).place t.next
        (bucketOf t.topology q) ⟨q, t.topology, deadline, state⟩ addrs)
  | beginBucket {number bucket : Nat} {op : Operation} {m : Quorum.Fetch} {g : Quorum.Fetch.Group}
      (ranked : List String) (known : t.operations.get? number = some op)
      (fetching : op.state = .fetch m) (grouped : m.group? bucket = some g)
      (ranking : Ranking ranked (op.topology.router.resolve bucket).mains) :
      Move rules t (t.place number bucket
        { op with state := .fetch (m.putGroup (g.begin ranked).1) } (g.begin ranked).2)
  | refuse {number : Nat} {call : Call} (why : Failure)
      (known : t.calls.get? number = some call) (waiting : call.stage = .waiting) :
      Move rules t (t.putCall number call (.ended (.error why) none) none)
  | connect {number : Nat} {call : Call} {addr : String} {ready : List Bytes} (since : Nat)
      (known : t.calls.get? number = some call) (waiting : call.stage = .waiting)
      (pipe : t.pipes[call.member]? = some (addr, ready)) :
      Move rules t ({ t with pipes := t.pipes.set call.member (addr, ready.dropLast) }.putCall
        number call (.running since (ready.getLast?.getD [])) call.guard)
  | serve {number since : Nat} {call : Call} {unread : Bytes} (now : Nat)
      (known : t.calls.get? number = some call) (running : call.stage = .running since unread)
      (allowed : rules.serves call.operation call.q) :
      Move rules t ({ t with
          stores := t.stores.put (t.addrOf call)
            (t.session now (t.addrOf call) call.q.toWire).2 }.putCall number call
        (.served since (call.q.readAnswer (t.addrOf call) t.bodyMax false
          (unread ++ (t.session now (t.addrOf call) call.q.toWire).1.flatten))) call.guard)
  | finish {number since : Nat} {call : Call} {answer : Ask.Exchange call.q.Answer}
      (outcome : Option Health.Outcome) {pipes : List (String × List Bytes)}
      (known : t.calls.get? number = some call)
      (served : call.stage = .served since (some answer))
      (kept : pipes = t.pipes ∨ answer.isClean = true ∧ ∃ addr ready,
        t.pipes[call.member]? = some (addr, ready) ∧
          pipes = t.pipes.set call.member (addr, ready ++ [answer.rest])) :
      Move rules t ({ t with pipes := pipes }.putCall number call
        (.ended answer.result outcome) none)
  | fail {number since : Nat} {call : Call} (why : Failure) (outcome : Option Health.Outcome)
      (known : t.calls.get? number = some call)
      (underway : (∃ unread, call.stage = .running since unread) ∨
        ∃ answer, call.stage = .served since answer) :
      Move rules t (t.putCall number call (.ended (.error why) outcome) none)
  | deliver {number : Nat} {call : Call} {result : call.q.Outcome}
      {outcome : Option Health.Outcome} {calls : Assoc Nat Call} {liveBackups : List String}
      (known : t.calls.get? number = some call) (ended : call.stage = .ended result outcome)
      (calls_eq : calls = t.calls.erase number ∨
        calls = t.calls.put number { call with stage := .delivered outcome })
      (live : ∀ op, t.operations.get? call.operation = some op →
        liveBackups.Sublist (op.topology.router.resolve call.bucket).backups) :
      Move rules t ({ t with calls := calls }.hand liveBackups call result)
  | record {number : Nat} {call : Call} {outcome : Option Health.Outcome}
      (known : t.calls.get? number = some call) (delivered : call.stage = .delivered outcome) :
      Move rules t { t with calls := t.calls.erase number }
  | expire {number : Nat} {op : Operation} (known : t.operations.get? number = some op) :
      Move rules t
        { t with operations := (t.operations.put number { op with state := op.state.expire }) }
  | forget (number : Nat) :
      Move rules t { t with operations := t.operations.erase number }
  | arrive (now : Nat) (addr : String) {bytes : Bytes} (allowed : rules.arrives bytes) :
      Move rules t { t with stores := t.stores.put addr (t.session now addr bytes).2 }

end Traffic

theorem traffic_hold (c : Cluster) (guard : Option Buffer.Guard) :
    (c.hold guard).traffic = c.traffic := by
  cases guard <;> rfl

theorem traffic_release (c : Cluster) (guard : Option Buffer.Guard) :
    (c.release guard).traffic = c.traffic := by
  cases guard <;> rfl

theorem traffic_spawn (number bucket : Nat) (op : Operation) (c : Cluster) (addr : String) :
    (spawn number bucket op c addr).traffic = c.traffic.spawn number bucket op addr := by
  unfold spawn Traffic.spawn
  cases op.topology.numbers.get? addr with
  | none => rfl
  | some member =>
    simp only [traffic_hold]
    rfl

theorem traffic_place (c : Cluster) (number bucket : Nat) (op : Operation)
    (addrs : List String) :
    (c.place number bucket op addrs).traffic = c.traffic.place number bucket op addrs := by
  have each : ∀ d : Cluster, (addrs.foldl (spawn number bucket op) d).traffic =
      addrs.foldl (Traffic.spawn number bucket op) d.traffic := by
    induction addrs with
    | nil => exact fun _ => rfl
    | cons addr rest ih =>
      intro d
      rw [List.foldl_cons, ih, traffic_spawn, List.foldl_cons]
  exact each _

theorem traffic_proceed (c : Cluster) (number bucket : Nat) (op : Operation)
    (state : Operation.State) (addrs : List String) :
    (c.proceed number bucket op state addrs).traffic =
      c.traffic.place number bucket { op with state := state } addrs :=
  traffic_place ..

theorem traffic_setStage (c : Cluster) (number : Nat) (call : Call) (stage : Call.Stage call.q) :
    (c.setStage number call stage).traffic = c.traffic.putCall number call stage call.guard :=
  rfl

theorem traffic_update {c : Cluster} {number : Nat} {m : Member} {change : Member → Member}
    (there : c.member? number = some m) :
    (c.updateMember number change).traffic =
      { c.traffic with pipes := c.traffic.pipes.set number (change m).pipe } := by
  have known : c.members[number]? = some m := there
  have pipes : (c.updateMember number change).members.map Member.pipe =
      (c.members.map Member.pipe).set number (change m).pipe := by
    apply List.ext_getElem?
    intro i
    simp only [updateMember, List.getElem?_map, List.getElem?_modify, List.getElem?_set']
    by_cases here : number = i
    · subst here
      simp [known]
    · simp [here]
  exact congrArg (fun pipes => { c.traffic with pipes := pipes }) pipes

theorem traffic_update_same {c : Cluster} {number : Nat} {change : Member → Member}
    (same : ∀ m, c.member? number = some m → (change m).pipe = m.pipe) :
    (c.updateMember number change).traffic = c.traffic := by
  have pipes : (c.updateMember number change).members.map Member.pipe =
      c.members.map Member.pipe := by
    apply List.ext_getElem?
    intro i
    simp only [updateMember, List.getElem?_map, List.getElem?_modify]
    by_cases here : number = i
    · subst here
      cases there : c.members[number]? with
      | none => simp
      | some m => simp [same m there]
    · simp [here]
  exact congrArg (fun pipes => { c.traffic with pipes := pipes }) pipes

theorem pipe_known {c : Cluster} {number : Nat} {m : Member}
    (there : c.member? number = some m) : c.traffic.pipes[number]? = some (m.addr, m.idle) := by
  have known : c.members[number]? = some m := there
  simp only [traffic, List.getElem?_map, known]
  rfl

theorem addr_recordSize (n : Health.Node) (size : Nat) : (n.recordSize size).addr = n.addr := by
  unfold Health.Node.recordSize
  split <;> rfl

theorem traffic_recordSizes (c : Cluster) (member : Nat) (sizes : List Nat) :
    (c.recordSizes member sizes).traffic = c.traffic := by
  have addr : ∀ n : Health.Node, (sizes.foldl Health.Node.recordSize n).addr = n.addr := by
    induction sizes with
    | nil => exact fun _ => rfl
    | cons size rest ih => exact fun n => (ih _).trans (addr_recordSize n size)
  exact traffic_update_same fun m _ => Prod.ext (addr m.health) rfl

theorem addr_record (n : Health.Node) (outcome : Health.Outcome) (now : Nat) :
    (n.record outcome now).1.addr = n.addr := by
  cases outcome with
  | success _ => rfl
  | failure connection reason => cases connection <;> rfl

theorem traffic_recordOutcome (c : Cluster) (member : Nat) (outcome : Option Health.Outcome) :
    (c.recordOutcome member outcome).traffic = c.traffic := by
  cases outcome with
  | none => rfl
  | some outcome =>
    simp only [recordOutcome]
    cases there : c.member? member with
    | none => rfl
    | some m =>
      let recorded (n : Member) : Member :=
        { n with health := (m.health.record outcome c.now).1 }
      have same : (c.updateMember member recorded).traffic = c.traffic := by
        apply traffic_update_same
        intro n known
        obtain rfl : m = n := Option.some.inj (there.symm.trans known)
        exact Prod.ext (addr_record m.health outcome c.now) rfl
      exact same

theorem traffic_endCall (c : Cluster) (number : Nat) (call : Call) (result : call.q.Outcome)
    (outcome : Option Health.Outcome) :
    (c.endCall number call result outcome).traffic =
      c.traffic.putCall number call (.ended result outcome) none :=
  traffic_release ..

theorem addrOf_traffic (c : Cluster) (call : Call) : c.traffic.addrOf call = c.addrOf call := by
  simp only [Traffic.addrOf, traffic, List.getElem?_map, addrOf, member?, Option.map_map]
  rfl

theorem live_sublist (c : Cluster) (t : Topology) (addrs : List String) :
    (c.live t addrs).Sublist addrs :=
  List.filter_sublist

theorem rank_perm (c : Cluster) (t : Topology) (addrs : List String) :
    (c.rank t addrs).Perm (c.live t addrs) :=
  ((c.monitor t).rank_sorted addrs c.now).1

theorem rank_ranking (c : Cluster) (t : Topology) (addrs : List String) :
    Traffic.Ranking (c.rank t addrs) addrs :=
  ⟨c.live t addrs, live_sublist c t addrs, rank_perm c t addrs⟩

theorem opening_opens (c : Cluster) (bucket : Nat) (q : Ask) :
    Traffic.Opening c.traffic bucket q (c.opening bucket q).1 (c.opening bucket q).2 := by
  cases q with
  | get key => exact .get key (rank_ranking ..)
  | getMeta key => exact .getMeta key (rank_ranking ..)
  | getMulti keys => exact .getMulti keys
  | set key item => exact .set key item (live_sublist ..) (live_sublist ..)
  | delete key => exact .delete key (live_sublist ..) (live_sublist ..)

variable {rules : Rules}

theorem begin_moves (c : Cluster) {q : Ask} (allowed : rules.begins q) :
    Traffic.Move rules c.traffic (c.begin q).traffic := by
  have move := Traffic.Move.begin (c.now + c.timeout q) allowed
    (opening_opens c (bucketOf c.topology q) q)
  exact (traffic_place ..).symm ▸ move

theorem beginBucket_moves (c : Cluster) (number bucket : Nat) :
    Traffic.Move rules c.traffic (c.beginBucket number bucket).traffic := by
  unfold beginBucket
  split
  · exact .idle
  · rename_i op known
    split
    · rename_i m fetching
      split
      · exact .idle
      · rename_i g grouped
        rw [traffic_proceed]
        exact .beginBucket _ known fetching grouped (rank_ranking ..)
    · exact .idle

theorem ask_moves (c : Cluster) (number : Nat) :
    Traffic.Move rules c.traffic (c.ask number).traffic := by
  unfold ask
  split
  · exact .idle
  · rename_i call known
    split
    · rename_i m waiting there
      simp only
      split
      · rw [traffic_setStage, traffic_update there]
        exact .connect c.now known waiting (pipe_known there)
      · rw [traffic_endCall, traffic_update_same]
        · exact .refuse _ known waiting
        · intro n here
          obtain rfl : m = n := Option.some.inj (there.symm.trans here)
          rfl
    · exact .idle

theorem serve_moves (c : Cluster) (number : Nat)
    (allowed : ∀ call, c.calls.get? number = some call → rules.serves call.operation call.q) :
    Traffic.Move rules c.traffic (c.serve number).traffic := by
  unfold serve
  split
  · exact .idle
  · rename_i call known
    split
    · rename_i since unread running
      have move := Traffic.Move.serve (t := c.traffic) c.seconds known running (allowed call known)
      rw [addrOf_traffic] at move
      exact move
    · exact .idle

theorem finish_moves (c : Cluster) (number : Nat) :
    Traffic.Move rules c.traffic (c.finish number).traffic := by
  unfold finish
  split
  · exact .idle
  · rename_i call known
    split
    · rename_i since answer served
      simp only
      rw [traffic_endCall, traffic_recordSizes]
      by_cases clean : answer.isClean = true
      · simp only [clean, if_true]
        cases there : c.member? call.member with
        | none =>
          rw [traffic_update_same (by simp [there])]
          exact .finish _ known served (.inl rfl)
        | some m =>
          by_cases room : m.idle.length < c.replication.maxIdle
          · rw [traffic_update there]
            simp only [Member.keepConnection, if_pos room]
            exact .finish _ known served (.inr ⟨clean, _, _, pipe_known there, rfl⟩)
          · rw [traffic_update_same]
            · exact .finish _ known served (.inl rfl)
            · intro n here
              obtain rfl : m = n := Option.some.inj (there.symm.trans here)
              exact congrArg Member.pipe (if_neg room)
      · simp only [clean, Bool.false_eq_true, if_false]
        exact .finish _ known served (.inl rfl)
    · exact .idle

theorem fail_moves (c : Cluster) (number : Nat) (why : Failure) :
    Traffic.Move rules c.traffic (c.fail number why).traffic := by
  unfold fail
  split
  · exact .idle
  · rename_i call known
    simp only
    split
    · rename_i since unread running
      rw [traffic_endCall]
      exact .fail why _ known (.inl ⟨unread, running⟩)
    · rename_i since answer served
      rw [traffic_endCall]
      exact .fail why _ known (.inr ⟨answer, served⟩)
    · exact .idle

theorem traffic_hand (c : Cluster) (call : Call) (result : call.q.Outcome) :
    ∃ liveBackups,
      (∀ op, c.operations.get? call.operation = some op →
        liveBackups.Sublist (op.topology.router.resolve call.bucket).backups) ∧
      (c.hand call result).traffic = c.traffic.hand liveBackups call result := by
  unfold hand Traffic.hand
  cases known : c.operations.get? call.operation with
  | none => exact ⟨[], by simp, by simp only [traffic, known]⟩
  | some op =>
    refine ⟨c.live op.topology (op.topology.router.resolve call.bucket).backups, ?_, ?_⟩
    · intro other same
      obtain rfl := Option.some.inj same
      exact live_sublist ..
    · have found : c.traffic.operations.get? call.operation = some op := known
      simp only [found]
      rw [traffic_proceed, traffic_recordSizes, addrOf_traffic]

/-- A delivery does nothing, or hands over the result of a call that has ended. -/
theorem deliver_cases (c : Cluster) (number : Nat) :
    (c.deliver number).traffic = c.traffic ∨
      ∃ (call : Call) (result : call.q.Outcome) (outcome : Option Health.Outcome)
        (calls : Assoc Nat Call) (liveBackups : List String),
        c.calls.get? number = some call ∧ call.stage = .ended result outcome ∧
        (calls = c.calls.erase number ∨
          calls = c.calls.put number { call with stage := .delivered outcome }) ∧
        (∀ op, c.operations.get? call.operation = some op →
          liveBackups.Sublist (op.topology.router.resolve call.bucket).backups) ∧
        (c.deliver number).traffic =
          ({ c.traffic with calls := calls } : Traffic).hand liveBackups call result := by
  unfold deliver
  split
  · exact .inl rfl
  · rename_i call known
    split
    · rename_i result outcome ended
      split
      · have quiet := traffic_recordOutcome c call.member outcome
        have erased : ({ c.recordOutcome call.member outcome with
            calls := (c.recordOutcome call.member outcome).calls.erase number } : Cluster).traffic =
              { c.traffic with calls := c.calls.erase number } :=
          congrArg (fun t : Traffic => { t with calls := t.calls.erase number }) quiet
        obtain ⟨liveBackups, live, handed⟩ := traffic_hand
          { c.recordOutcome call.member outcome with
            calls := (c.recordOutcome call.member outcome).calls.erase number } call result
        have operations : (c.recordOutcome call.member outcome).operations = c.operations :=
          congrArg Traffic.operations quiet
        simp only [operations] at live
        rw [erased] at handed
        exact .inr ⟨call, result, outcome, _, liveBackups, known, ended, .inl rfl, live, handed⟩
      · obtain ⟨liveBackups, live, handed⟩ := traffic_hand
          (c.setStage number call (.delivered outcome)) call result
        rw [traffic_setStage] at handed
        exact .inr ⟨call, result, outcome, _, liveBackups, known, ended, .inr rfl, live, handed⟩
    · exact .inl rfl

theorem deliver_moves (c : Cluster) (number : Nat) :
    Traffic.Move rules c.traffic (c.deliver number).traffic := by
  obtain same | ⟨call, result, outcome, calls, liveBackups, known, ended, calls_eq, live, handed⟩ :=
    deliver_cases c number
  · rw [same]
    exact .idle
  · rw [handed]
    exact .deliver known ended calls_eq live

theorem record_moves (c : Cluster) (number : Nat) :
    Traffic.Move rules c.traffic (c.record number).traffic := by
  unfold record
  split
  · exact .idle
  · rename_i call known
    split
    · rename_i outcome delivered
      rw [traffic_recordOutcome]
      exact .record known delivered
    · exact .idle

theorem expire_moves (c : Cluster) (number : Nat) :
    Traffic.Move rules c.traffic (c.expire number).traffic := by
  unfold expire
  split
  · exact .idle
  · rename_i op known
    split
    · exact .expire known
    · exact .idle

/-- Every event that keeps to the rules is a move. -/
theorem happen_moves {c : Cluster} {e : Event} (allowed : rules.Allow c e) :
    Traffic.Move rules c.traffic (c.happen e).traffic := by
  cases e with
  | arrive addr bytes => exact .arrive c.seconds addr allowed
  | step s =>
    cases s with
    | begin q => exact begin_moves c allowed
    | beginBucket number bucket => exact beginBucket_moves c number bucket
    | ask number => exact ask_moves c number
    | serve number => exact serve_moves c number allowed
    | finish number => exact finish_moves c number
    | fail number why => exact fail_moves c number why
    | deliver number => exact deliver_moves c number
    | record number => exact record_moves c number
    | expire number => exact expire_moves c number
    | forget number => exact .forget number
    | tick milliseconds => exact .idle
    | reload plan => exact absurd allowed id

/-- What every move keeps, a run keeps. -/
theorem Run.keeps {P : Traffic → Prop} {c d : Cluster} (run : Run rules c d)
    (kept : ∀ t u, Traffic.Move rules t u → P t → P u) (held : P c.traffic) : P d.traffic := by
  induction run with
  | start => exact held
  | next _ allowed ih => exact kept _ _ (happen_moves allowed) ih

/-- Steps that always keep to the rules go on with a run. -/
theorem Run.steps {c d : Cluster} (run : Run rules c d) (steps : List Step)
    (allowed : ∀ s ∈ steps, ∀ e, rules.Allow e (.step s)) : Run rules c (d.run steps) := by
  induction steps generalizing d with
  | nil => exact run
  | cons s rest ih =>
    exact ih (run.next (allowed s List.mem_cons_self d)) fun t listed => allowed t (.tail _ listed)

end QuorumKv.Cluster
