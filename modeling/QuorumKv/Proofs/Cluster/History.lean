import QuorumKv.Proofs.Cluster.Calls

/-! Any history of a cluster, new routes among it. Numbers are given out once, and every node of the
routes in force has a member that can be called. -/
namespace QuorumKv.Cluster

/-- What becomes of a cluster when some things happen, one after another. -/
def after (c : Cluster) (events : List Event) : Cluster :=
  events.foldl happen c

/-- Everything may happen. -/
def Rules.free : Rules where
  begins _ := True
  serves _ _ := True
  arrives _ := True

/-- What happens is a move, unless it is about the routes. -/
theorem happen_cases (c : Cluster) (e : Event) :
    (∃ plan, e = .step (.reload plan)) ∨ Traffic.Move .free c.traffic (c.happen e).traffic := by
  cases e with
  | arrive addr bytes => exact .inr (happen_moves trivial)
  | step s =>
    cases s with
    | reload plan => exact .inl ⟨plan, rfl⟩
    | serve number => exact .inr (happen_moves fun _ _ => trivial)
    | _ => exact .inr (happen_moves trivial)

variable {number bucket : Nat}

namespace Traffic

variable {t u : Traffic} {rules : Rules}

/-- Numbers of operations and calls are given out once. -/
structure Numbered (t : Traffic) : Prop where
  operations : t.operations.All fun number _ => number < t.next
  calls : t.calls.All fun k call => k < t.next ∧ call.operation < t.next

theorem numbered_place {op : Operation} {addrs : List String} (below : number < t.next)
    (numbered : t.Numbered) : (t.place number bucket op addrs).Numbered := by
  suffices kept : (t.place number bucket op addrs).Numbered ∧
      number < (t.place number bucket op addrs).next from kept.1
  refine place_keeps (P := fun u => u.Numbered ∧ number < u.next) ?_ ⟨?_, below⟩
  · rintro u addr member - - ⟨⟨operations, calls⟩, used⟩
    refine ⟨⟨?_, ?_⟩, Nat.lt_succ_of_lt used⟩
    · exact operations.imp fun _ _ _ => Nat.lt_succ_of_lt
    · apply Assoc.All.put
      · exact calls.imp fun _ _ _ known => ⟨Nat.lt_succ_of_lt known.1, Nat.lt_succ_of_lt known.2⟩
      · exact ⟨Nat.lt_succ_self _, Nat.lt_succ_of_lt used⟩
  · exact ⟨numbered.operations.put below, numbered.calls⟩

theorem move_numbered (move : Move rules t u) (numbered : t.Numbered) : u.Numbered := by
  obtain ⟨operations, calls⟩ := numbered
  have put {k : Nat} {call : Call} {stage : Call.Stage call.q} {guard : Option Buffer.Guard}
      (known : t.calls.get? k = some call) : t.calls.put k { call with guard := guard, stage := stage }
        |>.All fun k call => k < t.next ∧ call.operation < t.next :=
    calls.put (calls k call known)
  cases move with
  | begin =>
    apply numbered_place (Nat.lt_succ_self _)
    constructor
    · exact operations.imp fun _ _ _ => Nat.lt_succ_of_lt
    · exact calls.imp fun _ _ _ known => ⟨Nat.lt_succ_of_lt known.1, Nat.lt_succ_of_lt known.2⟩
  | beginBucket ranked known => exact numbered_place (operations _ _ known) ⟨operations, calls⟩
  | refuse why known => exact ⟨operations, put known⟩
  | connect since known => exact ⟨operations, put known⟩
  | serve now known => exact ⟨operations, put known⟩
  | finish outcome known => exact ⟨operations, put known⟩
  | fail why outcome known => exact ⟨operations, put known⟩
  | @deliver k call result outcome calls' liveBackups known ended calls_eq live =>
    have before : ({ t with calls := calls' } : Traffic).Numbered :=
      ⟨operations, calls.replace calls_eq (calls k call known)⟩
    unfold hand
    split
    · exact before
    · rename_i op found
      exact numbered_place (operations _ _ found) before
  | record => exact ⟨operations, calls.erase⟩
  | expire known => exact ⟨operations.put (operations _ _ known), calls⟩
  | forget => exact ⟨operations.erase, calls⟩
  | _ => exact ⟨operations, calls⟩

theorem names_place (t : Traffic) (number bucket : Nat) (op : Operation) (addrs : List String) :
    (t.place number bucket op addrs).names = t.names := by
  rw [names, (place_fixed ..).2.2.1, names]

theorem move_names (move : Move rules t u) : u.names = t.names := by
  cases move with
  | connect since known waiting pipe => exact names_set pipe
  | finish outcome known served kept =>
    obtain rfl | ⟨-, addr, ready, pipe, rfl⟩ := kept
    · rfl
    · exact names_set pipe
  | begin => exact names_place ..
  | beginBucket => exact names_place ..
  | deliver => exact congrArg (List.map (·.1)) (hand_fixed ..).1
  | _ => rfl

/-- What every history of a cluster keeps. -/
structure Orderly (replication : Config.Replication) (t : Traffic) : Prop where
  numbered : t.Numbered
  wired : ∀ addr i, t.topology.numbers.get? addr = some i → t.names[i]? = some addr
  serves : t.topology.Serves t.names
  replicates : t.replication = replication

variable {replication : Config.Replication}

theorem move_orderly (move : Move rules t u) (orderly : t.Orderly replication) :
    u.Orderly replication := by
  obtain ⟨topology, replicates, -, -⟩ := move_fixed move
  have names := move_names move
  constructor
  · exact move_numbered move orderly.numbered
  · rw [topology, names]
    exact orderly.wired
  · rw [topology, names]
    exact orderly.serves
  · exact replicates.trans orderly.replicates

end Traffic

theorem names_traffic (c : Cluster) : c.traffic.names = c.members.map Member.addr := by
  simp only [Traffic.names, traffic, List.map_map]
  rfl

/-- New routes leave all that is under way as it is, and have a member for each of their nodes. -/
theorem reload_eq {c d : Cluster} {plan : Route.Plan}
    (wired : LeadsBack c.topology.numbers c.members) (reloaded : c.reload plan = .ok d) :
    d.operations = c.operations ∧ d.calls = c.calls ∧ d.next = c.next ∧
      d.replication = c.replication ∧ c.members <+: d.members ∧
      LeadsBack d.topology.numbers d.members ∧
      d.topology.Serves (d.members.map Member.addr) := by
  obtain ⟨router, -, reloaded⟩ := ok_of_bind reloaded
  obtain rfl := Except.ok.inj reloaded
  have enrolled := enrolled_enrollAll c.settings c.now router wired
  exact ⟨rfl, rfl, rfl, rfl, enrolled.joined, enrolled.leads, enrolled.serves _⟩

variable {replication : Config.Replication}

theorem leadsBack_of_orderly {c : Cluster} (orderly : c.traffic.Orderly replication) :
    LeadsBack c.topology.numbers c.members := by
  intro addr i numbered
  have known := orderly.wired addr i numbered
  rwa [names_traffic, List.getElem?_map] at known

theorem orderly_reload {c d : Cluster} {plan : Route.Plan} (reloaded : c.reload plan = .ok d)
    (orderly : c.traffic.Orderly replication) : d.traffic.Orderly replication := by
  obtain ⟨operations, calls, next, replicates, -, wired, serves⟩ :=
    reload_eq (leadsBack_of_orderly orderly) reloaded
  constructor
  · obtain ⟨numbered_operations, numbered_calls⟩ := orderly.numbered
    constructor
    · simp only [traffic, operations, next]
      exact numbered_operations
    · simp only [traffic, calls, next]
      exact numbered_calls
  · intro addr i numbered
    rw [names_traffic, List.getElem?_map]
    exact wired addr i numbered
  · rw [names_traffic]
    exact serves
  · exact replicates.trans orderly.replicates

theorem orderly_happen {c : Cluster} (e : Event) (orderly : c.traffic.Orderly replication) :
    (c.happen e).traffic.Orderly replication := by
  obtain ⟨plan, rfl⟩ | move := happen_cases c e
  · simp only [happen, step]
    split
    · rename_i d reloaded
      exact orderly_reload reloaded orderly
    · exact orderly
  · exact Traffic.move_orderly move orderly

theorem orderly_after {c : Cluster} (events : List Event)
    (orderly : c.traffic.Orderly replication) : (c.after events).traffic.Orderly replication := by
  induction events generalizing c with
  | nil => exact orderly
  | cons e rest ih => exact ih (orderly_happen e orderly)

theorem orderly_build {limits nodeLimits : Config.Limits} {plan : Route.Plan} {epoch : Nat}
    {c : Cluster} (built : build replication limits plan nodeLimits epoch = .ok c) :
    c.traffic.Orderly replication := by
  obtain ⟨-, replicates, -, -, calls, operations, -⟩ := build_eq built
  have enrolled := enrolled_build built
  constructor
  · constructor
    · intro number op known
      rw [traffic, operations] at known
      cases known
    · intro k call known
      rw [traffic, calls] at known
      cases known
  · intro addr i numbered
    rw [names_traffic, List.getElem?_map]
    exact enrolled.leads addr i numbered
  · rw [names_traffic]
    exact enrolled.serves c.topology.version
  · exact replicates

end QuorumKv.Cluster
