import QuorumKv.Proofs.Cluster.Calls
import QuorumKv.Proofs.Quorum.Write
import QuorumKv.Proofs.Route
import QuorumKv.Proofs.Store

/-! One write while everything else goes on. The nodes that it counts are different, and each of
them has a record since that is at least as new as the item that was written. -/
namespace QuorumKv.Cluster

namespace Traffic

variable {number bucket : Nat} {holds : String → Prop} {rules : Rules}

/-- What a write has counted: different nodes, of which something holds. -/
structure Counts (t : Traffic) (number : Nat) (holds : String → Prop) (m : Quorum.Write) :
    Prop where
  w : m.w = t.replication.w
  earned : m.IsEarned
  spread : t.Spread number (m.acked ++ m.spare)
  held : ∀ addr ∈ m.acked, holds addr

theorem Counts.nodup {t : Traffic} {m : Quorum.Write} (counts : t.Counts number holds m) :
    m.acked.Nodup :=
  (List.nodup_append.mp counts.spread.nodup).1

theorem counts_kept {t u : Traffic} {now : String → Prop} {m : Quorum.Write}
    (kept : Kept number t u) (replication : u.replication = t.replication)
    (still : ∀ addr, holds addr → now addr) (counts : t.Counts number holds m) :
    u.Counts number now m where
  w := counts.w.trans (congrArg _ replication.symm)
  earned := counts.earned
  spread := kept.spread counts.spread
  held addr listed := still addr (counts.held addr listed)

theorem Counts.imp {t : Traffic} {now : String → Prop} {m : Quorum.Write}
    (still : ∀ addr, holds addr → now addr) (counts : t.Counts number holds m) :
    t.Counts number now m :=
  counts_kept (.refl ..) rfl still counts

theorem counts_begin {t : Traffic} {op : Operation} {key : String} {mains backups : List String}
    {replicas : Route.Replicas} (sound : t.Sound) (topology : op.topology = t.topology)
    (nodup : replicas.all.Nodup) (live : mains.Sublist replicas.mains)
    (spare : backups.Sublist replicas.backups)
    (new : t.calls.All fun _ call => call.operation ≠ number) :
    (t.place number bucket op (Quorum.Write.start key t.replication.n t.replication.w bucket mains
        backups).2).Counts number holds
      (Quorum.Write.start key t.replication.n t.replication.w bucket mains backups).1 := by
  obtain ⟨called, acked, quota, earned⟩ :=
    Quorum.Write.start_calls key t.replication.n t.replication.w bucket mains backups
  obtain ⟨-, -, -, -, replication, -⟩ := place_fixed t number bucket op
    (Quorum.Write.start key t.replication.n t.replication.w bucket mains backups).2
  refine ⟨quota.trans (congrArg _ replication.symm), earned, ?_, by simp [acked]⟩
  apply spread_place sound topology
  rw [acked, List.nil_append]
  exact spread_of_none (nodup.sublist (called.trans (live.append spare))) new

/-- A write learns an answer, or that a call failed. -/
theorem counts_deliver {t : Traffic} {op : Operation} {k : Nat} {call : Call}
    {result : call.q.Outcome} {outcome : Option Health.Outcome} {calls : Assoc Nat Call}
    {m : Quorum.Write} {r : Except Failure Bool}
    (sound : t.Sound) (topology : op.topology = t.topology)
    (there : t.calls.get? k = some call) (mine : call.operation = number)
    (ended : call.stage = .ended result outcome)
    (calls_eq : calls = t.calls.erase k ∨
      calls = t.calls.put k { call with stage := .delivered outcome })
    (heard : ∀ found, r = .ok found → holds (t.addrOf call)) (counts : t.Counts number holds m) :
    (({ t with calls := calls } : Traffic).place number bucket op
        (m.absorb (t.addrOf call) r).2).Counts number holds (m.absorb (t.addrOf call) r).1 := by
  have after := sound_delivered sound there calls_eq
  have absorbed := Quorum.Write.absorb_absorbed counts.earned (t.addrOf call) r
  have learned := spread_deliver there mine ended calls_eq counts.spread
  obtain ⟨-, -, -, -, replication, -⟩ := place_fixed ({ t with calls := calls } : Traffic) number
    bucket op (m.absorb (t.addrOf call) r).2
  refine ⟨absorbed.w.trans (counts.w.trans (congrArg _ replication.symm)), absorbed.earned,
    spread_place after topology ?_, ?_⟩
  · obtain same | ⟨found, -, grown⟩ := absorbed.acked
    · refine learned.tail.perm ?_
      rw [same, absorbed.spare, ← List.append_assoc, ← List.append_assoc]
      exact List.perm_append_comm.append_right _
    · refine learned.perm (List.perm_iff_count.mpr fun node => ?_)
      rw [grown, absorbed.spare]
      simp only [List.count_append, List.count_cons, List.count_nil]
      omega
  · obtain same | ⟨found, ok, grown⟩ := absorbed.acked
    · exact same ▸ counts.held
    · intro addr listed
      rw [grown] at listed
      obtain old | new := List.mem_append.mp listed
      · exact counts.held addr old
      · exact List.mem_singleton.mp new ▸ heard found ok

theorem move_atLeast {t u : Traffic} {addr key : String} {n : Nat}
    (bounded : n ≤ 9223372036854775807) (move : Move rules t u)
    (held : (t.store addr).AtLeast key n) : (u.store addr).AtLeast key n :=
  move_store (P := fun s => s.AtLeast key n) addr (fun _ _ _ _ => Node.session_atLeast held bounded)
    (fun _ _ _ => Node.session_atLeast held bounded) move held

/-- A write of an item under a number, once it has begun. -/
structure Writing (key : String) (item : Item) (number : Nat) (t : Traffic) : Prop where
  sound : t.Sound
  distinct : ∀ bucket, (t.topology.router.resolve bucket).all.Nodup
  tells : t.Tells number fun addr q _ => q = .set key item →
    (t.store addr).AtLeast key item.rev.magnitude
  states : ∀ op m, t.operations.get? number = some op → op.q = .set key item →
    op.state = .write m →
      t.Counts number (fun addr => (t.store addr).AtLeast key item.rev.magnitude) m

theorem move_writing {t u : Traffic} {key : String} {item : Item}
    (begins : ∀ q, rules.begins q → q.Carried t.nodeLimits)
    (bounded : item.rev.magnitude ≤ 9223372036854775807) (move : Move rules t u)
    (writing : Writing key item number t) : Writing key item number u := by
  obtain ⟨topology, replication, -, -⟩ := move_fixed move
  have grows : ∀ addr, (t.store addr).AtLeast key item.rev.magnitude →
      (u.store addr).AtLeast key item.rev.magnitude := fun addr held =>
    move_atLeast bounded move held
  refine ⟨move_sound begins move writing.sound, topology ▸ writing.distinct, ?_, ?_⟩
  · refine move_tells (fun addr q a told asked => grows addr (told asked)) ?_ writing.sound move
      writing.tells
    intro now call a mine carried allowed answer read ok stored asked
    obtain ⟨operation, bucket, member, question, isAwaited, guard, stage⟩ := call
    simp only at asked
    subst asked
    obtain ⟨⟨rev, taken⟩, after⟩ := Ask.stored_of_ok read ok
    rw [stored, after]
    exact Store.atLeast_of_set taken
  · intro op m known asked state
    cases move_at number move with
    | aside kept operation =>
      obtain same | gone := operation
      · exact counts_kept kept replication grows (writing.states op m (same ▸ known) asked state)
      · rw [gone] at known
        cases known
    | @begin q first addrs deadline numbered allowed opening after =>
      have new : t.calls.All fun _ call => call.operation ≠ number :=
        writing.sound.calls.imp fun _ _ _ known => numbered ▸ Nat.ne_of_lt known.2.1
      subst after
      rw [(place_fixed ..).1, Assoc.get?_put_self] at known
      obtain rfl := Option.some.inj known
      simp only at asked state
      subst asked
      cases opening with
      | set _ _ live spare =>
        obtain rfl := Operation.State.write.inj state
        exact counts_begin (t := { t with next := t.next + 1 })
          (writing.sound.later (Nat.le_succ _)) rfl (writing.distinct _) live spare new
    | @beginBucket old n bucket g addrs before fetching after =>
      subst after
      rw [(place_fixed ..).1, Assoc.get?_put_self] at known
      obtain rfl := Option.some.inj known
      cases state
    | @deliver old k call result outcome calls liveBackups before there mine ended calls_eq live
        after =>
      have same : old.topology = t.topology := (writing.sound.operations _ old before).2.1
      have told := writing.tells k call there mine
      simp only [Call.Tells, ended] at told
      subst after
      rw [(place_fixed ..).1, Assoc.get?_put_self] at known
      obtain rfl := Option.some.inj known
      simp only at asked state
      have question : call.q = .set key item :=
        (writing.sound.matching k call there old (mine ▸ before) (by simp [asked])).trans asked
      obtain ⟨operation, bucket, member, question_, isAwaited, guard, stage⟩ := call
      simp only at question mine ended told result
      subst question
      cases was : old.state with
      | write n =>
        rw [was] at state grows
        obtain rfl := Operation.State.write.inj state
        have counts := writing.states old n before asked was
        refine Counts.imp grows (counts_deliver (r := result.map fun _ => true) writing.sound same
          there mine ended calls_eq ?_ counts)
        intro found ok
        cases result with
        | error why => cases ok
        | ok a => exact told a rfl rfl
      | _ =>
        rw [was] at state
        cases state
    | @expire old before after =>
      subst after
      rw [Assoc.get?_put_self] at known
      obtain rfl := Option.some.inj known
      simp only at asked state
      cases was : old.state with
      | write n =>
        rw [was] at state
        obtain rfl := Operation.State.write.inj state
        have counts := writing.states old n before asked was
        obtain ⟨quota, earned, acked, spare⟩ := Quorum.Write.expire_eq n counts.earned
        refine ⟨quota.trans counts.w, earned, ?_, acked ▸ counts.held⟩
        rw [acked, spare]
        exact Kept.spread (.of_calls (t := t) rfl rfl) counts.spread
      | _ =>
        rw [was] at state
        cases state

end Traffic

/-- What questions about a key can begin: those that a node reads as they were meant. -/
def Rules.carried (limits : Config.Limits) : Rules :=
  ⟨fun q => q.Carried limits, fun _ _ => True, fun _ => True⟩

/-- The nodes of a key. -/
def replicasOf (c : Cluster) (key : String) : Route.Replicas :=
  c.topology.router.resolve (c.topology.router.bucketOf key)

/-- What each node has under a key. -/
def heldUnder (c : Cluster) (key addr : String) : Option Record :=
  (c.store addr).record? key

/-- Whether a write or delete succeeded with acknowledgements of some nodes only. -/
def Operation.State.IsAcked (nodes : List String) : Operation.State → Prop
  | .write m => m.result.any Except.isOk = true ∧ ∀ addr ∈ m.acked, addr ∈ nodes
  | _ => False

instance (nodes : List String) : (state : Operation.State) → Decidable (state.IsAcked nodes)
  | .write m => inferInstanceAs (Decidable (_ ∧ ∀ addr ∈ m.acked, addr ∈ nodes))
  | .read _ | .readMeta _ | .fetch _ => inferInstanceAs (Decidable False)

/-- Whether a write or delete has returned, acknowledged by mains of its bucket only. -/
def Acknowledged (c : Cluster) (number : Nat) (q : Ask) : Prop :=
  ∃ op ∈ c.operations.get? number, op.q = q ∧
    op.state.IsAcked (c.topology.router.resolve (bucketOf c.topology q)).mains

instance (c : Cluster) (number : Nat) (q : Ask) : Decidable (c.Acknowledged number q) :=
  inferInstanceAs (Decidable (∃ op ∈ c.operations.get? number, _))

theorem Acknowledged.carried {c : Cluster} {number : Nat} {q : Ask}
    (returned : c.Acknowledged number q) (sound : c.traffic.Sound) : q.Carried c.nodeLimits := by
  obtain ⟨op, known, rfl, -⟩ := returned
  exact (sound.operations number op known).2.2.1

variable {replication : Config.Replication} {limits nodeLimits : Config.Limits}
  {plan : Route.Plan} {epoch : Nat} {rules : Rules}

/-- What holds in every run from the beginning. -/
theorem Run.from_build {c d : Cluster}
    (built : build replication limits plan nodeLimits epoch = .ok c)
    (begins : ∀ q, rules.begins q → q.Carried nodeLimits) (run : Run rules c d) :
    d.traffic.Sound ∧ d.replication = replication ∧ d.nodeLimits = nodeLimits ∧
      Router.ofPlan plan = .ok d.topology.router := by
  obtain ⟨sound, replicates, limited, -, -, -, routed⟩ := build_eq built
  have kept := Run.keeps (P := fun t => t.Sound ∧ t.replication = replication ∧
    t.nodeLimits = nodeLimits ∧ t.topology = c.topology) run ?_ ⟨sound, replicates, limited, rfl⟩
  · obtain ⟨sound, quorums, bounds, routes⟩ := kept
    exact ⟨sound, quorums, bounds, (congrArg (·.router) routes) ▸ routed⟩
  · rintro t u move ⟨sound, quorums, bounds, routes⟩
    obtain ⟨topology, replication, limits, -⟩ := Traffic.move_fixed move
    exact ⟨Traffic.move_sound (bounds ▸ begins) move sound, replication.trans quorums,
      limits.trans bounds, topology.trans routes⟩

/-- The mains that a write counted are as many as it needs, and have a record since. -/
theorem Run.acknowledged {c d : Cluster} {number : Nat} {key : String} {item : Item}
    (built : build replication limits plan nodeLimits epoch = .ok c)
    (begins : ∀ q, rules.begins q → q.Carried nodeLimits)
    (bounded : item.rev.magnitude ≤ 9223372036854775807) (run : Run rules c d)
    (returned : d.Acknowledged number (.set key item)) :
    ∃ acked : List String, acked.Nodup ∧ replication.w ≤ acked.length ∧
      acked ⊆ (d.replicasOf key).mains ∧
      ∀ addr ∈ acked, (d.store addr).AtLeast key item.rev.magnitude := by
  obtain ⟨sound, replicates, limited, -, calls, operations, routed⟩ := build_eq built
  have first : Traffic.Writing key item number c.traffic := by
    refine ⟨sound, Router.nodup_resolve routed, ?_, ?_⟩
    · intro k call known
      rw [traffic, calls] at known
      cases known
    · intro op m known
      rw [traffic, operations] at known
      cases known
  have kept := Run.keeps (P := fun t => Traffic.Writing key item number t ∧
    t.nodeLimits = nodeLimits) run ?_ ⟨first, limited⟩
  · obtain ⟨op, known, asked, acked⟩ := returned
    obtain ⟨-, quorums, -⟩ := run.from_build built begins
    cases state : op.state with
    | write m =>
      rw [state] at acked
      obtain ⟨found, ok⟩ := Quorum.Write.succeeded_iff.mp acked.1
      have counts := kept.1.states op m known asked state
      have quota : m.w = d.replication.w := counts.w
      exact ⟨m.acked, counts.nodup, quorums ▸ quota ▸ counts.earned found ok, acked.2,
        counts.held⟩
    | _ =>
      rw [state] at acked
      exact acked.elim
  · rintro t u move ⟨writing, bounds⟩
    exact ⟨Traffic.move_writing (bounds ▸ begins) bounded move writing,
      (Traffic.move_fixed move).2.2.1.trans bounds⟩

end QuorumKv.Cluster
