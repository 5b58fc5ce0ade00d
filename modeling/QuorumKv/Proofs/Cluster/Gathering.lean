import Mathlib.Logic.Function.Basic
import QuorumKv.Proofs.Cluster.Course
import QuorumKv.Proofs.Quorum.Gathering

/-! Every read in a cluster takes its course. No node has two calls of one read, so each has one
answer for it, and what the read learns is a course of `Quorum.Read` on these answers. -/
namespace QuorumKv.Cluster

open Quorum.Read (Course)

namespace Operation.State

variable {q : Ask} {key : String} (live : List String) (addr : String) (bucket : Nat)

theorem absorb_read (asked : q = .get key) (m : Quorum.Read Item) (result : q.Outcome) :
    ∃ r, (read m).absorb live addr bucket q result =
      ⟨read (m.absorb Item.rev live r).1, (m.absorb Item.rev live r).2, []⟩ := by
  subst asked
  exact ⟨result, rfl⟩

theorem absorb_readMeta (asked : q = .getMeta key) (m : Quorum.Read Meta) (result : q.Outcome) :
    ∃ r, (readMeta m).absorb live addr bucket q result =
      ⟨readMeta (m.absorb Meta.rev live r).1, (m.absorb Meta.rev live r).2, []⟩ := by
  subst asked
  exact ⟨result, rfl⟩

theorem state_absorb_write (m : Quorum.Write) (result : q.Outcome) :
    ∃ n, ((write m).absorb live addr bucket q result).state = write n := by
  cases q <;> exact ⟨_, rfl⟩

theorem state_absorb_fetch (m : Quorum.Fetch) (result : q.Outcome) :
    ∃ n, ((fetch m).absorb live addr bucket q result).state = fetch n := by
  cases q with
  | getMulti keys =>
    simp only [absorb]
    split <;> exact ⟨_, rfl⟩
  | _ => exact ⟨_, rfl⟩

end Operation.State

namespace Traffic

variable {α : Type} {rev : α → Revision} {number bucket : Nat} {rules : Rules}

/-- Where the calls of a read stand in its course: what is open was called and has not been heard,
and no node has two open calls. -/
structure Learns (t : Traffic) (number bucket : Nat) (backups : List String) (c : Course α) :
    Prop where
  spread : t.Spread number (c.heard ++ c.read.ahead backups)
  reaches : t.Reaches number bucket c.called

theorem Learns.kept {t u : Traffic} {backups : List String} {c : Course α}
    (learns : t.Learns number bucket backups c) (kept : Kept number t u) :
    u.Learns number bucket backups c where
  spread := kept.spread learns.spread
  reaches := kept.reaches learns.reaches

theorem learns_begin {t : Traffic} {op : Operation} {needed : Nat} {ranked : List String}
    {replicas : Route.Replicas} (sound : t.Sound) (topology : op.topology = t.topology)
    (nodup : replicas.all.Nodup) (ranking : Ranking ranked replicas.mains)
    (new : t.calls.All fun _ call => call.operation ≠ number) :
    let c : Course α := Course.begin needed ranked
    (t.place number bucket op c.quorum).Learns number bucket replicas.backups c := by
  intro c
  obtain ⟨chosen, sublist, perm⟩ := ranking
  have nodes : (ranked ++ replicas.backups).Nodup :=
    (perm.append_right _).nodup_iff.mpr (nodup.sublist (sublist.append (.refl _)))
  constructor
  · apply spread_place sound topology
    exact spread_of_none (nodes.sublist (Quorum.Read.ahead_start needed ranked _)) new
  · exact reaches_place sound topology (List.subset_append_left ..)
      (new.imp fun _ _ _ other mine => absurd mine other)

theorem Learns.expire {t : Traffic} {backups : List String} {c : Course α}
    (tells : String → Except Failure (Option α)) (learns : t.Learns number bucket backups c) :
    t.Learns number bucket backups (c.next rev tells backups .deadline) where
  spread := by
    have fewer := (Quorum.Read.ahead_expire c.read backups).append_left c.heard
    exact learns.spread.subperm (learns.spread.nodup.sublist fewer) fewer.subset
  reaches := learns.reaches

/-- Whether a read has come to a state in some course on ranked nodes of its bucket. -/
def IsRead (t : Traffic) (number bucket : Nat) (rev : α → Revision) (m : Quorum.Read α) : Prop :=
  ∃ ranked tells happenings, Ranking ranked (t.topology.router.resolve bucket).mains ∧
    let backups := (t.topology.router.resolve bucket).backups
    let c := (Course.begin t.replication.r ranked).after rev tells backups happenings
    c.read = m ∧ t.Learns number bucket backups c

variable {t u : Traffic} {m : Quorum.Read α}

theorem IsRead.kept (course : t.IsRead number bucket rev m) (routes : u.topology = t.topology)
    (replication : u.replication = t.replication) (kept : Kept number t u) :
    u.IsRead number bucket rev m := by
  obtain ⟨ranked, tells, happenings, ranking, read, learns⟩ := course
  refine ⟨ranked, tells, happenings, routes ▸ ranking, ?_⟩
  rw [routes, replication]
  exact ⟨read, learns.kept kept⟩

/-- The calls of a read are all about its bucket. -/
theorem IsRead.about {k : Nat} {call : Call} (course : t.IsRead number bucket rev m)
    (there : t.calls.get? k = some call) (mine : call.operation = number) :
    call.bucket = bucket := by
  obtain ⟨_, _, _, _, _, learns⟩ := course
  exact (learns.reaches k call there mine).1

theorem IsRead.expire (course : t.IsRead number bucket rev m) :
    t.IsRead number bucket rev m.expire := by
  obtain ⟨ranked, tells, happenings, ranking, rfl, learns⟩ := course
  refine ⟨ranked, tells, happenings ++ [.deadline], ranking, ?_⟩
  simp only [Course.after_snoc]
  exact ⟨rfl, learns.expire tells⟩

theorem isRead_begin {op : Operation} {ranked : List String} (sound : t.Sound)
    (topology : op.topology = t.topology)
    (nodup : (t.topology.router.resolve bucket).all.Nodup)
    (ranking : Ranking ranked (t.topology.router.resolve bucket).mains)
    (new : t.calls.All fun _ call => call.operation ≠ number) :
    (t.place number bucket op (Quorum.Read.start (α := α) t.replication.r ranked).2).IsRead number
      bucket rev (Quorum.Read.start t.replication.r ranked).1 := by
  obtain ⟨-, -, -, routes, replication, -⟩ := place_fixed t number bucket op
    (Quorum.Read.start (α := α) t.replication.r ranked).2
  refine ⟨ranked, fun _ => .ok none, [], routes ▸ ranking, ?_⟩
  rw [routes, replication]
  exact ⟨rfl, learns_begin sound topology nodup ranking new⟩

/-- Whether an operation, if it is a read, has come to where it is in some course. -/
def HasRead (t : Traffic) (number : Nat) (op : Operation) : Prop :=
  match op.state with
  | .read m => (∃ key, op.q = .get key) ∧ t.IsRead number (bucketOf t.topology op.q) Item.rev m
  | .readMeta m =>
    (∃ key, op.q = .getMeta key) ∧ t.IsRead number (bucketOf t.topology op.q) Meta.rev m
  | _ => True

/-- Every read under a number takes its course. -/
structure Reads (number : Nat) (t : Traffic) : Prop where
  sound : t.Sound
  distinct : ∀ bucket, (t.topology.router.resolve bucket).all.Nodup
  states : ∀ op, t.operations.get? number = some op → t.HasRead number op

theorem HasRead.kept {op : Operation} (course : t.HasRead number op)
    (routes : u.topology = t.topology) (replication : u.replication = t.replication)
    (kept : Kept number t u) : u.HasRead number op := by
  unfold HasRead at course ⊢
  rw [routes]
  split at course
  · exact course.imp_right fun read => read.kept routes replication kept
  · exact course.imp_right fun read => read.kept routes replication kept
  · trivial

theorem HasRead.expire {op : Operation} (course : t.HasRead number op) :
    t.HasRead number { op with state := op.state.expire } := by
  unfold HasRead at course ⊢
  cases state : op.state with
  | read m =>
    rw [state] at course
    exact course.imp_right IsRead.expire
  | readMeta m =>
    rw [state] at course
    exact course.imp_right IsRead.expire
  | write m => trivial
  | fetch m => trivial

theorem hasRead_begin {q : Ask} {state : Operation.State} {addrs : List String} (deadline : Nat)
    (sound : t.Sound) (distinct : ∀ bucket, (t.topology.router.resolve bucket).all.Nodup)
    (new : t.calls.All fun _ call => call.operation ≠ number)
    (opening : Opening t (bucketOf t.topology q) q state addrs) :
    let op : Operation := ⟨q, t.topology, deadline, state⟩
    (({ t with next := t.next + 1 } : Traffic).place number (bucketOf t.topology q) op
      addrs).HasRead number op := by
  intro op
  have later := sound.later (Nat.le_succ t.next)
  unfold HasRead
  rw [(place_fixed ..).2.2.2.1]
  cases opening with
  | get key ranking => exact ⟨⟨key, rfl⟩, isRead_begin later rfl (distinct _) ranking new⟩
  | getMeta key ranking => exact ⟨⟨key, rfl⟩, isRead_begin later rfl (distinct _) ranking new⟩
  | _ => trivial

section Delivery

variable {op : Operation} {k : Nat} {call : Call} {result : call.q.Outcome}
  {outcome : Option Health.Outcome} {calls : Assoc Nat Call} {live : List String}
  (sound : t.Sound) (there : t.calls.get? k = some call) (mine : call.operation = number)
  (ended : call.stage = .ended result outcome)
  (calls_eq : calls = t.calls.erase k ∨
    calls = t.calls.put k { call with stage := .delivered outcome })

include sound there mine ended calls_eq

/-- A read learns the answer of a node that it called and has not heard. -/
theorem Learns.deliver {backups : List String} {c : Course α} (rev : α → Revision)
    (tells : String → Except Failure (Option α)) (isRoutable : String → Bool)
    (topology : op.topology = t.topology) (due : t.addrOf call ∈ c.called)
    (new : t.addrOf call ∉ c.heard) (learns : t.Learns number bucket backups c) :
    (({ t with calls := calls } : Traffic).place number bucket op
      (c.read.absorb rev (backups.filter isRoutable) (tells (t.addrOf call))).2).Learns number
        bucket backups (c.next rev tells backups (.answer (t.addrOf call) isRoutable)) := by
  have after := sound_delivered sound there calls_eq
  have learned := spread_deliver there mine ended calls_eq learns.spread
  have kept : Kept number t { t with calls := calls } := kept_deliver there ended calls_eq
  rw [Course.next_answer due new]
  constructor
  · rw [Course.heard_proceed, Course.read_proceed]
    have fewer := ((Quorum.Read.ahead_absorb rev c.read
      (List.filter_sublist (p := isRoutable) (l := backups))
      (tells (t.addrOf call))).append_left c.heard).cons_cons (t.addrOf call)
    refine spread_place after topology (Spread.perm (learned.subperm
      (learned.nodup.sublist fewer) fewer.subset) ?_)
    refine List.perm_iff_count.mpr fun node => ?_
    simp only [List.count_append, List.count_cons, List.count_nil]
    omega
  · have called := Course.called_proceed { c with heard := c.heard ++ [t.addrOf call] }
      (c.read.absorb rev (backups.filter isRoutable) (tells (t.addrOf call))).1
      (c.read.absorb rev (backups.filter isRoutable) (tells (t.addrOf call))).2
      (backups.filter isRoutable)
    refine reaches_place after topology ?_ ((kept.reaches learns.reaches).imp ?_)
    · exact fun addr listed => called.mem_iff.mpr (List.mem_append_left _ listed)
    · intro j d known inside own
      obtain ⟨same, earlier⟩ := inside own
      exact ⟨same, called.mem_iff.mpr (List.mem_append_right _ earlier)⟩

/-- The course of a read goes on with an answer of a node that has not been heard, on which nothing
that has happened so far depends. -/
theorem IsRead.deliver (r : Except Failure (Option α)) (topology : op.topology = t.topology)
    (nodup : (t.topology.router.resolve bucket).all.Nodup)
    (routable : live.Sublist (t.topology.router.resolve bucket).backups)
    (course : t.IsRead number bucket rev m) :
    (({ t with calls := calls } : Traffic).place number bucket op
      (m.absorb rev live r).2).IsRead number bucket rev (m.absorb rev live r).1 := by
  obtain ⟨ranked, tells, happenings, ranking, read, learns⟩ := course
  obtain ⟨isRoutable, -, rfl⟩ := routable_of_sublists nodup (List.nil_sublist _) routable
  generalize earlier : (Course.begin t.replication.r ranked).after rev tells
    (t.topology.router.resolve bucket).backups happenings = c at read learns
  subst read
  have due : t.addrOf call ∈ c.called := (learns.reaches k call there mine).2
  have new : t.addrOf call ∉ c.heard := fun known =>
    learns.spread.apart k call there mine (Call.isOpen_of_stage ended (by simp))
      (List.mem_append_left _ known)
  let told := Function.update tells (t.addrOf call) r
  have same : (Course.begin t.replication.r ranked).after rev told
      (t.topology.router.resolve bucket).backups happenings = c := by
    rw [← earlier]
    refine Course.after_congr fun addr known => Function.update_of_ne ?_ ..
    rintro rfl
    exact new (earlier ▸ known)
  have learned := learns.deliver sound there mine ended calls_eq rev told isRoutable topology due
    new
  have answer : told (t.addrOf call) = r := Function.update_self ..
  rw [answer] at learned
  obtain ⟨-, -, -, routes, replication, -⟩ := place_fixed ({ t with calls := calls } : Traffic)
    number bucket op (c.read.absorb rev
      ((t.topology.router.resolve bucket).backups.filter isRoutable) r).2
  refine ⟨ranked, told, happenings ++ [.answer (t.addrOf call) isRoutable], ?_⟩
  rw [routes, replication]
  refine ⟨ranking, ?_⟩
  simp only [Course.after_snoc, same]
  refine ⟨?_, learned⟩
  rw [Course.next_answer due new, answer, Course.read_proceed]

theorem HasRead.deliver (known : t.operations.get? number = some op)
    (distinct : ∀ bucket, (t.topology.router.resolve bucket).all.Nodup)
    (routable : live.Sublist (t.topology.router.resolve call.bucket).backups)
    (course : t.HasRead number op) :
    let reaction := op.state.absorb live (t.addrOf call) call.bucket call.q result
    let after := { op with state := reaction.state }
    (({ t with calls := calls } : Traffic).place number call.bucket after
      reaction.calls).HasRead number after := by
  intro reaction after
  have topology : op.topology = t.topology := (sound.operations _ op known).2.1
  have question := sound.matching k call there op (mine ▸ known)
  unfold HasRead at course ⊢
  rw [(place_fixed ..).2.2.2.1]
  cases state : op.state with
  | read m =>
    rw [state] at course
    obtain ⟨⟨key, asked⟩, read⟩ := course
    obtain ⟨r, absorbed⟩ := Operation.State.absorb_read live (t.addrOf call) call.bucket
      ((question (by simp [asked])).trans asked) m result
    have about := read.about there mine
    simp only [reaction, after, state, absorbed]
    rw [about] at routable ⊢
    exact ⟨⟨key, asked⟩,
      read.deliver sound there mine ended calls_eq r topology (distinct _) routable⟩
  | readMeta m =>
    rw [state] at course
    obtain ⟨⟨key, asked⟩, read⟩ := course
    obtain ⟨r, absorbed⟩ := Operation.State.absorb_readMeta live (t.addrOf call) call.bucket
      ((question (by simp [asked])).trans asked) m result
    have about := read.about there mine
    simp only [reaction, after, state, absorbed]
    rw [about] at routable ⊢
    exact ⟨⟨key, asked⟩,
      read.deliver sound there mine ended calls_eq r topology (distinct _) routable⟩
  | write m =>
    obtain ⟨n, still⟩ :=
      Operation.State.state_absorb_write live (t.addrOf call) call.bucket m result
    simp only [reaction, after, state, still]
  | fetch m =>
    obtain ⟨n, still⟩ :=
      Operation.State.state_absorb_fetch live (t.addrOf call) call.bucket m result
    simp only [reaction, after, state, still]

end Delivery

/-- A read goes on in its course whatever moves. -/
theorem move_reads (begins : ∀ q, rules.begins q → q.Carried t.nodeLimits) (move : Move rules t u)
    (reads : Reads number t) : Reads number u := by
  obtain ⟨routes, replication, -, -⟩ := move_fixed move
  refine ⟨move_sound begins move reads.sound, routes ▸ reads.distinct, fun op known => ?_⟩
  cases move_at number move with
  | aside kept operation =>
    obtain same | gone := operation
    · exact (reads.states op (same ▸ known)).kept routes replication kept
    · cases gone.symm.trans known
  | @begin q first addrs deadline numbered allowed opening after =>
    have new : t.calls.All fun _ call => call.operation ≠ number :=
      reads.sound.calls.imp fun _ _ _ known => numbered ▸ Nat.ne_of_lt known.2.1
    subst after
    rw [(place_fixed ..).1, Assoc.get?_put_self] at known
    obtain rfl := Option.some.inj known
    exact hasRead_begin deadline reads.sound reads.distinct new opening
  | @beginBucket old m bucket g ranked before fetching after =>
    subst after
    rw [(place_fixed ..).1, Assoc.get?_put_self] at known
    obtain rfl := Option.some.inj known
    trivial
  | @deliver old k call result outcome calls live before there mine ended calls_eq routable after =>
    have same : old.topology = t.topology := (reads.sound.operations _ old before).2.1
    subst after
    rw [(place_fixed ..).1, Assoc.get?_put_self] at known
    obtain rfl := Option.some.inj known
    exact (reads.states old before).deliver reads.sound there mine ended calls_eq before
      reads.distinct (same ▸ routable)
  | @expire old before after =>
    subst after
    rw [Assoc.get?_put_self] at known
    obtain rfl := Option.some.inj known
    exact (reads.states old before).expire.kept (t := t) rfl rfl (.of_calls rfl rfl)

end Traffic

/-- In every run, what a read has come to is what some course comes to, on some of the mains of its
bucket in some order. -/
theorem Run.read_takes_course {replication : Config.Replication}
    {limits nodeLimits : Config.Limits} {plan : Route.Plan} {epoch : Nat} {rules : Rules}
    {c d : Cluster} (built : build replication limits plan nodeLimits epoch = .ok c)
    (begins : ∀ q, rules.begins q → q.Carried nodeLimits) (run : Run rules c d) {number : Nat}
    {op : Operation} (known : d.operations.get? number = some op) :
    let replicas := d.topology.router.resolve (bucketOf d.topology op.q)
    (∀ m, op.state = .read m → (∃ key, op.q = .get key) ∧
      ∃ ranked tells happenings, Traffic.Ranking ranked replicas.mains ∧
        ((Course.begin replication.r ranked).after Item.rev tells replicas.backups
          happenings).read = m) ∧
    ∀ m, op.state = .readMeta m → (∃ key, op.q = .getMeta key) ∧
      ∃ ranked tells happenings, Traffic.Ranking ranked replicas.mains ∧
        ((Course.begin replication.r ranked).after Meta.rev tells replicas.backups
          happenings).read = m := by
  obtain ⟨sound, replicates, limited, -, -, operations, routed⟩ := build_eq built
  have first : Traffic.Reads number c.traffic := by
    refine ⟨sound, Router.nodup_resolve routed, ?_⟩
    intro op known
    rw [traffic, operations] at known
    cases known
  have kept := Run.keeps (P := fun t => Traffic.Reads number t ∧ t.nodeLimits = nodeLimits ∧
    t.replication = replication) run ?_ ⟨first, limited, replicates⟩
  · obtain ⟨reads, -, quorums⟩ := kept
    have course := reads.states op known
    unfold Traffic.HasRead at course
    constructor
    · intro m state
      rw [state] at course
      obtain ⟨asked, ranked, tells, happenings, ranking, read, -⟩ := course
      exact ⟨asked, ranked, tells, happenings, ranking, quorums ▸ read⟩
    · intro m state
      rw [state] at course
      obtain ⟨asked, ranked, tells, happenings, ranking, read, -⟩ := course
      exact ⟨asked, ranked, tells, happenings, ranking, quorums ▸ read⟩
  · rintro t u move ⟨reads, limits, quorums⟩
    obtain ⟨-, replication, nodeLimits, -⟩ := Traffic.move_fixed move
    exact ⟨Traffic.move_reads (limits ▸ begins) move reads, nodeLimits.trans limits,
      replication.trans quorums⟩

end QuorumKv.Cluster
