import QuorumKv.Proofs.Cluster.Calls
import QuorumKv.Proofs.Quorum.Course
import QuorumKv.Proofs.Route

/-! Every write in a cluster takes its course. Whatever else goes on, what its operation learns is
one answer of each node that it called, and its deadline: a course of `Quorum.Write`, so that what
holds of all courses holds of all writes in all runs. -/
namespace QuorumKv.Cluster

open Quorum.Write (Course Happening)

/-- A write learns of an answer whether the node had the key, or why it failed. -/
theorem Operation.State.absorb_write {q : Ask} {key : String}
    (asked : q = .delete key ∨ ∃ item, q = .set key item) (liveBackups : List String)
    (addr : String) (bucket : Nat) (m : Quorum.Write) (result : q.Outcome) :
    ∃ r, (write m).absorb liveBackups addr bucket q result =
      ⟨write (m.absorb addr r).1, (m.absorb addr r).2, []⟩ := by
  obtain rfl | ⟨item, rfl⟩ := asked
  · exact ⟨result, rfl⟩
  · exact ⟨result.map fun _ => true, rfl⟩

/-- Nothing but a write becomes a write. -/
theorem Operation.State.write_of_absorb {state : Operation.State} {liveBackups : List String}
    {addr : String} {bucket : Nat} {q : Ask} {result : q.Outcome} {m : Quorum.Write}
    (absorbed : (state.absorb liveBackups addr bucket q result).state = write m) :
    ∃ n, state = write n := by
  cases state with
  | write n => exact ⟨n, rfl⟩
  | read n => cases q <;> cases absorbed
  | readMeta n => cases q <;> cases absorbed
  | fetch n =>
    cases q with
    | getMulti keys =>
      simp only [absorb] at absorbed
      split at absorbed <;> cases absorbed
    | _ => cases absorbed

namespace Traffic

variable {number bucket : Nat} {rules : Rules}

/-- Where the calls of a write stand in its course: what is open was called and has no answer yet,
and no node has two open calls. -/
structure Takes (t : Traffic) (number bucket : Nat) (c : Course) : Prop where
  earned : c.write.IsEarned
  punctual : c.expired = false → c.late = []
  spread : t.Spread number (c.answered ++ c.write.spare)
  reaches : t.Reaches number bucket c.called

theorem Takes.kept {t u : Traffic} {c : Course} (takes : t.Takes number bucket c)
    (kept : Kept number t u) : u.Takes number bucket c where
  earned := takes.earned
  punctual := takes.punctual
  spread := kept.spread takes.spread
  reaches := kept.reaches takes.reaches

/-- A write makes its first calls. -/
theorem takes_begin {t : Traffic} {op : Operation} {key : String} {mains backups : List String}
    {replicas : Route.Replicas} (sound : t.Sound) (topology : op.topology = t.topology)
    (nodup : replicas.all.Nodup) (live : mains.Sublist replicas.mains)
    (spare : backups.Sublist replicas.backups)
    (new : t.calls.All fun _ call => call.operation ≠ number) :
    let c := Course.begin key t.replication.n t.replication.w bucket mains backups
    (t.place number bucket op c.called).Takes number bucket c := by
  intro c
  obtain ⟨called, -, -, earned⟩ :=
    Quorum.Write.start_calls key t.replication.n t.replication.w bucket mains backups
  refine ⟨earned, fun _ => rfl, ?_, ?_⟩
  · exact spread_place sound topology
      (spread_of_none (nodup.sublist (called.trans (live.append spare))) new)
  · exact reaches_place sound topology (List.Subset.refl _)
      (new.imp fun _ _ _ other mine => absurd mine other)

/-- A write learns an answer of a node that it called and that has not answered yet. -/
theorem takes_deliver {t : Traffic} {op : Operation} {k : Nat} {call : Call}
    {result : call.q.Outcome} {outcome : Option Health.Outcome} {calls : Assoc Nat Call}
    {c : Course} (r : Except Failure Bool) (sound : t.Sound) (topology : op.topology = t.topology)
    (there : t.calls.get? k = some call) (mine : call.operation = number)
    (ended : call.stage = .ended result outcome)
    (calls_eq : calls = t.calls.erase k ∨
      calls = t.calls.put k { call with stage := .delivered outcome })
    (takes : t.Takes number bucket c) :
    (c.next (.answer (t.addrOf call) r)).write = (c.write.absorb (t.addrOf call) r).1 ∧
    (({ t with calls := calls } : Traffic).place number bucket op
      (c.write.absorb (t.addrOf call) r).2).Takes number bucket
        (c.next (.answer (t.addrOf call) r)) := by
  have open_ := Call.isOpen_of_stage ended (by simp)
  have due : t.addrOf call ∈ c.called := (takes.reaches k call there mine).2
  have silent : t.addrOf call ∉ c.answered := fun known =>
    takes.spread.apart k call there mine open_ (List.mem_append_left _ known)
  simp only [Course.next, if_pos (And.intro due silent)]
  have after := sound_delivered sound there calls_eq
  have absorbed := Quorum.Write.absorb_absorbed takes.earned (t.addrOf call) r
  have learned := spread_deliver there mine ended calls_eq takes.spread
  have answered := Course.answered_note (t.addrOf call) r takes.punctual
  have called : (c.note (t.addrOf call) r).called = c.called := (Course.note_fixed c _ r).2.1
  refine ⟨rfl, absorbed.earned, Course.punctual_note _ r takes.punctual, ?_, ?_⟩
  · refine spread_place after topology (learned.perm ?_)
    simp only [Course.proceed, Course.answered] at answered ⊢
    rw [answered, absorbed.spare]
    refine List.perm_iff_count.mpr fun node => ?_
    simp only [List.count_append, List.count_cons, List.count_nil]
    omega
  · refine reaches_place after topology ?_ ((kept_deliver there ended calls_eq).reaches ?_)
    · exact List.subset_append_right ..
    · intro j d known own
      obtain ⟨same, inside⟩ := takes.reaches j d known own
      exact ⟨same, List.mem_append_left _ (called.symm ▸ inside)⟩

/-- The deadline of a write passes. -/
theorem takes_expire {t u : Traffic} {c : Course} (kept : Kept number t u)
    (takes : t.Takes number bucket c) : u.Takes number bucket (c.next .deadline) := by
  obtain ⟨-, earned, -, spare⟩ := Quorum.Write.expire_eq c.write takes.earned
  refine ⟨earned, nofun, ?_, kept.reaches takes.reaches⟩
  simp only [Course.next, spare]
  exact kept.spread takes.spread

/-- Whether a write has come to a state in some course on nodes of its bucket. -/
def IsCourse (t : Traffic) (number bucket : Nat) (key : String) (m : Quorum.Write) : Prop :=
  ∃ mains backups happenings, mains.Sublist (t.topology.router.resolve bucket).mains ∧
    backups.Sublist (t.topology.router.resolve bucket).backups ∧
    let c :=
      (Course.begin key t.replication.n t.replication.w bucket mains backups).after happenings
    c.write = m ∧ t.Takes number bucket c

/-- A write under a number, once it has begun, takes its course. -/
structure OnCourse (number : Nat) (t : Traffic) : Prop where
  sound : t.Sound
  distinct : ∀ bucket, (t.topology.router.resolve bucket).all.Nodup
  states : ∀ op m, t.operations.get? number = some op → op.state = .write m →
    ∃ key, (op.q = .delete key ∨ ∃ item, op.q = .set key item) ∧
      t.IsCourse number (bucketOf t.topology op.q) key m

theorem isCourse_begin {t : Traffic} {op : Operation} {key : String} {mains backups : List String}
    (sound : t.Sound) (topology : op.topology = t.topology)
    (nodup : (t.topology.router.resolve bucket).all.Nodup)
    (live : mains.Sublist (t.topology.router.resolve bucket).mains)
    (spare : backups.Sublist (t.topology.router.resolve bucket).backups)
    (new : t.calls.All fun _ call => call.operation ≠ number) :
    (t.place number bucket op (Quorum.Write.start key t.replication.n t.replication.w bucket mains
        backups).2).IsCourse number bucket key
      (Quorum.Write.start key t.replication.n t.replication.w bucket mains backups).1 := by
  obtain ⟨-, -, -, routes, replication, -⟩ := place_fixed t number bucket op
    (Quorum.Write.start key t.replication.n t.replication.w bucket mains backups).2
  refine ⟨mains, backups, [], routes ▸ live, routes ▸ spare, ?_⟩
  rw [replication]
  exact ⟨rfl, takes_begin sound topology nodup live spare new⟩

/-- A course goes on with what happens next. -/
theorem IsCourse.go_on {t u : Traffic} {key : String} {m n : Quorum.Write}
    (course : t.IsCourse number bucket key m) (routes : u.topology = t.topology)
    (replication : u.replication = t.replication) (more : List Happening)
    (goes_on : ∀ c : Course, c.write = m → t.Takes number bucket c →
      (c.after more).write = n ∧ u.Takes number bucket (c.after more)) :
    u.IsCourse number bucket key n := by
  obtain ⟨mains, backups, happenings, live, spare, write, takes⟩ := course
  obtain ⟨now, takes⟩ := goes_on _ write takes
  refine ⟨mains, backups, happenings ++ more, routes ▸ live, routes ▸ spare, ?_⟩
  rw [replication]
  simp only [Course.after, List.foldl_append] at now takes ⊢
  exact ⟨now, takes⟩

theorem move_onCourse {t u : Traffic} (begins : ∀ q, rules.begins q → q.Carried t.nodeLimits)
    (move : Move rules t u) (writing : OnCourse number t) : OnCourse number u := by
  obtain ⟨routes, replication, -, -⟩ := move_fixed move
  refine ⟨move_sound begins move writing.sound, routes ▸ writing.distinct, ?_⟩
  intro op m known state
  rw [routes]
  cases move_at number move with
  | aside kept operation =>
    obtain same | gone := operation
    · obtain ⟨key, asked, course⟩ := writing.states op m (same ▸ known) state
      exact ⟨key, asked, course.go_on routes replication [] fun c write takes =>
        ⟨write, takes.kept kept⟩⟩
    · rw [gone] at known
      cases known
  | @begin q first addrs deadline numbered allowed opening after =>
    have new : t.calls.All fun _ call => call.operation ≠ number :=
      writing.sound.calls.imp fun _ _ _ known => numbered ▸ Nat.ne_of_lt known.2.1
    subst after
    rw [(place_fixed ..).1, Assoc.get?_put_self] at known
    obtain rfl := Option.some.inj known
    have later := writing.sound.later (Nat.le_succ t.next)
    cases opening with
    | set key item live spare =>
      obtain rfl := Operation.State.write.inj state
      exact ⟨key, .inr ⟨item, rfl⟩, isCourse_begin (t := { t with next := t.next + 1 }) later rfl
        (writing.distinct _) live spare new⟩
    | delete key live spare =>
      obtain rfl := Operation.State.write.inj state
      exact ⟨key, .inl rfl, isCourse_begin (t := { t with next := t.next + 1 }) later rfl
        (writing.distinct _) live spare new⟩
    | _ => cases state
  | @beginBucket old n bucket g addrs before fetching after =>
    subst after
    rw [(place_fixed ..).1, Assoc.get?_put_self] at known
    obtain rfl := Option.some.inj known
    cases state
  | @deliver old k call result outcome calls liveBackups before there mine ended calls_eq live
      after =>
    have same : old.topology = t.topology := (writing.sound.operations _ old before).2.1
    subst after
    rw [(place_fixed ..).1, Assoc.get?_put_self] at known
    obtain rfl := Option.some.inj known
    simp only at state ⊢
    obtain ⟨n, was⟩ := Operation.State.write_of_absorb state
    obtain ⟨key, asked, course⟩ := writing.states old n before was
    have question : call.q = old.q := by
      apply writing.sound.matching k call there old (mine ▸ before)
      rintro keys many
      simp [many] at asked
    have about : call.bucket = bucketOf t.topology old.q := by
      obtain ⟨_, _, _, _, _, _, takes⟩ := course
      exact (takes.reaches k call there mine).1
    obtain ⟨r, absorbed⟩ := Operation.State.absorb_write (question ▸ asked) liveBackups
      (t.addrOf call) call.bucket n result
    rw [was, absorbed] at state routes replication ⊢
    obtain rfl := Operation.State.write.inj state
    refine ⟨key, asked, course.go_on routes replication [.answer (t.addrOf call) r] ?_⟩
    rintro c rfl takes
    rw [about]
    exact takes_deliver r writing.sound same there mine ended calls_eq takes
  | @expire old before after =>
    subst after
    rw [Assoc.get?_put_self] at known
    obtain rfl := Option.some.inj known
    simp only at state ⊢
    cases was : old.state with
    | write n =>
      rw [was] at state
      obtain rfl := Operation.State.write.inj state
      obtain ⟨key, asked, course⟩ := writing.states old n before was
      refine ⟨key, asked, course.go_on routes replication [.deadline] ?_⟩
      rintro c rfl takes
      exact ⟨rfl, takes_expire (.of_calls (t := t) rfl rfl) takes⟩
    | _ =>
      rw [was] at state
      cases state

end Traffic

theorem filter_of_sublist {nodes chosen : List String} {p : String → Bool} (nodup : nodes.Nodup)
    (sublist : chosen.Sublist nodes) (exact_choice : ∀ a ∈ nodes, p a = true ↔ a ∈ chosen) :
    nodes.filter p = chosen := by
  have inside : chosen.Sublist (nodes.filter p) := by
    have all : chosen.filter p = chosen := List.filter_eq_self.mpr fun a listed =>
      (exact_choice a (sublist.subset listed)).mpr listed
    exact all ▸ sublist.filter p
  have fits : (nodes.filter p).length ≤ chosen.length := by
    have different : (nodes.filter p).Nodup := nodup.filter p
    apply different.length_le_of_subset
    intro a listed
    obtain ⟨known, picked⟩ := List.mem_filter.mp listed
    exact (exact_choice a known).mp picked
  exact (inside.eq_of_length_le fits).symm

/-- Some of the mains and some of the backups are the routable ones for some choice of nodes. -/
theorem routable_of_sublists {replicas : Route.Replicas} {mains backups : List String}
    (nodup : replicas.all.Nodup) (live : mains.Sublist replicas.mains)
    (spare : backups.Sublist replicas.backups) : ∃ isRoutable : String → Bool,
      replicas.mains.filter isRoutable = mains ∧
        replicas.backups.filter isRoutable = backups := by
  obtain ⟨distinct_mains, distinct_backups, apart⟩ := List.nodup_append.mp nodup
  refine ⟨fun a => decide (a ∈ mains ∨ a ∈ backups), ?_, ?_⟩
  · apply filter_of_sublist distinct_mains live
    intro a main
    have other : a ∉ backups := fun backup => apart a main a (spare.subset backup) rfl
    simp [other]
  · apply filter_of_sublist distinct_backups spare
    intro a backup
    have other : a ∉ mains := fun main => apart a (live.subset main) a backup rfl
    simp [other]

/-- In every run, what a write has come to is what some course on the routable nodes of its bucket
comes to. -/
theorem Run.write_takes_course {replication : Config.Replication}
    {limits nodeLimits : Config.Limits} {plan : Route.Plan} {epoch : Nat} {rules : Rules}
    {c d : Cluster} (built : build replication limits plan nodeLimits epoch = .ok c)
    (begins : ∀ q, rules.begins q → q.Carried nodeLimits) (run : Run rules c d) {number : Nat}
    {op : Operation} {m : Quorum.Write} (known : d.operations.get? number = some op)
    (state : op.state = .write m) :
    ∃ key isRoutable happenings, (op.q = .delete key ∨ ∃ item, op.q = .set key item) ∧
      ((Course.begin key replication.n replication.w (bucketOf d.topology op.q)
        ((d.topology.router.resolve (bucketOf d.topology op.q)).mains.filter isRoutable)
        ((d.topology.router.resolve (bucketOf d.topology op.q)).backups.filter isRoutable)).after
          happenings).write = m := by
  obtain ⟨sound, replicates, limited, -, -, operations, routed⟩ := build_eq built
  have first : Traffic.OnCourse number c.traffic := by
    refine ⟨sound, Router.nodup_resolve routed, ?_⟩
    intro op m known
    rw [traffic, operations] at known
    cases known
  have kept := Run.keeps (P := fun t => Traffic.OnCourse number t ∧ t.nodeLimits = nodeLimits ∧
    t.replication = replication) run ?_ ⟨first, limited, replicates⟩
  · obtain ⟨onCourse, -, quorums⟩ := kept
    obtain ⟨key, asked, mains, backups, happenings, live, spare, write, -⟩ :=
      onCourse.states op m known state
    obtain ⟨isRoutable, rfl, rfl⟩ := routable_of_sublists (onCourse.distinct _) live spare
    exact ⟨key, isRoutable, happenings, asked, quorums ▸ write⟩
  · rintro t u move ⟨onCourse, limits, quorums⟩
    obtain ⟨-, replication, nodeLimits, -⟩ := Traffic.move_fixed move
    exact ⟨Traffic.move_onCourse (limits ▸ begins) move onCourse, nodeLimits.trans limits,
      replication.trans quorums⟩

end QuorumKv.Cluster
