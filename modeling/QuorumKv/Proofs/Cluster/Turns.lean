import QuorumKv.Proofs.Cluster.Outage
import QuorumKv.Proofs.Quorum.Found

/-! One operation in the midst of everything that happens. What it sees is a turn at a time: it
begins with a bucket, learns what a call came to, or runs out of time. What its turns keep, any
history keeps, whatever else happens and whichever routes are put in place. -/
namespace QuorumKv.Cluster

open Operation (State)

/-- A call that an operation waits for: about which bucket, to whom, and with which question. -/
structure Due where
  bucket : Nat
  addr : String
  q : Ask

/-- The calls that an operation makes when it calls some nodes. -/
def Operation.State.calling (s : State) (q : Ask) (bucket : Nat) (addrs : List String) : List Due :=
  addrs.map fun addr => ⟨bucket, addr, s.question bucket q⟩

/-- The calls of a group that goes on ask for what it misses. -/
theorem calling_putGroup {m : Quorum.Fetch} {g h : Quorum.Fetch.Group} {bucket : Nat} {q : Ask}
    {addrs : List String} (grouped : m.group? bucket = some g) (same : h.bucket = bucket) :
    (State.fetch (m.putGroup h)).calling q bucket addrs =
      addrs.map fun addr => ⟨bucket, addr, .getMulti h.missing⟩ := by
  have question : (State.fetch (m.putGroup h)).question bucket q = .getMulti h.missing := by
    simp only [State.question, Quorum.Fetch.group?_putGroup grouped same, Option.map_some,
      Option.getD_some]
  rw [State.calling, question]

/-- What an operation can meet with: how the mains of a bucket may be ranked, when its deadline may
pass, and what its calls may come to. -/
structure Conditions where
  ranks : Nat → List String → Prop
  late : State → Prop
  tells : (due : Due) → due.q.Outcome → Prop

/-- One turn of an operation and of the calls that it waits for. -/
inductive Turn (router : Router) (q : Ask) (w : Conditions) (s : State) (dues : List Due) :
    State → List Due → Prop where
  | rest : Turn router q w s dues s dues
  | beginBucket {m : Quorum.Fetch} {g : Quorum.Fetch.Group} {bucket : Nat} {ranked : List String}
      (fetching : s = .fetch m) (grouped : m.group? bucket = some g)
      (ranks : w.ranks bucket ranked) :
      Turn router q w s dues (.fetch (m.putGroup (g.begin ranked).1))
        (dues ++ (State.fetch (m.putGroup (g.begin ranked).1)).calling q bucket (g.begin ranked).2)
  | hear {due : Due} {rest : List Due} {liveBackups : List String} {result : due.q.Outcome}
      (perm : dues.Perm (due :: rest))
      (live : liveBackups.Sublist (router.resolve due.bucket).backups)
      (told : w.tells due result) :
      Turn router q w s dues (s.absorb liveBackups due.addr due.bucket due.q result).state
        (rest ++ (s.absorb liveBackups due.addr due.bucket due.q result).state.calling q due.bucket
          (s.absorb liveBackups due.addr due.bucket due.q result).calls)
  | expire (late : w.late s) : Turn router q w s dues s.expire dues

variable {number bucket : Nat} {q : Ask} {routes : Topology} {w : Conditions}

namespace Traffic

variable {t u : Traffic} {dues : List Due}

/-- An open call of an operation is a due one. -/
def Owes (t : Traffic) (number k : Nat) (due : Due) : Prop :=
  ∃ call addr, t.calls.get? k = some call ∧ call.operation = number ∧ call.IsOpen ∧
    t.names[call.member]? = some addr ∧ due = ⟨call.bucket, addr, call.q⟩

/-- The open calls of an operation are the due ones, each under a number of its own. -/
def Awaits (t : Traffic) (number : Nat) (dues : List Due) : Prop :=
  ∃ entries : List (Nat × Due), (entries.map (·.1)).Nodup ∧ (entries.map (·.2)).Perm dues ∧
    (∀ e ∈ entries, t.Owes number e.1 e.2) ∧ ∀ k, t.Opens number k → k ∈ entries.map (·.1)

theorem Owes.opens {k : Nat} {due : Due} (owes : t.Owes number k due) : t.Opens number k := by
  obtain ⟨call, addr, known, mine, open_, -⟩ := owes
  exact ⟨call, known, mine, open_⟩

theorem Owes.kept {k : Nat} {due : Due} (kept : Kept number t u) (opens : u.Opens number k)
    (owes : t.Owes number k due) : u.Owes number k due := by
  obtain ⟨d, known, mine, open_⟩ := opens
  obtain ⟨c, there, -, member, bucket, question, -⟩ := kept.calls k d known mine
  obtain ⟨call, addr, same, -, -, name, rfl⟩ := owes
  obtain rfl := Option.some.inj (there.symm.trans same)
  refine ⟨d, addr, known, mine, open_, ?_, ?_⟩
  · rw [kept.names, member]
    exact name
  · rw [bucket, question]

theorem awaits_of_none (none_yet : t.calls.All fun _ call => call.operation ≠ number) :
    t.Awaits number [] := by
  refine ⟨[], List.nodup_nil, .refl _, List.forall_mem_nil _, ?_⟩
  rintro k ⟨call, known, mine, -⟩
  exact absurd mine (none_yet k call known)

theorem Awaits.opens {k : Nat} (awaits : t.Awaits number []) : ¬t.Opens number k := by
  obtain ⟨entries, -, perm, -, listed⟩ := awaits
  obtain rfl : entries = [] := List.map_eq_nil_iff.mp (List.perm_nil.mp perm)
  intro opens
  cases listed k opens

theorem Awaits.exists_opens (awaits : t.Awaits number dues) (some_due : dues ≠ []) :
    ∃ k, t.Opens number k := by
  obtain ⟨entries, -, perm, owed, -⟩ := awaits
  have filled : entries ≠ [] := by
    rintro rfl
    exact some_due (List.nil_perm.mp perm)
  obtain ⟨e, listed⟩ := List.exists_mem_of_ne_nil entries filled
  exact ⟨e.1, (owed e listed).opens⟩

theorem awaits_kept (kept : Kept number t u) (still : ∀ k, t.Opens number k → u.Opens number k)
    (awaits : t.Awaits number dues) : u.Awaits number dues := by
  obtain ⟨entries, nodup, perm, owed, listed⟩ := awaits
  refine ⟨entries, nodup, perm, ?_, fun k opens => listed k (kept.opens opens)⟩
  exact fun e there => (owed e there).kept kept (still e.1 (owed e there).opens)

/-- A call of which the operation learns the result was due, and is due no more. -/
theorem awaits_deliver {k : Nat} {call : Call} {result : call.q.Outcome}
    {outcome : Option Health.Outcome} {calls : Assoc Nat Call}
    (there : t.calls.get? k = some call) (mine : call.operation = number)
    (ended : call.stage = .ended result outcome)
    (calls_eq : calls = t.calls.erase k ∨
      calls = t.calls.put k { call with stage := .delivered outcome })
    (awaits : t.Awaits number dues) :
    ∃ rest, dues.Perm (⟨call.bucket, t.addrOf call, call.q⟩ :: rest) ∧
      ({ t with calls := calls } : Traffic).Awaits number rest := by
  obtain ⟨entries, nodup, perm, owed, listed⟩ := awaits
  have open_ : t.Opens number k := ⟨call, there, mine, Call.isOpen_of_stage ended (by simp)⟩
  obtain ⟨⟨j, due⟩, here, rfl⟩ := List.mem_map.mp (listed k open_)
  obtain ⟨before, after, rfl⟩ := List.append_of_mem here
  have split : (before ++ (j, due) :: after).Perm ((j, due) :: (before ++ after)) :=
    List.perm_middle
  have distinct := (split.map (·.1)).nodup_iff.mp nodup
  obtain ⟨fresh, distinct⟩ := List.nodup_cons.mp distinct
  obtain ⟨c, addr, same, -, -, name, about⟩ := owed _ here
  obtain rfl := Option.some.inj (there.symm.trans same)
  have called : t.addrOf call = addr := by rw [addrOf_eq, name, Option.getD_some]
  refine ⟨(before ++ after).map (·.2), ?_, before ++ after, distinct, .refl _, ?_, ?_⟩
  · rw [called, ← show due = ⟨call.bucket, addr, call.q⟩ from about]
    exact perm.symm.trans (split.map (·.2))
  · intro e other
    have earlier : e ∈ before ++ (j, due) :: after := split.mem_iff.mpr (.tail _ other)
    have apart : e.1 ≠ j := fun same => fresh (List.mem_map.mpr ⟨e, other, same⟩)
    have still := (opens_deliver there ended calls_eq e.1).mpr ⟨(owed e earlier).opens, apart⟩
    exact (owed e earlier).kept (kept_deliver there ended calls_eq) still
  · intro i opens
    obtain ⟨earlier, apart⟩ := (opens_deliver there ended calls_eq i).mp opens
    have there := (split.map (·.1)).mem_iff.mp (listed i earlier)
    exact (List.mem_cons.mp there).resolve_left apart

/-- A new call is due from now on. -/
theorem awaits_spawn {op : Operation} {addr : String} {member : Nat}
    (below : t.calls.All fun k _ => k < t.next) (name : t.names[member]? = some addr)
    (awaits : t.Awaits number dues) :
    ({ t with
      calls := t.calls.put t.next (newCall number bucket op member)
      next := t.next + 1 } : Traffic).Awaits number
        (dues ++ [⟨bucket, addr, op.state.question bucket op.q⟩]) := by
  obtain ⟨entries, nodup, perm, owed, listed⟩ := awaits
  have older : ∀ e ∈ entries, e.1 ≠ t.next := by
    intro e there
    obtain ⟨call, -, known, -⟩ := owed e there
    exact Nat.ne_of_lt (below e.1 call known)
  let new : Nat × Due := (t.next, ⟨bucket, addr, op.state.question bucket op.q⟩)
  refine ⟨entries ++ [new], ?_, ?_, ?_, ?_⟩
  · rw [List.map_append, List.nodup_append]
    refine ⟨nodup, List.nodup_cons.mpr ⟨List.not_mem_nil, List.nodup_nil⟩, ?_⟩
    rintro k old j one rfl
    obtain ⟨e, there, rfl⟩ := List.mem_map.mp old
    exact older e there (List.mem_singleton.mp one)
  · rw [List.map_append]
    exact perm.append_right _
  · intro e there
    obtain old | one := List.mem_append.mp there
    · obtain ⟨call, name, known, rest⟩ := owed e old
      exact ⟨call, name, (Assoc.get?_put_ne _ _ (older e old).symm).trans known, rest⟩
    · obtain rfl := List.mem_singleton.mp one
      exact ⟨_, addr, Assoc.get?_put_self .., rfl, nofun, name, rfl⟩
  · rintro k ⟨call, known, mine, open_⟩
    rw [List.map_append, List.mem_append]
    by_cases here : k = t.next
    · exact .inr (List.mem_singleton.mpr here)
    · rw [Assoc.get?_put_ne _ _ (Ne.symm here)] at known
      exact .inl (listed k ⟨call, known, mine, open_⟩)

/-- An operation goes on, and the calls that it makes are due. -/
theorem awaits_place {op : Operation} {addrs : List String}
    (below : t.calls.All fun k _ => k < t.next) (served : op.topology.Serves t.names)
    (inside : ∀ addr ∈ addrs, addr ∈ (op.topology.router.resolve bucket).all)
    (awaits : t.Awaits number dues) :
    (t.place number bucket op addrs).Awaits number
      (dues ++ op.state.calling op.q bucket addrs) := by
  have each : ∀ u : Traffic, (u.calls.All fun k _ => k < u.next) → u.names = t.names →
      ∀ some_dues, u.Awaits number some_dues →
        (addrs.foldl (spawn number bucket op) u).Awaits number
          (some_dues ++ op.state.calling op.q bucket addrs) := by
    induction addrs with
    | nil =>
      intro u below names some_dues before
      rwa [State.calling, List.map_nil, List.append_nil]
    | cons addr rest ih =>
      intro u below names some_dues before
      obtain ⟨member, known, name⟩ := served bucket addr (inside addr List.mem_cons_self)
      rw [List.foldl_cons, spawn_eq, known]
      let spawned : Traffic :=
        { u with calls := u.calls.put u.next (newCall number bucket op member), next := u.next + 1 }
      have below_spawned : spawned.calls.All fun k _ => k < spawned.next :=
        Assoc.All.put (below.imp fun _ _ _ => Nat.lt_succ_of_lt) (Nat.lt_succ_self _)
      have first : spawned.Awaits number
          (some_dues ++ [⟨bucket, addr, op.state.question bucket op.q⟩]) :=
        awaits_spawn below (names ▸ name) before
      have inside_rest : ∀ a ∈ rest, a ∈ (op.topology.router.resolve bucket).all :=
        fun a listed => inside a (.tail _ listed)
      have later := ih inside_rest spawned below_spawned names _ first
      rwa [List.append_assoc, List.singleton_append] at later
  exact each { t with operations := t.operations.put number op } below rfl dues awaits

/-! ## Turns -/

/-- An operation has had a turn. The calls that it then waits for are open if they go to nodes of
their buckets. -/
structure Turned (number : Nat) (w : Conditions) (op : Operation) (dues : List Due) (u : Traffic)
    (later : Operation) : Prop where
  same : later = { op with state := later.state }
  turn : ∃ some_dues, Turn op.topology.router op.q w op.state dues later.state some_dues ∧
    ((∀ due ∈ some_dues, due.addr ∈ (op.topology.router.resolve due.bucket).all) →
      u.Awaits number some_dues)

variable {op later : Operation}

theorem turned_rest (awaits : u.Awaits number dues) : Turned number w op dues u op :=
  ⟨rfl, dues, .rest, fun _ => awaits⟩

/-- An operation that goes on with new calls has had the turn that brings them. -/
theorem turned_place {state : State} {addrs : List String}
    (below : t.calls.All fun k _ => k < t.next) (served : op.topology.Serves t.names)
    (awaits : t.Awaits number dues) {before : List Due}
    (turn : Turn op.topology.router op.q w op.state before state
      (dues ++ state.calling op.q bucket addrs)) :
    Turned number w op before (t.place number bucket { op with state := state } addrs)
      { op with state := state } := by
  refine ⟨rfl, _, turn, fun inside => ?_⟩
  have nodes : ∀ addr ∈ addrs, addr ∈ (op.topology.router.resolve bucket).all := by
    intro addr listed
    have due :
        (⟨bucket, addr, state.question bucket op.q⟩ : Due) ∈ state.calling op.q bucket addrs :=
      List.mem_map.mpr ⟨addr, listed, rfl⟩
    exact inside _ (List.mem_append_right _ due)
  apply awaits_place below
  · exact served
  · exact nodes
  · exact awaits

theorem turned_deliver {k : Nat} {call : Call} {result : call.q.Outcome}
    {outcome : Option Health.Outcome} {calls : Assoc Nat Call} {liveBackups : List String}
    (below : t.calls.All fun k _ => k < t.next) (served : op.topology.Serves t.names)
    (there : t.calls.get? k = some call) (mine : call.operation = number)
    (ended : call.stage = .ended result outcome)
    (calls_eq : calls = t.calls.erase k ∨
      calls = t.calls.put k { call with stage := .delivered outcome })
    (live : liveBackups.Sublist (op.topology.router.resolve call.bucket).backups)
    (tells : w.tells ⟨call.bucket, t.addrOf call, call.q⟩ result)
    (awaits : t.Awaits number dues) :
    let r := op.state.absorb liveBackups (t.addrOf call) call.bucket call.q result
    Turned number w op dues
      (({ t with calls := calls } : Traffic).place number call.bucket { op with state := r.state }
        r.calls) { op with state := r.state } := by
  intro r
  obtain ⟨rest, perm, awaits_rest⟩ := awaits_deliver there mine ended calls_eq awaits
  have below_still : calls.All fun k _ => k < t.next := below.replace calls_eq (below k call there)
  exact turned_place (t := { t with calls := calls }) below_still served awaits_rest
    (.hear perm live tells)

/-- A group that begins is waiting no more. -/
theorem begin_of_same {g : Quorum.Fetch.Group} {ranked : List String}
    (same : (g.begin ranked).1 = g) : (g.begin ranked).2 = [] := by
  unfold Quorum.Fetch.Group.begin at same ⊢
  split
  · rename_i waiting
    rw [if_pos waiting] at same
    have stage := congrArg Quorum.Fetch.Group.stage same
    rw [waiting] at stage
    unfold Quorum.Fetch.Group.askNext at stage
    split at stage
    · split at stage <;> cases stage
    · cases stage
  · rfl

/-- A move that leaves an operation as it is gives it no turn, or a result that changes nothing. -/
theorem turned_quiet {rules : Rules} (numbered : t.Numbered) (move : Move rules t u)
    (served : op.topology.Serves t.names) (known : t.operations.get? number = some op)
    (same : u.operations.get? number = some op)
    (tells : ∀ k call result outcome, t.calls.get? k = some call → call.operation = number →
      call.stage = .ended result outcome → w.tells ⟨call.bucket, t.addrOf call, call.q⟩ result)
    (awaits : t.Awaits number dues) : Turned number w op dues u op := by
  have below : t.calls.All fun k _ => k < t.next := numbered.calls.imp fun _ _ _ known => known.1
  cases move_at number move with
  | aside kept operation open_ =>
    have there : u.operations.get? number ≠ none := by simp [same]
    exact turned_rest (awaits_kept kept (open_ below there) awaits)
  | begin deadline at_next =>
    exact absurd (numbered.operations number op known) (at_next ▸ Nat.lt_irrefl _)
  | @beginBucket before m about g ranked before_known fetching after grouped ranking =>
    obtain rfl := Option.some.inj (known.symm.trans before_known)
    subst after
    rw [(place_fixed ..).1, Assoc.get?_put_self] at same
    have unchanged : m.putGroup (g.begin ranked).1 = m := by
      have state := congrArg Operation.state (Option.some.inj same)
      rw [fetching] at state
      exact State.fetch.inj state
    have still : (g.begin ranked).1 = g := by
      have put := Quorum.Fetch.group?_putGroup grouped
        ((Quorum.Fetch.Group.within_begin g ranked).2.trans (Quorum.Fetch.bucket_of_group? grouped))
      rw [unchanged, grouped] at put
      exact (Option.some.inj put).symm
    rw [begin_of_same still]
    exact turned_rest (awaits_kept (.of_calls (t := t) rfl rfl) (fun _ => id) awaits)
  | @deliver before k call result outcome calls liveBackups before_known there mine ended calls_eq
      live after =>
    obtain rfl := Option.some.inj (known.symm.trans before_known)
    subst after
    have turned := turned_deliver below served there mine ended calls_eq live
      (tells k call result outcome there mine ended) awaits
    rw [(place_fixed ..).1, Assoc.get?_put_self] at same
    exact Eq.subst (motive := Turned number w op dues _) (Option.some.inj same) turned
  | @expire before before_known after =>
    subst after
    exact turned_rest (awaits_kept (.of_calls (t := t) rfl rfl) (fun _ => id) awaits)

end Traffic

/-- Whether what a cluster does to an operation now is among some conditions. -/
structure Meets (c : Cluster) (number : Nat) (routes : Topology) (w : Conditions) : Prop where
  ranks : ∀ bucket, w.ranks bucket (c.rank routes (routes.router.resolve bucket).mains)
  late : ∀ op, c.operations.get? number = some op → op.deadline < c.now → w.late op.state
  tells : ∀ k call result outcome, c.calls.get? k = some call → call.operation = number →
    call.stage = .ended result outcome → w.tells ⟨call.bucket, c.addrOf call, call.q⟩ result

/-- Whether what one event does to an operation is among some conditions. How mains are ranked
matters only for the bucket that it begins with. -/
structure MeetsAt (c : Cluster) (e : Event) (number : Nat) (routes : Topology) (w : Conditions) :
    Prop where
  ranks : ∀ bucket, e = .step (.beginBucket number bucket) →
    w.ranks bucket (c.rank routes (routes.router.resolve bucket).mains)
  late : ∀ op, c.operations.get? number = some op → op.deadline < c.now → w.late op.state
  tells : ∀ k call result outcome, c.calls.get? k = some call → call.operation = number →
    call.stage = .ended result outcome → w.tells ⟨call.bucket, c.addrOf call, call.q⟩ result

theorem Meets.at_event {c : Cluster} (meets : c.Meets number routes w) (e : Event) :
    c.MeetsAt e number routes w :=
  ⟨fun bucket _ => meets.ranks bucket, meets.late, meets.tells⟩

/-! Steps of a call leave every operation as it is, until the result is delivered. -/

theorem operations_endCall (c : Cluster) (k : Nat) (call : Call) (result : call.q.Outcome)
    (outcome : Option Health.Outcome) :
    (c.endCall k call result outcome).operations = c.operations :=
  congrArg Traffic.operations (traffic_endCall c k call result outcome)

theorem operations_ask (c : Cluster) (k : Nat) : (c.ask k).operations = c.operations := by
  unfold ask
  split
  · rfl
  · split
    · simp only
      split
      · rfl
      · rw [operations_endCall]
        rfl
    · rfl

theorem operations_serve (c : Cluster) (k : Nat) : (c.serve k).operations = c.operations := by
  unfold serve
  split
  · rfl
  · split <;> rfl

theorem operations_finish (c : Cluster) (k : Nat) : (c.finish k).operations = c.operations := by
  unfold finish
  split
  · rfl
  · split
    · rw [operations_endCall]
      simp only [recordSizes, updateMember]
      split <;> rfl
    · rfl

theorem operations_fail (c : Cluster) (k : Nat) (why : Failure) :
    (c.fail k why).operations = c.operations := by
  unfold fail
  split
  · rfl
  · simp only
    split
    · exact operations_endCall ..
    · exact operations_endCall ..
    · rfl

theorem operations_record (c : Cluster) (k : Nat) : (c.record k).operations = c.operations := by
  unfold record
  split
  · rfl
  · split
    · exact congrArg Traffic.operations (traffic_recordOutcome ..)
    · rfl

/-- A delivery is a turn of the operation whose call it is. -/
theorem turned_of_deliver {c : Cluster} {op later : Operation} {dues : List Due} (k : Nat)
    (numbered : c.traffic.Numbered) (served : op.topology.Serves c.traffic.names)
    (known : c.operations.get? number = some op)
    (after : (c.deliver k).operations.get? number = some later)
    (told : ∀ k call result outcome, c.calls.get? k = some call → call.operation = number →
      call.stage = .ended result outcome → w.tells ⟨call.bucket, c.addrOf call, call.q⟩ result)
    (awaits : c.traffic.Awaits number dues) :
    Traffic.Turned number w op dues (c.deliver k).traffic later := by
  have below : c.traffic.calls.All fun k _ => k < c.traffic.next :=
    numbered.calls.imp fun _ _ _ known => known.1
  have tells : ∀ k call result outcome, c.traffic.calls.get? k = some call →
      call.operation = number → call.stage = .ended result outcome →
      w.tells ⟨call.bucket, c.traffic.addrOf call, call.q⟩ result := by
    intro k call
    rw [addrOf_traffic]
    exact told k call
  have stays {u : Traffic} (there : (c.deliver k).traffic = u)
      (same : u.operations.get? number = some op) (move : Traffic.Move .free c.traffic u) :
      Traffic.Turned number w op dues (c.deliver k).traffic later := by
    subst there
    obtain rfl := Option.some.inj (same.symm.trans after)
    exact Traffic.turned_quiet numbered move served known same tells awaits
  obtain same | ⟨call, result, outcome, calls, liveBackups, there, ended, calls_eq, live, handed⟩ :=
    deliver_cases c k
  · exact stays same known .idle
  · by_cases mine : call.operation = number
    · subst mine
      have own : c.traffic.operations.get? call.operation = some op := known
      simp only [Traffic.hand, own] at handed
      have now : (c.deliver k).traffic.operations.get? call.operation = some later := after
      rw [handed, (Traffic.place_fixed ..).1, Assoc.get?_put_self] at now
      obtain rfl := Option.some.inj now
      rw [handed]
      exact Traffic.turned_deliver below served there rfl ended calls_eq (live op known)
        (tells k call result outcome there rfl ended) awaits
    · refine stays handed ?_ (.deliver there ended calls_eq live)
      unfold Traffic.hand
      split
      · exact known
      · rw [(Traffic.place_fixed ..).1]
        exact (Assoc.get?_put_ne _ _ mine).trans known

theorem turned_of_beginBucket {c : Cluster} {op later : Operation} {dues : List Due}
    (numbered : c.traffic.Numbered) (served : op.topology.Serves c.traffic.names)
    (known : c.operations.get? number = some op)
    (after : (c.beginBucket number bucket).operations.get? number = some later)
    (ranks : w.ranks bucket (c.rank op.topology (op.topology.router.resolve bucket).mains))
    (awaits : c.traffic.Awaits number dues) :
    Traffic.Turned number w op dues (c.beginBucket number bucket).traffic later := by
  have below : c.traffic.calls.All fun k _ => k < c.traffic.next :=
    numbered.calls.imp fun _ _ _ known => known.1
  have stays (same : c.beginBucket number bucket = c) :
      Traffic.Turned number w op dues (c.beginBucket number bucket).traffic later := by
    rw [same] at after ⊢
    obtain rfl := Option.some.inj (known.symm.trans after)
    exact Traffic.turned_rest awaits
  cases state : op.state with
  | fetch m =>
    cases grouped : m.group? bucket with
    | none => exact stays (by simp only [beginBucket, known, state, grouped])
    | some g =>
      let ranked := c.rank op.topology (op.topology.router.resolve bucket).mains
      have step : c.beginBucket number bucket = c.proceed number bucket op
          (.fetch (m.putGroup (g.begin ranked).1)) (g.begin ranked).2 := by
        simp only [beginBucket, known, state, grouped, ranked]
      have placed := traffic_proceed c number bucket op (.fetch (m.putGroup (g.begin ranked).1))
        (g.begin ranked).2
      have now : (c.beginBucket number bucket).traffic.operations.get? number = some later := after
      rw [step, placed, (Traffic.place_fixed ..).1, Assoc.get?_put_self] at now
      obtain rfl := Option.some.inj now
      rw [step, placed]
      exact Traffic.turned_place below served awaits
        (.beginBucket state grouped ranks)
  | _ => exact stays (by simp only [beginBucket, known, state])

theorem operations_place (c : Cluster) (number bucket : Nat) (op : Operation)
    (addrs : List String) :
    (c.place number bucket op addrs).operations = c.operations.put number op :=
  (congrArg Traffic.operations (traffic_place ..)).trans (Traffic.place_fixed ..).1

/-- The bucket of another operation is none of this one's. -/
theorem operations_beginBucket {c : Cluster} {other : Nat} (bucket : Nat) (apart : other ≠ number) :
    (c.beginBucket other bucket).operations.get? number = c.operations.get? number := by
  unfold beginBucket
  split
  · rfl
  · split
    · split
      · rfl
      · simp only [proceed]
        rw [operations_place]
        exact Assoc.get?_put_ne _ _ apart
    · rfl

/-- A question that begins is an operation under a new number. -/
theorem operations_begin {c : Cluster} (q : Ask) (old : number ≠ c.next) :
    (c.begin q).operations.get? number = c.operations.get? number := by
  simp only [begin]
  rw [operations_place]
  exact Assoc.get?_put_ne _ _ old.symm

/-- The deadline of another operation is none of this one's. -/
theorem operations_expire {c : Cluster} {other : Nat} (apart : other ≠ number) :
    (c.expire other).operations.get? number = c.operations.get? number := by
  unfold expire
  split
  · rfl
  · split
    · exact Assoc.get?_put_ne _ _ apart
    · rfl

/-- A deadline that has passed is a turn of its operation. -/
theorem turned_of_expire {c : Cluster} {op later : Operation} {dues : List Due}
    (known : c.operations.get? number = some op)
    (after : (c.expire number).operations.get? number = some later)
    (late : op.deadline < c.now → w.late op.state) (awaits : c.traffic.Awaits number dues) :
    Traffic.Turned number w op dues (c.expire number).traffic later := by
  by_cases passed : op.deadline < c.now
  · have step : c.expire number = { c with
        operations := c.operations.put number { op with state := op.state.expire } } := by
      simp only [expire, known, if_pos passed]
    rw [step] at after ⊢
    rw [Assoc.get?_put_self] at after
    obtain rfl := Option.some.inj after
    refine ⟨rfl, dues, .expire (late passed), fun _ => ?_⟩
    exact Traffic.awaits_kept (.of_calls (t := c.traffic) rfl rfl) (fun _ => id) awaits
  · have step : c.expire number = c := by simp only [expire, known, if_neg passed]
    rw [step] at after ⊢
    obtain rfl := Option.some.inj (known.symm.trans after)
    exact Traffic.turned_rest awaits

/-- New routes give nobody a turn. -/
theorem awaits_reload {c d : Cluster} {plan : Route.Plan} {replication : Config.Replication}
    {dues : List Due} (orderly : c.traffic.Orderly replication) (reloaded : c.reload plan = .ok d)
    (awaits : c.traffic.Awaits number dues) : d.traffic.Awaits number dues := by
  obtain ⟨-, calls, -, -, joined, -⟩ := reload_eq (leadsBack_of_orderly orderly) reloaded
  have same : d.traffic.calls = c.traffic.calls := calls
  have names : c.traffic.names <+: d.traffic.names := by
    rw [names_traffic, names_traffic]
    exact joined.map _
  obtain ⟨entries, nodup, perm, owed, listed⟩ := awaits
  refine ⟨entries, nodup, perm, ?_, ?_⟩
  · intro e there
    obtain ⟨call, addr, known, mine, open_, name, about⟩ := owed e there
    exact ⟨call, addr, same ▸ known, mine, open_, getElem?_of_joined names name, about⟩
  · rintro k ⟨call, known, mine, open_⟩
    exact listed k ⟨call, same ▸ known, mine, open_⟩

/-- Whatever happens is a turn of an operation that is still there afterwards. -/
theorem turned_happen {c : Cluster} {op later : Operation} {dues : List Due}
    {replication : Config.Replication} (e : Event) (orderly : c.traffic.Orderly replication)
    (served : op.topology.Serves c.traffic.names) (known : c.operations.get? number = some op)
    (after : (c.happen e).operations.get? number = some later)
    (meets : c.MeetsAt e number op.topology w) (awaits : c.traffic.Awaits number dues) :
    Traffic.Turned number w op dues (c.happen e).traffic later := by
  have numbered := orderly.numbered
  have quiet (same : (c.happen e).operations.get? number = some op)
      (move : Traffic.Move .free c.traffic (c.happen e).traffic) :
      Traffic.Turned number w op dues (c.happen e).traffic later := by
    obtain rfl := Option.some.inj (same.symm.trans after)
    refine Traffic.turned_quiet numbered move served known same ?_ awaits
    intro k call
    rw [addrOf_traffic]
    exact meets.tells k call
  cases e with
  | arrive addr bytes => exact quiet known (happen_moves trivial)
  | step s =>
    cases s with
    | begin q =>
      have old : number ≠ c.next := Nat.ne_of_lt (numbered.operations number op known)
      exact quiet ((operations_begin q old).trans known) (begin_moves c trivial)
    | beginBucket n bucket =>
      by_cases mine : n = number
      · subst mine
        exact turned_of_beginBucket numbered served known after (meets.ranks bucket rfl) awaits
      · have same := (operations_beginBucket bucket mine).trans known
        exact quiet same (beginBucket_moves c n bucket)
    | ask k => exact quiet ((operations_ask c k).symm ▸ known) (ask_moves c k)
    | serve k =>
      exact quiet ((operations_serve c k).symm ▸ known) (serve_moves c k fun _ _ => trivial)
    | finish k => exact quiet ((operations_finish c k).symm ▸ known) (finish_moves c k)
    | fail k why => exact quiet ((operations_fail c k why).symm ▸ known) (fail_moves c k why)
    | deliver k => exact turned_of_deliver k numbered served known after meets.tells awaits
    | record k => exact quiet ((operations_record c k).symm ▸ known) (record_moves c k)
    | expire n =>
      by_cases mine : n = number
      · subst mine
        exact turned_of_expire known after (meets.late op known) awaits
      · exact quiet ((operations_expire mine).trans known) (expire_moves c n)
    | forget n =>
      by_cases mine : n = number
      · subst mine
        simp only [happen, Cluster.step, forget, Assoc.get?_erase, if_true] at after
        cases after
      · refine quiet ?_ (.forget n)
        simp only [happen, Cluster.step, forget, Assoc.get?_erase, if_neg mine]
        exact known
    | tick milliseconds => exact quiet known .idle
    | reload plan =>
      simp only [happen, Cluster.step] at after ⊢
      split at after
      · rename_i d reloaded
        rw [(reload_eq (leadsBack_of_orderly orderly) reloaded).1] at after
        obtain rfl := Option.some.inj (known.symm.trans after)
        exact Traffic.turned_rest (awaits_reload orderly reloaded awaits)
      · obtain rfl := Option.some.inj (known.symm.trans after)
        exact Traffic.turned_rest awaits

/-! ## Histories -/

/-- An operation that is there stands in some way to the calls that it waits for. -/
structure Traffic.Works (t : Traffic) (number : Nat) (q : Ask) (routes : Topology)
    (stands : State → List Due → Prop) : Prop where
  begun : number < t.next
  served : routes.Serves t.names
  states : ∀ op, t.operations.get? number = some op → op.q = q ∧ op.topology = routes ∧
    ∃ dues, t.Awaits number dues ∧ stands op.state dues

variable {replication : Config.Replication} {stands : State → List Due → Prop}

/-- What is there was there, if its number had been given out. -/
theorem known_before {c : Cluster} {later : Operation} (e : Event)
    (orderly : c.traffic.Orderly replication) (begun : number < c.next)
    (after : (c.happen e).operations.get? number = some later) :
    ∃ op, c.operations.get? number = some op := by
  obtain ⟨plan, rfl⟩ | move := happen_cases c e
  · simp only [happen, step] at after
    split at after
    · rename_i d reloaded
      rw [(reload_eq (leadsBack_of_orderly orderly) reloaded).1] at after
      exact ⟨later, after⟩
    · exact ⟨later, after⟩
  · cases Traffic.move_at number move with
    | aside kept operation =>
      obtain same | gone := operation
      · exact ⟨later, same.symm.trans after⟩
      · cases gone.symm.trans after
    | begin deadline at_next => exact absurd begun (at_next ▸ Nat.lt_irrefl _)
    | beginBucket bucket g ranked known => exact ⟨_, known⟩
    | deliver known => exact ⟨_, known⟩
    | expire known => exact ⟨_, known⟩

theorem names_happen {c : Cluster} (e : Event) (orderly : c.traffic.Orderly replication) :
    c.traffic.names <+: (c.happen e).traffic.names := by
  obtain ⟨plan, rfl⟩ | move := happen_cases c e
  · simp only [happen, step]
    split
    · rename_i d reloaded
      rw [names_traffic, names_traffic]
      exact (reload_eq (leadsBack_of_orderly orderly) reloaded).2.2.2.2.1.map _
    · exact List.prefix_refl _
  · rw [Traffic.move_names move]

theorem next_happen {c : Cluster} (e : Event) (orderly : c.traffic.Orderly replication) :
    c.next ≤ (c.happen e).next := by
  obtain ⟨plan, rfl⟩ | move := happen_cases c e
  · simp only [happen, step]
    split
    · rename_i d reloaded
      exact Nat.le_of_eq (reload_eq (leadsBack_of_orderly orderly) reloaded).2.2.1.symm
    · exact Nat.le_refl _
  · exact (Traffic.move_fixed move).2.2.2

/-- What every turn keeps, whatever happens keeps. -/
theorem works_happen {c : Cluster} (e : Event) (orderly : c.traffic.Orderly replication)
    (nodes : ∀ s dues, stands s dues →
      ∀ due ∈ dues, due.addr ∈ (routes.router.resolve due.bucket).all)
    (keeps : ∀ op dues later some_dues, c.operations.get? number = some op → stands op.state dues →
      Turn routes.router q w op.state dues later some_dues → stands later some_dues)
    (meets : c.MeetsAt e number routes w) (works : c.traffic.Works number q routes stands) :
    (c.happen e).traffic.Works number q routes stands := by
  constructor
  · exact Nat.lt_of_lt_of_le works.begun (next_happen e orderly)
  · exact works.served.mono (names_happen e orderly)
  · intro later after
    obtain ⟨op, known⟩ := known_before e orderly works.begun after
    obtain ⟨rfl, rfl, dues, awaits, before⟩ := works.states op known
    obtain ⟨same, some_dues, turn, open_⟩ :=
      turned_happen e orderly works.served known after meets awaits
    have now := keeps op _ _ _ known before turn
    rw [same]
    exact ⟨rfl, rfl, some_dues, open_ (nodes _ _ now), now⟩

/-- What the turns keep that are possible at each moment, the whole history keeps. -/
theorem works_through {c : Cluster} (later : List Event) (orderly : c.traffic.Orderly replication)
    (nodes : ∀ s dues, stands s dues →
      ∀ due ∈ dues, due.addr ∈ (routes.router.resolve due.bucket).all)
    (keeps : ∀ part e, part ++ [e] <+: later → ∃ w, (c.after part).MeetsAt e number routes w ∧
      ∀ op dues next some_dues, (c.after part).operations.get? number = some op →
        stands op.state dues → Turn routes.router q w op.state dues next some_dues →
          stands next some_dues)
    (works : c.traffic.Works number q routes stands) :
    (c.after later).traffic.Works number q routes stands := by
  induction later generalizing c with
  | nil => exact works
  | cons e rest ih =>
    obtain ⟨w, meets, first⟩ := keeps [] e (List.cons_prefix_cons.mpr ⟨rfl, List.nil_prefix⟩)
    refine ih (orderly_happen e orderly) (fun part next sub => ?_)
      (works_happen e orderly nodes first meets works)
    exact keeps (e :: part) next (List.cons_prefix_cons.mpr ⟨rfl, sub⟩)

theorem works_after {c : Cluster} (later : List Event) (orderly : c.traffic.Orderly replication)
    (nodes : ∀ s dues, stands s dues →
      ∀ due ∈ dues, due.addr ∈ (routes.router.resolve due.bucket).all)
    (keeps : ∀ s dues later some_dues, stands s dues →
      Turn routes.router q w s dues later some_dues → stands later some_dues)
    (meets : ∀ part, part <+: later → (c.after part).Meets number routes w)
    (works : c.traffic.Works number q routes stands) :
    (c.after later).traffic.Works number q routes stands := by
  refine works_through later orderly nodes (fun part e sub => ?_) works
  have before : part <+: later := (List.prefix_append part [e]).trans sub
  exact ⟨w, (meets part before).at_event e, fun op dues next some_dues _ =>
    keeps op.state dues next some_dues⟩

/-- A question that begins is an operation with its first calls under way. -/
theorem works_begin {c : Cluster} (orderly : c.traffic.Orderly replication)
    (nodes : ∀ s dues, stands s dues →
      ∀ due ∈ dues, due.addr ∈ (c.topology.router.resolve due.bucket).all)
    (opening : stands (c.opening (bucketOf c.topology q) q).1
      ((c.opening (bucketOf c.topology q) q).1.calling q (bucketOf c.topology q)
        (c.opening (bucketOf c.topology q) q).2)) :
    (c.begin q).traffic.Works c.next q c.topology stands := by
  let bucket := bucketOf c.topology q
  let state := (c.opening bucket q).1
  let calls := (c.opening bucket q).2
  let op : Operation := ⟨q, c.topology, c.now + c.timeout q, state⟩
  -- the cluster just before the operation makes its calls
  let t : Traffic := { c.traffic with next := c.traffic.next + 1 }
  have placed : (c.begin q).traffic = t.place c.next bucket op calls := traffic_place ..
  have below : t.calls.All fun k _ => k < t.next :=
    orderly.numbered.calls.imp fun _ _ _ known => Nat.lt_succ_of_lt known.1
  have new : t.calls.All fun _ call => call.operation ≠ c.next :=
    orderly.numbered.calls.imp fun _ _ _ known => Nat.ne_of_lt known.2
  have inside : ∀ addr ∈ calls, addr ∈ (c.topology.router.resolve bucket).all := by
    intro addr listed
    exact nodes _ _ opening ⟨bucket, addr, state.question bucket q⟩
      (List.mem_map.mpr ⟨addr, listed, rfl⟩)
  have awaits : (t.place c.next bucket op calls).Awaits c.next (state.calling q bucket calls) :=
    Traffic.awaits_place below orderly.serves inside (Traffic.awaits_of_none new)
  obtain ⟨operations, -, -, -, -, -, next⟩ := Traffic.place_fixed t c.next bucket op calls
  rw [placed]
  constructor
  · exact Nat.lt_of_succ_le next
  · rw [Traffic.names_place]
    exact orderly.serves
  · intro other known
    rw [operations, Assoc.get?_put_self] at known
    obtain rfl := Option.some.inj known
    exact ⟨rfl, rfl, _, awaits, opening⟩

/-- What every turn keeps holds of an operation from its beginning on. -/
theorem works_from_begin {c : Cluster} (later : List Event) (orderly : c.traffic.Orderly replication)
    (nodes : ∀ s dues, stands s dues →
      ∀ due ∈ dues, due.addr ∈ (c.topology.router.resolve due.bucket).all)
    (keeps : ∀ s dues later some_dues, stands s dues →
      Turn c.topology.router q w s dues later some_dues → stands later some_dues)
    (meets : ∀ part, part <+: later → ((c.begin q).after part).Meets c.next c.topology w)
    (opening : stands (c.opening (bucketOf c.topology q) q).1
      ((c.opening (bucketOf c.topology q) q).1.calling q (bucketOf c.topology q)
        (c.opening (bucketOf c.topology q) q).2)) :
    ((c.begin q).after later).traffic.Works c.next q c.topology stands :=
  works_after later (orderly_happen (.step (.begin q)) orderly) nodes keeps meets
    (works_begin orderly nodes opening)

/-- A result is that of a state in which the operation stands. -/
theorem Traffic.Works.settled {c : Cluster} {result : q.Outcome}
    (works : c.traffic.Works number q routes stands)
    (ended : c.result? number q = some result) :
    ∃ s dues, stands s dues ∧ s.result? q = some result := by
  obtain ⟨op, known, ended⟩ := Option.bind_eq_some_iff.mp ended
  obtain ⟨-, -, dues, -, now⟩ := works.states op known
  exact ⟨op.state, dues, now, ended⟩

/-- An operation without a result waits as long as it has calls that are due or a bucket to begin
with. -/
theorem Traffic.Works.waits {c : Cluster} (works : c.traffic.Works number q routes stands)
    (known : c.operations.get? number ≠ none) (open_ : c.result? number q = none)
    (result : ∀ s dues, stands s dues → s.result? q = none →
      dues ≠ [] ∨ ∃ m, s = .fetch m ∧ m.waiting? ≠ none) : c.Waits number := by
  obtain ⟨op, there⟩ := Option.ne_none_iff_exists'.mp known
  obtain ⟨-, -, dues, awaits, now⟩ := works.states op there
  have unsettled : op.state.result? q = none := by
    rw [result?, there, Option.bind_some] at open_
    exact open_
  obtain some_due | ⟨m, fetching, waiting⟩ := result _ _ now unsettled
  · exact .inl (awaits.exists_opens some_due)
  · exact .inr ⟨op, m, there, fetching, waiting⟩

end QuorumKv.Cluster
