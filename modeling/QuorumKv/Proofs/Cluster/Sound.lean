import QuorumKv.Proofs.Cluster.Enrollment
import QuorumKv.Proofs.Cluster.Traffic
import QuorumKv.Proofs.Node.Exchange
import QuorumKv.Proofs.Quorum.Fetch

/-! What holds of all the traffic at all times, as long as only questions begin that a node reads as
they were meant: calls and operations keep their numbers, and nothing is ever left unread on a
connection that is used again. -/
namespace QuorumKv.Cluster

/-- Whether a machine is one for a question, and can ask what it still wants to know. -/
def Operation.State.Fits (limits : Config.Limits) : Operation.State → Ask → Prop
  | .read _, .get _ | .readMeta _, .getMeta _ | .write _, .set _ _ | .write _, .delete _ => True
  | .fetch m, .getMulti _ => Quorum.Fetch.Fits limits m
  | _, _ => False

/-- Whether a call has nothing in the way of its answer, and leaves nothing behind. -/
def Call.IsClear (call : Call) : Prop :=
  match call.stage with
  | .running _ unread => unread = []
  | .served _ (some answer) => answer.isClean = true → answer.rest = []
  | _ => True

namespace Operation.State

variable {limits : Config.Limits}

theorem fits_absorb {state : Operation.State} {question : Ask} (fits : state.Fits limits question)
    (liveBackups : List String) (addr : String) (bucket : Nat) (q : Ask) (result : q.Outcome) :
    (state.absorb liveBackups addr bucket q result).state.Fits limits question := by
  unfold absorb
  split
  · cases question <;> exact fits
  · cases question <;> exact fits
  · cases question <;> exact fits
  · cases question <;> exact fits
  · rename_i m keys _
    split
    · exact fits
    · rename_i g found
      cases question with
      | getMulti asked =>
        exact Quorum.Fetch.fits_putGroup fits (Quorum.Fetch.mem_of_group? found)
          (Quorum.Fetch.Group.within_absorb g _).1
      | _ => exact fits
  · exact fits

theorem fits_expire {state : Operation.State} {question : Ask}
    (fits : state.Fits limits question) : state.expire.Fits limits question := by
  cases state <;> cases question <;> exact fits

theorem carried_question {state : Operation.State} {question : Ask} (bucket : Nat)
    (fits : state.Fits limits question) (carried : question.Carried limits) :
    (state.question bucket question).Carried limits := by
  cases state with
  | fetch m =>
    cases question with
    | getMulti keys =>
      simp only [Operation.State.question]
      cases found : m.group? bucket with
      | none => exact carried
      | some g => exact fits g (Quorum.Fetch.mem_of_group? found)
    | _ => exact absurd fits id
  | _ => exact carried

/-- What an operation on a single key asks its nodes. -/
theorem question_of_single {state : Operation.State} {question : Ask} (bucket : Nat)
    (fits : state.Fits limits question) (single : ∀ keys, question ≠ .getMulti keys) :
    state.question bucket question = question := by
  cases state with
  | fetch m =>
    cases question with
    | getMulti keys => exact absurd rfl (single keys)
    | _ => exact absurd fits id
  | _ => rfl

end Operation.State

namespace Traffic

/-- The address of every number in the routes is that of its member. -/
def IsWired (t : Traffic) : Prop :=
  ∀ addr i, t.topology.numbers.get? addr = some i → (t.pipes[i]?).map (·.1) = some addr

structure Sound (t : Traffic) : Prop where
  wired : t.IsWired
  quiet : ∀ pipe ∈ t.pipes, ∀ unread ∈ pipe.2, unread = []
  operations : t.operations.All fun number op => number < t.next ∧ op.topology = t.topology ∧
    op.q.Carried t.nodeLimits ∧ op.state.Fits t.nodeLimits op.q
  calls : t.calls.All fun number call => number < t.next ∧ call.operation < t.next ∧
    call.q.Carried t.nodeLimits ∧ call.IsClear
  matching : t.calls.All fun _ call => ∀ op, t.operations.get? call.operation = some op →
    (∀ keys, op.q ≠ .getMulti keys) → call.q = op.q

/-- The call that an operation makes to an address. -/
def newCall (number bucket : Nat) (op : Operation) (member : Nat) : Call :=
  let q := op.state.question bucket op.q
  ⟨number, bucket, member, q, op.state.isSequential, guardOf q, .waiting⟩

theorem spawn_eq (number bucket : Nat) (op : Operation) (t : Traffic) (addr : String) :
    t.spawn number bucket op addr =
      match op.topology.numbers.get? addr with
      | none => t
      | some member => { t with
          calls := t.calls.put t.next (newCall number bucket op member)
          next := t.next + 1 } :=
  rfl

/-- What every new call keeps, an operation keeps when it makes its calls. -/
theorem place_keeps {P : Traffic → Prop} {number bucket : Nat} {op : Operation} {t : Traffic}
    {addrs : List String}
    (new : ∀ u addr member, addr ∈ addrs → op.topology.numbers.get? addr = some member → P u →
      P { u with
        calls := u.calls.put u.next (newCall number bucket op member), next := u.next + 1 })
    (held : P { t with operations := t.operations.put number op }) :
    P (t.place number bucket op addrs) := by
  have each : ∀ u, P u → P (addrs.foldl (spawn number bucket op) u) := by
    induction addrs with
    | nil => exact fun _ => id
    | cons addr rest ih =>
      intro u before
      rw [List.foldl_cons]
      apply ih (fun v a member listed => new v a member (.tail _ listed))
      rw [spawn_eq]
      split
      · exact before
      · rename_i member numbered
        exact new u addr member List.mem_cons_self numbered before
  exact each _ held

theorem place_fixed (t : Traffic) (number bucket : Nat) (op : Operation) (addrs : List String) :
    (t.place number bucket op addrs).operations = t.operations.put number op ∧
      (t.place number bucket op addrs).stores = t.stores ∧
      (t.place number bucket op addrs).pipes = t.pipes ∧
      (t.place number bucket op addrs).topology = t.topology ∧
      (t.place number bucket op addrs).replication = t.replication ∧
      (t.place number bucket op addrs).nodeLimits = t.nodeLimits ∧
      t.next ≤ (t.place number bucket op addrs).next :=
  place_keeps (P := fun u => u.operations = t.operations.put number op ∧ u.stores = t.stores ∧
    u.pipes = t.pipes ∧ u.topology = t.topology ∧ u.replication = t.replication ∧
    u.nodeLimits = t.nodeLimits ∧ t.next ≤ u.next)
    (fun _ _ _ _ _ ⟨a, b, c, d, e, f, g⟩ => ⟨a, b, c, d, e, f, Nat.le_succ_of_le g⟩)
    ⟨rfl, rfl, rfl, rfl, rfl, rfl, Nat.le_refl _⟩

/-- Numbers that are not used do not matter. -/
theorem Sound.later {t : Traffic} {next : Nat} (sound : t.Sound) (more : t.next ≤ next) :
    ({ t with next := next } : Traffic).Sound where
  wired := sound.wired
  quiet := sound.quiet
  operations := sound.operations.imp fun _ _ _ known => ⟨Nat.lt_of_lt_of_le known.1 more, known.2⟩
  calls := sound.calls.imp fun _ _ _ known =>
    ⟨Nat.lt_of_lt_of_le known.1 more, Nat.lt_of_lt_of_le known.2.1 more, known.2.2⟩
  matching := sound.matching

/-- An operation that is known, or a new one under the next number, makes its calls. -/
theorem sound_place {t : Traffic} {number bucket : Nat} {op : Operation} {addrs : List String}
    (sound : t.Sound) (numbered : number < t.next) (topology : op.topology = t.topology)
    (carried : op.q.Carried t.nodeLimits) (fits : op.state.Fits t.nodeLimits op.q)
    (same : ∀ old, t.operations.get? number = some old → op.q = old.q)
    (fresh : t.operations.get? number = none → ∀ k call, t.calls.get? k = some call →
      call.operation ≠ number) :
    (t.place number bucket op addrs).Sound := by
  apply (place_keeps (P := fun u => u.Sound ∧ number < u.next ∧ u.nodeLimits = t.nodeLimits ∧
    u.operations.get? number = some op) ?new ?held).1
  case held =>
    refine ⟨⟨sound.wired, sound.quiet, sound.operations.put ⟨numbered, topology, carried, fits⟩,
      sound.calls, ?_⟩, numbered, rfl, Assoc.get?_put_self ..⟩
    intro k call known other found single
    by_cases here : number = call.operation
    · rw [← here, Assoc.get?_put_self] at found
      obtain rfl := Option.some.inj found
      cases before : t.operations.get? number with
      | none => exact absurd here.symm (fresh before k call known)
      | some old =>
        rw [same old before] at single ⊢
        exact sound.matching k call known old (here ▸ before) single
    · rw [Assoc.get?_put_ne _ _ here] at found
      exact sound.matching k call known other found single
  case new =>
    rintro u addr member - - ⟨held, below, limits, there⟩
    refine ⟨⟨held.wired, held.quiet, ?_, ?_, ?_⟩, Nat.lt_succ_of_lt below, limits, there⟩
    · exact held.operations.imp fun _ _ _ known =>
        ⟨Nat.lt_succ_of_lt known.1, known.2⟩
    · apply Assoc.All.put
      · exact held.calls.imp fun _ _ _ known =>
          ⟨Nat.lt_succ_of_lt known.1, Nat.lt_succ_of_lt known.2.1, known.2.2⟩
      · exact ⟨Nat.lt_succ_self _, Nat.lt_succ_of_lt below,
          limits ▸ Operation.State.carried_question bucket fits carried, trivial⟩
    · apply held.matching.put
      intro other found single
      obtain rfl : op = other := Option.some.inj (there.symm.trans found)
      exact Operation.State.question_of_single bucket fits single

/-- A call goes on. -/
theorem sound_putCall {t : Traffic} {number : Nat} {call : Call} {stage : Call.Stage call.q}
    (guard : Option Buffer.Guard) (sound : t.Sound) (known : t.calls.get? number = some call)
    (clear : Call.IsClear { call with guard := guard, stage := stage }) :
    (t.putCall number call stage guard).Sound := by
  have before := sound.calls number call known
  refine ⟨sound.wired, sound.quiet, sound.operations, ?_, ?_⟩
  · exact sound.calls.put ⟨before.1, before.2.1, before.2.2.1, clear⟩
  · exact sound.matching.put (sound.matching number call known)

theorem fits_opening {t : Traffic} {bucket : Nat} {q : Ask} {state : Operation.State}
    {addrs : List String} (carried : q.Carried t.nodeLimits)
    (opening : Opening t bucket q state addrs) : state.Fits t.nodeLimits q := by
  cases opening with
  | getMulti keys => exact Quorum.Fetch.fits_start _ carried
  | _ => trivial

/-- The reply to a question, on a connection with nothing unread. -/
theorem session_toWire (t : Traffic) (now : Nat) (addr : String) {q : Ask}
    (carried : q.Carried t.nodeLimits) :
    (t.session now addr q.toWire).1.flatten = (q.served t.nodeLimits now (t.store addr)).1 ∧
      (t.session now addr q.toWire).2 = (q.served t.nodeLimits now (t.store addr)).2 := by
  simp only [session, Ask.session_toWire now (t.store addr) carried, Ask.served]
  simp

variable {rules : Rules}

theorem sound_stores {t : Traffic} (stores : Assoc String Store) (sound : t.Sound) :
    ({ t with stores := stores } : Traffic).Sound :=
  ⟨sound.wired, sound.quiet, sound.operations, sound.calls, sound.matching⟩

/-- An operation that is known goes on in another state. -/
theorem sound_continue {t : Traffic} {number : Nat} (bucket : Nat) {op : Operation}
    {state : Operation.State} (addrs : List String) (sound : t.Sound)
    (known : t.operations.get? number = some op) (fits : state.Fits t.nodeLimits op.q) :
    (t.place number bucket { op with state := state } addrs).Sound := by
  obtain ⟨numbered, topology, carried, -⟩ := sound.operations number op known
  refine sound_place sound numbered topology carried fits ?_ ?_
  · intro old same
    obtain rfl := Option.some.inj (known.symm.trans same)
    rfl
  · intro absent
    rw [known] at absent
    cases absent

/-- The result of a call is on its way to the operation. -/
theorem sound_delivered {t : Traffic} {number : Nat} {call : Call}
    {outcome : Option Health.Outcome} {calls : Assoc Nat Call} (sound : t.Sound)
    (known : t.calls.get? number = some call)
    (calls_eq : calls = t.calls.erase number ∨
      calls = t.calls.put number { call with stage := .delivered outcome }) :
    ({ t with calls := calls } : Traffic).Sound := by
  obtain rfl | rfl := calls_eq
  · exact ⟨sound.wired, sound.quiet, sound.operations, sound.calls.erase, sound.matching.erase⟩
  · change (t.putCall number call (.delivered outcome) call.guard).Sound
    exact sound_putCall call.guard sound known trivial

theorem wired_set {t : Traffic} {i : Nat} {addr : String} {ready kept : List Bytes}
    (wired : t.IsWired) (pipe : t.pipes[i]? = some (addr, ready)) :
    ({ t with pipes := t.pipes.set i (addr, kept) } : Traffic).IsWired := by
  intro a j numbered
  have before := wired a j numbered
  simp only [List.getElem?_set']
  by_cases here : i = j
  · subst here
    rw [pipe] at before ⊢
    simpa using before
  · simpa [here] using before

theorem quiet_set {t : Traffic} (i : Nat) (addr : String) {kept : List Bytes}
    (quiet : ∀ pipe ∈ t.pipes, ∀ unread ∈ pipe.2, unread = [])
    (new : ∀ unread ∈ kept, unread = []) :
    ∀ pipe ∈ t.pipes.set i (addr, kept), ∀ unread ∈ pipe.2, unread = [] := by
  intro pipe listed
  obtain known | rfl := List.mem_or_eq_of_mem_set listed
  · exact quiet pipe known
  · exact new

theorem move_sound {t u : Traffic} (begins : ∀ q, rules.begins q → q.Carried t.nodeLimits)
    (move : Move rules t u) (sound : t.Sound) : u.Sound := by
  cases move with
  | idle => exact sound
  | @begin q state addrs deadline allowed opening =>
    have carried := begins q allowed
    apply sound_place
    · exact sound.later (Nat.le_succ _)
    · exact Nat.lt_succ_self _
    · rfl
    · exact carried
    · have fits : state.Fits t.nodeLimits q := fits_opening carried opening
      exact fits
    · intro old known
      exact absurd (sound.operations _ old known).1 (Nat.lt_irrefl _)
    · intro _ k call known
      exact Nat.ne_of_lt (sound.calls k call known).2.1
  | @beginBucket number bucket op m g ranked known fetching grouped =>
    apply sound_continue _ _ sound known
    have fits := (sound.operations number op known).2.2.2
    rw [fetching] at fits
    cases asked : op.q with
    | getMulti keys =>
      rw [asked] at fits
      exact Quorum.Fetch.fits_putGroup fits (Quorum.Fetch.mem_of_group? grouped)
        (Quorum.Fetch.Group.within_begin g ranked).1
    | _ =>
      rw [asked] at fits
      exact absurd fits id
  | refuse why known waiting => exact sound_putCall none sound known trivial
  | @connect number call addr ready since known waiting pipe =>
    have pipes := quiet_set call.member addr sound.quiet
      fun unread listed => sound.quiet _ (List.mem_of_getElem? pipe) unread
        (List.dropLast_subset _ listed)
    have before : ({ t with pipes := t.pipes.set call.member (addr, ready.dropLast) } :
        Traffic).Sound :=
      ⟨wired_set sound.wired pipe, pipes, sound.operations, sound.calls, sound.matching⟩
    apply sound_putCall _ before known
    cases last : ready.getLast? with
    | none => rfl
    | some unread =>
      exact sound.quiet _ (List.mem_of_getElem? pipe) unread (List.mem_of_getLast? last)
  | @serve number since call unread now known running allowed =>
    obtain ⟨-, -, carried, clear⟩ := sound.calls number call known
    have stored := sound_stores (t.stores.put (t.addrOf call)
      (t.session now (t.addrOf call) call.q.toWire).2) sound
    apply sound_putCall _ stored known
    obtain rfl : unread = [] := by
      simp only [Call.IsClear, running] at clear
      exact clear
    simp only [Call.IsClear, List.nil_append, (t.session_toWire now (t.addrOf call) carried).1]
    split
    · trivial
    · rename_i later answer same
      exact Ask.rest_of_clean carried (Call.Stage.served.inj same).2
    · trivial
  | @finish number since call answer outcome pipes known served kept =>
    have before : ({ t with pipes := pipes } : Traffic).Sound := by
      obtain rfl | ⟨clean, addr, ready, pipe, rfl⟩ := kept
      · exact sound
      · have clear := (sound.calls number call known).2.2.2
        simp only [Call.IsClear, served] at clear
        have empty : ∀ unread ∈ ready ++ [answer.rest], unread = [] := by
          intro unread listed
          obtain inside | last := List.mem_append.mp listed
          · exact sound.quiet _ (List.mem_of_getElem? pipe) unread inside
          · exact (List.mem_singleton.mp last).trans (clear clean)
        have pipes := quiet_set call.member addr sound.quiet empty
        exact ⟨wired_set sound.wired pipe, pipes, sound.operations, sound.calls, sound.matching⟩
    exact sound_putCall none before known trivial
  | fail why outcome known underway => exact sound_putCall none sound known trivial
  | @deliver number call result outcome calls liveBackups known ended calls_eq live =>
    have before := sound_delivered sound known calls_eq
    unfold hand
    cases found : t.operations.get? call.operation with
    | none => exact before
    | some op =>
      exact sound_continue _ _ before found
        (Operation.State.fits_absorb (sound.operations _ op found).2.2.2 ..)
  | record known delivered =>
    exact ⟨sound.wired, sound.quiet, sound.operations, sound.calls.erase, sound.matching.erase⟩
  | @expire number op known =>
    exact sound_continue 0 [] sound known
      (Operation.State.fits_expire (sound.operations number op known).2.2.2)
  | forget number =>
    refine ⟨sound.wired, sound.quiet, sound.operations.erase, sound.calls, ?_⟩
    intro k call there op found
    rw [Assoc.get?_erase] at found
    split at found
    · cases found
    · exact sound.matching k call there op found
  | arrive now addr allowed =>
    exact ⟨sound.wired, sound.quiet, sound.operations, sound.calls, sound.matching⟩

end Traffic

/-- What a cluster has when nothing has happened yet. -/
theorem build_eq {replication : Config.Replication} {limits nodeLimits : Config.Limits}
    {plan : Route.Plan} {epoch : Nat} {c : Cluster}
    (built : build replication limits plan nodeLimits epoch = .ok c) :
    c.traffic.Sound ∧ c.replication = replication ∧ c.nodeLimits = nodeLimits ∧ c.stores = [] ∧
      c.calls = [] ∧ c.operations = [] ∧ Router.ofPlan plan = .ok c.topology.router := by
  have enrolled := enrolled_build built
  obtain ⟨router, routed, built⟩ := ok_of_bind built
  obtain rfl := Except.ok.inj built
  refine ⟨⟨?_, ?_, ?_, ?_, ?_⟩, rfl, rfl, rfl, rfl, rfl, routed⟩
  · intro addr i numbered
    have known := enrolled.leads addr i numbered
    simp only [traffic, List.getElem?_map, Option.map_map]
    exact known
  · intro pipe listed
    obtain ⟨m, member, rfl⟩ := List.mem_map.mp listed
    have empty := enrolled.quiet m member List.not_mem_nil
    simp [Member.pipe, empty]
  · intro number op known
    cases known
  · intro number call known
    cases known
  · intro number call known
    cases known

/-- Quorums of so many nodes. -/
def quorums (n w r : Nat) : Config.Replication :=
  { Config.Replication.default with n := n, w := w, r := r }

/-- A new cluster with one bucket. -/
def ofReplicas (replication : Config.Replication) (nodeLimits : Config.Limits)
    (replicas : Route.Replicas) : Cluster where
  replication := replication
  bodyMax := 100
  nodeLimits := nodeLimits
  epoch := 0
  now := 0
  stores := []
  members := replicas.all.map fun addr => ⟨Health.Node.fresh addr (.ofConfig replication) 0, []⟩
  topology := ⟨⟨[replicas]⟩, replicas.all.zipIdx, 0⟩
  operations := []
  calls := []
  next := 0
  buffers := .empty
  metrics := .empty

theorem build_ofReplicas {replication : Config.Replication} {nodeLimits : Config.Limits}
    {plan : Route.Plan} {replicas : Route.Replicas}
    (routed : Router.ofPlan plan = .ok ⟨[replicas]⟩)
    (sorted : Router.addresses ⟨[replicas]⟩ = replicas.all)
    (numbered : replicas.all.foldl (enroll (.ofConfig replication) 0 []) ([], []) =
      (replicas.all.zipIdx,
        replicas.all.map fun addr => ⟨Health.Node.fresh addr (.ofConfig replication) 0, []⟩)) :
    build replication ⟨250, 100⟩ plan nodeLimits 0 =
      .ok (ofReplicas replication nodeLimits replicas) := by
  simp only [build, routed, bind, Except.bind, enrollAll, sorted, numbered]
  rfl

theorem build_one (n w r : Nat) (nodeLimits : Config.Limits) :
    build (quorums n w r) ⟨250, 100⟩ ⟨1, [⟨"a", ["0"]⟩], []⟩ nodeLimits 0 =
      .ok (ofReplicas (quorums n w r) nodeLimits ⟨["a"], []⟩) :=
  build_ofReplicas rfl (by decide +kernel) rfl

theorem addresses_two : Text.sortedSet ["a", "b"] = ["a", "b"] := by
  change (List.mergeSort ["a", "b"] fun a b => decide (a ≤ b)).eraseReps = ["a", "b"]
  rw [List.mergeSort_of_pairwise (by decide)]
  decide

theorem build_two (n w r : Nat) (nodeLimits : Config.Limits) :
    build (quorums n w r) ⟨250, 100⟩ ⟨1, [⟨"a", ["0"]⟩, ⟨"b", ["0"]⟩], []⟩ nodeLimits 0 =
      .ok (ofReplicas (quorums n w r) nodeLimits ⟨["a", "b"], []⟩) :=
  build_ofReplicas rfl addresses_two rfl

theorem build_backed (n w r : Nat) (nodeLimits : Config.Limits) :
    build (quorums n w r) ⟨250, 100⟩ ⟨1, [⟨"a", ["0"]⟩], ["b"]⟩ nodeLimits 0 =
      .ok (ofReplicas (quorums n w r) nodeLimits ⟨["a"], ["b"]⟩) :=
  build_ofReplicas rfl addresses_two rfl

/-- What one call takes from its first step to its last. -/
def callSteps (number : Nat) : List Step :=
  [.ask number, .serve number, .finish number, .deliver number]

/-- A call that fails. -/
def failSteps (number : Nat) : List Step :=
  [.ask number, .fail number (.timeout "no answer"), .deliver number]

/-- An item under revision 5. -/
def fifth : Item := ⟨7, [118], ⟨5, by decide, by decide⟩⟩

theorem carriesKey_k : Wire.CarriesKey "k" where
  word := ⟨by decide, by simp [Text.isBlank]⟩
  short := by
    have size : "k".utf8ByteSize = 1 := rfl
    omega

end QuorumKv.Cluster
