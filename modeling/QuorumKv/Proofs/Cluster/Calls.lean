import QuorumKv.Proofs.Cluster.Sound

/-! The calls of one operation: that no two that are still open go to the same node, and that their
results are what nodes answered. -/
namespace QuorumKv.Cluster

/-- Whether the operation of a call still has to learn its result. -/
def Call.IsOpen (call : Call) : Prop :=
  ∀ outcome, call.stage ≠ .delivered outcome

theorem Call.isOpen_of_stage {call : Call} {stage : Call.Stage call.q} (same : call.stage = stage)
    (other : ∀ outcome, stage ≠ .delivered outcome) : call.IsOpen := by
  intro outcome closed
  exact other outcome (same.symm.trans closed)

/-- What a call tells, once it has an answer that is no failure. -/
def Call.Tells (call : Call) (T : call.q.Answer → Prop) : Prop :=
  match call.stage with
  | .served _ (some answer) => ∀ a, answer.result = .ok a → T a
  | .ended result _ => ∀ a, result = .ok a → T a
  | _ => True

namespace Traffic

/-- The addresses of the members, by number. -/
def names (t : Traffic) : List String :=
  t.pipes.map (·.1)

theorem addrOf_eq (t : Traffic) (call : Call) :
    t.addrOf call = (t.names[call.member]?).getD "" := by
  rw [addrOf, names, List.getElem?_map]

theorem addrOf_congr {t u : Traffic} (names : u.names = t.names) {a b : Call}
    (member : b.member = a.member) : u.addrOf b = t.addrOf a := by
  rw [addrOf_eq, addrOf_eq, names, member]

theorem names_set {t : Traffic} {i : Nat} {addr : String} {ready kept : List Bytes}
    (pipe : t.pipes[i]? = some (addr, ready)) :
    (t.pipes.set i (addr, kept)).map (·.1) = t.names := by
  apply List.ext_getElem?
  intro j
  simp only [names, List.getElem?_map, List.getElem?_set']
  by_cases here : i = j
  · subst here
    simp [pipe]
  · simp [here]

theorem addrOf_newCall {t : Traffic} {number bucket member : Nat} {op : Operation} {addr : String}
    (wired : t.IsWired) (topology : op.topology = t.topology)
    (numbered : op.topology.numbers.get? addr = some member) :
    t.addrOf (newCall number bucket op member) = addr := by
  have known := wired addr member (topology ▸ numbered)
  simp only [addrOf, newCall, known, Option.getD_some]

/-- The open calls of an operation go to different nodes, none of which is among the others. -/
structure Spread (t : Traffic) (number : Nat) (others : List String) : Prop where
  nodup : others.Nodup
  apart : t.calls.All fun _ call => call.operation = number → call.IsOpen → t.addrOf call ∉ others
  single : t.calls.All fun j a => t.calls.All fun k b => a.operation = number →
    b.operation = number → a.IsOpen → b.IsOpen → t.addrOf a = t.addrOf b → j = k

theorem Spread.subperm {t : Traffic} {number : Nat} {others fewer : List String}
    (spread : t.Spread number others) (nodup : fewer.Nodup) (subset : fewer ⊆ others) :
    t.Spread number fewer where
  nodup := nodup
  apart := spread.apart.imp fun _ _ _ away mine open_ listed => away mine open_ (subset listed)
  single := spread.single

theorem Spread.perm {t : Traffic} {number : Nat} {others same : List String}
    (spread : t.Spread number others) (perm : same.Perm others) : t.Spread number same :=
  spread.subperm (perm.nodup_iff.mpr spread.nodup) perm.subset

theorem Spread.tail {t : Traffic} {number : Nat} {addr : String} {others : List String}
    (spread : t.Spread number (addr :: others)) : t.Spread number others :=
  spread.subperm (List.nodup_cons.mp spread.nodup).2 (List.subset_cons_self ..)

/-- Without calls of its own, an operation has nothing to keep apart. -/
theorem spread_of_none {t : Traffic} {number : Nat} {others : List String} (nodup : others.Nodup)
    (none_yet : t.calls.All fun _ call => call.operation ≠ number) :
    t.Spread number others where
  nodup := nodup
  apart := none_yet.imp fun _ _ _ other mine => absurd mine other
  single := none_yet.imp fun _ _ _ other _ _ _ mine => absurd mine other

/-- What other events do to the calls of an operation: the calls go on or go away. -/
structure Kept (number : Nat) (t u : Traffic) : Prop where
  names : u.names = t.names
  calls : ∀ k d, u.calls.get? k = some d → d.operation = number →
    ∃ c, t.calls.get? k = some c ∧ c.operation = number ∧ d.member = c.member ∧
      d.bucket = c.bucket ∧ d.q = c.q ∧ (d.IsOpen → c.IsOpen)

theorem Kept.of_calls {number : Nat} {t u : Traffic} (names : u.names = t.names)
    (calls : u.calls = t.calls) : Kept number t u where
  names := names
  calls _ d known mine := ⟨d, calls ▸ known, mine, rfl, rfl, rfl, id⟩

theorem Kept.refl (number : Nat) (t : Traffic) : Kept number t t :=
  .of_calls rfl rfl

theorem Kept.trans {number : Nat} {t u v : Traffic} (first : Kept number t u)
    (second : Kept number u v) : Kept number t v where
  names := second.names.trans first.names
  calls k d known mine := by
    obtain ⟨c, there, own, member, bucket, question, open_⟩ := second.calls k d known mine
    obtain ⟨b, before, owned, same, still_for, asked, opened⟩ := first.calls k c there own
    exact ⟨b, before, owned, member.trans same, bucket.trans still_for, question.trans asked,
      fun still => opened (open_ still)⟩

theorem Kept.spread {number : Nat} {t u : Traffic} {others : List String} (kept : Kept number t u)
    (spread : t.Spread number others) : u.Spread number others where
  nodup := spread.nodup
  apart k d known mine still := by
    obtain ⟨c, there, own, member, -, -, open_⟩ := kept.calls k d known mine
    rw [addrOf_congr kept.names member]
    exact spread.apart k c there own (open_ still)
  single j a knownA k b knownB mineA mineB stillA stillB same := by
    obtain ⟨c, thereA, ownA, memberA, -, -, openA⟩ := kept.calls j a knownA mineA
    obtain ⟨d, thereB, ownB, memberB, -, -, openB⟩ := kept.calls k b knownB mineB
    rw [addrOf_congr kept.names memberA, addrOf_congr kept.names memberB] at same
    exact spread.single j c thereA k d thereB ownA ownB (openA stillA) (openB stillB) same

/-- Whether all calls of an operation are about one bucket and go to some nodes. -/
def Reaches (t : Traffic) (number bucket : Nat) (region : List String) : Prop :=
  t.calls.All fun _ call => call.operation = number →
    call.bucket = bucket ∧ t.addrOf call ∈ region

theorem Kept.reaches {number bucket : Nat} {t u : Traffic} {region : List String}
    (kept : Kept number t u) (reaches : t.Reaches number bucket region) :
    u.Reaches number bucket region := by
  intro k d known mine
  obtain ⟨c, there, own, member, same, -, -⟩ := kept.calls k d known mine
  rw [addrOf_congr kept.names member, same]
  exact reaches k c there own

theorem kept_putCall {t : Traffic} {number k : Nat} {call : Call} {stage : Call.Stage call.q}
    (guard : Option Buffer.Guard) (known : t.calls.get? k = some call) (open_ : call.IsOpen) :
    Kept number t (t.putCall k call stage guard) where
  names := rfl
  calls j d there mine := by
    simp only [putCall] at there
    rw [Assoc.get?_put] at there
    split at there
    · rename_i here
      obtain rfl := Option.some.inj there
      exact ⟨call, here ▸ known, mine, rfl, rfl, rfl, fun _ => open_⟩
    · exact ⟨d, there, mine, rfl, rfl, rfl, id⟩

theorem kept_erase (number k : Nat) (t : Traffic) :
    Kept number t { t with calls := t.calls.erase k } where
  names := rfl
  calls j d there mine := by
    simp only at there
    rw [Assoc.get?_erase] at there
    split at there
    · cases there
    · exact ⟨d, there, mine, rfl, rfl, rfl, id⟩

/-- The calls of another operation are none of this one. -/
theorem kept_place {number other bucket : Nat} {op : Operation} {t : Traffic}
    {addrs : List String} (apart : other ≠ number) :
    Kept number t (t.place other bucket op addrs) := by
  apply place_keeps (P := Kept number t)
  · intro u addr member _ _ before
    refine ⟨before.names, ?_⟩
    intro k d known mine
    simp only at known
    rw [Assoc.get?_put] at known
    split at known
    · obtain rfl := Option.some.inj known
      exact absurd mine apart
    · exact before.calls k d known mine
  · exact .of_calls rfl rfl

/-- Whether a number is that of an open call of an operation. -/
def Opens (t : Traffic) (number k : Nat) : Prop :=
  ∃ call, t.calls.get? k = some call ∧ call.operation = number ∧ call.IsOpen

theorem Kept.opens {number k : Nat} {t u : Traffic} (kept : Kept number t u)
    (opens : u.Opens number k) : t.Opens number k := by
  obtain ⟨d, known, mine, still⟩ := opens
  obtain ⟨c, there, own, -, -, -, open_⟩ := kept.calls k d known mine
  exact ⟨c, there, own, open_ still⟩

theorem opens_putCall {t : Traffic} {number j k : Nat} {call : Call} {stage : Call.Stage call.q}
    {guard : Option Buffer.Guard} (known : t.calls.get? j = some call)
    (later : ∀ outcome, stage ≠ .delivered outcome) (opens : t.Opens number k) :
    (t.putCall j call stage guard).Opens number k := by
  obtain ⟨c, there, mine, open_⟩ := opens
  unfold Opens
  simp only [putCall, Assoc.get?_put]
  by_cases here : j = k
  · subst here
    obtain rfl := Option.some.inj (known.symm.trans there)
    exact ⟨_, if_pos rfl, mine, later⟩
  · exact ⟨c, (if_neg here).trans there, mine, open_⟩

/-- A call that goes away, or whose result is learned, leaves all others as they are. -/
theorem opens_of_ne {t : Traffic} {number j k : Nat} (call : Call) {calls : Assoc Nat Call}
    (calls_eq : calls = t.calls.erase j ∨ calls = t.calls.put j call) (other : k ≠ j)
    (opens : t.Opens number k) : ({ t with calls := calls } : Traffic).Opens number k := by
  obtain ⟨c, there, mine, open_⟩ := opens
  refine ⟨c, ?_, mine, open_⟩
  obtain rfl | rfl := calls_eq
  · simp only [Assoc.get?_erase, if_neg (Ne.symm other), there]
  · simp only [Assoc.get?_put, if_neg (Ne.symm other), there]

theorem opens_place {t : Traffic} {number other bucket k : Nat} {op : Operation}
    {addrs : List String} (below : t.calls.All fun j _ => j < t.next) (opens : t.Opens number k) :
    (t.place other bucket op addrs).Opens number k := by
  suffices kept : (t.place other bucket op addrs).Opens number k ∧
      k < (t.place other bucket op addrs).next from kept.1
  refine place_keeps (P := fun u => u.Opens number k ∧ k < u.next) ?_ ⟨opens, ?_⟩
  · rintro u addr member - - ⟨⟨c, there, mine, open_⟩, used⟩
    refine ⟨⟨c, ?_, mine, open_⟩, Nat.lt_succ_of_lt used⟩
    rw [Assoc.get?_put_ne _ _ (Nat.ne_of_gt used)]
    exact there
  · obtain ⟨c, there, -⟩ := opens
    exact below k c there

/-- An operation calls nodes that it has not called yet. -/
theorem spread_place {number bucket : Nat} {op : Operation} {t : Traffic}
    {addrs others : List String} (sound : t.Sound) (topology : op.topology = t.topology)
    (spread : t.Spread number (addrs ++ others)) :
    (t.place number bucket op addrs).Spread number others := by
  have below : t.calls.All fun k _ => k < t.next := sound.calls.imp fun _ _ _ known => known.1
  have wired := sound.wired
  have each : ∀ u : Traffic, (u.calls.All fun k _ => k < u.next) → u.IsWired →
      u.topology = t.topology → u.Spread number (addrs ++ others) →
      (addrs.foldl (spawn number bucket op) u).Spread number others := by
    clear spread
    induction addrs with
    | nil => exact fun _ _ _ _ spread => spread
    | cons addr rest ih =>
      intro u below wired same spread
      rw [List.foldl_cons, spawn_eq]
      have nodup := List.nodup_cons.mp spread.nodup
      split
      · exact ih u below wired same spread.tail
      · rename_i member numbered
        have here : u.addrOf (newCall number bucket op member) = addr :=
          addrOf_newCall wired (topology.trans same.symm) numbered
        have unused : u.calls.get? u.next = none := by
          cases taken : u.calls.get? u.next with
          | none => rfl
          | some call => exact absurd (below _ call taken) (Nat.lt_irrefl _)
        refine ih _ ?_ wired same ⟨nodup.2, ?_, ?_⟩
        · exact Assoc.All.put (below.imp fun _ _ _ => Nat.lt_succ_of_lt) (Nat.lt_succ_self _)
        · apply Assoc.All.put
          · exact spread.apart.imp fun _ _ _ away mine open_ listed =>
              away mine open_ (.tail _ listed)
          · intro _ _ listed
            exact nodup.1 (here ▸ listed)
        · have fresh : u.calls.All fun _ b => b.operation = number → b.IsOpen →
              u.addrOf b ≠ addr := spread.apart.imp fun _ _ _ away mine open_ same =>
            away mine open_ (same ▸ List.mem_cons_self)
          intro j a knownA k b knownB mineA mineB openA openB equal
          simp only at knownA knownB
          rw [Assoc.get?_put] at knownA knownB
          split at knownA <;> split at knownB
          · rename_i first second
            exact first.symm.trans second
          · obtain rfl := Option.some.inj knownA
            exact absurd (equal.symm.trans here) (fresh k b knownB mineB openB)
          · obtain rfl := Option.some.inj knownB
            exact absurd (equal.trans here) (fresh j a knownA mineA openA)
          · exact spread.single j a knownA k b knownB mineA mineB openA openB equal
  exact each _ below wired rfl ⟨spread.nodup, spread.apart, spread.single⟩

theorem reaches_place {number bucket : Nat} {op : Operation} {t : Traffic}
    {addrs region : List String} (sound : t.Sound) (topology : op.topology = t.topology)
    (inside : addrs ⊆ region) (reaches : t.Reaches number bucket region) :
    (t.place number bucket op addrs).Reaches number bucket region := by
  suffices kept : (t.place number bucket op addrs).Reaches number bucket region ∧
      (t.place number bucket op addrs).IsWired ∧
      (t.place number bucket op addrs).topology = t.topology from kept.1
  refine place_keeps (P := fun u => u.Reaches number bucket region ∧ u.IsWired ∧
    u.topology = t.topology) ?_ ⟨reaches, sound.wired, rfl⟩
  · rintro u addr member listed numbered ⟨before, wired, same⟩
    refine ⟨Assoc.All.put before fun _ => ⟨rfl, ?_⟩, wired, same⟩
    have here : u.addrOf (newCall number bucket op member) = addr :=
      addrOf_newCall wired (topology.trans same.symm) numbered
    exact here ▸ inside listed

/-- When an operation learns a result, the node that gave it has no open call left. -/
theorem spread_deliver {number k : Nat} {t : Traffic} {call : Call} {result : call.q.Outcome}
    {outcome : Option Health.Outcome} {calls : Assoc Nat Call} {others : List String}
    (known : t.calls.get? k = some call) (mine : call.operation = number)
    (ended : call.stage = .ended result outcome)
    (calls_eq : calls = t.calls.erase k ∨
      calls = t.calls.put k { call with stage := .delivered outcome })
    (spread : t.Spread number others) :
    ({ t with calls := calls } : Traffic).Spread number (t.addrOf call :: others) := by
  have open_ := Call.isOpen_of_stage ended (by simp)
  -- what is open now was open before, under another number
  have before : ∀ j d, calls.get? j = some d → d.operation = number → d.IsOpen →
      t.calls.get? j = some d ∧ j ≠ k := by
    intro j d there own still
    obtain rfl | rfl := calls_eq
    · rw [Assoc.get?_erase] at there
      split at there
      · cases there
      · rename_i other
        exact ⟨there, Ne.symm other⟩
    · rw [Assoc.get?_put] at there
      split at there
      · obtain rfl := Option.some.inj there
        exact absurd rfl (still outcome)
      · rename_i other
        exact ⟨there, Ne.symm other⟩
  refine ⟨?_, ?_, ?_⟩
  · exact List.nodup_cons.mpr ⟨spread.apart k call known mine open_, spread.nodup⟩
  · intro j d there own still listed
    obtain ⟨old, other⟩ := before j d there own still
    obtain same | later := List.mem_cons.mp listed
    · exact other (spread.single j d old k call known own mine still open_ same)
    · exact spread.apart j d old own still later
  · intro j a knownA i b knownB mineA mineB openA openB
    exact spread.single j a (before j a knownA mineA openA).1 i b (before i b knownB mineB openB).1
      mineA mineB openA openB

theorem kept_deliver {number k : Nat} {t : Traffic} {call : Call} {result : call.q.Outcome}
    {outcome : Option Health.Outcome} {calls : Assoc Nat Call}
    (known : t.calls.get? k = some call) (ended : call.stage = .ended result outcome)
    (calls_eq : calls = t.calls.erase k ∨
      calls = t.calls.put k { call with stage := .delivered outcome }) :
    Kept number t { t with calls := calls } := by
  obtain rfl | rfl := calls_eq
  · exact kept_erase number k t
  · change Kept number t (t.putCall k call (.delivered outcome) call.guard)
    exact kept_putCall call.guard known (Call.isOpen_of_stage ended (by simp))

/-! ## Moves, as one operation sees them -/

theorem hand_fixed (t : Traffic) (liveBackups : List String) (call : Call)
    (result : call.q.Outcome) :
    (t.hand liveBackups call result).pipes = t.pipes ∧
      (t.hand liveBackups call result).topology = t.topology ∧
      (t.hand liveBackups call result).replication = t.replication ∧
      (t.hand liveBackups call result).nodeLimits = t.nodeLimits ∧
      (t.hand liveBackups call result).stores = t.stores ∧
      t.next ≤ (t.hand liveBackups call result).next := by
  unfold hand
  split
  · exact ⟨rfl, rfl, rfl, rfl, rfl, Nat.le_refl _⟩
  · obtain ⟨-, stores, pipes, topology, replication, limits, next⟩ := place_fixed ..
    exact ⟨pipes, topology, replication, limits, stores, next⟩

variable {rules : Rules}

/-- What no move changes. -/
theorem move_fixed {rules : Rules} {t u : Traffic} (move : Move rules t u) :
    u.topology = t.topology ∧ u.replication = t.replication ∧ u.nodeLimits = t.nodeLimits ∧
      t.next ≤ u.next := by
  cases move with
  | begin =>
    obtain ⟨-, -, -, topology, replication, limits, next⟩ := place_fixed ..
    exact ⟨topology, replication, limits, Nat.le_of_succ_le next⟩
  | beginBucket =>
    obtain ⟨-, -, -, topology, replication, limits, next⟩ := place_fixed ..
    exact ⟨topology, replication, limits, next⟩
  | deliver =>
    obtain ⟨-, topology, replication, limits, -, next⟩ := hand_fixed ..
    exact ⟨topology, replication, limits, next⟩
  | _ => exact ⟨rfl, rfl, rfl, Nat.le_refl _⟩

/-- What the requests that may reach a node keep of its store, every move keeps. -/
theorem move_store {P : Store → Prop} {t u : Traffic} (addr : String)
    (served : ∀ now call, (∃ k, t.calls.get? k = some call) →
      rules.serves call.operation call.q → P (t.session now addr call.q.toWire).2)
    (arrived : ∀ now bytes, rules.arrives bytes → P (t.session now addr bytes).2)
    (move : Move rules t u) (held : P (t.store addr)) : P (u.store addr) := by
  have put {other : String} {bytes : Bytes} {now : Nat}
      (kept : P (t.session now addr bytes).2) :
      P (({ t with stores := (t.stores.put other (t.session now other bytes).2) } :
        Traffic).store addr) := by
    simp only [store, Assoc.get?_put]
    by_cases here : other = addr
    · subst here
      rw [if_pos rfl]
      exact kept
    · rw [if_neg here]
      exact held
  cases move with
  | begin =>
    rw [store, (place_fixed ..).2.1]
    exact held
  | beginBucket =>
    rw [store, (place_fixed ..).2.1]
    exact held
  | serve now known running allowed => exact put (served now _ ⟨_, known⟩ allowed)
  | deliver =>
    rw [store, (hand_fixed ..).2.2.2.2.1]
    exact held
  | arrive now other allowed => exact put (arrived now _ allowed)
  | _ => exact held

/-- What a move is to an operation: it begins, learns a result, runs out of time or begins with a
bucket. Everything else leaves it as it is, or forgets it. -/
inductive MoveAt (rules : Rules) (number : Nat) (t u : Traffic) : Prop where
  | aside (kept : Kept number t u)
      (operation : u.operations.get? number = t.operations.get? number ∨
        u.operations.get? number = none)
      (open_ : (t.calls.All fun k _ => k < t.next) → u.operations.get? number ≠ none →
        ∀ k, t.Opens number k → u.Opens number k)
  | begin {q : Ask} {state : Operation.State} {addrs : List String} (deadline : Nat)
      (numbered : number = t.next) (allowed : rules.begins q)
      (opening : Opening t (bucketOf t.topology q) q state addrs)
      (after : u = ({ t with next := t.next + 1 } : Traffic).place number
        (bucketOf t.topology q) ⟨q, t.topology, deadline, state⟩ addrs)
  | beginBucket {op : Operation} {m : Quorum.Fetch} (bucket : Nat) (g : Quorum.Fetch.Group)
      (ranked : List String) (known : t.operations.get? number = some op)
      (fetching : op.state = .fetch m)
      (after : u = t.place number bucket
        { op with state := .fetch (m.putGroup (g.begin ranked).1) } (g.begin ranked).2)
      (grouped : m.group? bucket = some g)
      (ranking : Ranking ranked (op.topology.router.resolve bucket).mains)
  | deliver {op : Operation} {k : Nat} {call : Call} {result : call.q.Outcome}
      {outcome : Option Health.Outcome} {calls : Assoc Nat Call} {liveBackups : List String}
      (known : t.operations.get? number = some op) (there : t.calls.get? k = some call)
      (mine : call.operation = number) (ended : call.stage = .ended result outcome)
      (calls_eq : calls = t.calls.erase k ∨
        calls = t.calls.put k { call with stage := .delivered outcome })
      (live : liveBackups.Sublist (op.topology.router.resolve call.bucket).backups)
      (after : u = ({ t with calls := calls } : Traffic).place number call.bucket
        { op with state :=
            (op.state.absorb liveBackups (t.addrOf call) call.bucket call.q result).state }
        (op.state.absorb liveBackups (t.addrOf call) call.bucket call.q result).calls)
  | expire {op : Operation} (known : t.operations.get? number = some op)
      (after : u =
        { t with operations := (t.operations.put number { op with state := op.state.expire }) })

theorem move_at {t u : Traffic} (number : Nat) (move : Move rules t u) :
    MoveAt rules number t u := by
  cases move with
  | idle => exact .aside (.refl ..) (.inl rfl) fun _ _ _ => id
  | @begin q state addrs deadline allowed opening =>
    by_cases here : t.next = number
    · subst here
      exact .begin deadline rfl allowed opening rfl
    · have first : Kept number t { t with next := t.next + 1 } :=
        .of_calls rfl rfl
      refine .aside (first.trans (kept_place here)) (.inl ?_) fun below _ _ opens =>
        opens_place (t := { t with next := t.next + 1 })
          (below.imp fun _ _ _ => Nat.lt_succ_of_lt) opens
      rw [(place_fixed ..).1, Assoc.get?_put_ne _ _ here]
  | @beginBucket other bucket op m g ranked known fetching grouped ranking =>
    by_cases here : other = number
    · subst here
      exact .beginBucket bucket g ranked known fetching rfl grouped ranking
    · refine .aside (kept_place here) (.inl ?_) fun below _ _ => opens_place below
      rw [(place_fixed ..).1, Assoc.get?_put_ne _ _ here]
  | refuse why known waiting =>
    have open_ := Call.isOpen_of_stage waiting (by simp)
    exact .aside (kept_putCall none known open_) (.inl rfl) fun _ _ _ => opens_putCall known nofun
  | @connect k call addr ready since known waiting pipe =>
    have first : Kept number t { t with pipes := t.pipes.set call.member (addr, ready.dropLast) } :=
      .of_calls (names_set pipe) rfl
    have open_ := Call.isOpen_of_stage waiting (by simp)
    exact .aside (first.trans (kept_putCall _ known open_)) (.inl rfl) fun _ _ _ =>
      opens_putCall (t := t) known nofun
  | @serve k since call unread now known running allowed =>
    have open_ := Call.isOpen_of_stage running (by simp)
    have first : Kept number t { t with stores := (t.stores.put (t.addrOf call)
        (t.session now (t.addrOf call) call.q.toWire).2) } :=
      .of_calls rfl rfl
    exact .aside (first.trans (kept_putCall _ known open_)) (.inl rfl) fun _ _ _ =>
      opens_putCall (t := t) known nofun
  | @finish k since call answer outcome pipes known served kept =>
    have open_ := Call.isOpen_of_stage served (by simp)
    have first : Kept number t { t with pipes := pipes } := by
      obtain rfl | ⟨-, addr, ready, pipe, rfl⟩ := kept
      · exact .refl ..
      · exact .of_calls (names_set pipe) rfl
    exact .aside (first.trans (kept_putCall none known open_)) (.inl rfl) fun _ _ _ =>
      opens_putCall (t := t) known nofun
  | @fail k since call why outcome known underway =>
    have open_ : call.IsOpen := by
      obtain ⟨unread, running⟩ | ⟨answer, served⟩ := underway
      · exact Call.isOpen_of_stage running (by simp)
      · exact Call.isOpen_of_stage served (by simp)
    exact .aside (kept_putCall none known open_) (.inl rfl) fun _ _ _ => opens_putCall known nofun
  | @deliver k call result outcome calls liveBackups known ended calls_eq live =>
    have first : Kept number t { t with calls := calls } := kept_deliver known ended calls_eq
    unfold hand
    cases found : t.operations.get? call.operation with
    | none =>
      refine .aside first (.inl rfl) fun _ there j opens => opens_of_ne _ calls_eq ?_ opens
      rintro rfl
      obtain ⟨c, same, rfl, -⟩ := opens
      obtain rfl := Option.some.inj (known.symm.trans same)
      exact there found
    | some op =>
      by_cases mine : call.operation = number
      · subst mine
        exact .deliver found known rfl ended calls_eq (live op found) rfl
      · have others : ∀ j, t.Opens number j →
            ({ t with calls := calls } : Traffic).Opens number j := by
          intro j opens
          refine opens_of_ne _ calls_eq ?_ opens
          rintro rfl
          obtain ⟨c, same, own, -⟩ := opens
          obtain rfl := Option.some.inj (known.symm.trans same)
          exact mine own
        refine .aside (first.trans (kept_place mine)) (.inl ?_) fun below _ j opens =>
          opens_place ?_ (others j opens)
        · simp only
          rw [(place_fixed ..).1, Assoc.get?_put_ne _ _ mine]
        · exact Assoc.All.replace below calls_eq (below k call known)
  | @record k call outcome known delivered =>
    refine .aside (kept_erase ..) (.inl rfl) fun _ _ j opens => opens_of_ne call (.inl rfl) ?_ opens
    rintro rfl
    obtain ⟨c, same, -, open_⟩ := opens
    obtain rfl := Option.some.inj (known.symm.trans same)
    exact open_ outcome delivered
  | @expire other op known =>
    by_cases here : other = number
    · subst here
      exact .expire known rfl
    · exact .aside (.of_calls rfl rfl)
        (.inl (Assoc.get?_put_ne _ _ here)) fun _ _ _ => id
  | forget other =>
    refine .aside (.of_calls rfl rfl) ?_ fun _ _ _ => id
    simp only
    rw [Assoc.get?_erase]
    by_cases here : other = number
    · exact .inr (if_pos here)
    · exact .inl (if_neg here)
  | arrive now addr allowed =>
    exact .aside (.of_calls rfl rfl) (.inl rfl) fun _ _ _ => id

/-- Whether the calls of an operation tell what `T` says of their nodes. -/
def Tells (t : Traffic) (number : Nat) (T : String → (q : Ask) → q.Answer → Prop) : Prop :=
  t.calls.All fun _ call => call.operation = number → call.Tells (T (t.addrOf call) call.q)

theorem tells_place {number other bucket : Nat} {op : Operation} {t : Traffic}
    {addrs : List String} {T : String → (q : Ask) → q.Answer → Prop} (tells : t.Tells number T) :
    (t.place other bucket op addrs).Tells number T :=
  place_keeps (P := fun u => u.Tells number T)
    (fun _ _ _ _ _ before => Assoc.All.put before fun _ => trivial) tells

theorem tells_putCall {number k : Nat} {t u : Traffic} {call : Call} {stage : Call.Stage call.q}
    {guard : Option Buffer.Guard} {T : String → (q : Ask) → q.Answer → Prop}
    (names : u.names = t.names) (calls : u.calls = t.calls) (tells : t.Tells number T)
    (new : call.operation = number →
      Call.Tells { call with guard := guard, stage := stage } (T (t.addrOf call) call.q)) :
    (u.putCall k call stage guard).Tells number T := by
  have same (c : Call) : (u.putCall k call stage guard).addrOf c = t.addrOf c :=
    addrOf_congr names rfl
  intro j d there mine
  simp only [putCall, calls] at there
  rw [Assoc.get?_put] at there
  split at there
  · obtain rfl := Option.some.inj there
    have told := new mine
    rwa [← same call] at told
  · rw [same d]
    exact tells j d there mine

/-- What calls tell comes from the nodes that served them. `T` may become weaker as time goes on. -/
theorem move_tells {t u : Traffic} {number : Nat} {T T' : String → (q : Ask) → q.Answer → Prop}
    (weaker : ∀ addr q a, T addr q a → T' addr q a)
    (serves : ∀ now call a, call.operation = number → call.q.Carried t.nodeLimits →
      rules.serves number call.q → ∀ answer : Ask.Exchange call.q.Answer,
      call.q.readAnswer (t.addrOf call) t.bodyMax false
        (call.q.served t.nodeLimits now (t.store (t.addrOf call))).1 = some answer →
      answer.result = .ok a →
      (u.store (t.addrOf call) = (call.q.served t.nodeLimits now (t.store (t.addrOf call))).2) →
      T' (t.addrOf call) call.q a)
    (sound : t.Sound) (move : Move rules t u) (tells : t.Tells number T) : u.Tells number T' := by
  have weak : t.Tells number T' := by
    refine tells.imp ?_
    intro _ call _ told mine
    have before := told mine
    unfold Call.Tells at before ⊢
    split <;> rename_i same <;> simp only [same] at before
    · exact fun a ok => weaker _ _ _ (before a ok)
    · exact fun a ok => weaker _ _ _ (before a ok)
    · trivial
  cases move with
  | idle => exact weak
  | begin => exact tells_place weak
  | beginBucket => exact tells_place weak
  | refuse why known waiting => exact Assoc.All.put weak fun _ a ok => by cases ok
  | connect since known waiting pipe =>
    exact tells_putCall (names_set pipe) rfl weak fun _ => trivial
  | @serve k since call unread now known running allowed =>
    obtain ⟨-, -, carried, clear⟩ := sound.calls k call known
    obtain rfl : unread = [] := by
      simp only [Call.IsClear, running] at clear
      exact clear
    obtain ⟨reply, stored⟩ := t.session_toWire now (t.addrOf call) carried
    refine tells_putCall (t := t) rfl rfl weak fun mine => ?_
    simp only [Call.Tells, List.nil_append, reply]
    split
    · rename_i later answer same
      intro a ok
      refine serves now call a mine carried (mine ▸ allowed) answer
        (Call.Stage.served.inj same).2 ok ?_
      simp only [store, putCall, Assoc.get?_put_self, Option.getD_some, stored]
    · trivial
    · trivial
  | @finish k since call answer outcome pipes known served kept =>
    have names : ({ t with pipes := pipes } : Traffic).names = t.names := by
      obtain rfl | ⟨-, addr, ready, pipe, rfl⟩ := kept
      · rfl
      · exact names_set pipe
    refine tells_putCall names rfl weak fun mine => ?_
    have told := weak k call known mine
    simp only [Call.Tells, served] at told
    exact told
  | fail why outcome known underway => exact Assoc.All.put weak fun _ a ok => by cases ok
  | @deliver k call result outcome calls liveBackups known ended calls_eq live =>
    have before : ({ t with calls := calls } : Traffic).Tells number T' :=
      Assoc.All.replace weak calls_eq fun _ => trivial
    unfold hand
    split
    · exact before
    · exact tells_place before
  | record known delivered => exact Assoc.All.erase weak
  | expire known => exact weak
  | forget other => exact weak
  | arrive now addr allowed => exact weak

end Traffic

end QuorumKv.Cluster
