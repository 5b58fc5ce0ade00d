import Mathlib.Data.Finset.Card
import QuorumKv.Proofs.Cluster.History
import QuorumKv.Proofs.Config
import QuorumKv.Proofs.Quorum.Unanswered

/-! An operation whose calls all fail. It makes no more calls than its bucket has nodes, and with
the last of them it returns: an error, except that a multi-get returns that nothing was found. -/
namespace QuorumKv

/-- Whether a question is about one bucket: about its key, or about some keys of its. -/
def Ask.IsAbout (router : Router) (bucket : Nat) : Ask → Prop
  | .get key | .getMeta key | .set key _ | .delete key => router.bucketOf key = bucket
  | .getMulti keys => keys ≠ [] ∧ ∀ key ∈ keys, router.bucketOf key = bucket

/-- Whether a node may be asked one question on behalf of another: the same, or for some keys. -/
def Ask.IsPart : Ask → Ask → Prop
  | .getMulti _, .getMulti _ => True
  | p, q => p = q

/-- What nobody's answer comes to. A multi-get finds nothing; every other question fails. -/
def Ask.IsFruitless : (q : Ask) → q.Outcome → Prop
  | .getMulti _, result => result = .ok []
  | .get _, result | .getMeta _, result | .set _ _, result | .delete _, result =>
    ∃ why, result = .error why

namespace Cluster

open Quorum (Spares)

variable {number bucket opened left : Nat} {nodes : List String} {q p : Ask}

/-- Whether a call has ended well. -/
def Call.isSuccess (call : Call) : Bool :=
  match call.stage with
  | .ended (.ok _) _ => true
  | _ => false

theorem Call.failed_of_isSuccess {call : Call} {result : call.q.Outcome}
    {outcome : Option Health.Outcome} (ended : call.stage = .ended result outcome)
    (failed : call.isSuccess = false) : ∃ why, result = .error why := by
  cases result with
  | error why => exact ⟨why, rfl⟩
  | ok answer => simp [isSuccess, ended] at failed

namespace Operation.State

variable {state : Operation.State}

/-- An operation that heard of failures only, while so many of its calls are open and so many more
can be made. -/
def Unanswered (bucket : Nat) (nodes : List String) (opened left : Nat) :
    Operation.State → Ask → Prop
  | .read m, .get _ => m.Unanswered nodes opened left
  | .readMeta m, .getMeta _ => m.Unanswered nodes opened left
  | .fetch m, .getMulti _ => m.Unanswered bucket nodes opened left
  | .write m, .set _ _ | .write m, .delete _ => m.Unanswered nodes opened left
  | _, _ => False

theorem part_question (about : Nat) (unanswered : state.Unanswered bucket nodes opened left q) :
    (state.question about q).IsPart q := by
  cases state with
  | fetch m =>
    cases q with
    | getMulti keys =>
      simp only [Operation.State.question]
      cases m.group? about with
      | none => trivial
      | some g => trivial
    | _ => exact unanswered.elim
  | _ => cases q <;> first | rfl | exact unanswered.elim

theorem unanswered_absorb (liveBackups : List String) (addr : String) (why : Failure)
    (part : p.IsPart q) (unanswered : state.Unanswered bucket nodes opened left q) :
    let r := state.absorb liveBackups addr bucket p (.error why)
    r.state.Unanswered bucket nodes (opened - 1 + r.calls.length) (left - r.calls.length) q ∧
      Spares nodes left r.calls := by
  cases q with
  | getMulti keys =>
    cases p with
    | getMulti some_keys =>
      cases state with
      | fetch m =>
        obtain ⟨g, grouped, -, waits, put⟩ := Quorum.Fetch.Unanswered.group unanswered
        have kept := Quorum.Fetch.Group.unanswered_absorb why waits
        simp only [absorb, grouped]
        exact ⟨put _ _ _ (Quorum.Fetch.Group.within_absorb g _).2 kept.1, kept.2⟩
      | _ => exact unanswered.elim
    | _ => cases part
  | get key =>
    cases p <;> cases part
    cases state with
    | read m => exact Quorum.Read.unanswered_absorb liveBackups why unanswered
    | _ => exact unanswered.elim
  | getMeta key =>
    cases p <;> cases part
    cases state with
    | readMeta m => exact Quorum.Read.unanswered_absorb liveBackups why unanswered
    | _ => exact unanswered.elim
  | set key item =>
    cases p <;> cases part
    cases state with
    | write m => exact Quorum.Write.unanswered_absorb addr why unanswered
    | _ => exact unanswered.elim
  | delete key =>
    cases p <;> cases part
    cases state with
    | write m => exact Quorum.Write.unanswered_absorb addr why unanswered
    | _ => exact unanswered.elim

/-- A fetch from one bucket has no group for another. -/
theorem Unanswered.about {m : Quorum.Fetch} {g : Quorum.Fetch.Group} {about : Nat}
    (unanswered : (fetch m).Unanswered bucket nodes opened left q)
    (grouped : m.group? about = some g) : about = bucket := by
  cases q with
  | getMulti keys =>
    obtain ⟨only, -, others, -⟩ := Quorum.Fetch.Unanswered.group unanswered
    by_contra other
    rw [others about other] at grouped
    cases grouped
  | _ => exact unanswered.elim

theorem unanswered_begin {m : Quorum.Fetch} {g : Quorum.Fetch.Group} {ranked : List String}
    (spares : Spares nodes nodes.length ranked) (grouped : m.group? bucket = some g)
    (unanswered : (fetch m).Unanswered bucket nodes opened left q) :
    (fetch (m.putGroup (g.begin ranked).1)).Unanswered bucket nodes
        (opened + (g.begin ranked).2.length) (left - (g.begin ranked).2.length) q ∧
      Spares nodes left (g.begin ranked).2 := by
  cases q with
  | getMulti keys =>
    obtain ⟨only, found, -, waits, put⟩ := Quorum.Fetch.Unanswered.group unanswered
    obtain rfl := Option.some.inj (found.symm.trans grouped)
    obtain ⟨begun, calls⟩ := Quorum.Fetch.Group.unanswered_begin spares waits
    exact ⟨put _ _ _ (Quorum.Fetch.Group.within_begin only ranked).2 begun, calls⟩
  | _ => exact unanswered.elim

theorem unanswered_expire (unanswered : state.Unanswered bucket nodes opened left q) :
    state.expire.Unanswered bucket nodes opened left q := by
  cases state with
  | read m => cases q <;> first | exact m.unanswered_expire unanswered | exact unanswered.elim
  | readMeta m => cases q <;> first | exact m.unanswered_expire unanswered | exact unanswered.elim
  | write m => cases q <;> first | exact m.unanswered_expire unanswered | exact unanswered.elim
  | fetch m => exact unanswered

/-- It returned nothing of use, or waits for a call, or has not begun with its bucket. -/
theorem Unanswered.result (unanswered : state.Unanswered bucket nodes opened left q) :
    (state.result? q = none → 0 < opened ∨ ∃ m, state = .fetch m ∧ m.waiting? ≠ none) ∧
      ∀ result, state.result? q = some result → q.IsFruitless result := by
  cases q with
  | get key =>
    cases state with
    | read m =>
      obtain ⟨waits, fails⟩ := Quorum.Read.Unanswered.result unanswered
      refine ⟨fun open_ => .inl (waits (Option.map_eq_none_iff.mp open_)), ?_⟩
      intro result ended
      obtain ⟨r, known, rfl⟩ := Option.map_eq_some_iff.mp ended
      obtain ⟨why, rfl⟩ := fails r known
      exact ⟨why, rfl⟩
    | _ => exact unanswered.elim
  | getMeta key =>
    cases state with
    | readMeta m =>
      obtain ⟨waits, fails⟩ := Quorum.Read.Unanswered.result unanswered
      exact ⟨fun open_ => .inl (waits open_), fails⟩
    | _ => exact unanswered.elim
  | getMulti keys =>
    cases state with
    | fetch m =>
      obtain ⟨waits, finds⟩ := Quorum.Fetch.Unanswered.result unanswered
      constructor
      · intro open_
        obtain some_call | waiting := waits (Option.map_eq_none_iff.mp open_)
        · exact .inl some_call
        · exact .inr ⟨m, rfl, by simp [waiting]⟩
      · intro result ended
        obtain ⟨r, known, rfl⟩ := Option.map_eq_some_iff.mp ended
        exact congrArg Except.ok (finds r known)
    | _ => exact unanswered.elim
  | set key item =>
    cases state with
    | write m =>
      obtain ⟨waits, fails⟩ := Quorum.Write.Unanswered.failed unanswered
      refine ⟨fun open_ => .inl (waits (Option.map_eq_none_iff.mp open_)), ?_⟩
      intro result ended
      obtain ⟨r, known, rfl⟩ := Option.map_eq_some_iff.mp ended
      obtain ⟨why, rfl⟩ := fails r known
      exact ⟨why, rfl⟩
    | _ => exact unanswered.elim
  | delete key =>
    cases state with
    | write m =>
      obtain ⟨waits, fails⟩ := Quorum.Write.Unanswered.failed unanswered
      exact ⟨fun open_ => .inl (waits open_), fails⟩
    | _ => exact unanswered.elim

end Operation.State

namespace Traffic

variable {t u : Traffic} {rules : Rules}

/-- The calls of an operation go to nodes of its bucket and ask what it wants to know, and so many of
them are open. -/
structure Asks (t : Traffic) (number bucket : Nat) (nodes : List String) (q : Ask) (opened : Nat) :
    Prop where
  calls : t.calls.All fun _ call => call.operation = number →
    call.bucket = bucket ∧ call.q.IsPart q ∧ ∃ addr ∈ nodes, t.names[call.member]? = some addr
  opens : ∃ numbers : Finset Nat, numbers.card = opened ∧ ∀ k, k ∈ numbers ↔ t.Opens number k

theorem asks_of_none (none_yet : t.calls.All fun _ call => call.operation ≠ number) :
    t.Asks number bucket nodes q 0 := by
  constructor
  · exact none_yet.imp fun _ _ _ other mine => absurd mine other
  · refine ⟨∅, rfl, fun k => iff_of_false (Finset.notMem_empty k) ?_⟩
    rintro ⟨call, known, mine, -⟩
    exact none_yet k call known mine

theorem asks_kept (kept : Kept number t u) (still : ∀ k, t.Opens number k → u.Opens number k)
    (asks : t.Asks number bucket nodes q opened) : u.Asks number bucket nodes q opened := by
  obtain ⟨calls, numbers, count, listed⟩ := asks
  constructor
  · intro k d known mine
    obtain ⟨c, there, own, member, about, question, -⟩ := kept.calls k d known mine
    rw [member, about, question, kept.names]
    exact calls k c there own
  · exact ⟨numbers, count, fun k => (listed k).trans ⟨still k, kept.opens⟩⟩

/-- An operation that calls nodes opens one call for each. -/
theorem opens_new {op : Operation} {addrs : List String}
    (below : t.calls.All fun k _ => k < t.next)
    (numbered : ∀ addr ∈ addrs, ∃ i, op.topology.numbers.get? addr = some i) :
    ∃ new : Finset Nat, new.card = addrs.length ∧ (∀ k ∈ new, t.next ≤ k) ∧
      ∀ k, (addrs.foldl (spawn number bucket op) t).Opens number k ↔
        t.Opens number k ∨ k ∈ new := by
  induction addrs generalizing t with
  | nil => exact ⟨∅, rfl, by simp, by simp⟩
  | cons addr rest ih =>
    obtain ⟨member, known⟩ := numbered addr List.mem_cons_self
    let spawned : Traffic :=
      { t with calls := t.calls.put t.next (newCall number bucket op member), next := t.next + 1 }
    have step : t.spawn number bucket op addr = spawned := by rw [spawn_eq, known]
    have below_spawned : spawned.calls.All fun k _ => k < spawned.next :=
      Assoc.All.put (below.imp fun _ _ _ => Nat.lt_succ_of_lt) (Nat.lt_succ_self _)
    have one : ∀ k, spawned.Opens number k ↔ t.Opens number k ∨ k = t.next := by
      intro k
      by_cases here : k = t.next
      · subst here
        refine iff_of_true ⟨_, Assoc.get?_put_self .., rfl, nofun⟩ (.inr rfl)
      · have same : spawned.calls.get? k = t.calls.get? k :=
          Assoc.get?_put_ne _ _ (Ne.symm here)
        simp only [Opens, same, here, or_false]
    obtain ⟨new, count, later, opens⟩ := ih below_spawned
      fun a listed => numbered a (.tail _ listed)
    have fresh : t.next ∉ new := fun listed => Nat.lt_irrefl _ (later _ listed)
    refine ⟨insert t.next new, ?_, ?_, ?_⟩
    · rw [Finset.card_insert_of_notMem fresh, count, List.length_cons]
    · intro k listed
      obtain rfl | other := Finset.mem_insert.mp listed
      · exact Nat.le_refl _
      · exact Nat.le_of_succ_le (later k other)
    · intro k
      rw [List.foldl_cons, step, opens k, one k, Finset.mem_insert, or_assoc]

/-- What an operation learns is the result of an open call, which is open no more. -/
theorem opens_deliver {k : Nat} {call : Call} {result : call.q.Outcome}
    {outcome : Option Health.Outcome} {calls : Assoc Nat Call}
    (there : t.calls.get? k = some call) (ended : call.stage = .ended result outcome)
    (calls_eq : calls = t.calls.erase k ∨
      calls = t.calls.put k { call with stage := .delivered outcome }) (j : Nat) :
    ({ t with calls := calls } : Traffic).Opens number j ↔ t.Opens number j ∧ j ≠ k := by
  constructor
  · intro opens
    refine ⟨(kept_deliver there ended calls_eq).opens opens, ?_⟩
    rintro rfl
    obtain ⟨d, known, -, open_⟩ := opens
    obtain rfl | rfl := calls_eq
    · simp only [Assoc.get?_erase, if_true, reduceCtorEq] at known
    · simp only [Assoc.get?_put_self, Option.some.injEq] at known
      subst known
      exact open_ outcome rfl
  · rintro ⟨opens, other⟩
    exact opens_of_ne _ calls_eq other opens

theorem asks_deliver {k : Nat} {call : Call} {result : call.q.Outcome}
    {outcome : Option Health.Outcome} {calls : Assoc Nat Call}
    (there : t.calls.get? k = some call) (mine : call.operation = number)
    (ended : call.stage = .ended result outcome)
    (calls_eq : calls = t.calls.erase k ∨
      calls = t.calls.put k { call with stage := .delivered outcome })
    (asks : t.Asks number bucket nodes q opened) :
    ({ t with calls := calls } : Traffic).Asks number bucket nodes q (opened - 1) := by
  obtain ⟨facts, numbers, count, listed⟩ := asks
  constructor
  · exact facts.replace calls_eq (facts k call there)
  · have open_ : k ∈ numbers :=
      (listed k).mpr ⟨call, there, mine, Call.isOpen_of_stage ended (by simp)⟩
    refine ⟨numbers.erase k, ?_, fun j => ?_⟩
    · rw [Finset.card_erase_of_mem open_, count]
    · rw [opens_deliver there ended calls_eq, Finset.mem_erase, listed j, and_comm]

/-- An operation that goes on asks all the nodes that it now calls. -/
theorem asks_place {op : Operation} {calls : List String}
    (below : t.calls.All fun k _ => k < t.next) (served : op.topology.Serves t.names)
    (inside : calls ⊆ (op.topology.router.resolve bucket).all)
    (part : (op.state.question bucket op.q).IsPart op.q)
    (asks : t.Asks number bucket (op.topology.router.resolve bucket).all op.q opened) :
    ∃ new : Finset Nat, new.card = calls.length ∧
      (∀ k, (t.place number bucket op calls).Opens number k ↔ t.Opens number k ∨ k ∈ new) ∧
      (t.place number bucket op calls).Asks number bucket (op.topology.router.resolve bucket).all
        op.q (opened + calls.length) := by
  obtain ⟨new, count, later, opens⟩ := @opens_new number bucket
    { t with operations := t.operations.put number op } op calls below fun addr called =>
      (served bucket addr (inside called)).imp fun _ known => known.1
  obtain ⟨facts, numbers, same, listed⟩ := asks
  refine ⟨new, count, opens, ?calls, ?opens⟩
  case calls =>
    refine (place_keeps (P := fun u => u.names = t.names ∧ u.calls.All fun _ call =>
      call.operation = number → call.bucket = bucket ∧ call.q.IsPart op.q ∧
        ∃ addr ∈ (op.topology.router.resolve bucket).all, u.names[call.member]? = some addr)
      ?_ ⟨rfl, facts⟩).2
    rintro u addr member called numbered ⟨still, before⟩
    refine ⟨still, before.put fun _ => ⟨rfl, part, addr, inside called, ?_⟩⟩
    obtain ⟨i, known, name⟩ := served bucket addr (inside called)
    obtain rfl := Option.some.inj (known.symm.trans numbered)
    exact still ▸ name
  case opens =>
    have apart : Disjoint numbers new := by
      rw [Finset.disjoint_left]
      intro k old fresh
      obtain ⟨call, there, -⟩ := (listed k).mp old
      exact Nat.lt_irrefl _ (Nat.lt_of_lt_of_le (below k call there) (later k fresh))
    refine ⟨numbers ∪ new, ?_, fun k => ?_⟩
    · rw [Finset.card_union_of_disjoint apart, same, count]
    · rw [Finset.mem_union, listed k]
      exact (opens k).symm

/-! ## An operation without success -/

/-- Whether no call of an operation to some nodes has succeeded. -/
def IsCutOff (t : Traffic) (number : Nat) (nodes : List String) : Prop :=
  t.calls.All fun _ call => call.operation = number → t.addrOf call ∈ nodes →
    call.isSuccess = false

/-- An operation about a bucket whose calls all failed so far. It has made some calls, no more than
the bucket has nodes. -/
structure Fruitless (t : Traffic) (number bucket : Nat) (q : Ask) (routes : Topology)
    (made : Finset Nat) : Prop where
  begun : number < t.next
  served : routes.Serves t.names
  counted : ∀ k, t.Opens number k → k ∈ made
  few : made.card ≤ (routes.router.resolve bucket).all.length
  states : ∀ op, t.operations.get? number = some op → op.q = q ∧ op.topology = routes ∧
    ∃ opened left, t.Asks number bucket (routes.router.resolve bucket).all q opened ∧
      op.state.Unanswered bucket (routes.router.resolve bucket).all opened left q ∧
      made.card + left ≤ (routes.router.resolve bucket).all.length

variable {routes : Topology} {made : Finset Nat}

/-- An operation goes on and makes some of the calls that it can still make. -/
theorem fruitless_place {op : Operation} {calls : List String}
    (below : t.calls.All fun k _ => k < t.next) (begun : number < t.next)
    (served : op.topology.Serves t.names) (counted : ∀ k, t.Opens number k → k ∈ made)
    (room : made.card + left ≤ (op.topology.router.resolve bucket).all.length)
    (asks : t.Asks number bucket (op.topology.router.resolve bucket).all op.q opened)
    (spares : Spares (op.topology.router.resolve bucket).all left calls)
    (unanswered : op.state.Unanswered bucket (op.topology.router.resolve bucket).all
      (opened + calls.length) (left - calls.length) op.q) :
    ∃ more, made ⊆ more ∧
      (t.place number bucket op calls).Fruitless number bucket op.q op.topology more := by
  obtain ⟨new, count, opens, asks_now⟩ := asks_place below served spares.inside
    (Operation.State.part_question bucket unanswered) asks
  obtain ⟨operations, -, -, -, -, -, next⟩ := place_fixed t number bucket op calls
  have room_now := spares.room
  have counts : (made ∪ new).card ≤ made.card + calls.length :=
    count ▸ Finset.card_union_le made new
  refine ⟨made ∪ new, Finset.subset_union_left, ?_⟩
  constructor
  · exact Nat.lt_of_lt_of_le begun next
  · rw [names_place]
    exact served
  · intro k open_
    obtain before | called := (opens k).mp open_
    · exact Finset.mem_union_left new (counted k before)
    · exact Finset.mem_union_right made called
  · omega
  · intro other known
    rw [operations, Assoc.get?_put_self] at known
    obtain rfl := Option.some.inj known
    exact ⟨rfl, rfl, opened + calls.length, left - calls.length, asks_now, unanswered, by omega⟩

/-- Nodes that were ranked or found live are nodes of the bucket. -/
theorem spares_ranking {ranked : List String} {replicas : Route.Replicas}
    (ranking : Ranking ranked replicas.mains) :
    Spares replicas.all replicas.all.length ranked := by
  obtain ⟨chosen, sub, perm⟩ := ranking
  have all : chosen.Sublist replicas.all := sub.trans (List.sublist_append_left ..)
  constructor
  · exact List.Subset.trans perm.subset all.subset
  · exact perm.length_eq ▸ all.length_le

theorem move_fruitless (quiet : t.IsCutOff number (routes.router.resolve bucket).all)
    (numbered : t.Numbered) (move : Move rules t u)
    (fruitless : t.Fruitless number bucket q routes made) :
    ∃ more, made ⊆ more ∧ u.Fruitless number bucket q routes more := by
  have below : t.calls.All fun k _ => k < t.next := numbered.calls.imp fun _ _ _ known => known.1
  obtain ⟨begun, served, counted, few, states⟩ := fruitless
  cases move_at number move with
  | aside kept operation open_ =>
    refine ⟨made, Finset.Subset.refl _, ?_⟩
    constructor
    · exact Nat.lt_of_lt_of_le begun (move_fixed move).2.2.2
    · rw [kept.names]
      exact served
    · exact fun k opens => counted k (kept.opens opens)
    · exact few
    · intro op known
      have there : u.operations.get? number ≠ none := by simp [known]
      obtain same | gone := operation
      · obtain ⟨asked, routed, opened, left, asks, rest⟩ := states op (same ▸ known)
        exact ⟨asked, routed, opened, left, asks_kept kept (open_ below there) asks, rest⟩
      · exact absurd gone there
  | begin deadline numbered => exact absurd begun (numbered ▸ Nat.lt_irrefl _)
  | @beginBucket op m about g ranked known fetching after grouped ranking =>
    obtain ⟨rfl, rfl, opened, left, asks, unanswered, room⟩ := states op known
    subst after
    rw [fetching] at unanswered
    obtain rfl := Operation.State.Unanswered.about unanswered grouped
    obtain ⟨begun_with, spares⟩ :=
      Operation.State.unanswered_begin (spares_ranking ranking) grouped unanswered
    exact fruitless_place below begun served counted room asks spares begun_with
  | @deliver op k call result outcome calls liveBackups known there mine ended calls_eq live after =>
    obtain ⟨rfl, rfl, opened, left, asks, unanswered, room⟩ := states op known
    subst after
    obtain ⟨rfl, part, addr, node, name⟩ := asks.calls k call there mine
    have here : t.addrOf call = addr := by rw [addrOf_eq, name, Option.getD_some]
    obtain ⟨why, rfl⟩ : ∃ why, result = .error why :=
      Call.failed_of_isSuccess ended (quiet k call there mine (here ▸ node))
    obtain ⟨unanswered, spares⟩ :=
      Operation.State.unanswered_absorb liveBackups (t.addrOf call) why part unanswered
    have kept : Kept number t { t with calls := calls } := kept_deliver there ended calls_eq
    have below_still : calls.All fun k _ => k < t.next :=
      below.replace calls_eq (below k call there)
    exact fruitless_place (t := { t with calls := calls }) below_still begun served
      (fun j opens => counted j (kept.opens opens)) room
      (asks_deliver there mine ended calls_eq asks) spares unanswered
  | @expire op known after =>
    obtain ⟨rfl, rfl, opened, left, asks, unanswered, room⟩ := states op known
    subst after
    refine ⟨made, Finset.Subset.refl _, begun, served, counted, few, ?_⟩
    intro other same
    rw [Assoc.get?_put_self] at same
    obtain rfl := Option.some.inj same
    refine ⟨rfl, rfl, opened, left, ?_, Operation.State.unanswered_expire unanswered, room⟩
    exact asks_kept (.of_calls (t := t) rfl rfl) (fun _ => id) asks

/-- New routes are none of an operation that is under way. -/
theorem fruitless_reroute (names : t.names <+: u.names) (operations : u.operations = t.operations)
    (calls : u.calls = t.calls) (next : u.next = t.next)
    (fruitless : t.Fruitless number bucket q routes made) :
    u.Fruitless number bucket q routes made := by
  obtain ⟨begun, served, counted, few, states⟩ := fruitless
  have opens (k : Nat) : u.Opens number k ↔ t.Opens number k := by rw [Opens, Opens, calls]
  constructor
  · exact next ▸ begun
  · exact served.mono names
  · exact fun k open_ => counted k ((opens k).mp open_)
  · exact few
  · intro op known
    obtain ⟨asked, routed, opened, left, ⟨facts, numbers, count, listed⟩, rest⟩ :=
      states op (operations ▸ known)
    refine ⟨asked, routed, opened, left, ⟨?_, numbers, count, ?_⟩, rest⟩
    · rw [calls]
      refine facts.imp fun k call _ known mine => ?_
      obtain ⟨about, part, addr, node, there⟩ := known mine
      exact ⟨about, part, addr, node, getElem?_of_joined names there⟩
    · exact fun k => (listed k).trans (opens k).symm

/-- An operation begins with nothing heard and all nodes of its bucket to call. -/
theorem unanswered_opening {state : Operation.State} {addrs : List String}
    (r : 0 < t.replication.r) (w : 0 < t.replication.w)
    (about : q.IsAbout t.topology.router bucket)
    (opening : Opening t (bucketOf t.topology q) q state addrs) :
    let nodes := (t.topology.router.resolve bucket).all
    state.Unanswered bucket nodes (0 + addrs.length) (nodes.length - addrs.length) q ∧
      Spares nodes nodes.length addrs := by
  intro nodes
  rw [Nat.zero_add]
  have live {mains backups : List String}
      (main : mains.Sublist (t.topology.router.resolve bucket).mains)
      (backup : backups.Sublist (t.topology.router.resolve bucket).backups) :
      Spares nodes nodes.length (mains ++ backups) :=
    ⟨(main.append backup).subset, (main.append backup).length_le⟩
  cases opening with
  | get key ranking =>
    obtain rfl : t.topology.router.bucketOf key = bucket := about
    exact Quorum.Read.unanswered_start r (spares_ranking ranking)
  | getMeta key ranking =>
    obtain rfl : t.topology.router.bucketOf key = bucket := about
    exact Quorum.Read.unanswered_start r (spares_ranking ranking)
  | getMulti keys => exact ⟨Quorum.Fetch.unanswered_start about.1 about.2, .nil⟩
  | set key item main backup =>
    obtain rfl : t.topology.router.bucketOf key = bucket := about
    exact Quorum.Write.unanswered_start key w (live main backup)
  | delete key main backup =>
    obtain rfl : t.topology.router.bucketOf key = bucket := about
    exact Quorum.Write.unanswered_start key w (live main backup)

end Traffic

/-- Whether no call of an operation to some nodes has succeeded. -/
def IsCutOff (c : Cluster) (number : Nat) (nodes : List String) : Prop :=
  ∀ entry ∈ c.calls, entry.2.operation = number → c.addrOf entry.2 ∈ nodes →
    entry.2.isSuccess = false

instance (c : Cluster) (number : Nat) (nodes : List String) : Decidable (c.IsCutOff number nodes) :=
  inferInstanceAs (Decidable (∀ entry ∈ c.calls, _))

/-- Whether an operation waits: for a call, or to begin with a bucket. -/
def Waits (c : Cluster) (number : Nat) : Prop :=
  (∃ k, c.traffic.Opens number k) ∨
    ∃ op m, c.operations.get? number = some op ∧ op.state = .fetch m ∧ m.waiting? ≠ none

variable {c : Cluster} {routes : Topology} {made : Finset Nat} {replication : Config.Replication}

theorem traffic_isCutOff (cutOff : c.IsCutOff number nodes) :
    c.traffic.IsCutOff number nodes := by
  intro k call known mine node
  rw [addrOf_traffic] at node
  exact cutOff (k, call) (Assoc.mem_of_get? known) mine node

theorem fruitless_begin (orderly : c.traffic.Orderly replication) (r : 0 < replication.r)
    (w : 0 < replication.w) (about : q.IsAbout c.topology.router bucket) :
    ∃ made, (c.begin q).traffic.Fruitless c.next bucket q c.topology made := by
  -- the cluster just before the operation makes its calls
  let t : Traffic := { c.traffic with next := c.traffic.next + 1 }
  let op : Operation :=
    ⟨q, c.topology, c.now + c.timeout q, (c.opening (bucketOf c.topology q) q).1⟩
  let calls := (c.opening (bucketOf c.topology q) q).2
  have placed : (c.begin q).traffic = t.place c.next (bucketOf c.topology q) op calls :=
    traffic_place ..
  -- only a multi-get has no bucket of its own in the beginning, and it makes no calls then
  have about_calls : bucketOf c.topology q = bucket ∨ calls = [] := by
    cases q with
    | getMulti keys => exact .inr rfl
    | _ => exact .inl about
  have same : t.place c.next (bucketOf c.topology q) op calls = t.place c.next bucket op calls := by
    obtain here | none_yet := about_calls
    · rw [here]
    · rw [none_yet]
      rfl
  have new : t.calls.All fun _ call => call.operation ≠ c.next :=
    orderly.numbered.calls.imp fun _ _ _ known => Nat.ne_of_lt known.2
  have below : t.calls.All fun k _ => k < t.next :=
    orderly.numbered.calls.imp fun _ _ _ known => Nat.lt_succ_of_lt known.1
  have silent : ∀ k, t.Opens c.next k → k ∈ (∅ : Finset Nat) := by
    rintro k ⟨call, known, mine, -⟩
    exact absurd mine (new k call known)
  have replicates : c.traffic.replication = replication := orderly.replicates
  have both := Traffic.unanswered_opening (t := c.traffic) (replicates ▸ r) (replicates ▸ w) about
    (opening_opens c (bucketOf c.topology q) q)
  have unanswered := both.1
  have spares := both.2
  have some_more : ∃ more, (∅ : Finset Nat) ⊆ more ∧
      (t.place c.next bucket op calls).Fruitless c.next bucket op.q op.topology more :=
    Traffic.fruitless_place below (Nat.lt_succ_self _) orderly.serves silent
      (Nat.le_of_eq (Nat.zero_add _)) (Traffic.asks_of_none new) spares unanswered
  obtain ⟨made, -, fruitless⟩ := some_more
  rw [placed, same]
  exact ⟨made, fruitless⟩

theorem fruitless_happen (e : Event) (orderly : c.traffic.Orderly replication)
    (cutOff : c.IsCutOff number (routes.router.resolve bucket).all)
    (fruitless : c.traffic.Fruitless number bucket q routes made) :
    ∃ more, made ⊆ more ∧ (c.happen e).traffic.Fruitless number bucket q routes more := by
  obtain ⟨plan, rfl⟩ | move := happen_cases c e
  · refine ⟨made, Finset.Subset.refl _, ?_⟩
    simp only [happen, step]
    split
    · rename_i d reloaded
      obtain ⟨operations, calls, next, -, joined, -⟩ :=
        reload_eq (leadsBack_of_orderly orderly) reloaded
      refine Traffic.fruitless_reroute (t := c.traffic) (u := d.traffic) ?_ operations calls next fruitless
      rw [names_traffic, names_traffic]
      exact joined.map _
    · exact fruitless
  · exact Traffic.move_fruitless (traffic_isCutOff cutOff) orderly.numbered move fruitless

/-- All calls that such an operation ever makes are among as many as its bucket has nodes. -/
theorem fruitless_after (later : List Event) (orderly : c.traffic.Orderly replication)
    (cutOff : ∀ part, part <+: later →
      (c.after part).IsCutOff number (routes.router.resolve bucket).all)
    (fruitless : c.traffic.Fruitless number bucket q routes made) :
    ∃ more, made ⊆ more ∧ (c.after later).traffic.Fruitless number bucket q routes more ∧
      ∀ part, part <+: later → ∀ k, (c.after part).traffic.Opens number k → k ∈ more := by
  induction later generalizing c made with
  | nil =>
    refine ⟨made, Finset.Subset.refl _, fruitless, ?_⟩
    intro part sub k opens
    obtain rfl := List.prefix_nil.mp sub
    exact fruitless.counted k opens
  | cons e rest ih =>
    obtain ⟨some_more, grown, next⟩ :=
      fruitless_happen e orderly (cutOff [] (List.nil_prefix)) fruitless
    obtain ⟨more, more_grown, last, counted⟩ := ih (orderly_happen e orderly)
      (fun part sub => cutOff (e :: part) (List.cons_prefix_cons.mpr ⟨rfl, sub⟩)) next
    refine ⟨more, Finset.Subset.trans grown more_grown, last, ?_⟩
    intro part sub k opens
    cases part with
    | nil => exact more_grown (grown (fruitless.counted k opens))
    | cons first part =>
      obtain ⟨rfl, within⟩ := List.cons_prefix_cons.mp sub
      exact counted part within k opens

/-- A bucket of which no main and no backup answers. Writes, deletes and reads of its keys return an
error, but a multi-get returns that there is nothing, as if the keys were absent. They do return:
none makes more calls than the bucket has nodes, and with no call open nothing is left to wait for. -/
theorem fruitless_of_cutOff {config : Config} (valid : config.check = .ok ())
    {limits nodeLimits : Config.Limits} {plan : Route.Plan} {epoch : Nat} {first : Cluster}
    (built : build config.replication limits plan nodeLimits epoch = .ok first)
    {before later : List Event} (reached : c = first.after before)
    (about : q.IsAbout c.topology.router bucket)
    (cutOff : ∀ part, part <+: later → ((c.begin q).after part).IsCutOff c.next
      (c.topology.router.resolve bucket).all) :
    let d := (c.begin q).after later
    (∀ result, d.result? c.next q = some result → q.IsFruitless result) ∧
      (d.operations.get? c.next ≠ none → d.result? c.next q = none → d.Waits c.next) ∧
      ∃ made : Finset Nat, made.card ≤ (c.topology.router.resolve bucket).all.length ∧
        ∀ part, part <+: later → ∀ k, ((c.begin q).after part).traffic.Opens c.next k →
          k ∈ made := by
  intro d
  obtain ⟨⟨w, -⟩, ⟨r, -⟩⟩ := Config.quorums_of_check valid
  have orderly : c.traffic.Orderly config.replication :=
    reached ▸ orderly_after before (orderly_build built)
  have began : (c.begin q).traffic.Orderly config.replication :=
    orderly_happen (.step (.begin q)) orderly
  obtain ⟨made, beginning⟩ := fruitless_begin orderly r w about
  obtain ⟨more, -, fruitless, counted⟩ := fruitless_after later began cutOff beginning
  have known {op : Operation} (there : d.operations.get? c.next = some op) :
      d.result? c.next q = op.state.result? q := by
    rw [result?, there, Option.bind_some]
  refine ⟨?_, ?_, more, fruitless.few, counted⟩
  · intro result ended
    obtain ⟨op, there, ended⟩ := Option.bind_eq_some_iff.mp ended
    obtain ⟨-, -, opened, left, -, unanswered, -⟩ := fruitless.states op there
    exact unanswered.result.2 result ended
  · intro some_op open_
    obtain ⟨op, there⟩ := Option.ne_none_iff_exists'.mp some_op
    obtain ⟨-, -, opened, left, asks, unanswered, -⟩ := fruitless.states op there
    obtain some_call | ⟨m, fetching, waiting⟩ := unanswered.result.1 (known there ▸ open_)
    · obtain ⟨numbers, count, listed⟩ := asks.opens
      obtain ⟨k, opens⟩ := Finset.card_pos.mp (count.symm ▸ some_call)
      exact .inl ⟨k, (listed k).mp opens⟩
    · exact .inr ⟨op, m, there, fetching, waiting⟩

/-- Each call that is made fails. -/
def allFail : List Event :=
  (.beginBucket 0 0 :: failSteps 1 ++ failSteps 2).map .step

theorem fruitless_of_cutOff_backed :
    let config : Config := ⟨.default, .default, quorums 1 1 1, Config.defaultSwitch, none⟩
    let c := ofReplicas (quorums 1 1 1) ⟨250, 100⟩ ⟨["a"], ["b"]⟩
    config.check = .ok () ∧
      build config.replication ⟨250, 100⟩ ⟨1, [⟨"a", ["0"]⟩], ["b"]⟩ ⟨250, 100⟩ 0 = .ok c ∧
      ∀ q ∈ [Ask.get "k", .getMeta "k", .getMulti ["k"], .set "k" fifth, .delete "k"],
        q.IsAbout c.topology.router 0 ∧
        (∀ part, part <+: allFail → ((c.begin q).after part).IsCutOff 0 ["a", "b"]) ∧
        ∃ result, ((c.begin q).after allFail).result? 0 q = some result ∧
          q.IsFruitless result := by
  intro config c
  have valid : config.check = .ok () := by decide +kernel
  have built := build_backed 1 1 1 ⟨250, 100⟩
  refine ⟨valid, built, ?_⟩
  have silent : ∀ q ∈ [Ask.get "k", .getMeta "k", .getMulti ["k"], .set "k" fifth, .delete "k"],
      (∀ part ∈ allFail.inits, ((c.begin q).after part).IsCutOff 0 ["a", "b"]) ∧
        (((c.begin q).after allFail).result? 0 q).isSome = true := by decide +kernel
  have bucket : c.topology.router.bucketOf "k" = 0 := Nat.mod_one _
  intro q listed
  obtain ⟨failing, returned⟩ := silent q listed
  obtain ⟨result, ended⟩ := Option.isSome_iff_exists.mp returned
  have cutOff : ∀ part, part <+: allFail → ((c.begin q).after part).IsCutOff 0 ["a", "b"] :=
    fun part sub => failing part ((List.mem_inits part allFail).mpr sub)
  have about : q.IsAbout c.topology.router 0 := by
    simp only [List.mem_cons, List.not_mem_nil, or_false] at listed
    obtain rfl | rfl | rfl | rfl | rfl := listed
    · exact bucket
    · exact bucket
    · exact ⟨by simp, fun key known => (List.mem_singleton.mp known).symm ▸ bucket⟩
    · exact bucket
    · exact bucket
  have reached : c = c.after [] := rfl
  have fails := fruitless_of_cutOff valid built reached about cutOff
  exact ⟨about, cutOff, result, ended, fails.1 result ended⟩

end Cluster

end QuorumKv
