import QuorumKv.Proofs.Cluster.Agreement
import QuorumKv.Proofs.Quorum.Search

/-! Fetches while some mains fail and the others answer from what they hold. Each bucket goes through
its mains in the order in which they are ranked when the fetch begins with it, and the buckets go on
and end in any order. -/
namespace QuorumKv.Cluster

open Operation (State)
open Quorum.Fetch (firstOf told isLive)

/-- How the mains behave towards a fetch: in which order they are ranked when it begins with their
bucket, and which of them fail when they are asked about it. -/
structure Behaviour where
  order : Nat → List String
  fails : Nat → String → Bool

/-- Whether a call that has ended did so as its node behaves: it failed, or brought what the node
shows of some keys. -/
def Call.Stage.Follows {q : Ask} (keys : List String) (show_ : String → Option Item)
    (fails : Bool) : Call.Stage q → Prop
  | .ended (.ok answer) _ => fails = false ∧ q.IsShown keys show_ answer
  | .ended (.error _) _ => fails = true
  | .waiting | .running _ _ | .served _ _ | .delivered _ => True

instance {q : Ask} (keys : List String) (show_ : String → Option Item) (fails : Bool) :
    (stage : Call.Stage q) → Decidable (stage.Follows keys show_ fails)
  | .ended (.ok answer) _ => inferInstanceAs (Decidable (fails = false ∧ q.IsShown keys show_ answer))
  | .ended (.error _) _ => inferInstanceAs (Decidable (fails = true))
  | .waiting | .running _ _ | .served _ _ | .delivered _ => inferInstanceAs (Decidable True)

/-- Whether an operation is a fetch that has yet to begin with a bucket. -/
def Operation.State.isWaiting (bucket : Nat) : State → Bool
  | .fetch m => (m.group? bucket).any fun g => g.stage == .waiting
  | .read _ | .readMeta _ | .write _ => false

/-- The bucket that an operation is told to begin with. -/
def Event.bucket? (number : Nat) : Event → Option Nat
  | .step (.beginBucket n bucket) => if n = number then some bucket else none
  | _ => none

namespace Behaviour

variable {b : Behaviour} {c d : Cluster} {number : Nat} {keys : List String} {key : String}

/-- What a main shows to a fetch about a bucket. One that fails shows nothing. -/
def shows (b : Behaviour) (c : Cluster) (bucket : Nat) (addr key : String) : Option Item :=
  if b.fails bucket addr then none else c.shows addr key

/-- The first record of a key that a fetch comes upon: its bucket's mains are asked in their order,
and those that fail are passed over. -/
def record? (b : Behaviour) (c : Cluster) (key : String) : Option Record :=
  let bucket := c.topology.router.bucketOf key
  ((b.order bucket).filter fun addr => !b.fails bucket addr).findSome? fun addr =>
    (c.store addr).record? key

/-- Whether the mains behave so towards an operation that began in `c` when something happens in
`d`. -/
structure Governs (b : Behaviour) (c d : Cluster) (e : Event) (number : Nat) (keys : List String) :
    Prop where
  ranked : ∀ bucket ∈ e.bucket? number,
    (∃ op ∈ d.operations.get? number, op.state.isWaiting bucket = true) →
      d.rank c.topology (c.topology.router.resolve bucket).mains = b.order bucket
  answers : d.calls.All fun _ call => call.operation = number →
    call.stage.Follows keys (c.shows (d.addrOf call)) (b.fails call.bucket (d.addrOf call))

instance (b : Behaviour) (c d : Cluster) (e : Event) (number : Nat) (keys : List String) :
    Decidable (b.Governs c d e number keys) :=
  decidable_of_iff
    ((∀ bucket ∈ e.bucket? number,
      (∃ op ∈ d.operations.get? number, op.state.isWaiting bucket = true) →
        d.rank c.topology (c.topology.router.resolve bucket).mains = b.order bucket) ∧
      d.calls.All fun _ call => call.operation = number →
        call.stage.Follows keys (c.shows (d.addrOf call)) (b.fails call.bucket (d.addrOf call)))
    ⟨fun ⟨ranked, answers⟩ => ⟨ranked, answers⟩, fun ⟨ranked, answers⟩ => ⟨ranked, answers⟩⟩

/-- What a fetch meets with then. -/
def conditions (b : Behaviour) (c d : Cluster) (number : Nat) (keys : List String) :
    Conditions where
  ranks bucket ranked := ranked ⊆ (c.topology.router.resolve bucket).mains ∧
    ((∃ op ∈ d.operations.get? number, op.state.isWaiting bucket = true) →
      ranked = b.order bucket)
  late _ := True
  tells due result :=
    (∀ answer, result = .ok answer → b.fails due.bucket due.addr = false ∧
      due.q.IsShown keys (c.shows due.addr) answer) ∧
    ∀ why, result = .error why → b.fails due.bucket due.addr = true

theorem Governs.meets {e : Event} (governs : b.Governs c d e number keys) :
    d.MeetsAt e number c.topology (b.conditions c d number keys) := by
  constructor
  · rintro bucket rfl
    refine ⟨?_, governs.ranked bucket (by simp [Event.bucket?])⟩
    exact List.Subset.trans (rank_perm d c.topology _).subset (live_sublist d c.topology _).subset
  · exact fun _ _ _ => trivial
  · intro k call result outcome known mine ended
    have follows := governs.answers k call known mine
    simp only [ended] at follows
    cases result with
    | ok answer =>
      refine ⟨?_, nofun⟩
      rintro _ ⟨⟩
      exact follows
    | error why => exact ⟨nofun, fun _ _ => follows⟩

/-- A fetch under way goes through the mains of each bucket in their order. -/
def Stands (b : Behaviour) (c : Cluster) (keys : List String) (s : State) (dues : List Due) :
    Prop :=
  ∃ m, s = .fetch m ∧ m.Searches (b.shows c) keys c.topology.router.bucketOf b.order
    (fun bucket => (c.topology.router.resolve bucket).mains)
    (dues.map fun due => (due.bucket, due.addr, due.q))

theorem stands_begin (b : Behaviour) (c : Cluster) (keys : List String) :
    b.Stands c keys (.fetch (Quorum.Fetch.start c.topology.router.buckets keys)) [] :=
  ⟨_, rfl, Quorum.Fetch.searches_start ..⟩

theorem stands_nodes {s : State} {dues : List Due} (stands : b.Stands c keys s dues) :
    ∀ due ∈ dues, due.addr ∈ (c.topology.router.resolve due.bucket).all := by
  obtain ⟨m, -, now⟩ := stands
  intro due listed
  obtain ⟨g, -, -, -, -, main⟩ := now.due (List.mem_map_of_mem listed)
  exact List.mem_append_left _ main

/-- A node that does not fail shows what it has. -/
theorem shows_of_answers {bucket : Nat} {addr : String} (answers : b.fails bucket addr = false) :
    b.shows c bucket addr = c.shows addr := by
  funext key
  rw [shows, answers]
  exact if_neg Bool.false_ne_true

/-- The calls that were under way, and those that a bucket makes now. -/
theorem map_append_due (old : List Due) (bucket : Nat) (addrs : List String) (q : Ask) :
    (old ++ addrs.map fun addr => (⟨bucket, addr, q⟩ : Due)).map
        (fun due => (due.bucket, due.addr, due.q)) =
      old.map (fun due => (due.bucket, due.addr, due.q)) ++
        addrs.map fun addr => (bucket, addr, q) := by
  rw [List.map_append, List.map_map]
  rfl

/-- Whatever happens to the fetch, it goes on through the mains in their order. -/
theorem stands_turn {op : Operation} {later : State} {dues some_dues : List Due}
    (known : d.operations.get? number = some op) (stands : b.Stands c keys op.state dues)
    (turn : Turn c.topology.router (.getMulti keys) (b.conditions c d number keys) op.state dues
      later some_dues) : b.Stands c keys later some_dues := by
  obtain ⟨m, fetch, now⟩ := stands
  cases turn with
  | rest => exact ⟨m, fetch, now⟩
  | @beginBucket n g bucket ranked fetching grouped ranks =>
    obtain rfl := State.fetch.inj (fetch.symm.trans fetching)
    obtain ⟨mains, same⟩ := ranks
    have still := (Quorum.Fetch.Group.within_begin g ranked).2.trans
      (Quorum.Fetch.bucket_of_group? grouped)
    -- Only a bucket still waiting takes up the ranking, so only its ranking must be the order.
    have order (waiting : g.stage = .waiting) : ranked = b.order bucket := by
      refine same ⟨op, known, ?_⟩
      simp [State.isWaiting, fetching, grouped, waiting]
    refine ⟨_, rfl, ?_⟩
    rw [calling_putGroup grouped still, map_append_due]
    exact Quorum.Fetch.searches_begin mains grouped order now
  | @hear due rest liveBackups result perm live told =>
    obtain ⟨bucket, addr, q⟩ := due
    have pairs := perm.map fun due => (due.bucket, due.addr, due.q)
    obtain ⟨g, grouped, calls, rfl, asked_for, -⟩ :=
      now.due (pairs.mem_iff.mpr List.mem_cons_self)
    have still := (Quorum.Fetch.Group.within_absorb g result).2.trans
      (Quorum.Fetch.bucket_of_group? grouped)
    rw [fetch]
    simp only [State.absorb, grouped]
    refine ⟨_, rfl, ?_⟩
    rw [calling_putGroup grouped still, map_append_due]
    refine Quorum.Fetch.searches_absorb grouped calls pairs ?_ ?_ now
    · intro values ok
      obtain ⟨answers, shown⟩ := told.1 values ok
      rw [shows_of_answers answers]
      exact shown asked_for
    · intro why failed key
      exact if_pos (told.2 why failed)
  | expire => exact ⟨m, by rw [fetch]; rfl, now⟩

theorem firstOf_answering (b : Behaviour) (c : Cluster) (bucket : Nat) (nodes : List String)
    (key : String) : firstOf (b.shows c bucket) nodes key =
      firstOf c.shows (nodes.filter fun addr => !b.fails bucket addr) key := by
  simp only [firstOf]
  induction nodes with
  | nil => rfl
  | cons addr rest ih =>
    rw [List.findSome?_cons, ih]
    cases fails : b.fails bucket addr with
    | true =>
      have nothing : b.shows c bucket addr key = none := if_pos fails
      rw [nothing, List.filter_cons_of_neg (by simp [fails])]
    | false =>
      rw [shows_of_answers fails, List.filter_cons_of_pos (by simp [fails]), List.findSome?_cons]

/-- What is shown first, if it is live, is the item of the first record, if that is live. -/
theorem first_shown (plain : Key.metaQuery? key = none) :
    (firstOf (b.shows c (c.topology.router.bucketOf key))
        (b.order (c.topology.router.bucketOf key)) key).filter isLive =
      ((b.record? c key).filter Record.isLive).map Record.item := by
  have shown : (fun addr => c.shows addr key) =
      Option.map Record.versioned ∘ fun addr => (c.store addr).record? key :=
    funext fun addr => find?_of_record plain
  rw [firstOf_answering, firstOf, shown, ← List.map_findSome?]
  change ((b.record? c key).map Record.versioned).filter isLive = _
  cases b.record? c key with
  | none => rfl
  | some r =>
    cases live : r.isLive with
    | true =>
      have same : r.versioned = r.item := if_pos live
      have also : isLive r.item = true := live
      simp [Option.filter_some, same, also, live]
    | false =>
      have dead : isLive r.versioned = false := by
        rw [isLive, Record.rev_versioned]
        exact live
      simp [Option.filter_some, dead, live]

/-- Whether the mains behave so through all that happens to a fetch that begins in `c`. -/
def Prevails (b : Behaviour) (c : Cluster) (keys : List String) (later : List Event) : Prop :=
  ∀ part e, part ++ [e] <+: later →
    b.Governs c ((c.begin (.getMulti keys)).after part) e c.next keys

variable {replication : Config.Replication} {later : List Event}

theorem works_of_prevails (orderly : c.traffic.Orderly replication)
    (prevails : b.Prevails c keys later) :
    ((c.begin (.getMulti keys)).after later).traffic.Works c.next (.getMulti keys) c.topology
      (b.Stands c keys) := by
  have begun := orderly_happen (.step (.begin (.getMulti keys))) orderly
  have opening : (c.begin (.getMulti keys)).traffic.Works c.next (.getMulti keys) c.topology
      (b.Stands c keys) := works_begin orderly (fun _ _ => stands_nodes) (b.stands_begin c keys)
  refine works_through later begun (fun _ _ => stands_nodes) (fun part e sub => ?_) opening
  exact ⟨_, (prevails part e sub).meets, fun _ _ _ _ known => stands_turn known⟩

end Behaviour

variable {c d : Cluster} {keys : List String} {later : List Event}

/-- While nothing changes some keys, a main that answers does so from what it holds, and behaves as
long as it fails where it should. -/
theorem Run.governs {b : Behaviour} {e : Event} (sound : c.traffic.Sound)
    (plain : ∀ key ∈ keys, Key.metaQuery? key = none)
    (carried : (Ask.getMulti keys).Carried c.nodeLimits)
    (run : Run (.sparing c.nodeLimits keys) (c.begin (.getMulti keys)) d)
    (ranked : ∀ bucket ∈ e.bucket? c.next,
      (∃ op ∈ d.operations.get? c.next, op.state.isWaiting bucket = true) →
        d.rank c.topology (c.topology.router.resolve bucket).mains = b.order bucket)
    (fails : d.calls.All fun _ call => call.operation = c.next → ∀ result outcome,
      call.stage = .ended result outcome →
        (b.fails call.bucket (d.addrOf call) = true ↔ result.toOption = none)) :
    b.Governs c d e c.next keys := by
  refine ⟨ranked, ?_⟩
  intro k call known mine
  have told := run.told sound plain carried k call known mine
  unfold Call.Tells at told
  unfold Call.Stage.Follows
  split
  · rename_i answer outcome ended
    have answers := fails k call known mine _ _ ended
    simp only [ended] at told
    rw [← addrOf_traffic]
    refine ⟨?_, told answer rfl⟩
    rw [addrOf_traffic]
    exact Bool.eq_false_iff.mpr fun failed => nomatch answers.mp failed
  · rename_i why outcome ended
    exact (fails k call known mine _ _ ended).mpr rfl
  all_goals trivial

/-- Several keys asked for at once, while every main of their buckets either fails or answers from
what it holds. The fetch returns once nothing is left to wait for, and it never fails: of each key,
once and in the order in which the keys first came, it returns the first record that is held among
the mains that answer, in the order in which they are ranked when it begins with the bucket of the
key. Of a key whose first record is a tombstone it returns nothing, whatever later mains hold. In
which order the buckets go on and are done makes no difference. -/
theorem fetched_first_found {replication : Config.Replication} {limits nodeLimits : Config.Limits}
    {plan : Route.Plan} {epoch : Nat} {first : Cluster}
    (built : build replication limits plan nodeLimits epoch = .ok first) {before : List Event}
    (reached : c = first.after before) (plain : ∀ key ∈ keys, Key.metaQuery? key = none)
    {b : Behaviour} (prevails : b.Prevails c keys later) :
    let d := (c.begin (.getMulti keys)).after later
    (d.operations.get? c.next ≠ none → d.result? c.next (.getMulti keys) = none →
      d.Waits c.next) ∧
    (∀ result, d.result? c.next (.getMulti keys) = some result →
      result = .ok (keys.eraseDups.filterMap fun key =>
        ((b.record? c key).filter Record.isLive).map fun r => (key, r.item))) ∧
    ∀ other, b.Prevails c keys other → ∀ one another,
      d.result? c.next (.getMulti keys) = some one →
      ((c.begin (.getMulti keys)).after other).result? c.next (.getMulti keys) = some another →
        one = another := by
  have orderly : c.traffic.Orderly replication :=
    reached ▸ orderly_after before (orderly_build built)
  have returns {some_events : List Event} (prevails : b.Prevails c keys some_events) :
      ∀ result, ((c.begin (.getMulti keys)).after some_events).result? c.next (.getMulti keys) =
        some result → result = .ok (keys.eraseDups.filterMap fun key =>
          ((b.record? c key).filter Record.isLive).map fun r => (key, r.item)) := by
    intro result ended
    obtain ⟨_, dues, ⟨m, rfl, stands⟩, ended⟩ :=
      (Behaviour.works_of_prevails orderly prevails).settled ended
    obtain ⟨values, settled, rfl⟩ := Option.map_eq_some_iff.mp ended
    refine congrArg Except.ok ((stands.result settled).trans (List.filterMap_congr ?_))
    intro key listed
    rw [Behaviour.first_shown (plain key (List.mem_eraseDups.mp listed)), Option.map_map]
    rfl
  intro d
  refine ⟨?_, returns prevails, ?_⟩
  · intro known open_
    refine (Behaviour.works_of_prevails orderly prevails).waits known open_ ?_
    rintro _ dues ⟨m, rfl, stands⟩ unsettled
    obtain asked | waiting := stands.waits (Option.map_eq_none_iff.mp unsettled)
    · exact .inl fun none_due => asked (none_due ▸ rfl)
    · exact .inr ⟨m, rfl, waiting⟩
  · intro other also one another ended there
    rw [returns prevails one ended, returns also another there]

/-- A fetch begins with a bucket whose mains are ranked in a known order. -/
theorem beginBucket_beginFetch {m : Quorum.Fetch} {g : Quorum.Fetch.Group} {bucket : Nat}
    {ranked : List String} (grouped : m.group? bucket = some g)
    (rank : c.rank c.topology (c.topology.router.resolve bucket).mains = ranked) :
    (c.beginFetch m).beginBucket c.next bucket = (c.beginFetch m).proceed c.next bucket
      ⟨.getMulti m.keys, c.topology, c.now + c.replication.readTimeout, .fetch m⟩
      (.fetch (m.putGroup (g.begin ranked).1)) (g.begin ranked).2 := by
  have known : (c.beginFetch m).operations.get? c.next =
      some ⟨.getMulti m.keys, c.topology, c.now + c.replication.readTimeout, .fetch m⟩ :=
    Assoc.get?_put_self ..
  have still : (c.beginFetch m).rank c.topology (c.topology.router.resolve bucket).mains =
      ranked := rank
  simp only [beginBucket, known, grouped, still]

/-- What happens first can be gone through apart from the rest. -/
theorem Behaviour.prevails_cons {b : Behaviour} {e : Event} {next : Cluster}
    (first : b.Governs c (c.begin (.getMulti keys)) e c.next keys)
    (step : (c.begin (.getMulti keys)).happen e = next)
    (governs : ∀ i (inside : i < later.length),
      b.Governs c (next.after (later.take i)) later[i] c.next keys) :
    b.Prevails c keys (e :: later) := by
  subst step
  intro part event sub
  cases part with
  | nil =>
    obtain ⟨rfl, -⟩ := List.cons_prefix_cons.mp sub
    exact first
  | cons e part =>
    obtain ⟨rfl, rest, rfl⟩ := List.cons_prefix_cons.mp sub
    have here : b.Governs c (((c.begin (.getMulti keys)).happen e).after part) event c.next keys := by
      simpa using governs part.length (by simp)
    exact here

theorem addresses_three : Text.sortedSet ["a", "b", "c"] = ["a", "b", "c"] := by
  change (List.mergeSort ["a", "b", "c"] fun a b => decide (a ≤ b)).eraseReps = ["a", "b", "c"]
  rw [List.mergeSort_of_pairwise (by decide)]
  decide

theorem build_three (n w r : Nat) (nodeLimits : Config.Limits) :
    build (quorums n w r) ⟨250, 100⟩ ⟨1, [⟨"a", ["0"]⟩, ⟨"b", ["0"]⟩, ⟨"c", ["0"]⟩], []⟩
        nodeLimits 0 =
      .ok (ofReplicas (quorums n w r) nodeLimits ⟨["a", "b", "c"], []⟩) :=
  build_ofReplicas rfl addresses_three rfl

/-- Three mains take an item, and one of them then its deletion and another item. -/
def storedUnevenly : List Event :=
  [.arrive "a" (Ask.set "j" fifth).toWire, .arrive "b" (Ask.set "j" fifth).toWire,
    .arrive "c" (Ask.set "j" fifth).toWire, .arrive "b" (Ask.delete "j").toWire,
    .arrive "b" (Ask.set "k" fifth).toWire]

/-- Mains of which the proxy knows nothing yet, with what was stored at them. -/
def uneven : Cluster :=
  (ofReplicas (quorums 3 2 2) ⟨250, 100⟩ ⟨["a", "b", "c"], []⟩).after storedUnevenly

theorem rank_uneven : uneven.rank uneven.topology ["a", "b", "c"] = ["a", "b", "c"] := by
  let m := uneven.monitor uneven.topology
  have even : ∀ a ∈ ["a", "b", "c"], m.score a 0 =
      Health.Monitor.orderKey ((Health.Node.fresh "" m.settings 0).score 0) := by
    intro a listed
    simp only [List.mem_cons, List.not_mem_nil, or_false] at listed
    obtain rfl | rfl | rfl := listed <;> rfl
  have live : m.live ["a", "b", "c"] 0 = ["a", "b", "c"] := by decide +kernel
  exact (Health.Monitor.rank_of_even
    (fun a here b there => (even a here).trans (even b there).symm) (by decide)).trans live

/-- Two keys, one of them twice. -/
def someKeys : List String :=
  ["k", "j", "k"]

theorem begin_uneven : uneven.begin (.getMulti someKeys) =
    uneven.beginFetch ⟨someKeys, [⟨0, someKeys, [], .waiting⟩]⟩ := by
  have buckets : uneven.topology.router.buckets = 1 := rfl
  rw [begin_getMulti, buckets, start_single (by decide)]

theorem beginBucket_uneven : (uneven.begin (.getMulti someKeys)).beginBucket 0 0 =
    (uneven.beginFetch ⟨someKeys, [⟨0, someKeys, [], .waiting⟩]⟩).proceed 0 0
      ⟨.getMulti someKeys, uneven.topology, uneven.now + uneven.replication.readTimeout,
        .fetch ⟨someKeys, [⟨0, someKeys, [], .waiting⟩]⟩⟩
      (.fetch ⟨someKeys, [⟨0, someKeys, [], .asking ["b", "c"]⟩]⟩) ["a"] := by
  have number : uneven.next = 0 := rfl
  have mains : (uneven.topology.router.resolve 0).mains = ["a", "b", "c"] := rfl
  have grouped : Quorum.Fetch.group? ⟨someKeys, [⟨0, someKeys, [], .waiting⟩]⟩ 0 =
      some ⟨0, someKeys, [], .waiting⟩ := rfl
  have begun := beginBucket_beginFetch grouped (mains ▸ rank_uneven)
  rw [number] at begun
  rw [begin_uneven]
  exact begun

/-- The first main fails, the second has a tombstone of one key and an item of the other, and the
third would still show the deleted one. -/
theorem fetched_first_found_second :
    let b : Behaviour := ⟨fun _ => ["a", "b", "c"], fun _ addr => addr == "a"⟩
    let later := (failSteps 1 ++ callSteps 2).map Event.step
    let d := (uneven.begin (.getMulti someKeys)).after (.step (.beginBucket 0 0) :: later)
    build (quorums 3 2 2) ⟨250, 100⟩ ⟨1, [⟨"a", ["0"]⟩, ⟨"b", ["0"]⟩, ⟨"c", ["0"]⟩], []⟩
        ⟨250, 100⟩ 0 = .ok (ofReplicas (quorums 3 2 2) ⟨250, 100⟩ ⟨["a", "b", "c"], []⟩) ∧
      (∀ key ∈ someKeys, Key.metaQuery? key = none) ∧
      b.Prevails uneven someKeys (.step (.beginBucket 0 0) :: later) ∧
      d.result? 0 (.getMulti someKeys) = some (.ok [("k", fifth)]) ∧
      ((uneven.store "c").record? "j").map Record.item = some fifth ∧
      someKeys.eraseDups.filterMap (fun key =>
        ((b.record? uneven key).filter Record.isLive).map fun r => (key, r.item)) =
          [("k", fifth)] := by
  intro b later d
  have built := build_three 3 2 2 ⟨250, 100⟩
  have first : b.Governs uneven (uneven.begin (.getMulti someKeys)) (.step (.beginBucket 0 0)) 0
      someKeys := by
    rw [begin_uneven]
    refine ⟨?_, by decide +kernel⟩
    rintro bucket ⟨⟩ -
    exact rank_uneven
  have runs : (∀ key ∈ someKeys, Key.metaQuery? key = none) ∧
      ((uneven.store "c").record? "j").map Record.item = some fifth := by decide +kernel
  obtain ⟨plain, held⟩ := runs
  have step := beginBucket_uneven
  generalize same : (uneven.begin (.getMulti someKeys)).beginBucket 0 0 = next at step
  have runs : (∀ i (inside : i < later.length),
        b.Governs uneven (next.after (later.take i)) later[i] 0 someKeys) ∧
      ((next.after later).result? 0 (.getMulti someKeys)).map Except.toOption =
        some (some [("k", fifth)]) := by
    rw [step]
    decide +kernel
  obtain ⟨governs, returned⟩ := runs
  have prevails : b.Prevails uneven someKeys (.step (.beginBucket 0 0) :: later) :=
    Behaviour.prevails_cons first same governs
  have returned : d.result? 0 (.getMulti someKeys) = some (.ok [("k", fifth)]) := by
    refine returned_of_toOption ?_
    rw [← returned, ← same]
    rfl
  have reached : uneven =
      (ofReplicas (quorums 3 2 2) ⟨250, 100⟩ ⟨["a", "b", "c"], []⟩).after storedUnevenly := rfl
  have found := fetched_first_found built reached plain prevails
  exact ⟨built, plain, prevails, returned, held, (Except.ok.inj (found.2.1 _ returned)).symm⟩

end QuorumKv.Cluster
