import QuorumKv.Proofs.Cluster.Attended

/-! Asking for several keys at once and asking for each of them. While all mains attend, both return
what the mains show, except where the two are meant to differ: a read asks the backups for what no
main has, and refuses when its bucket has fewer mains than a quorum needs. -/
namespace QuorumKv.Cluster

open Operation (State)
open Quorum.Fetch (isLive told mem_told)

variable {c : Cluster} {key : String} {keys : List String} {q : Ask}

/-- An operation that begins changes nothing of who is routable. -/
theorem live_begin (c : Cluster) (q : Ask) (t : Topology) (addrs : List String) :
    (c.begin q).live t addrs = c.live t addrs := by
  have each (number bucket : Nat) (op : Operation) (calls : List String) :
      ∀ d : Cluster, (calls.foldl (spawn number bucket op) d).live t addrs = d.live t addrs := by
    induction calls with
    | nil => exact fun _ => rfl
    | cons addr rest ih =>
      intro d
      rw [List.foldl_cons, ih]
      unfold spawn
      split
      · rfl
      · simp only [hold]
        split <;> rfl
  exact each ..

theorem readStands_begin (positive : 0 < c.replication.r)
    (routable : c.live c.topology (c.replicasOf key).mains = (c.replicasOf key).mains) :
    let bucket := c.topology.router.bucketOf key
    c.ReadStands c.replication.r key (c.opening bucket (.get key)).1
      ((c.opening bucket (.get key)).1.calling (.get key) bucket
        (c.opening bucket (.get key)).2) := by
  intro bucket
  have ranked := rank_perm c c.topology (c.replicasOf key).mains
  rw [routable] at ranked
  refine ⟨(c.openRead bucket).1, rfl, ?_, ?_⟩
  · intro due listed
    obtain ⟨addr, -, rfl⟩ := List.mem_map.mp listed
    exact ⟨rfl, rfl⟩
  · rw [State.calling, List.map_map]
    simp only [Function.comp_def, List.map_id']
    exact Quorum.Read.stands_start positive ranked

theorem fetchStands_begin (c : Cluster) (keys : List String) :
    c.FetchStands keys (.fetch (Quorum.Fetch.start c.topology.router.buckets keys)) [] :=
  ⟨_, rfl, List.forall_mem_nil _, Quorum.Fetch.stands_start ..⟩

variable {replication : Config.Replication} {later : List Event}

/-- A read of a key whose mains attend. -/
theorem read_attended (orderly : c.traffic.Orderly replication) (positive : 0 < replication.r)
    (agree : c.Agree key)
    (attends : ∀ part, part <+: later →
      Attends c ((c.begin (.get key)).after part) c.next [key]) :
    let d := (c.begin (.get key)).after later
    (d.operations.get? c.next ≠ none → d.result? c.next (.get key) = none → d.Waits c.next) ∧
      ∀ result, d.result? c.next (.get key) = some result → ∃ verdict,
        Quorum.Read.Verdict replication.r (c.replicasOf key).mains (c.replicasOf key).backups
          (fun addr => c.shows addr key) (c.held key) verdict ∧
        result = verdict.map fun found => found.filter isLive := by
  intro d
  have quorum : c.replication = replication := orderly.replicates
  have routable := (attends [] List.nil_prefix).routable key List.mem_cons_self
  have opening := readStands_begin (quorum.symm ▸ positive) ((live_begin ..).symm.trans routable)
  have works : d.traffic.Works c.next (.get key) c.topology (c.ReadStands replication.r key) :=
    works_from_begin later orderly (fun _ _ => readStands_nodes)
      (fun _ _ _ _ => readStands_turn agree) (fun part sub => (attends part sub).meets)
      (quorum ▸ opening)
  constructor
  · intro known open_
    refine works.waits known open_ ?_
    rintro _ dues ⟨m, rfl, -, stands⟩ unsettled
    have asked := stands.waits (Option.map_eq_none_iff.mp unsettled)
    exact .inl fun none_due => asked (none_due ▸ rfl)
  · intro result ended
    obtain ⟨_, dues, ⟨m, rfl, -, stands⟩, ended⟩ := works.settled ended
    obtain ⟨verdict, settled, rfl⟩ := Option.map_eq_some_iff.mp ended
    exact ⟨verdict, stands.result settled, rfl⟩

/-- A fetch of keys whose mains attend. -/
theorem fetch_attended (orderly : c.traffic.Orderly replication)
    (agree : ∀ key ∈ keys, c.Agree key)
    (attends : ∀ part, part <+: later →
      Attends c ((c.begin (.getMulti keys)).after part) c.next keys) :
    let d := (c.begin (.getMulti keys)).after later
    (d.operations.get? c.next ≠ none → d.result? c.next (.getMulti keys) = none → d.Waits c.next) ∧
      ∀ result, d.result? c.next (.getMulti keys) = some result →
        result = .ok (keys.eraseDups.filterMap fun key =>
          ((c.held key).filter isLive).map (key, ·)) := by
  intro d
  have works : d.traffic.Works c.next (.getMulti keys) c.topology (c.FetchStands keys) :=
    works_from_begin later orderly (fun _ _ => fetchStands_nodes)
      (fun _ _ _ _ => fetchStands_turn agree) (fun part sub => (attends part sub).meets)
      (fetchStands_begin c keys)
  constructor
  · intro known open_
    refine works.waits known open_ ?_
    rintro _ dues ⟨m, rfl, -, stands⟩ unsettled
    obtain asked | waiting := stands.waits (Option.map_eq_none_iff.mp unsettled)
    · exact .inl fun none_due => asked (none_due ▸ rfl)
    · exact .inr ⟨m, rfl, waiting⟩
  · intro result ended
    obtain ⟨_, dues, ⟨m, rfl, -, stands⟩, ended⟩ := works.settled ended
    obtain ⟨values, settled, rfl⟩ := Option.map_eq_some_iff.mp ended
    exact congrArg Except.ok (stands.result settled)

/-- Several keys asked for at once, and one of them asked for alone, while the mains of all of them
attend and agree. Both return once nothing is left to wait for. The fetch returns every key once, in
the order in which the keys first came, that the mains show live. The read returns what they show,
or what the backups show of a key that no main has, or that the bucket has too few mains. So the two
differ at most in the bucket's quorum and in what the backups alone have. -/
theorem fetched_as_read {config : Config} (valid : config.check = .ok ())
    {limits nodeLimits : Config.Limits} {plan : Route.Plan} {epoch : Nat} {first : Cluster}
    (built : build config.replication limits plan nodeLimits epoch = .ok first)
    {before fetching reading : List Event} (reached : c = first.after before) (listed : key ∈ keys)
    (agree : ∀ key ∈ keys, c.Agree key)
    (fetched : ∀ part, part <+: fetching →
      Attends c ((c.begin (.getMulti keys)).after part) c.next keys)
    (read : ∀ part, part <+: reading → Attends c ((c.begin (.get key)).after part) c.next [key]) :
    let d := (c.begin (.getMulti keys)).after fetching
    let e := (c.begin (.get key)).after reading
    let replicas := c.replicasOf key
    (d.operations.get? c.next ≠ none → d.result? c.next (.getMulti keys) = none →
      d.Waits c.next) ∧
    (e.operations.get? c.next ≠ none → e.result? c.next (.get key) = none → e.Waits c.next) ∧
    (∀ result, d.result? c.next (.getMulti keys) = some result →
      result = .ok (keys.eraseDups.filterMap fun key =>
        ((c.held key).filter isLive).map (key, ·))) ∧
    (∀ result, e.result? c.next (.get key) = some result → ∃ verdict,
      Quorum.Read.Verdict config.replication.r replicas.mains replicas.backups
        (fun addr => c.shows addr key) (c.held key) verdict ∧
      result = verdict.map fun found => found.filter isLive) ∧
    ∀ values found, d.result? c.next (.getMulti keys) = some (.ok values) →
      e.result? c.next (.get key) = some (.ok found) →
      (c.held key ≠ none ∨ ∀ addr ∈ replicas.backups, (c.shows addr key).filter isLive = none) →
      ∀ item, (key, item) ∈ values ↔ found = some item := by
  intro d e replicas
  obtain ⟨-, ⟨positive, -⟩⟩ := Config.quorums_of_check valid
  have orderly : c.traffic.Orderly config.replication :=
    reached ▸ orderly_after before (orderly_build built)
  obtain ⟨fetch_returns, fetch_result⟩ := fetch_attended orderly agree fetched
  obtain ⟨read_returns, read_result⟩ := read_attended orderly positive (agree key listed) read
  refine ⟨fetch_returns, read_returns, fetch_result, read_result, ?_⟩
  intro values found fetch_ended read_ended alike item
  have found_eq : found = (c.held key).filter isLive := by
    obtain ⟨verdict, settled, result⟩ := read_result _ read_ended
    cases verdict with
    | error why => cases result
    | ok x => exact (Except.ok.inj result).trans (settled.filter_eq alike)
  have values_eq : values = told (fun key => (c.held key).filter isLive) keys.eraseDups :=
    Except.ok.inj (fetch_result _ fetch_ended)
  rw [values_eq, found_eq, mem_told, List.mem_eraseDups]
  exact and_iff_right listed

instance (c : Cluster) (key : String) : Decidable (c.Agree key) :=
  inferInstanceAs (Decidable (∀ addr ∈ (c.replicasOf key).mains,
    ∀ other ∈ (c.replicasOf key).mains, c.shows addr key = c.shows other key))

/-- Begins with a fetch in its first state. -/
def beginFetch (c : Cluster) (m : Quorum.Fetch) : Cluster :=
  (({ c with next := c.next + 1 } : Cluster).engage 0).place c.next 0
    ⟨.getMulti m.keys, c.topology, c.now + c.replication.readTimeout, .fetch m⟩ []

theorem begin_getMulti (c : Cluster) (keys : List String) :
    c.begin (.getMulti keys) =
      c.beginFetch (Quorum.Fetch.start c.topology.router.buckets keys) :=
  rfl

/-- With a single bucket, all keys are one group. -/
theorem start_single {keys : List String} (filled : keys ≠ []) :
    Quorum.Fetch.start 1 keys = ⟨keys, [⟨0, keys, [], .waiting⟩]⟩ := by
  have one (key : String) : Key.bucket 1 key = 0 := by
    rw [Key.bucket, Nat.max_self]
    exact Nat.mod_one _
  rw [Quorum.Fetch.start, Key.byBucket_of_same filled fun key _ => one key]
  rfl

/-- A main has an item of its own, and its backup another key's. -/
def storedApart : List Event :=
  (.begin (.set "k" fifth) :: callSteps 1 ++ .begin (.set "j" fifth) :: failSteps 3 ++
    callSteps 4).map .step

/-- An answer is the same with the failures left out. -/
theorem returned_of_toOption {α : Type} {result : Option (Except Failure α)} {answer : α}
    (same : result.map Except.toOption = some (some answer)) : result = some (.ok answer) := by
  obtain ⟨r, rfl, ok⟩ := Option.map_eq_some_iff.mp same
  cases r with
  | ok a => rw [Option.some.inj ok]
  | error why => cases ok

theorem fetched_as_read_main :
    let config : Config := ⟨.default, .default, quorums 1 1 1, Config.defaultSwitch, none⟩
    let first := ofReplicas (quorums 1 1 1) ⟨250, 100⟩ ⟨["a"], ["b"]⟩
    let c := first.after storedApart
    let keys := ["k", "j", "k"]
    let fetching := (.beginBucket 5 0 :: callSteps 6).map Event.step
    let reading := (callSteps 6).map Event.step
    config.check = .ok () ∧
      build config.replication ⟨250, 100⟩ ⟨1, [⟨"a", ["0"]⟩], ["b"]⟩ ⟨250, 100⟩ 0 = .ok first ∧
      (∀ key ∈ keys, c.Agree key) ∧
      (∀ part, part <+: fetching →
        Attends c ((c.begin (.getMulti keys)).after part) c.next keys) ∧
      (∀ part, part <+: reading → Attends c ((c.begin (.get "k")).after part) c.next ["k"]) ∧
      ((c.begin (.getMulti keys)).after fetching).result? c.next (.getMulti keys) =
        some (.ok [("k", fifth)]) ∧
      ((c.begin (.get "k")).after reading).result? c.next (.get "k") = some (.ok (some fifth)) ∧
      ∀ item, ("k", item) ∈ [("k", fifth)] ↔ some fifth = some item := by
  intro config first c keys fetching reading
  have built := build_backed 1 1 1 ⟨250, 100⟩
  have runs : config.check = .ok () ∧ c.topology.router.buckets = 1 ∧
      (∀ key ∈ keys, c.Agree key) ∧ c.held "k" ≠ none ∧
      (∀ part ∈ reading.inits, Attends c ((c.begin (.get "k")).after part) c.next ["k"]) ∧
      (((c.begin (.get "k")).after reading).result? c.next (.get "k")).map
        Except.toOption = some (some (some fifth)) := by decide +kernel
  obtain ⟨valid, buckets, agree, some_record, read, read_returned⟩ := runs
  have begun : c.begin (.getMulti keys) = c.beginFetch ⟨keys, [⟨0, keys, [], .waiting⟩]⟩ := by
    rw [begin_getMulti, buckets, start_single (List.cons_ne_nil _ _)]
  have runs : (∀ part ∈ fetching.inits,
      Attends c ((c.begin (.getMulti keys)).after part) c.next keys) ∧
      (((c.begin (.getMulti keys)).after fetching).result? c.next (.getMulti keys)).map
        Except.toOption = some (some [("k", fifth)]) := by
    rw [begun]
    decide +kernel
  obtain ⟨fetched, fetch_returned⟩ := runs
  have fetch_attends := fun part sub => fetched part ((List.mem_inits part fetching).mpr sub)
  have read_attends := fun part sub => read part ((List.mem_inits part reading).mpr sub)
  have fetch_returned := returned_of_toOption fetch_returned
  have read_returned := returned_of_toOption read_returned
  have reached : c = first.after storedApart := rfl
  have same := fetched_as_read valid built reached List.mem_cons_self agree fetch_attends
    read_attends
  refine ⟨valid, built, agree, fetch_attends, read_attends, fetch_returned, read_returned, ?_⟩
  exact same.2.2.2.2 _ _ fetch_returned read_returned (.inl some_record)

/-- The only main of a bucket takes an item. -/
def storedOnce : List Event :=
  (.begin (.set "k" fifth) :: callSteps 1).map .step

/-- Where a fetch and a read of the same key differ although all mains attend and agree: what a
backup alone has only the read returns, and what too few mains have only the fetch. -/
theorem fetched_not_as_read :
    (let config : Config := ⟨.default, .default, quorums 1 1 1, Config.defaultSwitch, none⟩
     let first := ofReplicas (quorums 1 1 1) ⟨250, 100⟩ ⟨["a"], ["b"]⟩
     let c := first.after storedApart
     let fetching := (.beginBucket 5 0 :: callSteps 6).map Event.step
     let reading := (callSteps 6 ++ callSteps 7).map Event.step
     config.check = .ok () ∧
      build config.replication ⟨250, 100⟩ ⟨1, [⟨"a", ["0"]⟩], ["b"]⟩ ⟨250, 100⟩ 0 = .ok first ∧
      c.Agree "j" ∧
      (∀ part ∈ fetching.inits, Attends c ((c.begin (.getMulti ["j"])).after part) c.next ["j"]) ∧
      (∀ part ∈ reading.inits, Attends c ((c.begin (.get "j")).after part) c.next ["j"]) ∧
      ((c.begin (.getMulti ["j"])).after fetching).result? c.next (.getMulti ["j"]) =
        some (.ok []) ∧
      ((c.begin (.get "j")).after reading).result? c.next (.get "j") = some (.ok (some fifth))) ∧
    (let config : Config := ⟨.default, .default, quorums 2 1 2, Config.defaultSwitch, none⟩
     let first := ofReplicas (quorums 2 1 2) ⟨250, 100⟩ ⟨["a"], []⟩
     let c := first.after storedOnce
     let fetching := (.beginBucket 2 0 :: callSteps 3).map Event.step
     let reading := (callSteps 3).map Event.step
     config.check = .ok () ∧
      build config.replication ⟨250, 100⟩ ⟨1, [⟨"a", ["0"]⟩], []⟩ ⟨250, 100⟩ 0 = .ok first ∧
      c.Agree "k" ∧
      (∀ part ∈ fetching.inits, Attends c ((c.begin (.getMulti ["k"])).after part) c.next ["k"]) ∧
      (∀ part ∈ reading.inits, Attends c ((c.begin (.get "k")).after part) c.next ["k"]) ∧
      ((c.begin (.getMulti ["k"])).after fetching).result? c.next (.getMulti ["k"]) =
        some (.ok [("k", fifth)]) ∧
      (((c.begin (.get "k")).after reading).result? c.next (.get "k")).map Except.toOption =
        some none) := by
  constructor
  · intro config first c fetching reading
    have runs : config.check = .ok () ∧ c.Agree "j" ∧
        (∀ part ∈ fetching.inits, Attends c ((c.begin (.getMulti ["j"])).after part) c.next ["j"]) ∧
        (∀ part ∈ reading.inits, Attends c ((c.begin (.get "j")).after part) c.next ["j"]) ∧
        (((c.begin (.getMulti ["j"])).after fetching).result? c.next (.getMulti ["j"])).map
          Except.toOption = some (some []) ∧
        (((c.begin (.get "j")).after reading).result? c.next (.get "j")).map
          Except.toOption = some (some (some fifth)) := by decide +kernel
    obtain ⟨valid, agree, fetch_attends, read_attends, fetched, read⟩ := runs
    exact ⟨valid, build_backed 1 1 1 _, agree, fetch_attends, read_attends,
      returned_of_toOption fetched, returned_of_toOption read⟩
  · intro config first c fetching reading
    have runs : config.check = .ok () ∧ c.Agree "k" ∧
        (∀ part ∈ fetching.inits, Attends c ((c.begin (.getMulti ["k"])).after part) c.next ["k"]) ∧
        (∀ part ∈ reading.inits, Attends c ((c.begin (.get "k")).after part) c.next ["k"]) ∧
        (((c.begin (.getMulti ["k"])).after fetching).result? c.next (.getMulti ["k"])).map
          Except.toOption = some (some [("k", fifth)]) ∧
        (((c.begin (.get "k")).after reading).result? c.next (.get "k")).map
          Except.toOption = some none := by decide +kernel
    obtain ⟨valid, agree, fetch_attends, read_attends, fetched, read⟩ := runs
    exact ⟨valid, build_one 2 1 2 _, agree, fetch_attends, read_attends,
      returned_of_toOption fetched, read⟩

end QuorumKv.Cluster
