import QuorumKv.Proofs.Cluster.Turns
import QuorumKv.Proofs.Cluster.Undisturbed
import QuorumKv.Proofs.Cluster.Writing
import QuorumKv.Proofs.Quorum.Unanimous

/-! Reads and fetches while all mains of their keys are routable and answer, each with what it
showed of the keys in the beginning. Backups answer or fail as they like. -/
namespace QuorumKv

open Quorum.Fetch (firstOf told isLive)

/-- Whether an answer about some keys is what a node shows of them. -/
def Ask.IsShown (keys : List String) (show_ : String → Option Item) : (q : Ask) → q.Answer → Prop
  | .get key, found => key ∈ keys → found = show_ key
  | .getMulti asked, values => asked ⊆ keys → values = told show_ asked
  | .getMeta _, _ | .set _ _, _ | .delete _, _ => True

instance (keys : List String) (show_ : String → Option Item) : (q : Ask) → (answer : q.Answer) →
    Decidable (q.IsShown keys show_ answer)
  | .get key, found =>
    inferInstanceAs (Decidable (key ∈ keys → @Eq (Option Item) found (show_ key)))
  | .getMulti asked, values =>
    inferInstanceAs
      (Decidable (asked ⊆ keys → @Eq (List (String × Item)) values (told show_ asked)))
  | .getMeta _, _ | .set _ _, _ | .delete _, _ => inferInstanceAs (Decidable True)

namespace Cluster

open Operation (State)

/-- What a node shows of a key to a proxy. -/
def shows (c : Cluster) (addr key : String) : Option Item :=
  Node.find? (c.store addr) true key

/-- What the mains of a key show of it. -/
def held (c : Cluster) (key : String) : Option Item :=
  firstOf c.shows (c.replicasOf key).mains key

/-- Whether a call that has ended brought what its node shows of some keys. A main must not
fail. -/
def Call.Stage.IsAttended {q : Ask} (keys : List String) (show_ : String → Option Item)
    (isMain : Bool) : Call.Stage q → Prop
  | .ended (.ok answer) _ => q.IsShown keys show_ answer
  | .ended (.error _) _ => isMain = false
  | .waiting | .running _ _ | .served _ _ | .delivered _ => True

instance {q : Ask} (keys : List String) (show_ : String → Option Item) (isMain : Bool) :
    (stage : Call.Stage q) → Decidable (stage.IsAttended keys show_ isMain)
  | .ended (.ok answer) _ => inferInstanceAs (Decidable (q.IsShown keys show_ answer))
  | .ended (.error _) _ => inferInstanceAs (Decidable (isMain = false))
  | .waiting | .running _ _ | .served _ _ | .delivered _ => inferInstanceAs (Decidable True)

/-- Whether a read still gathers its quorum. -/
def Operation.State.isGathering : State → Bool
  | .read m => (m.stage matches .gathering)
  | .readMeta m => (m.stage matches .gathering)
  | .write _ | .fetch _ => false

/-- Whether the mains of some keys attend to an operation that began in `c`: they are routable, they
answer in time, and what they answer is what they showed in `c`. Backups may fail. -/
structure Attends (c d : Cluster) (number : Nat) (keys : List String) : Prop where
  routable : ∀ key ∈ keys, d.live c.topology (c.replicasOf key).mains = (c.replicasOf key).mains
  in_time : ∀ op ∈ d.operations.get? number, op.state.isGathering = true → d.now ≤ op.deadline
  answers : d.calls.All fun _ call => call.operation = number →
    call.stage.IsAttended keys (c.shows (d.addrOf call))
      (decide (d.addrOf call ∈ (c.topology.router.resolve call.bucket).mains))

instance (c d : Cluster) (number : Nat) (keys : List String) :
    Decidable (Attends c d number keys) :=
  decidable_of_iff
    ((∀ key ∈ keys, d.live c.topology (c.replicasOf key).mains = (c.replicasOf key).mains) ∧
      (∀ op ∈ d.operations.get? number, op.state.isGathering = true → d.now ≤ op.deadline) ∧
      d.calls.All fun _ call => call.operation = number →
        call.stage.IsAttended keys (c.shows (d.addrOf call))
          (decide (d.addrOf call ∈ (c.topology.router.resolve call.bucket).mains)))
    ⟨fun ⟨routable, in_time, answers⟩ => ⟨routable, in_time, answers⟩,
      fun ⟨routable, in_time, answers⟩ => ⟨routable, in_time, answers⟩⟩

/-- What an operation meets with whose mains attend to it. -/
def attending (c : Cluster) (keys : List String) : Conditions where
  ranks bucket ranked := (∃ key ∈ keys, c.topology.router.bucketOf key = bucket) →
    ranked.Perm (c.topology.router.resolve bucket).mains
  late s := s.isGathering = false
  tells due result :=
    (due.addr ∈ (c.topology.router.resolve due.bucket).mains → ∃ answer, result = .ok answer) ∧
      ∀ answer, result = .ok answer → due.q.IsShown keys (c.shows due.addr) answer

variable {c d : Cluster} {number : Nat} {keys : List String} {key : String}

theorem Attends.meets (attends : Attends c d number keys) :
    d.Meets number c.topology (c.attending keys) := by
  constructor
  · rintro bucket ⟨key, listed, rfl⟩
    have all := rank_perm d c.topology (c.replicasOf key).mains
    rwa [attends.routable key listed] at all
  · intro op known passed
    by_contra gathering
    have in_time := attends.in_time op known (Bool.not_eq_false _ |>.mp gathering)
    exact absurd passed (Nat.not_lt.mpr in_time)
  · intro k call result outcome known mine ended
    have attended := attends.answers k call known mine
    simp only [ended] at attended
    cases result with
    | ok answer =>
      refine ⟨fun _ => ⟨answer, rfl⟩, ?_⟩
      rintro _ ⟨⟩
      exact attended
    | error why =>
      refine ⟨fun main => ?_, nofun⟩
      exact absurd main (of_decide_eq_false attended)

/-- A read under way asks some of its nodes for its key. -/
def ReadStands (c : Cluster) (needed : Nat) (key : String) (s : State) (dues : List Due) : Prop :=
  ∃ m, s = .read m ∧
    (∀ due ∈ dues, due.bucket = c.topology.router.bucketOf key ∧ due.q = .get key) ∧
    m.Stands needed (c.replicasOf key).mains (c.replicasOf key).backups
      (fun addr => c.shows addr key) (c.held key) (dues.map (·.addr))

/-- Whether the mains of a key show the same of it. -/
def Agree (c : Cluster) (key : String) : Prop :=
  ∀ addr ∈ (c.replicasOf key).mains, ∀ other ∈ (c.replicasOf key).mains,
    c.shows addr key = c.shows other key

theorem Agree.held (agree : c.Agree key) : ∀ addr ∈ (c.replicasOf key).mains,
    c.shows addr key = c.held key := by
  intro addr main
  exact (Quorum.Fetch.firstOf_of_same (List.ne_nil_of_mem main)
    fun other listed => agree other listed addr main).symm

theorem readStands_turn {needed : Nat} {s later : State} {dues some_dues : List Due}
    (agree : c.Agree key) (stands : c.ReadStands needed key s dues)
    (turn : Turn c.topology.router (.get key) (c.attending [key]) s dues later some_dues) :
    c.ReadStands needed key later some_dues := by
  obtain ⟨m, rfl, about, now⟩ := stands
  cases turn with
  | rest => exact ⟨m, rfl, about, now⟩
  | beginBucket fetching => cases fetching
  | @hear due rest liveBackups result perm live told =>
    obtain ⟨bucket, addr, q⟩ := due
    obtain ⟨here, rfl⟩ := about _ (perm.mem_iff.mpr List.mem_cons_self)
    obtain rfl : c.topology.router.bucketOf key = bucket := here.symm
    obtain ⟨answers, shown⟩ := told
    have next : (m.absorb Item.rev liveBackups result).1.Stands needed (c.replicasOf key).mains
        (c.replicasOf key).backups (fun addr => c.shows addr key) (c.held key)
        (rest.map (·.addr) ++ (m.absorb Item.rev liveBackups result).2) :=
      Quorum.Read.stands_absorb live (perm.map (·.addr)) agree.held answers
        (fun found ok => shown found ok List.mem_cons_self) now
    refine ⟨(m.absorb Item.rev liveBackups result).1, rfl, ?_, ?_⟩
    · intro due listed
      obtain old | new := List.mem_append.mp listed
      · exact about due (perm.mem_iff.mpr (.tail _ old))
      · obtain ⟨a, -, rfl⟩ := List.mem_map.mp new
        exact ⟨rfl, rfl⟩
    · rw [List.map_append, State.calling, List.map_map]
      simp only [Function.comp_def, List.map_id']
      exact next
  | expire late =>
    refine ⟨m.expire, rfl, about, Quorum.Read.stands_expire ?_ now⟩
    intro gathering
    simp [attending, State.isGathering, gathering] at late

theorem readStands_nodes {needed : Nat} {s : State} {dues : List Due}
    (stands : c.ReadStands needed key s dues) :
    ∀ due ∈ dues, due.addr ∈ (c.topology.router.resolve due.bucket).all := by
  obtain ⟨m, -, about, now⟩ := stands
  intro due listed
  rw [(about due listed).1]
  exact now.inside (List.mem_map_of_mem listed)

/-- A fetch under way asks mains for the keys that their groups miss. -/
def FetchStands (c : Cluster) (keys : List String) (s : State) (dues : List Due) : Prop :=
  ∃ m, s = .fetch m ∧
    (∀ due ∈ dues, due.addr ∈ (c.topology.router.resolve due.bucket).mains) ∧
    m.Stands c.shows keys c.topology.router.bucketOf
      (fun bucket => (c.topology.router.resolve bucket).mains)
      (dues.map fun due => (due.bucket, due.q))

theorem unanimous_of_agree (agree : ∀ key ∈ keys, c.Agree key) :
    Quorum.Fetch.Unanimous c.shows keys c.topology.router.bucketOf
      fun bucket => (c.topology.router.resolve bucket).mains :=
  fun key listed => (agree key listed).held

/-- The calls of a group that goes on ask for what it misses. -/
theorem fetchStands_putGroup {m : Quorum.Fetch} {g h : Quorum.Fetch.Group} {bucket : Nat} {q : Ask}
    {dues : List Due} {addrs : List String} (grouped : m.group? bucket = some g)
    (same : h.bucket = bucket)
    (mains : ∀ due ∈ dues, due.addr ∈ (c.topology.router.resolve due.bucket).mains)
    (inside : addrs ⊆ (c.topology.router.resolve bucket).mains)
    (next : (m.putGroup h).Stands c.shows keys c.topology.router.bucketOf
      (fun bucket => (c.topology.router.resolve bucket).mains)
      (dues.map (fun due => (due.bucket, due.q)) ++
        addrs.map fun _ => (bucket, .getMulti h.missing))) :
    c.FetchStands keys (.fetch (m.putGroup h))
      (dues ++ (State.fetch (m.putGroup h)).calling q bucket addrs) := by
  rw [calling_putGroup grouped same]
  refine ⟨_, rfl, ?_, ?_⟩
  · intro due listed
    obtain old | new := List.mem_append.mp listed
    · exact mains due old
    · obtain ⟨addr, called, rfl⟩ := List.mem_map.mp new
      exact inside called
  · rw [List.map_append, List.map_map]
    exact next

theorem fetchStands_turn {s later : State} {dues some_dues : List Due}
    (agree : ∀ key ∈ keys, c.Agree key) (stands : c.FetchStands keys s dues)
    (turn : Turn c.topology.router (.getMulti keys) (c.attending keys) s dues later some_dues) :
    c.FetchStands keys later some_dues := by
  obtain ⟨m, rfl, mains, now⟩ := stands
  have same := unanimous_of_agree agree
  cases turn with
  | rest => exact ⟨m, rfl, mains, now⟩
  | @beginBucket n g bucket ranked fetching grouped ranks =>
    obtain rfl := State.fetch.inj fetching
    have about := Quorum.Fetch.bucket_of_group? grouped
    have used := (now.covers bucket).mp
      (about ▸ List.mem_map_of_mem (Quorum.Fetch.mem_of_group? grouped))
    obtain ⟨next, inside⟩ := Quorum.Fetch.stands_begin same (ranks used) grouped now
    have still := (Quorum.Fetch.Group.within_begin g ranked).2.trans about
    exact fetchStands_putGroup grouped still mains inside next
  | @hear due rest liveBackups result perm live told =>
    obtain ⟨bucket, addr, q⟩ := due
    have pairs := perm.map fun due => (due.bucket, due.q)
    obtain ⟨g, left, grouped, asking, rfl⟩ := now.due (pairs.mem_iff.mpr List.mem_cons_self)
    have main := mains _ (perm.mem_iff.mpr List.mem_cons_self)
    obtain ⟨values, rfl⟩ := told.1 main
    have asked_for := now.missing_subset (Quorum.Fetch.mem_of_group? grouped)
    obtain rfl := told.2 values rfl asked_for
    obtain ⟨next, inside⟩ := Quorum.Fetch.stands_absorb same main grouped asking pairs now
    have still := (Quorum.Fetch.Group.within_absorb g
      (.ok (Quorum.Fetch.told (c.shows addr) g.missing))).2.trans
        (Quorum.Fetch.bucket_of_group? grouped)
    simp only [State.absorb, grouped]
    refine fetchStands_putGroup grouped still ?_ inside next
    exact fun due listed => mains due (perm.mem_iff.mpr (.tail _ listed))
  | expire => exact ⟨m, rfl, mains, now⟩

theorem fetchStands_nodes {s : State} {dues : List Due} (stands : c.FetchStands keys s dues) :
    ∀ due ∈ dues, due.addr ∈ (c.topology.router.resolve due.bucket).all := by
  obtain ⟨m, -, mains, -⟩ := stands
  exact fun due listed => List.mem_append_left _ (mains due listed)

/-- Nothing changes some keys. -/
def Rules.sparing (limits : Config.Limits) (keys : List String) : Rules where
  begins q := q.Carried limits
  serves _ q := ∀ key ∈ keys, ¬q.Changes key
  arrives bytes := ∀ frame ∈ Wire.answered (Wire.frames limits.bodyMax bytes),
    ∀ q, frame.change? = some q → ∀ key ∈ keys, ¬q.Changes key

variable {q : Ask}

theorem Traffic.move_spared {limits : Config.Limits} {t u : Traffic} {r : Option Record}
    {addr : String} (bounds : t.nodeLimits = limits) (sound : t.Sound) (listed : key ∈ keys)
    (move : Traffic.Move (.sparing limits keys) t u) (held : (t.store addr).record? key = r) :
    (u.store addr).record? key = r := by
  -- a question that is no change stands for the one change that is allowed
  have keeps : Keeps (· = r) key (.get key) := by
    constructor
    · intro item same
      cases same
    · intro same
      cases same
  refine move_store (P := fun s => s.record? key = r) addr ?_ ?_ move held
  · rintro now call ⟨k, known⟩ allowed
    rw [(t.session_toWire now addr (sound.calls k call known).2.2.1).2]
    have only : ∀ frame ∈ [call.q.frame t.nodeLimits.bodyMax],
        ∀ q, frame.change? = some q → q.Changes key → q = .get key := by
      intro frame one q asks changes
      obtain rfl := List.mem_singleton.mp one
      obtain rfl := Ask.change?_frame asks
      exact absurd changes (allowed key listed)
    exact record_replies keeps only held
  · intro now bytes allowed
    subst bounds
    refine record_replies keeps ?_ held
    intro frame answered q asks changes
    exact absurd changes (allowed frame answered q asks key listed)

/-- What a node shows of a key depends on its record alone. -/
theorem find?_of_record {s : Store} (plain : Key.metaQuery? key = none) :
    Node.find? s true key = (s.record? key).map Record.versioned := by
  rw [Node.find?, plain]
  rfl

/-- A node that answers tells what it shows. -/
theorem isShown_of_served {limits : Config.Limits} {now bodyMax : Nat} {addr : String}
    {s : Store} {show_ : String → Option Item} {answer : Ask.Exchange q.Answer} {a : q.Answer}
    (carried : q.Carried limits) (shown : ∀ key ∈ keys, Node.find? s true key = show_ key)
    (read : q.readAnswer addr bodyMax false (q.served limits now s).1 = some answer)
    (ok : answer.result = .ok a) : q.IsShown keys show_ a := by
  cases q with
  | get key =>
    intro listed
    exact (Ask.found_of_ok carried read ok).trans (shown key listed)
  | getMulti asked =>
    intro inside
    refine (Ask.values_of_ok carried.1 read ok).trans ?_
    apply List.filterMap_congr
    intro key listed
    rw [shown key (inside listed)]
  | _ => trivial

/-- While nothing changes some keys, what the calls of an operation bring is what their nodes showed
of these keys when it began. -/
theorem Run.told (sound : c.traffic.Sound) (plain : ∀ key ∈ keys, Key.metaQuery? key = none)
    (carried : q.Carried c.nodeLimits) (run : Run (.sparing c.nodeLimits keys) (c.begin q) d) :
    d.traffic.Tells c.next fun addr p answer => p.IsShown keys (c.shows addr) answer := by
  let kept (t : Traffic) : Prop := t.Sound ∧ t.nodeLimits = c.nodeLimits ∧
    (∀ addr, ∀ key ∈ keys, (t.store addr).record? key = (c.store addr).record? key) ∧
    t.Tells c.next fun addr p answer => p.IsShown keys (c.shows addr) answer
  have step (t u : Traffic) (move : Traffic.Move (.sparing c.nodeLimits keys) t u) :
      kept t → kept u := by
    rintro ⟨sound, bounds, records, tells⟩
    obtain ⟨-, -, limits, -⟩ := Traffic.move_fixed move
    refine ⟨Traffic.move_sound (fun _ begun => bounds ▸ begun) move sound, limits.trans bounds,
      ?_, ?_⟩
    · intro addr key listed
      exact Traffic.move_spared bounds sound listed move (records addr key listed)
    · refine Traffic.move_tells (fun _ _ _ => id) ?_ sound move tells
      intro now call a _ carried _ answer read ok _
      refine isShown_of_served carried (fun key listed => ?_) read ok
      rw [find?_of_record (plain key listed), records _ key listed]
      exact (find?_of_record (plain key listed)).symm
  have none_yet :
      c.traffic.Tells c.next fun addr p answer => p.IsShown keys (c.shows addr) answer :=
    sound.calls.imp fun _ _ _ known mine => absurd mine (Nat.ne_of_lt known.2.1)
  have begun : kept (c.begin q).traffic :=
    step _ _ (begin_moves c carried) ⟨sound, rfl, fun _ _ _ => rfl, none_yet⟩
  exact (run.keeps step begun).2.2.2

/-- While nothing changes some keys, their mains attend as long as they are routable and answer in
time. -/
theorem Run.attends (sound : c.traffic.Sound) (plain : ∀ key ∈ keys, Key.metaQuery? key = none)
    (carried : q.Carried c.nodeLimits) (run : Run (.sparing c.nodeLimits keys) (c.begin q) d)
    (routable : ∀ key ∈ keys,
      d.live c.topology (c.replicasOf key).mains = (c.replicasOf key).mains)
    (in_time : ∀ op ∈ d.operations.get? c.next,
      op.state.isGathering = true → d.now ≤ op.deadline)
    (answered : d.calls.All fun _ call => call.operation = c.next →
      d.addrOf call ∈ (c.topology.router.resolve call.bucket).mains →
      ∀ why outcome, call.stage ≠ .ended (.error why) outcome) :
    Attends c d c.next keys := by
  refine ⟨routable, in_time, ?_⟩
  intro k call known mine
  have told := run.told sound plain carried k call known mine
  unfold Call.Tells at told
  unfold Call.Stage.IsAttended
  split
  · rename_i answer outcome ended
    simp only [ended] at told
    rw [← addrOf_traffic]
    exact told answer rfl
  · rename_i why outcome ended
    exact decide_eq_false fun main => answered k call known mine main why outcome ended
  all_goals trivial

end Cluster

end QuorumKv
