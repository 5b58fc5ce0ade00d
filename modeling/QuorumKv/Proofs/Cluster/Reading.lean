import QuorumKv.Proofs.Cluster.Calls
import QuorumKv.Proofs.Quorum.Read
import QuorumKv.Proofs.Route

/-! One read while everything else goes on. Whatever the nodes may hold under the key in the
meantime, the answers that the read gathers are those of different mains, and each is one that its
node may give. -/
namespace QuorumKv.Cluster

/-- A node shows something that it may hold. -/
def Shown {α : Type} (may : String → Option Record → Prop) (view : Record → α) (addr : String)
    (shown : Option α) : Prop :=
  ∃ held, may addr held ∧ shown = held.map view

/-- To a reader of values a tombstone is nothing. -/
theorem Operation.State.result_get {m : Quorum.Read Item} {key : String} {found : Option Item} :
    (Operation.State.read m).result? (.get key) = some (.ok found) ↔
      ∃ x, m.result? = some (.ok x) ∧ found = x.filter fun item => !item.rev.isTombstone := by
  simp only [Operation.State.result?]
  cases m.result? with
  | none => simp
  | some result =>
    cases result with
    | error why => simp [Except.map]
    | ok x => simp [Except.map, eq_comm]

namespace Traffic

variable {α : Type} {rev : α → Revision} {gives : String → Option α → Prop}
  {number bucket needed : Nat} {replicas : Route.Replicas}

/-- Responses as the answers of different nodes, which may give them. -/
structure Answers (nodes : List String) (gives : String → Option α → Prop)
    (responses : List (Option α)) (answers : List (String × Option α)) : Prop where
  responses_eq : responses = answers.map (·.2)
  nodup : (answers.map (·.1)).Nodup
  said : ∀ a ∈ answers, a.1 ∈ nodes ∧ gives a.1 a.2

theorem Answers.append {nodes : List String} {responses : List (Option α)}
    {answers : List (String × Option α)} {addr : String} {found : Option α}
    (before : Answers nodes gives responses answers) (near : addr ∈ nodes)
    (new : addr ∉ answers.map (·.1)) (heard : gives addr found) :
    Answers nodes gives (responses ++ [found]) (answers ++ [(addr, found)]) where
  responses_eq := by simp [before.responses_eq]
  nodup := by
    rw [List.map_append, List.nodup_append]
    refine ⟨before.nodup, by simp, ?_⟩
    rintro a listed b one rfl
    obtain rfl : a = addr := by simpa using one
    exact new listed
  said a listed := by
    obtain old | last := List.mem_append.mp listed
    · exact before.said a old
    · obtain rfl := List.mem_singleton.mp last
      exact ⟨near, heard⟩

theorem Answers.of_mem {nodes : List String} {responses : List (Option α)}
    {answers : List (String × Option α)} {found : Option α}
    (given : Answers nodes gives responses answers) (heard : found ∈ responses) :
    ∃ addr ∈ nodes, gives addr found := by
  rw [given.responses_eq] at heard
  obtain ⟨a, known, rfl⟩ := List.mem_map.mp heard
  exact ⟨a.1, given.said a known⟩

/-- As many different nodes answered as there are responses, each with one of them. -/
theorem Answers.length_le {nodes some_ : List String} {responses : List (Option α)}
    {answers : List (String × Option α)} (given : Answers nodes gives responses answers)
    (among : ∀ addr found, addr ∈ nodes → found ∈ responses → gives addr found → addr ∈ some_) :
    responses.length ≤ some_.length := by
  have inside : answers.map (·.1) ⊆ some_ := by
    intro addr listed
    obtain ⟨a, known, rfl⟩ := List.mem_map.mp listed
    have heard : a.2 ∈ responses := by
      rw [given.responses_eq]
      exact List.mem_map.mpr ⟨a, known, rfl⟩
    exact among a.1 a.2 (given.said a known).1 heard (given.said a known).2
  have fit := given.nodup.length_le_of_subset inside
  rw [List.length_map] at fit
  rwa [given.responses_eq, List.length_map]

/-- Two choices that are together more than everything have something in common. -/
theorem exists_mem_of_lt {xs ys zs : List String} (left : xs.Nodup) (right : ys.Nodup)
    (subl : xs ⊆ zs) (subr : ys ⊆ zs) (more : zs.length < xs.length + ys.length) :
    ∃ a ∈ xs, a ∈ ys := by
  refine Classical.byContradiction fun apart => ?_
  have nodup : (xs ++ ys).Nodup :=
    List.nodup_append.mpr ⟨left, right, fun a inl b inr same => apart ⟨a, inl, same ▸ inr⟩⟩
  have fit := nodup.length_le_of_subset (List.append_subset.mpr ⟨subl, subr⟩)
  rw [List.length_append] at fit
  omega

/-- Enough responses contain the answer of one of any nodes that are many enough. -/
theorem Answers.meets {nodes ys : List String} {responses : List (Option α)}
    {answers : List (String × Option α)} (given : Answers nodes gives responses answers)
    (nodup : ys.Nodup) (sub : ys ⊆ nodes) (more : nodes.length < responses.length + ys.length) :
    ∃ addr ∈ ys, ∃ found ∈ responses, gives addr found := by
  have inside : answers.map (·.1) ⊆ nodes := by
    intro addr listed
    obtain ⟨a, known, rfl⟩ := List.mem_map.mp listed
    exact (given.said a known).1
  obtain ⟨addr, answered, listed⟩ := exists_mem_of_lt given.nodup nodup inside sub (by
    rw [given.responses_eq, List.length_map] at more
    rwa [List.length_map])
  obtain ⟨a, known, rfl⟩ := List.mem_map.mp answered
  refine ⟨a.1, listed, a.2, ?_, (given.said a known).2⟩
  rw [given.responses_eq]
  exact List.mem_map.mpr ⟨a, known, rfl⟩

/-- What a read has in hand, when `gives` tells what each node may answer. -/
structure Gathers (t : Traffic) (number bucket needed : Nat) (replicas : Route.Replicas)
    (rev : α → Revision) (gives : String → Option α → Prop) (m : Quorum.Read α) : Prop where
  needed_eq : m.needed = needed
  follows : m.Follows rev fun x => ∃ addr ∈ replicas.all, gives addr (some x)
  answers : ∃ answers, Answers replicas.mains gives m.responses answers ∧
    (m.stage = .gathering → t.Spread number (answers.map (·.1) ++ m.untried) ∧
      t.Reaches number bucket replicas.mains)
  untried : m.untried ⊆ replicas.mains
  reaches : t.Reaches number bucket replicas.all
  rest : ∀ later, m.stage = .through later → later ⊆ replicas.all

theorem gathers_kept {t u : Traffic} {m : Quorum.Read α} (kept : Kept number t u)
    (gathers : t.Gathers number bucket needed replicas rev gives m) :
    u.Gathers number bucket needed replicas rev gives m := by
  obtain ⟨answers, given, gathering⟩ := gathers.answers
  refine ⟨gathers.needed_eq, gathers.follows, ⟨answers, given, fun on => ?_⟩, gathers.untried,
    kept.reaches gathers.reaches, gathers.rest⟩
  exact ⟨kept.spread (gathering on).1, kept.reaches (gathering on).2⟩

theorem gathers_expire {t : Traffic} {m : Quorum.Read α}
    (gathers : t.Gathers number bucket needed replicas rev gives m) :
    t.Gathers number bucket needed replicas rev gives m.expire := by
  by_cases on : m.stage = .gathering
  · have ends : m.expire = m.shortfall := by simp only [Quorum.Read.expire, on]
    have follows := Quorum.Read.follows_expire gathers.follows
    obtain ⟨answers, given, -⟩ := gathers.answers
    rw [ends] at follows ⊢
    exact ⟨gathers.needed_eq, follows, ⟨answers, given, nofun⟩, gathers.untried, gathers.reaches,
      fun _ => nofun⟩
  · have same : m.expire = m := by
      unfold Quorum.Read.expire
      split
      · rename_i still
        exact absurd still on
      · rfl
    rwa [same]

/-- A read begins with the best of the live mains. -/
theorem gathers_begin {t : Traffic} {op : Operation} {ranked : List String}
    (sound : t.Sound) (topology : op.topology = t.topology) (positive : 0 < needed)
    (ranking : Ranking ranked replicas.mains) (nodup : replicas.all.Nodup)
    (new : t.calls.All fun _ call => call.operation ≠ number) :
    (t.place number bucket op (Quorum.Read.start (α := α) needed ranked).2).Gathers number bucket
      needed replicas rev gives (Quorum.Read.start needed ranked).1 := by
  obtain ⟨chosen, sublist, perm⟩ := ranking
  have inside : ranked ⊆ replicas.mains := fun _ listed => sublist.subset (perm.subset listed)
  have distinct : ranked.Nodup :=
    perm.nodup_iff.mpr ((List.nodup_append.mp nodup).1.sublist sublist)
  have few : ranked.take needed ⊆ replicas.mains := fun _ listed =>
    inside (List.take_subset _ _ listed)
  have reach {region : List String} (sub : ranked.take needed ⊆ region) :
      (t.place number bucket op (ranked.take needed)).Reaches number bucket region :=
    reaches_place sound topology sub (new.imp fun _ _ _ other mine => absurd mine other)
  have called : (Quorum.Read.start (α := α) needed ranked).2 = ranked.take needed := rfl
  have first : (Quorum.Read.start (α := α) needed ranked).1.needed = needed ∧
      (Quorum.Read.start (α := α) needed ranked).1.untried = ranked.drop needed ∧
      (Quorum.Read.start (α := α) needed ranked).1.responses = [] ∧
      ∀ later, (Quorum.Read.start (α := α) needed ranked).1.stage ≠ .through later := by
    simp only [Quorum.Read.start]
    split <;> exact ⟨rfl, rfl, rfl, by simp [Quorum.Read.shortfall]⟩
  obtain ⟨quota, untried, responses, early⟩ := first
  rw [called]
  refine ⟨quota, Quorum.Read.follows_start positive ranked,
    ⟨[], ⟨responses, List.nodup_nil, by simp⟩, fun _ => ⟨?_, reach few⟩⟩, ?_,
    reach fun _ listed => List.mem_append_left _ (few listed),
    fun later on => absurd on (early later)⟩
  · apply spread_place sound topology
    rw [untried, List.map_nil, List.nil_append, List.take_append_drop]
    exact spread_of_none distinct new
  · rw [untried]
    exact fun _ listed => inside (List.drop_subset _ _ listed)

/-- A read learns an answer, or that a call failed. -/
theorem gathers_deliver {t : Traffic} {op : Operation} {k : Nat} {call : Call}
    {result : call.q.Outcome} {outcome : Option Health.Outcome} {calls : Assoc Nat Call}
    {liveBackups : List String} {m : Quorum.Read α} {r : Except Failure (Option α)}
    (sound : t.Sound) (topology : op.topology = t.topology)
    (there : t.calls.get? k = some call) (mine : call.operation = number)
    (ended : call.stage = .ended result outcome)
    (calls_eq : calls = t.calls.erase k ∨
      calls = t.calls.put k { call with stage := .delivered outcome })
    (live : liveBackups ⊆ replicas.backups)
    (heard : ∀ found, r = .ok found → gives (t.addrOf call) found)
    (gathers : t.Gathers number bucket needed replicas rev gives m) :
    (({ t with calls := calls } : Traffic).place number bucket op
        (m.absorb rev liveBackups r).2).Gathers number bucket needed replicas rev gives
      (m.absorb rev liveBackups r).1 := by
  have after := sound_delivered sound there calls_eq
  have kept : Kept number t { t with calls := calls } := kept_deliver there ended calls_eq
  have absorbed := Quorum.Read.absorb_absorbed liveBackups r
    gathers.follows fun x ok =>
      ⟨t.addrOf call, (gathers.reaches k call there mine).2, heard _ ok⟩
  obtain ⟨answers, given, gathering⟩ := gathers.answers
  have known : ∀ addr, addr ∈ m.untried ++ liveBackups ∨
      (∃ rest, m.stage = .through rest ∧ addr ∈ rest) → addr ∈ replicas.all := by
    rintro addr (listed | ⟨rest, through, listed⟩)
    · obtain main | backup := List.mem_append.mp listed
      · exact List.mem_append_left _ (gathers.untried main)
      · exact List.mem_append_right _ (live backup)
    · exact gathers.rest rest through listed
  refine ⟨absorbed.needed.trans gathers.needed_eq, absorbed.follows, ?_,
    fun _ listed => gathers.untried (absorbed.untried listed),
    reaches_place after topology (fun addr listed => known addr (absorbed.calls addr listed))
      (kept.reaches gathers.reaches),
    fun later on addr listed => known addr (absorbed.rest later on addr listed)⟩
  by_cases was : m.stage = .gathering
  · -- what was gathered, the call that ended and the untried mains are all different
    obtain ⟨spread, region⟩ := gathering was
    have learned := spread_deliver there mine ended calls_eq spread
    have still := kept.reaches region
    have near := (region k call there mine).2
    have fresh : t.addrOf call ∉ answers.map (·.1) := fun listed =>
      (List.nodup_cons.mp learned.nodup).1 (List.mem_append_left _ listed)
    have grow {found : Option α} (ok : r = .ok found) :
        Answers replicas.mains gives (m.responses ++ [found])
          (answers ++ [(t.addrOf call, found)]) :=
      given.append near fresh (heard found ok)
    by_cases on : (m.absorb rev liveBackups r).1.stage = .gathering
    · obtain ⟨found, ok, grown, untried, quiet⟩ | ⟨same, untried⟩ := (absorbed.gathering on).2
      · refine ⟨answers ++ [(t.addrOf call, found)], grown ▸ grow ok, fun _ => ?_⟩
        rw [quiet, untried]
        refine ⟨spread_place after topology (learned.perm ?_),
          reaches_place after topology (by simp) still⟩
        simp [List.perm_middle]
      · refine ⟨answers, same ▸ given, fun _ => ?_⟩
        have inside : (m.absorb rev liveBackups r).2 ⊆ replicas.mains := fun addr listed =>
          gathers.untried (untried ▸ List.mem_append_left _ listed)
        refine ⟨spread_place after topology (learned.tail.perm ?_),
          reaches_place after topology inside still⟩
        rw [untried, ← List.append_assoc, ← List.append_assoc]
        exact List.perm_append_comm.append_right _
    · obtain same | ⟨-, found, ok, grown⟩ := absorbed.responses
      · exact ⟨answers, same ▸ given, fun now => absurd now on⟩
      · exact ⟨_, grown ▸ grow ok, fun now => absurd now on⟩
  · obtain same | ⟨now, -⟩ := absorbed.responses
    · exact ⟨answers, same ▸ given, fun on => absurd (absorbed.gathering on).1 was⟩
    · exact absurd now was

/-- What the machine of a read has in hand, when `may` tells what each node may hold. -/
def GathersFor (t : Traffic) (number bucket needed : Nat) (replicas : Route.Replicas)
    (may : String → Option Record → Prop) : Operation.State → Ask → Prop
  | .read m, .get _ =>
    t.Gathers number bucket needed replicas Item.rev (Shown may Record.versioned) m
  | .readMeta m, .getMeta _ =>
    t.Gathers number bucket needed replicas Meta.rev (Shown may Record.toMeta) m
  | _, _ => False

/-- The questions that read a key. -/
def IsReadOf (key : String) (q : Ask) : Prop :=
  q = .get key ∨ q = .getMeta key

/-- An answer about a key shows what the node may hold. -/
def Shows (may : String → Option Record → Prop) (key addr : String) : (q : Ask) → q.Answer → Prop
  | .get asked, found => asked = key → Shown may Record.versioned addr found
  | .getMeta asked, found => asked = key → Shown may Record.toMeta addr found
  | _, _ => True

variable {may : String → Option Record → Prop} {key : String} {q : Ask} {rules : Rules}

/-- A node that answers a read shows what it holds. -/
theorem shows_of_served {limits : Config.Limits} {now bodyMax : Nat} {addr node : String}
    {store : Store} {question : Ask} {answer : Ask.Exchange question.Answer} {a : question.Answer}
    (filled : key ≠ "") (plain : Key.metaQuery? key = none)
    (carried : question.Carried limits) (held : may addr (store.record? key))
    (read : question.readAnswer node bodyMax false (question.served limits now store).1 =
      some answer) (ok : answer.result = .ok a) : Shows may key addr question a := by
  cases question with
  | get asked =>
    rintro rfl
    refine ⟨_, held, ?_⟩
    rw [Ask.found_of_ok carried read ok, Node.find?, plain]
    rfl
  | getMeta asked =>
    rintro rfl
    exact ⟨_, held, Ask.meta_of_ok filled plain carried read ok⟩
  | _ => trivial

theorem gathersFor_kept {t u : Traffic} {state : Operation.State} (kept : Kept number t u)
    (gathers : t.GathersFor number bucket needed replicas may state q) :
    u.GathersFor number bucket needed replicas may state q := by
  unfold GathersFor at gathers ⊢
  split at gathers
  · exact gathers_kept kept gathers
  · exact gathers_kept kept gathers
  · exact gathers

theorem gathersFor_expire {t : Traffic} {state : Operation.State}
    (gathers : t.GathersFor number bucket needed replicas may state q) :
    t.GathersFor number bucket needed replicas may state.expire q := by
  unfold GathersFor at gathers
  split at gathers
  · exact gathers_expire gathers
  · exact gathers_expire gathers
  · exact gathers.elim

/-- A read learns the result of a call to a node that told what it may hold. -/
theorem gathersFor_deliver {t : Traffic} {op : Operation} {k : Nat} {call : Call}
    {result : call.q.Outcome} {outcome : Option Health.Outcome} {calls : Assoc Nat Call}
    {liveBackups : List String} (sound : t.Sound) (topology : op.topology = t.topology)
    (there : t.calls.get? k = some call) (mine : call.operation = number)
    (ended : call.stage = .ended result outcome)
    (calls_eq : calls = t.calls.erase k ∨
      calls = t.calls.put k { call with stage := .delivered outcome })
    (live : liveBackups ⊆ replicas.backups) (asked : call.q = q) (reads : IsReadOf key q)
    (tells : t.Tells number (Shows may key))
    (gathers : t.GathersFor number call.bucket needed replicas may op.state q) :
    (({ t with calls := calls } : Traffic).place number call.bucket
        { op with state :=
            (op.state.absorb liveBackups (t.addrOf call) call.bucket call.q result).state }
        (op.state.absorb liveBackups (t.addrOf call) call.bucket call.q result).calls).GathersFor
      number call.bucket needed replicas may
      (op.state.absorb liveBackups (t.addrOf call) call.bucket call.q result).state q := by
  have told := tells k call there mine
  simp only [Call.Tells, ended] at told
  obtain ⟨operation, bucket, member, question, isAwaited, guard, stage⟩ := call
  simp only at asked mine ended told result
  subst asked
  obtain rfl | rfl := reads
  · cases state : op.state with
    | read m =>
      rw [state] at gathers
      exact gathers_deliver sound topology there mine ended calls_eq live
        (fun found ok => told found ok rfl) gathers
    | _ =>
      rw [state] at gathers
      exact gathers.elim
  · cases state : op.state with
    | readMeta m =>
      rw [state] at gathers
      exact gathers_deliver sound topology there mine ended calls_eq live
        (fun found ok => told found ok rfl) gathers
    | _ =>
      rw [state] at gathers
      exact gathers.elim

theorem gathersFor_begin {t : Traffic} {op : Operation} {addrs : List String}
    {state : Operation.State} (sound : t.Sound) (topology : op.topology = t.topology)
    (positive : 0 < t.replication.r) (nodup : (t.topology.router.resolve bucket).all.Nodup)
    (new : t.calls.All fun _ call => call.operation ≠ number) (reads : IsReadOf key q)
    (opening : Opening t bucket q state addrs) :
    (({ t with next := t.next + 1 } : Traffic).place number bucket op addrs).GathersFor number
      bucket t.replication.r (t.topology.router.resolve bucket) may state q := by
  have before := sound.later (Nat.le_succ t.next)
  obtain rfl | rfl := reads
  · cases opening with
    | get _ ranking => exact gathers_begin before topology positive ranking nodup new
  · cases opening with
    | getMeta _ ranking => exact gathers_begin before topology positive ranking nodup new

/-- A read of a key, while the nodes hold nothing under it but what they may. -/
structure Reading (may : String → Option Record → Prop) (q : Ask) (key : String) (number : Nat)
    (t : Traffic) : Prop where
  sound : t.Sound
  holds : ∀ addr, may addr ((t.store addr).record? key)
  begun : number < t.next
  tells : t.Tells number (Shows may key)
  states : ∀ op, t.operations.get? number = some op → op.q = q ∧
    t.GathersFor number (bucketOf t.topology q) t.replication.r
      (t.topology.router.resolve (bucketOf t.topology q)) may op.state q

theorem gathersFor_bucket {t : Traffic} {state : Operation.State} {k : Nat} {call : Call}
    (gathers : t.GathersFor number bucket needed replicas may state q)
    (there : t.calls.get? k = some call) (mine : call.operation = number) :
    call.bucket = bucket := by
  unfold GathersFor at gathers
  split at gathers
  · exact (gathers.reaches k call there mine).1
  · exact (gathers.reaches k call there mine).1
  · exact gathers.elim

/-- A read goes on whatever moves, as long as the nodes keep to what they may hold. -/
theorem move_reading {t u : Traffic} (begins : ∀ q, rules.begins q → q.Carried t.nodeLimits)
    (filled : key ≠ "") (plain : Key.metaQuery? key = none) (reads : IsReadOf key q)
    (holds : ∀ addr, may addr ((u.store addr).record? key)) (move : Move rules t u)
    (reading : Reading may q key number t) : Reading may q key number u := by
  obtain ⟨topology, replication, -, next⟩ := move_fixed move
  refine ⟨move_sound begins move reading.sound, holds, Nat.lt_of_lt_of_le reading.begun next,
    ?_, ?_⟩
  · refine move_tells (fun _ _ _ => id) ?_ reading.sound move reading.tells
    intro now call a _ carried _ answer read ok _
    exact shows_of_served filled plain carried (reading.holds (t.addrOf call)) read ok
  · intro op known
    rw [topology, replication]
    cases move_at number move with
    | aside kept operation =>
      obtain same | gone := operation
      · obtain ⟨asked, gathers⟩ := reading.states op (same ▸ known)
        exact ⟨asked, gathersFor_kept kept gathers⟩
      · rw [gone] at known
        cases known
    | begin deadline numbered allowed opening after =>
      exact absurd reading.begun (numbered ▸ Nat.lt_irrefl _)
    | @beginBucket old m bucket g addrs before fetching after =>
      obtain ⟨asked, gathers⟩ := reading.states old before
      rw [fetching] at gathers
      obtain rfl | rfl := reads <;> exact gathers.elim
    | @deliver old k call result outcome calls liveBackups before there mine ended calls_eq live
        after =>
      obtain ⟨asked, gathers⟩ := reading.states old before
      have same : old.topology = t.topology := (reading.sound.operations _ old before).2.1
      have bucket := gathersFor_bucket gathers there mine
      have question : call.q = q := by
        rw [← asked]
        refine reading.sound.matching k call there old (mine ▸ before) fun keys multi => ?_
        rw [asked] at multi
        obtain rfl | rfl := reads <;> cases multi
      subst after
      rw [(place_fixed ..).1, Assoc.get?_put_self] at known
      obtain rfl := Option.some.inj known
      rw [← bucket] at gathers ⊢
      rw [same] at live
      exact ⟨asked, gathersFor_deliver reading.sound same there mine ended calls_eq live.subset
        question reads reading.tells gathers⟩
    | @expire old before after =>
      obtain ⟨asked, gathers⟩ := reading.states old before
      subst after
      rw [Assoc.get?_put_self] at known
      obtain rfl := Option.some.inj known
      exact ⟨asked, gathersFor_kept (.of_calls (t := t) rfl rfl) (gathersFor_expire gathers)⟩

end Traffic

/-- Whether what moves under some rules keeps the nodes to what they may hold. -/
def Rules.Keep (rules : Rules) (limits : Config.Limits) (may : String → Option Record → Prop)
    (key : String) : Prop :=
  ∀ t u, t.nodeLimits = limits → t.Sound → Traffic.Move rules t u →
    (∀ addr, may addr ((t.store addr).record? key)) → ∀ addr, may addr ((u.store addr).record? key)

variable {may : String → Option Record → Prop} {key : String} {q : Ask} {rules : Rules}

/-- Nothing but one question. -/
def Rules.only (q : Ask) : Rules :=
  ⟨(· = q), fun _ _ => True, fun _ => True⟩

theorem reading_begin {c : Cluster} {plan : Route.Plan} (sound : c.traffic.Sound)
    (routed : Router.ofPlan plan = .ok c.topology.router) (positive : 0 < c.replication.r)
    (reads : Traffic.IsReadOf key q) (carried : q.Carried c.nodeLimits)
    (holds : ∀ addr, may addr ((c.store addr).record? key)) :
    Traffic.Reading may q key c.next (c.begin q).traffic := by
  -- the cluster just before the operation makes its calls
  let t : Traffic := { c.traffic with next := c.traffic.next + 1 }
  let bucket := bucketOf c.topology q
  let op : Operation := ⟨q, c.topology, c.now + c.timeout q, (c.opening bucket q).1⟩
  have placed : (c.begin q).traffic = t.place c.next bucket op (c.opening bucket q).2 :=
    traffic_place ..
  have new : t.calls.All fun _ call => call.operation ≠ c.next :=
    sound.calls.imp fun _ _ _ known => Nat.ne_of_lt known.2.1
  obtain ⟨operations, stores, -, topology, replication, -, next⟩ :=
    Traffic.place_fixed t c.next bucket op (c.opening bucket q).2
  rw [← placed] at operations stores topology replication next
  have began : Traffic.Move (.only q) c.traffic (c.begin q).traffic := begin_moves c rfl
  refine ⟨?_, ?_, next, ?_, ?_⟩
  · apply Traffic.move_sound _ began sound
    rintro p rfl
    exact carried
  · intro addr
    rw [Traffic.store, stores]
    exact holds addr
  · rw [placed]
    exact Traffic.tells_place fun k call known mine => absurd mine (new k call known)
  · intro after known
    rw [operations, Assoc.get?_put_self] at known
    obtain rfl := Option.some.inj known
    rw [topology, replication, placed]
    exact ⟨rfl, Traffic.gathersFor_begin sound rfl positive
      (Router.nodup_resolve routed bucket) new reads (opening_opens c bucket q)⟩

/-- A read that began stays a reading as long as the run lasts. -/
theorem Run.reading {c d : Cluster} {plan : Route.Plan} (sound : c.traffic.Sound)
    (routed : Router.ofPlan plan = .ok c.topology.router) (positive : 0 < c.replication.r)
    (filled : key ≠ "") (plain : Key.metaQuery? key = none) (reads : Traffic.IsReadOf key q)
    (carried : q.Carried c.nodeLimits) (begins : ∀ q, rules.begins q → q.Carried c.nodeLimits)
    (keep : rules.Keep c.nodeLimits may key)
    (holds : ∀ addr, may addr ((c.store addr).record? key)) (run : Run rules (c.begin q) d) :
    d.topology = c.topology ∧ d.replication = c.replication ∧
      Traffic.Reading may q key c.next d.traffic := by
  have began : Traffic.Move (.only q) c.traffic (c.begin q).traffic := begin_moves c rfl
  have reading := reading_begin sound routed positive reads carried holds
  obtain ⟨topology, replication, limits, -⟩ := Traffic.move_fixed began
  have kept := Run.keeps (P := fun t => t.topology = c.topology ∧ t.replication = c.replication ∧
    t.nodeLimits = c.nodeLimits ∧ Traffic.Reading may q key c.next t) run ?_
    ⟨topology, replication, limits, reading⟩
  · exact ⟨kept.1, kept.2.1, kept.2.2.2⟩
  · rintro t u move ⟨routes, quorums, bounds, reading⟩
    obtain ⟨topology, replication, limits, -⟩ := Traffic.move_fixed move
    exact ⟨topology.trans routes, replication.trans quorums, limits.trans bounds,
      Traffic.move_reading (bounds ▸ begins) filled plain reads
        (keep t u bounds reading.sound move reading.holds) move reading⟩

/-- What a read has in hand that begins some time after `c` and is still known at `e`. -/
theorem Run.read_later {c d e : Cluster} {plan : Route.Plan} {op : Operation}
    (sound : c.traffic.Sound) (routed : Router.ofPlan plan = .ok c.topology.router)
    (positive : 0 < c.replication.r) (filled : key ≠ "") (plain : Key.metaQuery? key = none)
    (reads : Traffic.IsReadOf key q) (carried : q.Carried c.nodeLimits)
    (begins : ∀ q, rules.begins q → q.Carried c.nodeLimits)
    (keep : rules.Keep c.nodeLimits may key)
    (holds : ∀ addr, may addr ((c.store addr).record? key)) (later : Run rules c d)
    (run : Run rules (d.begin q) e) (known : e.operations.get? d.next = some op) :
    op.q = q ∧ e.traffic.GathersFor d.next (c.topology.router.bucketOf key) c.replication.r
      (c.topology.router.resolve (c.topology.router.bucketOf key)) may op.state q := by
  have kept := Run.keeps (P := fun t => t.Sound ∧ t.topology = c.topology ∧
    t.replication = c.replication ∧ t.nodeLimits = c.nodeLimits ∧
      ∀ addr, may addr ((t.store addr).record? key)) later ?_ ⟨sound, rfl, rfl, rfl, holds⟩
  · obtain ⟨sound, routes, quorums, bounds, holds⟩ := kept
    change d.topology = c.topology at routes
    change d.replication = c.replication at quorums
    change d.nodeLimits = c.nodeLimits at bounds
    obtain ⟨topology, replication, reading⟩ := run.reading sound (routes ▸ routed)
      (quorums ▸ positive) filled plain reads (bounds ▸ carried) (bounds ▸ begins) (bounds ▸ keep)
      holds
    obtain ⟨asked, gathers⟩ := reading.states op known
    have bucket : bucketOf c.topology q = c.topology.router.bucketOf key := by
      obtain rfl | rfl := reads <;> rfl
    have routes_eq : e.traffic.topology = c.topology := topology.trans routes
    have quorums_eq : e.traffic.replication = c.replication := replication.trans quorums
    rw [routes_eq, quorums_eq, bucket] at gathers
    exact ⟨asked, gathers⟩
  · rintro t u move ⟨sound, routes, quorums, bounds, holds⟩
    obtain ⟨topology, replication, limits, -⟩ := Traffic.move_fixed move
    exact ⟨Traffic.move_sound (bounds ▸ begins) move sound, topology.trans routes,
      replication.trans quorums, limits.trans bounds, keep t u bounds sound move holds⟩

end QuorumKv.Cluster
