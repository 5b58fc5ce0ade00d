import Mathlib.Data.List.Basic
import QuorumKv.Proofs.Cluster.History

/-! Nodes under changing routes. Each time the routes are replaced, health, connections and a
version are put together anew from those before: a node that stays keeps its member as it is, one
that comes or comes back gets a fresh one, and the number of its member tells the one from the
other. -/
namespace QuorumKv.Cluster

variable {settings : Health.Settings} {now : Nat}

/-- A member of which nothing is known yet. -/
def Member.fresh (addr : String) (settings : Health.Settings) (now : Nat) : Member :=
  ⟨Health.Node.fresh addr settings now, []⟩

/-- What becomes of some members when some addresses are enrolled: an address with a number keeps
it, any other gets a new one that leads to a fresh member. -/
structure Succeeds (settings : Health.Settings) (now : Nat) (known : Assoc String Nat)
    (members : List Member) (addrs : List String) (done : Assoc String Nat × List Member) :
    Prop where
  keys : done.1.keys = addrs
  joined : members <+: done.2
  stays : ∀ addr ∈ addrs, ∀ i, known.get? addr = some i → done.1.get? addr = some i
  comes : ∀ addr ∈ addrs, known.get? addr = none → ∃ i, members.length ≤ i ∧
    done.1.get? addr = some i ∧ done.2[i]? = some (Member.fresh addr settings now)

variable {known : Assoc String Nat} {members : List Member}

theorem succeeds_enroll {addrs : List String} {done : Assoc String Nat × List Member}
    {addr : String} (new : addr ∉ addrs)
    (succeeds : Succeeds settings now known members addrs done) :
    Succeeds settings now known members (addrs ++ [addr]) (enroll settings now known done addr) := by
  obtain ⟨keys, joined, stays, comes⟩ := succeeds
  have keys_put (i : Nat) : (done.1.put addr i).keys = addrs ++ [addr] := by
    rw [Assoc.keys_put, keys, if_neg new]
  have other {a : String} (listed : a ∈ addrs) (i : Nat) :
      (done.1.put addr i).get? a = done.1.get? a :=
    Assoc.get?_put_ne _ _ fun same => new (same ▸ listed)
  unfold enroll
  cases numbered : known.get? addr with
  | some number =>
    refine ⟨keys_put number, joined, ?stays, ?comes⟩
    case stays =>
      intro a listed i had
      obtain earlier | last := List.mem_append.mp listed
      · rw [other earlier]
        exact stays a earlier i had
      · obtain rfl := List.mem_singleton.mp last
        rw [Assoc.get?_put_self, ← numbered, had]
    case comes =>
      intro a listed absent
      obtain earlier | last := List.mem_append.mp listed
      · simp only [other earlier]
        exact comes a earlier absent
      · obtain rfl := List.mem_singleton.mp last
        exact absurd (numbered.symm.trans absent) (Option.some_ne_none _)
  | none =>
    let newcomer := Member.fresh addr settings now
    have more : done.2 <+: done.2 ++ [newcomer] := List.prefix_append ..
    refine ⟨keys_put _, joined.trans more, ?stays, ?comes⟩
    case stays =>
      intro a listed i had
      obtain earlier | last := List.mem_append.mp listed
      · rw [other earlier]
        exact stays a earlier i had
      · obtain rfl := List.mem_singleton.mp last
        exact absurd (numbered.symm.trans had).symm (Option.some_ne_none _)
    case comes =>
      intro a listed absent
      obtain earlier | last := List.mem_append.mp listed
      · obtain ⟨i, unused, had, there⟩ := comes a earlier absent
        exact ⟨i, unused, (other earlier _).trans had, getElem?_of_joined more there⟩
      · obtain rfl := List.mem_singleton.mp last
        exact ⟨done.2.length, joined.length_le, Assoc.get?_put_self .., List.getElem?_concat_length ..⟩

theorem Router.nodup_addresses (router : Router) : router.addresses.Nodup :=
  Text.nodup_sortedSet _

theorem succeeds_enrollAll (settings : Health.Settings) (now : Nat) (known : Assoc String Nat)
    (members : List Member) (router : Router) :
    Succeeds settings now known members router.addresses
      (enrollAll settings now known members router) := by
  have each : ∀ addrs seen done, (seen ++ addrs).Nodup →
      Succeeds settings now known members seen done →
      Succeeds settings now known members (seen ++ addrs)
        (addrs.foldl (enroll settings now known) done) := by
    intro addrs
    induction addrs with
    | nil =>
      intro seen done _ succeeds
      rwa [List.append_nil]
    | cons addr rest ih =>
      intro seen done nodup succeeds
      have new : addr ∉ seen := by
        intro listed
        exact (List.nodup_append.mp nodup).2.2 addr listed addr List.mem_cons_self rfl
      rw [List.append_cons] at nodup ⊢
      exact ih _ _ nodup (succeeds_enroll new succeeds)
  exact each router.addresses [] ([], members) (Router.nodup_addresses router)
    ⟨rfl, List.prefix_refl _, by rintro addr ⟨⟩, by rintro addr ⟨⟩⟩

/-- The member that the routes in force have for an address. -/
def named? (c : Cluster) (addr : String) : Option Member :=
  (c.topology.numbers.get? addr).bind c.member?

/-- Whether the addresses with a number are those of the router, and every number is that of its
address's member. -/
structure Manned (replication : Config.Replication) (c : Cluster) : Prop where
  orderly : c.traffic.Orderly replication
  keys : c.topology.numbers.keys = c.topology.router.addresses

/-- What new routes make of a cluster. -/
structure Rerouted (router : Router) (c d : Cluster) : Prop where
  routes : d.topology.router = router
  version : d.topology.version = c.topology.version + 1
  succeeds : Succeeds c.settings c.now c.topology.numbers c.members router.addresses
    (d.topology.numbers, d.members)

variable {replication : Config.Replication} {c d : Cluster} {addr : String} {number : Nat}
  {plan : Route.Plan} {router : Router}

theorem reload_of_router (c : Cluster) (valid : Router.ofPlan plan = .ok router) :
    ∃ d, c.reload plan = .ok d ∧ Rerouted router c d := by
  refine ⟨_, by rw [reload, valid]; rfl, rfl, rfl, ?_⟩
  exact succeeds_enrollAll c.settings c.now _ c.members router

theorem reload_of_error (c : Cluster) {e : Failure} (bad : Router.ofPlan plan = .error e) :
    c.reload plan = .error e := by
  rw [reload, bad]
  rfl

namespace Manned

/-- A number that leads somewhere is in use. -/
theorem leads (manned : c.Manned replication)
    (numbered : c.topology.numbers.get? addr = some number) :
    ∃ m, c.named? addr = some m ∧ c.member? number = some m ∧ m.addr = addr := by
  obtain ⟨m, there, name⟩ :=
    Option.map_eq_some_iff.mp (leadsBack_of_orderly manned.orderly addr number numbered)
  exact ⟨m, by rw [named?, numbered]; exact there, there, name⟩

theorem used (manned : c.Manned replication)
    (numbered : c.topology.numbers.get? addr = some number) : number < c.members.length := by
  obtain ⟨m, -, there, -⟩ := manned.leads numbered
  exact (List.getElem?_eq_some_iff.mp there).1

theorem mem_iff (manned : c.Manned replication) :
    addr ∈ c.topology.router.addresses ↔ ∃ i, c.topology.numbers.get? addr = some i := by
  rw [← manned.keys, ← Assoc.get?_isSome_iff, Option.isSome_iff_exists]

/-- Each node of the routes has a member. -/
theorem named (manned : c.Manned replication) (listed : addr ∈ c.topology.router.addresses) :
    ∃ m, c.named? addr = some m := by
  obtain ⟨number, numbered⟩ := manned.mem_iff.mp listed
  obtain ⟨m, named, -⟩ := manned.leads numbered
  exact ⟨m, named⟩

theorem unnamed (manned : c.Manned replication) (unlisted : addr ∉ c.topology.router.addresses) :
    c.named? addr = none := by
  cases numbered : c.topology.numbers.get? addr with
  | none => rw [named?, numbered, Option.bind_none]
  | some number => exact absurd (manned.mem_iff.mpr ⟨number, numbered⟩) unlisted

end Manned

/-- A node that is known keeps its member as it is; any other gets a fresh one. -/
theorem Rerouted.named (rerouted : Rerouted router c d) (manned : c.Manned replication)
    (listed : addr ∈ router.addresses) :
    d.named? addr = some ((c.named? addr).getD (.fresh addr c.settings c.now)) := by
  obtain ⟨-, joined, stays, comes⟩ := rerouted.succeeds
  cases numbered : c.topology.numbers.get? addr with
  | some number =>
    obtain ⟨m, named, there, -⟩ := manned.leads numbered
    rw [named, named?, stays addr listed number numbered]
    exact getElem?_of_joined joined there
  | none =>
    obtain ⟨i, -, given, there⟩ := comes addr listed numbered
    rw [named?, given, named?, numbered]
    exact there

/-- A number in use stays with its address or goes for good. -/
theorem Rerouted.number_iff (rerouted : Rerouted router c d)
    (old : number < c.members.length) : d.topology.numbers.get? addr = some number ↔
      addr ∈ router.addresses ∧ c.topology.numbers.get? addr = some number := by
  obtain ⟨keys, -, stays, comes⟩ := rerouted.succeeds
  constructor
  · intro numbered
    have listed : addr ∈ router.addresses := by
      rw [← keys, ← Assoc.get?_isSome_iff, numbered]
      rfl
    refine ⟨listed, ?_⟩
    cases had : c.topology.numbers.get? addr with
    | some i => rw [← stays addr listed i had, numbered]
    | none =>
      obtain ⟨i, new, given, -⟩ := comes addr listed had
      obtain rfl : i = number := Option.some.inj (given.symm.trans numbered)
      exact absurd old (Nat.not_lt_of_le new)
  · rintro ⟨listed, had⟩
    exact stays addr listed number had

/-- The router that an event puts in place, if it does. -/
def installs? : Event → Option Router
  | .step (.reload plan) => (Router.ofPlan plan).toOption
  | _ => none

def installed (events : List Event) : List Router :=
  events.filterMap installs?

/-- An event puts a router in place, or it leaves the routes and the members' numbers alone. -/
theorem happen_routes (c : Cluster) (e : Event) :
    (∃ router, installs? e = some router ∧ Rerouted router c (c.happen e)) ∨
      installs? e = none ∧ (c.happen e).topology = c.topology ∧
        (c.happen e).members.length = c.members.length := by
  by_cases reloads : ∃ plan, e = .step (.reload plan)
  · obtain ⟨plan, rfl⟩ := reloads
    simp only [installs?, happen, step]
    cases valid : Router.ofPlan plan with
    | ok router =>
      obtain ⟨d, reloaded, rerouted⟩ := reload_of_router c valid
      rw [reloaded]
      exact .inl ⟨router, rfl, rerouted⟩
    | error e =>
      rw [reload_of_error c valid]
      exact .inr ⟨rfl, rfl, rfl⟩
  · have move := (happen_cases c e).resolve_left reloads
    refine .inr ⟨?_, (Traffic.move_fixed move).1, ?_⟩
    · unfold installs?
      split
      · exact absurd ⟨_, rfl⟩ reloads
      · rfl
    · have names := congrArg List.length (Traffic.move_names move)
      rwa [names_traffic, names_traffic, List.length_map, List.length_map] at names

theorem manned_happen (e : Event) (manned : c.Manned replication) :
    (c.happen e).Manned replication := by
  refine ⟨orderly_happen e manned.orderly, ?_⟩
  obtain ⟨router, -, rerouted⟩ | ⟨-, topology, -⟩ := happen_routes c e
  · rw [rerouted.routes]
    exact rerouted.succeeds.keys
  · rw [topology]
    exact manned.keys

theorem manned_after (events : List Event) (manned : c.Manned replication) :
    (c.after events).Manned replication := by
  induction events generalizing c with
  | nil => exact manned
  | cons e rest ih => exact ih (manned_happen e manned)

/-- A cluster begins with the routes of its plan, and knows nothing of their nodes. -/
theorem succeeds_build {limits nodeLimits : Config.Limits} {epoch : Nat}
    (built : build replication limits plan nodeLimits epoch = .ok c) :
    Router.ofPlan plan = .ok c.topology.router ∧ c.topology.version = 0 ∧
      Succeeds c.settings 0 [] [] c.topology.router.addresses (c.topology.numbers, c.members) := by
  obtain ⟨router, valid, built⟩ := ok_of_bind built
  obtain rfl := Except.ok.inj built
  exact ⟨valid, rfl, succeeds_enrollAll (.ofConfig replication) 0 [] [] router⟩

theorem manned_build {limits nodeLimits : Config.Limits} {epoch : Nat}
    (built : build replication limits plan nodeLimits epoch = .ok c) : c.Manned replication :=
  ⟨orderly_build built, (succeeds_build built).2.2.keys⟩

theorem version_after (c : Cluster) (events : List Event) :
    (c.after events).topology.version = c.topology.version + (installed events).length := by
  induction events generalizing c with
  | nil => rfl
  | cons e rest ih =>
    refine (ih (c.happen e)).trans ?_
    obtain ⟨router, installs, rerouted⟩ | ⟨installs, topology, -⟩ := happen_routes c e
    · rw [rerouted.version, installed, installed, List.filterMap_cons_some installs,
        List.length_cons]
      omega
    · rw [topology, installed, installed, List.filterMap_cons_none installs]

theorem router_after (c : Cluster) (events : List Event) :
    (c.after events).topology.router = (installed events).getLast?.getD c.topology.router := by
  induction events generalizing c with
  | nil => rfl
  | cons e rest ih =>
    refine (ih (c.happen e)).trans ?_
    obtain ⟨router, installs, rerouted⟩ | ⟨installs, topology, -⟩ := happen_routes c e
    · rw [rerouted.routes, installed, installed, List.filterMap_cons_some installs,
        List.getLast?_cons]
      rfl
    · rw [topology, installed, installed, List.filterMap_cons_none installs]

/-- A number that an address has lost it does not get again. -/
theorem number_lost (events : List Event)
    (old : number < c.members.length) (lost : c.topology.numbers.get? addr ≠ some number) :
    (c.after events).topology.numbers.get? addr ≠ some number := by
  induction events generalizing c with
  | nil => exact lost
  | cons e rest ih =>
    obtain ⟨router, -, rerouted⟩ | ⟨-, topology, same⟩ := happen_routes c e
    · refine ih (Nat.lt_of_lt_of_le old rerouted.succeeds.joined.length_le) ?_
      exact fun numbered => lost ((rerouted.number_iff old).mp numbered).2
    · exact ih (same ▸ old) (topology ▸ lost)

/-- An address keeps its number for as long as it is in every router. -/
theorem number_after (events : List Event) (manned : c.Manned replication)
    (numbered : c.topology.numbers.get? addr = some number) :
    (c.after events).topology.numbers.get? addr = some number ↔
      ∀ router ∈ installed events, addr ∈ router.addresses := by
  induction events generalizing c with
  | nil => exact iff_of_true numbered (by rintro router ⟨⟩)
  | cons e rest ih =>
    have kept := manned_happen e manned
    obtain ⟨router, installs, rerouted⟩ | ⟨installs, topology, -⟩ := happen_routes c e
    · have still : (c.happen e).topology.numbers.get? addr = some number ↔ _ :=
        rerouted.number_iff (manned.used numbered)
      rw [installed, List.filterMap_cons_some installs, List.forall_mem_cons]
      by_cases listed : addr ∈ router.addresses
      · rw [and_iff_right listed]
        exact ih kept (still.mpr ⟨listed, numbered⟩)
      · refine iff_of_false ?_ fun all => listed all.1
        refine number_lost rest ?_ fun again => listed (still.mp again).1
        exact Nat.lt_of_lt_of_le (manned.used numbered) rerouted.succeeds.joined.length_le
    · rw [installed, List.filterMap_cons_none installs]
      exact ih kept (topology ▸ numbered)

/-- What is put together anew with each router: the health of its nodes, their ready connections,
and how many routers there were before. -/
structure Registry where
  router : Router
  health : Health.Monitor
  clients : Assoc String (List Bytes)
  version : Nat

namespace Registry

/-- Nodes that `previous` has keep their health and their connections. -/
def build (settings : Health.Settings) (now : Nat) (router : Router)
    (previous : Option Registry) : Registry where
  router := router
  health := .build settings router.addresses (previous.map health) now
  clients := router.addresses.map fun addr =>
    (addr, (previous.bind fun p => p.clients.get? addr).getD [])
  version := (previous.map fun p => p.version + 1).getD 0

/-- A node as it is called: with its health and its connections. -/
def target? (r : Registry) (addr : String) : Option (Health.Node × List Bytes) := do
  return (← r.health.node? addr, ← r.clients.get? addr)

end Registry

def registry (c : Cluster) : Registry :=
  ⟨c.topology.router, c.monitor c.topology,
    (c.membersOf c.topology).map fun (addr, m) => (addr, m.idle), c.topology.version⟩

section Registry

variable {β : Type} {f : String → Option β} {addrs : List String}

/-- A map with some of these keys. -/
def tabulate (f : String → Option β) (addrs : List String) : Assoc String β :=
  addrs.filterMap fun addr => (f addr).map (addr, ·)

theorem get?_tabulate (f : String → Option β) (addrs : List String) (addr : String) :
    (tabulate f addrs).get? addr = if addr ∈ addrs then f addr else none := by
  induction addrs with
  | nil => rfl
  | cons a rest ih =>
    unfold tabulate at ih ⊢
    by_cases here : a = addr
    · subst here
      cases value : f a with
      | none => simp [value, ih]
      | some b => simp [value, Assoc.get?]
    · cases value : f a with
      | none => simp [value, ih, Ne.symm here]
      | some b => simp [value, ih, Ne.symm here, Assoc.get?, here]

theorem tabulate_of_some {g : String → β} (all : ∀ addr ∈ addrs, f addr = some (g addr)) :
    tabulate f addrs = addrs.map fun addr => (addr, g addr) := by
  rw [← List.filterMap_eq_map, tabulate]
  apply List.filterMap_congr
  intro addr listed
  rw [all addr listed]
  rfl

/-- What a cluster has for the nodes of its routes, by their addresses. -/
theorem membersOf_eq (manned : c.Manned replication) (g : Member → β) :
    ((c.membersOf c.topology).map fun (addr, m) => (addr, g m)) =
      tabulate (fun addr => (c.named? addr).map g) c.topology.router.addresses := by
  have nodup : c.topology.numbers.keys.Nodup := manned.keys ▸ Router.nodup_addresses _
  rw [tabulate, ← manned.keys, Assoc.keys, membersOf, List.map_filterMap, List.filterMap_map]
  apply List.filterMap_congr
  rintro ⟨addr, number⟩ listed
  have numbered := Assoc.get?_of_mem nodup listed
  simp only [Function.comp_apply, named?, numbered, Option.bind_some, Option.map_map]
  rfl

theorem get?_membersOf (manned : c.Manned replication) (g : Member → β) (addr : String) :
    Assoc.get? ((c.membersOf c.topology).map fun (addr, m) => (addr, g m)) addr =
      (c.named? addr).map g := by
  rw [membersOf_eq manned, get?_tabulate]
  split
  · rfl
  · rename_i unlisted
    rw [manned.unnamed unlisted]
    rfl

theorem keys_membersOf (manned : c.Manned replication) (g : Member → β) :
    Assoc.keys ((c.membersOf c.topology).map fun (addr, m) => (addr, g m)) =
      c.topology.router.addresses := by
  rw [membersOf_eq manned, tabulate, Assoc.keys, List.map_filterMap]
  conv_rhs => rw [← List.filterMap_some (l := c.topology.router.addresses)]
  apply List.filterMap_congr
  intro addr listed
  obtain ⟨m, named⟩ := manned.named listed
  rw [named]
  rfl

/-- A cluster that keeps the members of those known before, and has fresh ones for the others, has
the registry that is put together from theirs. -/
theorem registry_of_named {settings : Health.Settings} {now : Nat} {previous : Option Registry}
    (old : String → Option Member) (manned : c.Manned replication)
    (named : ∀ addr ∈ c.topology.router.addresses,
      c.named? addr = some ((old addr).getD (.fresh addr settings now)))
    (health : ∀ addr, (previous.bind fun p => p.health.nodes.get? addr) =
      (old addr).map Member.health)
    (clients : ∀ addr, (previous.bind fun p => p.clients.get? addr) = (old addr).map Member.idle)
    (version : c.topology.version = (previous.map fun p => p.version + 1).getD 0)
    (same : c.settings = settings) :
    c.registry = .build settings now c.topology.router previous := by
  have nodes {β : Type} (g : Member → β) :
      ((c.membersOf c.topology).map fun (addr, m) => (addr, g m)) =
        c.topology.router.addresses.map fun addr =>
          (addr, ((old addr).map g).getD (g (.fresh addr settings now))) := by
    rw [membersOf_eq manned]
    apply tabulate_of_some
    intro addr listed
    rw [named addr listed]
    cases old addr <;> rfl
  have health_eq : c.monitor c.topology =
      .build settings c.topology.router.addresses (previous.map Registry.health) now := by
    rw [monitor, same, nodes Member.health, Health.Monitor.build]
    rw [Router.addresses, Text.sortedSet_sortedSet]
    simp only [← health]
    cases previous <;> rfl
  rw [registry, Registry.build, nodes Member.idle, version, health_eq]
  simp only [clients]
  rfl

end Registry

theorem registry_build {limits nodeLimits : Config.Limits} {epoch : Nat}
    (built : build replication limits plan nodeLimits epoch = .ok c) :
    c.registry = .build c.settings 0 c.topology.router none := by
  obtain ⟨-, first, succeeds⟩ := succeeds_build built
  refine registry_of_named (fun _ => none) (manned_build built) ?_ (fun _ => rfl)
    (fun _ => rfl) first rfl
  intro addr listed
  obtain ⟨i, -, given, there⟩ := succeeds.comes addr listed rfl
  rw [named?, given]
  exact there

/-- New routes put the registry together from the one before. -/
theorem Rerouted.registry_eq (rerouted : Rerouted router c d) (manned : c.Manned replication)
    (later : d.Manned replication) :
    d.registry = .build c.settings c.now router (some c.registry) := by
  have same : d.settings = c.settings := by
    have before : c.replication = replication := manned.orderly.replicates
    have after : d.replication = replication := later.orderly.replicates
    rw [settings, settings, before, after]
  rw [← rerouted.routes]
  refine registry_of_named c.named? later ?_ ?_ ?_ rerouted.version same
  · intro addr listed
    exact rerouted.named manned (rerouted.routes ▸ listed)
  · exact fun addr => get?_membersOf manned Member.health addr
  · exact fun addr => get?_membersOf manned Member.idle addr

/-! ## Nodes under changing routes -/

/-- Whether nothing is known of a node yet: its circuit is closed, it has no samples, and no
connection is ready. -/
structure Member.IsNew (m : Member) : Prop where
  closed : m.health.breaker.circuit = .closed
  unfailed : m.health.breaker.failures = 0
  unsampled : m.health.samples.slots = []
  unsized : m.health.sizes = []
  unconnected : m.idle = []

theorem Member.isNew_fresh (addr : String) (settings : Health.Settings) (now : Nat) :
    (Member.fresh addr settings now).IsNew :=
  ⟨rfl, rfl, rfl, rfl, rfl⟩

theorem target_isSome (manned : c.Manned replication) (bucket : Nat)
    (node : addr ∈ (c.topology.router.resolve bucket).all) :
    (c.registry.target? addr).isSome = true := by
  obtain ⟨m, named⟩ := manned.named (Router.mem_addresses node)
  have health : c.registry.health.node? addr = some m.health :=
    (get?_membersOf manned Member.health addr).trans (congrArg _ named)
  have client : c.registry.clients.get? addr = some m.idle :=
    (get?_membersOf manned Member.idle addr).trans (congrArg _ named)
  rw [Registry.target?, health, client]
  rfl

/-- Whatever happens and whichever routes come, good or bad: the version counts the routers that
were put in place, the router is the last of them, and health, connections and router are about the
same nodes, so that each node of each bucket can be called. A router that is put in place leaves the
members of the nodes that stay as they are and has a new one for any other node; and a node is the
one it was before for exactly as long as every router has it. -/
theorem nodes_outlast_routes {limits nodeLimits : Config.Limits} {epoch : Nat}
    (built : build replication limits plan nodeLimits epoch = .ok c) (events : List Event) :
    let d := c.after events
    let addresses := d.topology.router.addresses
    c.registry = .build c.settings 0 c.topology.router none ∧
    d.registry.version = (installed events).length ∧
    ((Router.ofPlan plan).toOption.toList ++ installed events).getLast? = some d.registry.router ∧
    d.registry.health.nodes.keys = addresses ∧ d.registry.clients.keys = addresses ∧
    (∀ bucket, ∀ addr ∈ (d.registry.router.resolve bucket).all,
      (d.registry.target? addr).isSome = true) ∧
    (∀ plan e, Router.ofPlan plan = .error e →
      d.reload plan = .error e ∧ d.step (.reload plan) = d) ∧
    (∀ plan router, Router.ofPlan plan = .ok router →
      let next := d.step (.reload plan)
      d.reload plan = .ok next ∧ next.registry = .build d.settings d.now router (some d.registry) ∧
      ∀ addr ∈ router.addresses,
        (addr ∈ addresses → ∃ m, d.named? addr = some m ∧ next.named? addr = some m) ∧
        (addr ∉ addresses → ∃ m, next.named? addr = some m ∧ m.addr = addr ∧ m.IsNew)) ∧
    ∀ addr number, d.topology.numbers.get? addr = some number → ∀ later,
      (d.after later).topology.numbers.get? addr = some number ↔
        ∀ router ∈ installed later, addr ∈ router.addresses := by
  intro d addresses
  obtain ⟨valid, first, -⟩ := succeeds_build built
  have manned : d.Manned replication := manned_after events (manned_build built)
  refine ⟨registry_build built, ?version, ?router, keys_membersOf manned _,
    keys_membersOf manned _, fun bucket addr => target_isSome manned bucket, ?bad, ?good, ?numbers⟩
  case version =>
    refine (version_after c events).trans ?_
    rw [first, Nat.zero_add]
  case router =>
    rw [valid]
    refine List.getLast?_cons.trans (congrArg some ?_)
    exact (router_after c events).symm
  case bad =>
    intro plan e bad
    have refused := reload_of_error d bad
    exact ⟨refused, by rw [step, refused]⟩
  case good =>
    intro plan router valid next
    obtain ⟨reached, reloaded, rerouted⟩ := reload_of_router d valid
    obtain rfl : next = reached := by simp only [next, step, reloaded]
    have later : next.Manned replication := manned_happen (.step (.reload plan)) manned
    refine ⟨reloaded, rerouted.registry_eq manned later, fun addr listed => ⟨?stays, ?comes⟩⟩
    case stays =>
      intro stays
      obtain ⟨m, named⟩ := manned.named stays
      exact ⟨m, named, by rw [rerouted.named manned listed, named]; rfl⟩
    case comes =>
      intro comes
      refine ⟨.fresh addr d.settings d.now, ?_, rfl, Member.isNew_fresh ..⟩
      rw [rerouted.named manned listed, manned.unnamed comes]
      rfl
  case numbers =>
    intro addr number numbered later
    exact number_after later manned numbered

/-- One node has the only bucket. -/
def planOf (addr : String) : Route.Plan :=
  ⟨1, [⟨addr, ["0"]⟩], []⟩

/-- A node that goes and comes back is a new one; one whose routes were only read again is not. -/
theorem nodes_outlast_routes_back :
    ∃ c, build (quorums 1 1 1) ⟨250, 100⟩ (planOf "a") ⟨250, 100⟩ 0 = .ok c ∧
      let bad := Event.step (.reload ⟨0, [], []⟩)
      let a := Event.step (.reload (planOf "a"))
      let b := Event.step (.reload (planOf "b"))
      (c.after [bad, b]).registry.version = 1 ∧
      c.topology.numbers.get? "a" = some 0 ∧
      (c.after [bad, a]).topology.numbers.get? "a" = some 0 ∧
      (c.after [bad, b, a]).topology.numbers.get? "a" ≠ some 0 ∧
      ∃ m, (c.after [bad, b, a]).named? "a" = some m ∧ m.IsNew := by
  have built := build_one 1 1 1 ⟨250, 100⟩
  refine ⟨_, built, ?_⟩
  intro bad a b
  obtain ⟨-, -, -, -, -, -, -, -, numbers⟩ := nodes_outlast_routes built []
  obtain ⟨-, version, -, -, -, -, -, good, -⟩ := nodes_outlast_routes built [bad, b]
  have first : (ofReplicas (quorums 1 1 1) ⟨250, 100⟩ ⟨["a"], []⟩).topology.numbers.get? "a" =
      some 0 := by decide +kernel
  refine ⟨version.trans (by decide +kernel), first, ?again, ?other, ?new⟩
  case again => exact (numbers "a" 0 first [bad, a]).mpr (by decide +kernel)
  case other =>
    intro same
    exact absurd ((numbers "a" 0 first [bad, b, a]).mp same) (by decide +kernel)
  case new =>
    obtain ⟨-, -, members⟩ := good (planOf "a") ⟨[⟨["a"], []⟩]⟩ rfl
    obtain ⟨m, named, -, new⟩ := (members "a" (by decide +kernel)).2 (by decide +kernel)
    exact ⟨m, named, new⟩

end QuorumKv.Cluster
