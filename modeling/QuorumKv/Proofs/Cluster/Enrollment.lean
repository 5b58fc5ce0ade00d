import QuorumKv.Cluster
import QuorumKv.Proofs.Assoc
import QuorumKv.Proofs.Route

/-! Enrolling the nodes of a router: each of its addresses gets a number that leads back to it, and
the members that were there keep theirs. -/
namespace QuorumKv.Cluster

/-- Whether the number of every address is that of its member. -/
def LeadsBack (numbers : Assoc String Nat) (members : List Member) : Prop :=
  ∀ addr i, numbers.get? addr = some i → (members[i]?).map Member.addr = some addr

/-- What some members become when some addresses are enrolled. -/
structure Enrolled (members : List Member) (addrs : List String)
    (done : Assoc String Nat × List Member) : Prop where
  leads : LeadsBack done.1 done.2
  joined : members <+: done.2
  quiet : ∀ m ∈ done.2, m ∉ members → m.idle = []
  covers : ∀ addr ∈ addrs, ∃ i, done.1.get? addr = some i

variable {members : List Member} {known : Assoc String Nat}

/-- What is added comes after all that was there. -/
theorem getElem?_of_joined {α : Type} {xs more : List α} {i : Nat} {x : α} (joined : xs <+: more)
    (known : xs[i]? = some x) : more[i]? = some x := by
  obtain ⟨inside, same⟩ := List.getElem?_eq_some_iff.mp known
  rw [List.prefix_iff_getElem?.mp joined i inside, same]

theorem LeadsBack.mono {more : List Member} (leads : LeadsBack known members)
    (joined : members <+: more) : LeadsBack known more := by
  intro addr i numbered
  obtain ⟨m, member, name⟩ := Option.map_eq_some_iff.mp (leads addr i numbered)
  rw [getElem?_of_joined joined member, Option.map_some, name]

theorem LeadsBack.put {addr : String} {number : Nat} (leads : LeadsBack known members)
    (there : (members[number]?).map Member.addr = some addr) :
    LeadsBack (known.put addr number) members := by
  intro a i numbered
  rw [Assoc.get?_put] at numbered
  split at numbered
  · rename_i here
    obtain rfl := Option.some.inj numbered
    exact here ▸ there
  · exact leads a i numbered

theorem enrolled_enroll {settings : Health.Settings} {now : Nat} {addrs : List String}
    {done : Assoc String Nat × List Member} (addr : String) (leads : LeadsBack known members)
    (enrolled : Enrolled members addrs done) :
    Enrolled members (addrs ++ [addr]) (enroll settings now known done addr) := by
  have covers {number : Nat} :
      ∀ a ∈ addrs ++ [addr], ∃ i, (done.1.put addr number).get? a = some i := by
    intro a listed
    rw [Assoc.get?_put]
    split
    · exact ⟨number, rfl⟩
    · rename_i other
      obtain earlier | last := List.mem_append.mp listed
      · exact enrolled.covers a earlier
      · exact absurd (List.mem_singleton.mp last).symm other
  unfold enroll
  cases numbered : known.get? addr with
  | some number =>
    refine ⟨enrolled.leads.put ?_, enrolled.joined, enrolled.quiet, covers⟩
    exact leads.mono enrolled.joined addr number numbered
  | none =>
    have more := List.prefix_append done.2 [⟨Health.Node.fresh addr settings now, []⟩]
    refine ⟨(enrolled.leads.mono more).put ?_, enrolled.joined.trans more, ?_, covers⟩
    · simp [Member.addr, Health.Node.fresh]
    · intro m listed new
      obtain old | last := List.mem_append.mp listed
      · exact enrolled.quiet m old new
      · obtain rfl := List.mem_singleton.mp last
        rfl

theorem enrolled_enrollAll (settings : Health.Settings) (now : Nat) (router : Router)
    (leads : LeadsBack known members) :
    Enrolled members router.addresses (enrollAll settings now known members router) := by
  have each : ∀ addrs seen done, Enrolled members seen done →
      Enrolled members (seen ++ addrs) (addrs.foldl (enroll settings now known) done) := by
    intro addrs
    induction addrs with
    | nil =>
      intro seen done enrolled
      rwa [List.append_nil]
    | cons addr rest ih =>
      intro seen done enrolled
      rw [List.append_cons]
      exact ih _ _ (enrolled_enroll addr leads enrolled)
  apply each router.addresses []
  constructor
  · intro addr i numbered
    cases numbered
  · exact List.prefix_refl members
  · exact fun m old new => absurd old new
  · exact nofun

theorem enrolled_build {replication : Config.Replication} {limits nodeLimits : Config.Limits}
    {plan : Route.Plan} {epoch : Nat} {c : Cluster}
    (built : build replication limits plan nodeLimits epoch = .ok c) :
    Enrolled [] c.topology.router.addresses (c.topology.numbers, c.members) := by
  obtain ⟨router, -, built⟩ := ok_of_bind built
  obtain rfl := Except.ok.inj built
  exact enrolled_enrollAll _ 0 router nofun

/-- Whether every node of every bucket has a number that leads back to it. -/
def Topology.Serves (routes : Topology) (names : List String) : Prop :=
  ∀ bucket, ∀ addr ∈ (routes.router.resolve bucket).all, ∃ i,
    routes.numbers.get? addr = some i ∧ names[i]? = some addr

theorem Topology.Serves.mono {routes : Topology} {names more : List String}
    (serves : routes.Serves names) (joined : names <+: more) : routes.Serves more := by
  intro bucket addr node
  obtain ⟨i, numbered, name⟩ := serves bucket addr node
  exact ⟨i, numbered, getElem?_of_joined joined name⟩

theorem Enrolled.serves {router : Router} {done : Assoc String Nat × List Member}
    (enrolled : Enrolled members router.addresses done) (version : Nat) :
    Topology.Serves ⟨router, done.1, version⟩ (done.2.map Member.addr) := by
  intro bucket addr node
  obtain ⟨i, numbered⟩ := enrolled.covers addr (Router.mem_addresses node)
  refine ⟨i, numbered, ?_⟩
  rw [List.getElem?_map]
  exact enrolled.leads addr i numbered

end QuorumKv.Cluster
