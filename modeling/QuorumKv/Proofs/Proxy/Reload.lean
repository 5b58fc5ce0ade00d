import QuorumKv.Proofs.Cluster.Sound
import QuorumKv.Proofs.Cluster.Verdict
import QuorumKv.Proofs.Dispatch.Served
import QuorumKv.Proxy

/-! A proxy under reloads. Each reads all that it needs and checks it before it puts anything in
place, so one that fails leaves the proxy as it was; and no table that needs a store which is not
there is ever put in place, so no request misses one. -/
namespace QuorumKv

open Dispatch (IsThere NotMissing missing)
open Migration (Side Table)

namespace Remote

variable {σ α β : Type} {send : Transport σ}

theorem notMissing_bind {r : Except Failure α} {f : α → Except Failure β} (first : NotMissing r)
    (second : ∀ a, NotMissing (f a)) : NotMissing (r >>= f) := by
  cases r with
  | error e =>
    intro same
    exact first (congrArg Except.error (Except.error.inj same))
  | ok a => exact second a

theorem notMissing_requestTo (method url : String) (headers : List (String × Bytes))
    (body : Bytes) : NotMissing (requestTo method url headers body) := by
  unfold requestTo
  split <;> exact nofun

theorem notMissing_exchange (honest : ∀ request s, NotMissing (send request s).1)
    {endpoint key : String} {request : Except Failure Web.Request} {absent : Except Failure α}
    {read : Web.Response → Except Failure α} (usable : NotMissing request)
    (absence : NotMissing absent) (reading : ∀ r, NotMissing (read r)) (s : σ) :
    NotMissing (exchange send endpoint key request absent read s).1 := by
  cases request with
  | error e =>
    intro same
    exact usable (congrArg Except.error (Except.error.inj same))
  | ok request =>
    apply notMissing_bind (honest request s)
    intro r
    unfold meaning
    split
    · exact absence
    · split
      · exact reading r
      · split <;> exact nofun

theorem notMissing_get (honest : ∀ request s, NotMissing (send request s).1)
    (endpoint key : String) (s : σ) : NotMissing (get send endpoint key s).1 := by
  apply notMissing_exchange honest (notMissing_requestTo _ _ _ _)
  · exact nofun
  · intro r
    exact nofun

theorem notMissing_getEach (honest : ∀ request s, NotMissing (send request s).1)
    (endpoint : String) (keys : List String) (s : σ) :
    NotMissing (getEach send endpoint keys s).1 := by
  induction keys generalizing s with
  | nil => exact nofun
  | cons key later ih =>
    unfold getEach
    have first := notMissing_get honest endpoint key s
    generalize get send endpoint key s = answered at first ⊢
    apply notMissing_bind first
    intro item
    apply notMissing_bind (ih answered.2)
    intro more
    exact nofun

/-- Behind a web server there is a store. -/
theorem notMissing_ask (honest : ∀ request s, NotMissing (send request s).1) (endpoint : String)
    (q : Ask) (s : σ) : NotMissing (ask send endpoint q s).1 := by
  unfold ask
  cases q with
  | get key => exact notMissing_get honest endpoint key s
  | getMeta key =>
    apply notMissing_exchange honest (notMissing_requestTo _ _ _ _)
    · exact nofun
    · intro r
      unfold metaOfBody
      split <;> exact nofun
  | getMulti keys => exact notMissing_getEach honest endpoint keys s
  | set key item =>
    apply notMissing_exchange honest (notMissing_requestTo _ _ _ _)
    · exact nofun
    · intro r
      exact nofun
  | delete key =>
    apply notMissing_exchange honest (notMissing_requestTo _ _ _ _)
    · exact nofun
    · intro r
      exact nofun

end Remote

namespace Proxy

theorem notMissing_askReplicas {σ : Type} (net : Network σ) (q : Ask) (p : Proxy) :
    NotMissing (p.askReplicas net q).1 := by
  intro refused
  obtain verdict | unanswered := Cluster.perform_error refused
  · cases verdict
  · cases unanswered

theorem notMissing_allowed {p : Proxy} {q : Ask} {e : Failure} (refused : p.allowed q = .error e) :
    e ≠ missing := by
  rintro rfl
  cases q <;>
    · simp only [allowed] at refused
      split at refused
      · cases refused
      · exact absurd refused (by decide)

/-- Whatever a store is asked, the table and the configuration stay as they are. -/
theorem answer_fixed {σ : Type} (net : Network σ) (side : Side) (q : Ask) (p : Proxy) (s : σ) :
    (answer net side q (p, s)).2.1.table = p.table ∧
      (answer net side q (p, s)).2.1.config = p.config := by
  unfold answer
  simp only
  split
  · split <;> exact ⟨rfl, rfl⟩
  · exact ⟨rfl, rfl⟩
  · exact ⟨rfl, rfl⟩

theorem notMissing_answer {σ : Type} {net : Network σ}
    (honest : ∀ request s, NotMissing (net.send request s).1) {side : Side} (q : Ask) {p : Proxy}
    (s : σ) (there : IsThere p.hasNew side) : NotMissing (answer net side q (p, s)).1 := by
  unfold answer
  simp only
  split
  · split
    · rename_i e refused
      intro same
      exact notMissing_allowed refused (Except.error.inj same)
    · exact notMissing_askReplicas net q p
  · exact Remote.notMissing_ask honest _ q s
  · rename_i none
    have configured := there rfl
    rw [hasNew, none] at configured
    cases configured

inductive Reload where
  | install (table : Table)
  | readSwitch (d : Option Config.Directory)
  | readRoute (d : Option Config.Directory)

namespace Reload

/-- The proxy that a reload leads to. -/
def next (p : Proxy) : Reload → Except Failure Proxy
  | install table => p.install table
  | readSwitch d => p.reloadSwitch d
  | readRoute d => p.reloadRoute d

/-- What is done on the live proxy, step by step. What was put in place stays there if a later step
fails. -/
abbrev Doing := ExceptT Failure (StateM Proxy) Unit

def Doing.run (d : Doing) (p : Proxy) : Except Failure Unit × Proxy :=
  Id.run (StateT.run (ExceptT.run d) p)

theorem Doing.run_get (f : Proxy → Doing) (p : Proxy) :
    Doing.run (get >>= f) p = Doing.run (f p) p :=
  rfl

theorem Doing.run_check {α : Type} (r : Except Failure α) (f : α → Doing) (p : Proxy) :
    Doing.run (ofExcept r >>= f) p = match r with
      | .ok a => Doing.run (f a) p
      | .error e => (.error e, p) := by
  cases r <;> rfl

def installing (table : Table) : Doing := do
  let p ← get
  ofExcept (Dispatch.checkTable p.hasNew table)
  modify fun p => { p with warned := p.warned ++ Migration.warnings p.table table }
  modify fun p => { p with table := table }

def routing (plan : Route.Plan) : Doing := do
  let router ← ofExcept (Router.ofPlan plan)
  let p ← get
  let c := p.cluster
  let (numbers, members) := Cluster.enrollAll c.settings c.now c.topology.numbers c.members router
  set { p with cluster := { c with members := members } }
  modify fun p => { p with cluster := { p.cluster with
    topology := ⟨router, numbers, p.cluster.topology.version + 1⟩ } }

/-- The steps of a reload in their order. -/
def steps : Reload → Doing
  | install table => installing table
  | readSwitch d => do
    let table ← ofExcept (readTable d)
    installing table
  | readRoute d => do
    let plan ← ofExcept (Proxy.readRoute d)
    routing plan

/-- A reload on a proxy: whether it succeeds, and the proxy afterwards. -/
def perform (reload : Reload) (p : Proxy) : Except Failure Unit × Proxy :=
  Doing.run reload.steps p

/-- A proxy after a reload that came to something, or the old one. -/
def orOld (p : Proxy) : Except Failure Proxy → Except Failure Unit × Proxy
  | .ok later => (.ok (), later)
  | .error e => (.error e, p)

theorem run_installing (table : Table) (p : Proxy) :
    Doing.run (installing table) p = orOld p (p.install table) := by
  rw [installing, Doing.run_get, Doing.run_check, Proxy.install]
  cases Dispatch.checkTable p.hasNew table <;> rfl

theorem run_routing (plan : Route.Plan) (p : Proxy) :
    Doing.run (routing plan) p = orOld p (p.installRoute plan) := by
  rw [routing, Doing.run_check, Proxy.installRoute, Cluster.reload]
  cases Router.ofPlan plan <;> rfl

/-- Step by step, a reload leads to the next proxy or fails with nothing put in place. -/
theorem perform_eq (reload : Reload) (p : Proxy) :
    reload.perform p = orOld p (reload.next p) := by
  unfold perform
  cases reload with
  | install table => exact run_installing table p
  | readSwitch d =>
    rw [steps, Doing.run_check, next, reloadSwitch]
    cases readTable d with
    | error e => rfl
    | ok table => exact run_installing table p
  | readRoute d =>
    rw [steps, Doing.run_check, next, reloadRoute]
    cases Proxy.readRoute d with
    | error e => rfl
    | ok plan => exact run_routing plan p

end Reload

/-- Whether every store that the table needs is there. -/
def Supplied (p : Proxy) : Prop :=
  Dispatch.checkTable p.hasNew p.table = .ok ()

theorem supplied_build {config : Config} {plan : Route.Plan} {nodeLimits : Config.Limits}
    {epoch : Nat} {p : Proxy} (built : build config plan nodeLimits epoch = .ok p) :
    p.Supplied := by
  obtain ⟨cluster, -, built⟩ := ok_of_bind built
  obtain ⟨table, -, built⟩ := ok_of_bind built
  obtain ⟨done, checked, built⟩ := ok_of_bind built
  obtain rfl := Except.ok.inj built
  exact checked

theorem supplied_install {p later : Proxy} {table : Table}
    (installed : p.install table = .ok later) : later.Supplied := by
  obtain ⟨done, checked, installed⟩ := ok_of_bind installed
  obtain rfl := Except.ok.inj installed
  exact checked

theorem supplied_next {p later : Proxy} (reload : Reload) (reloaded : reload.next p = .ok later)
    (supplied : p.Supplied) : later.Supplied := by
  cases reload with
  | install table => exact supplied_install reloaded
  | readSwitch d =>
    obtain ⟨table, -, installed⟩ := ok_of_bind reloaded
    exact supplied_install installed
  | readRoute d =>
    obtain ⟨plan, -, installed⟩ := ok_of_bind reloaded
    obtain ⟨cluster, -, installed⟩ := ok_of_bind installed
    obtain rfl := Except.ok.inj installed
    exact supplied

/-- What happens to a proxy. -/
inductive Event where
  | reload (reload : Reload)
  /-- Its cluster goes on, in whatever way. -/
  | traffic (cluster : Cluster)

def happen (p : Proxy) : Event → Proxy
  | .reload reload => (reload.perform p).2
  | .traffic cluster => { p with cluster := cluster }

def after (p : Proxy) (events : List Event) : Proxy :=
  events.foldl happen p

theorem supplied_happen {p : Proxy} (event : Event) (supplied : p.Supplied) :
    (p.happen event).Supplied := by
  cases event with
  | reload reload =>
    rw [happen, Reload.perform_eq]
    cases reloaded : reload.next p with
    | error e => exact supplied
    | ok later => exact supplied_next reload reloaded supplied
  | traffic cluster => exact supplied

theorem supplied_after {p : Proxy} (events : List Event) (supplied : p.Supplied) :
    (p.after events).Supplied := by
  induction events generalizing p with
  | nil => exact supplied
  | cons event rest ih => exact ih (supplied_happen event supplied)

/-- A proxy that needs no store which is not there misses none. -/
theorem notMissing_request {σ : Type} {net : Network σ}
    (honest : ∀ request s, NotMissing (net.send request s).1) {p : Proxy} (supplied : p.Supplied)
    (q : Ask) (s : σ) : NotMissing (request net q (p, s)).1 := by
  -- Requests leave the table and the configuration alone, and so what is there.
  let same : Proxy × σ → Prop := fun s => s.1.table = p.table ∧ s.1.config = p.config
  have allowed : ∀ s, same s → Dispatch.checkTable p.hasNew s.1.table = .ok () := by
    rintro s ⟨table, -⟩
    rw [table]
    exact supplied
  have answers : ∀ side q s, same s → IsThere p.hasNew side →
      NotMissing (answer net side q s).1 ∧ same (answer net side q s).2 := by
    rintro side q ⟨later, s⟩ ⟨table, config⟩ there
    obtain ⟨table_kept, config_kept⟩ := answer_fixed net side q later s
    have known : IsThere later.hasNew side := by
      rw [hasNew, config]
      exact there
    exact ⟨notMissing_answer honest q s known, table_kept.trans table, config_kept.trans config⟩
  have run := @Dispatch.good_of_run _ _ (host net) p.hasNew NotMissing same allowed answers
    (fun _ _ kept => kept) (fun _ _ kept => kept) (fun _ _ kept => kept) _
    (Dispatch.request_isServed p.hasNew q) (p, s) ⟨rfl, rfl⟩
  exact run.1

/-- However a proxy is reloaded, the stores that its table sends a key to are there, no request is
told that one is missing, and a reload that fails leaves the whole proxy as it was. -/
theorem no_store_missing {config : Config} {plan : Route.Plan} {nodeLimits : Config.Limits}
    {epoch : Nat} {p : Proxy} (built : build config plan nodeLimits epoch = .ok p)
    (events : List Event) :
    let later := p.after events
    (∀ key, ∀ side ∈ Dispatch.sides (later.table.route key), ∀ cmd q,
      Dispatch.askStore later.hasNew cmd side q = .call cmd side q) ∧
    (∀ {σ : Type} (net : Network σ), (∀ request s, NotMissing (net.send request s).1) →
      ∀ q s, NotMissing (request net q (later, s)).1) ∧
    ∀ (reload : Reload) (e : Failure), (reload.perform later).1 = .error e →
      (reload.perform later).2 = later := by
  intro later
  have supplied : later.Supplied := supplied_after events (supplied_build built)
  refine ⟨?there, ?requests, ?reloads⟩
  case there =>
    intro key side listed cmd q
    exact Dispatch.askStore_of_there (Dispatch.there_of_listed supplied key listed) cmd q
  case requests =>
    intro σ net honest q s
    exact notMissing_request honest supplied q s
  case reloads =>
    intro reload e failed
    rw [Reload.perform_eq] at failed ⊢
    cases reloaded : reload.next later with
    | error why => rfl
    | ok next =>
      rw [reloaded] at failed
      cases failed

/-- Without a new store. -/
def plainConfig : Config where
  server := .default
  limits := ⟨250, 100⟩
  replication := Cluster.quorums 1 1 1
  switch := Config.defaultSwitch
  remote := none

theorem build_plain (nodeLimits : Config.Limits) :
    build plainConfig ⟨1, [⟨"a", ["0"]⟩], []⟩ nodeLimits 0 =
      .ok ⟨plainConfig, ⟨.brw, []⟩,
        Cluster.ofReplicas (Cluster.quorums 1 1 1) nodeLimits ⟨["a"], []⟩, []⟩ := by
  have table : Table.ofPlan Config.defaultSwitch = .ok ⟨.brw, []⟩ := by decide +kernel
  have cluster := Cluster.build_one 1 1 1 nodeLimits
  simp only [build, plainConfig, cluster, table, bind, Except.bind]
  rfl

/-- Its reloads fail, and its requests go on as before. -/
theorem no_store_missing_plain :
    ∃ p, build plainConfig ⟨1, [⟨"a", ["0"]⟩], []⟩ ⟨250, 100⟩ 0 = .ok p ∧
      let needless : Reload := .install ⟨.crw, []⟩
      let later := p.after [.reload needless, .reload (.readSwitch none)]
      later.table.route "k" = .brw ∧
      (∀ cmd q, Dispatch.askStore later.hasNew cmd .legacy q = .call cmd .legacy q) ∧
      NotMissing (request .offline (.get "k") (later, ())).1 ∧
      (∃ e, (needless.perform later).1 = .error e) ∧ (needless.perform later).2 = later := by
  refine ⟨_, build_plain _, ?_⟩
  intro needless later
  obtain ⟨there, requests, reloads⟩ := no_store_missing (build_plain ⟨250, 100⟩)
    [.reload needless, .reload (.readSwitch none)]
  have stage : later.table.route "k" = .brw := rfl
  have refused : (needless.perform later).1 =
      .error (.config "switch table routes keys to the new backend, but none is configured") := rfl
  refine ⟨stage, ?_, requests .offline (fun _ _ => nofun) (.get "k") (), ⟨_, refused⟩,
    reloads needless _ refused⟩
  intro cmd q
  exact there "k" .legacy (by rw [stage]; decide) cmd q

end Proxy

end QuorumKv
