import QuorumKv.Proofs.Cluster.Account
import QuorumKv.Proofs.Dispatch.Freed
import QuorumKv.Proofs.Proxy.Reload
import QuorumKv.Proxy.Session

/-! A proxy with any number of clients at once. Their requests take turns step by step, and between
two steps anything may happen to the nodes, the routes and the switch table; a call to a node may
outlive the request that made it. However all of this goes, the account of buffers reads what the
requests and the calls under way hold. -/
namespace QuorumKv.Proxy

open Buffer (Guard usageOf)
open Dispatch (Script)
open Dispatch.Script (frees_then)
open Migration (Side)

namespace Session

theorem frees_lookupMetas (s : Session) (keys : List String) (found : Assoc String Item) :
    (s.lookupMetas keys found).Frees [] := by
  induction keys generalizing found with
  | nil => exact rfl
  | cons requested rest ih =>
    unfold lookupMetas
    split
    · split
      · refine frees_then (Dispatch.frees_lookup _ _ _ _) fun r => ?_
        split
        · exact rfl
        · exact ih found
        · exact ih _
      · exact ih found
    · exact ih found

theorem frees_lookupPlain (s : Session) (keys : List String) : (s.lookupPlain keys).Frees [] := by
  unfold lookupPlain
  split
  · exact rfl
  · refine frees_then (Dispatch.frees_lookup _ _ _ _) fun r => ?_
    split <;> exact rfl
  · exact Dispatch.frees_getMulti _ _

theorem frees_lookup (s : Session) (keys : List String) : (s.lookup keys).Frees [] := by
  refine frees_then (s.frees_lookupMetas keys []) fun r => ?_
  split
  · exact rfl
  · refine frees_then (s.frees_lookupPlain _) fun r => ?_
    split <;> exact rfl

theorem frees_writeValues (withRev : Bool) (values : List (String × Item)) :
    (writeValues withRev values).Frees [] := by
  induction values with
  | nil => exact rfl
  | cons value rest ih =>
    refine frees_then (Script.frees_holding _ rfl) fun first => ?_
    exact frees_then ih fun more => rfl

theorem frees_execute (s : Session) (request : Wire.Request) : (s.execute request).Frees [] := by
  unfold execute
  split
  · refine frees_then (s.frees_lookup _) fun r => ?_
    split
    · exact frees_writeValues ..
    · exact rfl
  · refine frees_then ?_ fun _ => rfl
    unfold storeItem
    split
    · refine frees_then (Dispatch.frees_set _ _ _) fun r => ?_
      split <;> exact rfl
    · exact rfl
  · refine frees_then ?_ fun _ => rfl
    unfold deleteKey
    split
    · refine frees_then (Dispatch.frees_delete _ _) fun r => ?_
      split <;> exact rfl
    · exact rfl
  · exact rfl
  · exact rfl

theorem frees_replies (s : Session) (frames : List Wire.Frame) : (s.replies frames).Frees [] := by
  induction frames with
  | nil => exact rfl
  | cons frame rest ih =>
    refine frees_then ?_ fun first => frees_then ih fun more => rfl
    unfold reply
    split
    · exact s.frees_execute _
    · exact rfl
    · exact rfl
    · exact rfl
    · exact rfl

end Session

/-- What a client wants: one thing, or a session in which it sends these bytes. -/
inductive Job where
  | request (q : Ask)
  | session (bytes : Bytes)

namespace Job

abbrev Result : Job → Type
  | request q => q.Outcome
  | session _ => List Bytes

def script (p : Proxy) : (job : Job) → Script job.Result
  | request q => Dispatch.request p.hasNew q
  | session bytes => Session.run ⟨p.config.limits, p.hasNew⟩ bytes

theorem frees_script (p : Proxy) (job : Job) : (job.script p).Frees [] := by
  cases job with
  | request q => exact Dispatch.frees_request p.hasNew q
  | session bytes => exact Session.frees_replies ..

end Job

/-- How far a request is. -/
inductive Work (α : Type) where
  | ready (script : Script α)
  /-- An operation on the replicas has to end first. -/
  | waiting (operation : Nat) (q : Ask) (next : q.Outcome → Script α)

namespace Work

def result? {α : Type} : Work α → Option α
  | ready (.done a) => some a
  | _ => none

def Frees {α : Type} : Work α → List Guard → Prop
  | ready script, guards => script.Frees guards
  | waiting _ _ next, guards => ∀ r, (next r).Frees guards

end Work

/-- One request, with what it holds in memory. -/
structure Task where
  job : Job
  held : List Guard
  work : Work job.Result

namespace Task

/-- A request goes one step. What the new store answers, if it is asked, is told. -/
def go (told : (q : Ask) → q.Outcome) (t : Task) (p : Proxy) : Task × Proxy :=
  match t.work with
  | .ready (.done _) => (t, p)
  | .ready (.table next) => ({ t with work := .ready (next p.table) }, p)
  | .ready (.ask .legacy q next) =>
    match p.allowed q with
    | .error e => ({ t with work := .ready (next (.error e)) }, p)
    | .ok () => ({ t with work := .waiting p.cluster.next q next },
        { p with cluster := p.cluster.begin q })
  | .ready (.ask .new q next) => ({ t with work := .ready (next (told q)) }, p)
  | .ready (.hold g next) => ({ t with held := g :: t.held, work := .ready next },
      { p with cluster := p.cluster.hold (some g) })
  | .ready (.release g next) => ({ t with held := t.held.erase g, work := .ready next },
      { p with cluster := p.cluster.release (some g) })
  | .ready (.note e next) => ({ t with work := .ready next },
      { p with cluster := { p.cluster with metrics := e.count 0 p.cluster.metrics } })
  | .waiting operation q next =>
    match p.cluster.result? operation q with
    | none => (t, p)
    | some r => ({ t with work := .ready (next r) },
        { p with cluster := p.cluster.forget operation })

/-- A request no longer waits for the replicas, whose calls go on. -/
def giveUp (why : Failure) (t : Task) (p : Proxy) : Task × Proxy :=
  match t.work with
  | .ready _ => (t, p)
  | .waiting operation _ next => ({ t with work := .ready (next (.error why)) },
      { p with cluster := p.cluster.forget operation })

/-- A request is dropped where it stands, with all that it holds. -/
def leave (t : Task) (p : Proxy) : Proxy :=
  let cluster := t.held.foldl (fun c g => c.release (some g)) p.cluster
  match t.work with
  | .ready _ => { p with cluster := cluster }
  | .waiting operation _ _ => { p with cluster := cluster.forget operation }

end Task

structure Load where
  proxy : Proxy
  tasks : List Task

namespace Load

inductive Move where
  | arrive (job : Job)
  | go (turn : Nat) (told : (q : Ask) → q.Outcome)
  | giveUp (turn : Nat) (why : Failure)
  | leave (turn : Nat)
  /-- Something happens among the nodes, or to a call. -/
  | happen (event : Cluster.Event)
  | reload (reload : Reload)

/-- One of the requests does something. -/
def turn (l : Load) (i : Nat) (act : Task → Proxy → Task × Proxy) : Load :=
  match l.tasks[i]? with
  | none => l
  | some t => ⟨(act t l.proxy).2, l.tasks.set i (act t l.proxy).1⟩

def move (l : Load) : Move → Load
  | .arrive job => { l with tasks := l.tasks ++ [⟨job, [], .ready (job.script l.proxy)⟩] }
  | .go i told => l.turn i (Task.go told)
  | .giveUp i why => l.turn i (Task.giveUp why)
  | .leave i =>
    match l.tasks[i]? with
    | none => l
    | some t => ⟨t.leave l.proxy, l.tasks.eraseIdx i⟩
  | .happen event =>
    { l with proxy := { l.proxy with cluster := l.proxy.cluster.happen event } }
  | .reload reload => { l with proxy := (reload.perform l.proxy).2 }

def after (l : Load) (moves : List Move) : Load :=
  moves.foldl move l

/-- What the requests under way hold, and what the calls do that they or others before them made. -/
def guards (l : Load) : List Guard :=
  Cluster.holdings l.proxy.cluster.calls ++ l.tasks.flatMap Task.held

/-- Whether all requests have returned and all calls have ended. -/
def HasEnded (l : Load) : Prop :=
  (∀ t ∈ l.tasks, t.work.result?.isSome = true) ∧
    l.proxy.cluster.calls.All fun _ call => call.IsOver

instance (l : Load) : Decidable l.HasEnded :=
  inferInstanceAs (Decidable (_ ∧ _))

end Load

/-! ## The account -/

section Account

open Cluster (balance_hold balance_release)

variable {p : Proxy} {t : Task} {l : Load} {others : List Guard}

/-- The account reads what the calls, this request and others hold, and the request lets go of its
part. -/
structure Task.Balance (others : List Guard) (t : Task) (p : Proxy) : Prop where
  books : p.cluster.books.Balance (t.held ++ others)
  frees : t.work.Frees t.held

namespace Task

theorem balance_go (told : (q : Ask) → q.Outcome) (balance : t.Balance others p) :
    (t.go told p).1.Balance others (t.go told p).2 := by
  obtain ⟨job, held, work⟩ := t
  obtain ⟨books, frees⟩ := balance
  cases work with
  | waiting operation q next =>
    simp only [go]
    cases p.cluster.result? operation q with
    | none => exact ⟨books, frees⟩
    | some r => exact ⟨books, frees r⟩
  | ready script =>
    cases script with
    | done a => exact ⟨books, frees⟩
    | table next => exact ⟨books, frees p.table⟩
    | ask side q next =>
      cases side with
      | new => exact ⟨books, frees (told q)⟩
      | legacy =>
        simp only [go]
        cases p.allowed q with
        | error e => exact ⟨books, frees (.error e)⟩
        | ok done => exact ⟨Cluster.balance_step (.begin q) books, frees⟩
    | hold g next => exact ⟨balance_hold g books, frees⟩
    | release g next =>
      obtain ⟨rest, rfl, frees⟩ := frees
      simp only [go, List.erase_cons_head]
      exact ⟨balance_release books, frees⟩
    | note e next => exact ⟨books, frees⟩

theorem balance_giveUp (why : Failure) (balance : t.Balance others p) :
    (t.giveUp why p).1.Balance others (t.giveUp why p).2 := by
  obtain ⟨job, held, work⟩ := t
  obtain ⟨books, frees⟩ := balance
  cases work with
  | ready script => exact ⟨books, frees⟩
  | waiting operation q next => exact ⟨books, frees (.error why)⟩

theorem balance_releases {c : Cluster} {guards : List Guard}
    (books : c.books.Balance (guards ++ others)) :
    (guards.foldl (fun c g => c.release (some g)) c).books.Balance others := by
  induction guards generalizing c with
  | nil => exact books
  | cons g rest ih => exact ih (balance_release books)

theorem balance_leave (balance : t.Balance others p) :
    (t.leave p).cluster.books.Balance others := by
  unfold leave
  have books := balance_releases balance.books
  cases t.work with
  | ready script => exact books
  | waiting operation q next => exact books

end Task

namespace Load

/-- The account reads what calls and requests hold, and each request lets go of its part. -/
structure Balance (l : Load) : Prop where
  books : l.proxy.cluster.books.Balance (l.tasks.flatMap Task.held)
  frees : ∀ t ∈ l.tasks, t.work.Frees t.held

/-- What all requests hold but this one. -/
def besides (l : Load) (i : Nat) : List Guard :=
  (l.tasks.eraseIdx i).flatMap Task.held

theorem Balance.task {i : Nat} (balance : l.Balance) (there : l.tasks[i]? = some t) :
    t.Balance (l.besides i) l.proxy := by
  refine ⟨balance.books.perm ?_, balance.frees t (List.mem_of_getElem? there)⟩
  obtain ⟨inside, rfl⟩ := List.getElem?_eq_some_iff.mp there
  exact (List.getElem_cons_eraseIdx_perm inside).symm.flatMap_right Task.held

theorem balance_turn (i : Nat) {act : Task → Proxy → Task × Proxy}
    (kept : ∀ t others, t.Balance others l.proxy →
      (act t l.proxy).1.Balance others (act t l.proxy).2)
    (balance : l.Balance) : (l.turn i act).Balance := by
  unfold turn
  split
  · exact balance
  · rename_i t there
    obtain ⟨books, frees⟩ := kept t _ (balance.task there)
    obtain ⟨inside, -⟩ := List.getElem?_eq_some_iff.mp there
    refine ⟨books.perm ?_, ?_⟩
    · exact (List.set_perm_cons_eraseIdx inside _).symm.flatMap_right Task.held
    · intro other listed
      obtain old | rfl := List.mem_or_eq_of_mem_set listed
      · exact balance.frees other old
      · exact frees

theorem balance_reload {later : Proxy} (reload : Reload) (reloaded : reload.next p = .ok later)
    (books : p.cluster.books.Balance others) : later.cluster.books.Balance others := by
  cases reload with
  | install table =>
    obtain ⟨done, -, installed⟩ := ok_of_bind reloaded
    obtain rfl := Except.ok.inj installed
    exact books
  | readSwitch d =>
    obtain ⟨table, -, installed⟩ := ok_of_bind reloaded
    obtain ⟨done, -, installed⟩ := ok_of_bind installed
    obtain rfl := Except.ok.inj installed
    exact books
  | readRoute d =>
    obtain ⟨plan, -, installed⟩ := ok_of_bind reloaded
    obtain ⟨cluster, routed, installed⟩ := ok_of_bind installed
    obtain rfl := Except.ok.inj installed
    exact Cluster.balance_reload routed books

theorem balance_move (move : Move) (balance : l.Balance) : (l.move move).Balance := by
  cases move with
  | arrive job =>
    constructor
    · simp only [Load.move, List.flatMap_append, List.flatMap_singleton, List.append_nil]
      exact balance.books
    · intro t listed
      obtain old | new := List.mem_append.mp listed
      · exact balance.frees t old
      · obtain rfl := List.mem_singleton.mp new
        exact job.frees_script l.proxy
  | go i told => exact balance_turn i (fun _ _ => Task.balance_go told) balance
  | giveUp i why => exact balance_turn i (fun _ _ => Task.balance_giveUp why) balance
  | leave i =>
    simp only [Load.move]
    split
    · exact balance
    · rename_i t there
      refine ⟨Task.balance_leave (balance.task there), ?_⟩
      exact fun other listed => balance.frees other (List.mem_of_mem_eraseIdx listed)
  | happen event => exact ⟨Cluster.balance_happen event balance.books, balance.frees⟩
  | reload reload =>
    refine ⟨?_, balance.frees⟩
    simp only [Load.move, Reload.perform_eq]
    cases reloaded : reload.next l.proxy with
    | error e => exact balance.books
    | ok later => exact balance_reload reload reloaded balance.books

theorem balance_after (moves : List Move) (balance : l.Balance) : (l.after moves).Balance := by
  induction moves generalizing l with
  | nil => exact balance
  | cons move rest ih => exact ih (balance_move move balance)

/-- Nothing is under way in a proxy that was just built. -/
theorem balance_build {config : Config} {plan : Route.Plan} {nodeLimits : Config.Limits}
    {epoch : Nat} (built : build config plan nodeLimits epoch = .ok p) :
    (Load.mk p []).Balance := by
  obtain ⟨cluster, built_cluster, built⟩ := ok_of_bind built
  obtain ⟨table, -, built⟩ := ok_of_bind built
  obtain ⟨done, -, built⟩ := ok_of_bind built
  obtain rfl := Except.ok.inj built
  exact ⟨Cluster.balance_build built_cluster, by rintro t ⟨⟩⟩

/-- A request that has returned holds nothing. -/
theorem held_of_returned (frees : t.work.Frees t.held) (returned : t.work.result?.isSome = true) :
    t.held = [] := by
  obtain ⟨job, held, work⟩ := t
  cases work with
  | waiting operation q next => cases returned
  | ready script =>
    cases script with
    | done a => exact frees
    | table | ask | hold | release | note => cases returned

theorem guards_of_ended (balance : l.Balance) (ended : l.HasEnded) : l.guards = [] := by
  obtain ⟨returned, finished⟩ := ended
  have calls := Cluster.holdings_of_over balance.books finished
  have requests : l.tasks.flatMap Task.held = [] := by
    rw [List.flatMap_eq_nil_iff]
    exact fun t listed => held_of_returned (balance.frees t listed) (returned t listed)
  rw [guards, requests, List.append_nil]
  exact calls

end Load

end Account

namespace Load

theorem after_append (l : Load) (first second : List Move) :
    l.after (first ++ second) = (l.after first).after second :=
  List.foldl_append ..

/-- Whatever settles does so step by step. -/
theorem settled_after (reachable : String → Bool) (fuel : Nat) (l : Load) :
    ∃ moves, l.after moves = { l with proxy := { l.proxy with
      cluster := l.proxy.cluster.settleWithin reachable fuel } } := by
  induction fuel generalizing l with
  | zero => exact ⟨[], rfl⟩
  | succ fuel ih =>
    unfold Cluster.settleWithin
    cases next : l.proxy.cluster.nextStep? reachable with
    | none => exact ⟨[], rfl⟩
    | some step =>
      obtain ⟨moves, rest⟩ := ih (l.move (.happen (.step step)))
      exact ⟨.happen (.step step) :: moves, rest⟩

section Run

variable {σ : Type} (net : Network σ) {job : Job} {held : List Guard}

/-- A proxy with one request, before and after some moves. -/
def Leads (before after : Task × Proxy) : Prop :=
  ∃ moves, (Load.mk before.2 [before.1]).after moves = ⟨after.2, [after.1]⟩

theorem Leads.trans {first second third : Task × Proxy} (one : Leads first second)
    (two : Leads second third) : Leads first third := by
  obtain ⟨moves, one⟩ := one
  obtain ⟨more, two⟩ := two
  exact ⟨moves ++ more, by rw [after_append, one, two]⟩

theorem leads_go (told : (q : Ask) → q.Outcome) (t : Task) (p : Proxy) :
    Leads (t, p) (t.go told p) :=
  ⟨[.go 0 told], rfl⟩

/-- An operation on the replicas is waited for until nothing moves any more. -/
theorem leads_replicas (q : Ask) (next : q.Outcome → Script job.Result) (p : Proxy) :
    Leads (⟨job, held, .waiting p.cluster.next q next⟩, { p with cluster := p.cluster.begin q })
      (⟨job, held, .ready (next (p.askReplicas net q).1)⟩, (p.askReplicas net q).2) := by
  let number := p.cluster.next
  let begun := p.cluster.begin q
  let settled := begun.settle net.reachable
  obtain ⟨moves, quiet⟩ := settled_after net.reachable begun.budget
    ⟨{ p with cluster := begun }, [⟨job, held, .waiting number q next⟩]⟩
  let last : Task := ⟨job, held, .waiting number q next⟩
  have settles : Leads (last, { p with cluster := begun }) (last, { p with cluster := settled }) :=
    ⟨moves, quiet⟩
  apply settles.trans
  have given : askReplicas net q p = ((settled.result? number q).getD (throw (.timeout "no answer")),
      { p with cluster := settled.forget number }) := rfl
  rw [given]
  cases result : settled.result? number q with
  | none => exact ⟨[.giveUp 0 (.timeout "no answer")], rfl⟩
  | some r =>
    have answered : last.go (fun _ => .error (.timeout "no answer")) { p with cluster := settled } =
        (⟨job, held, .ready (next r)⟩, { p with cluster := settled.forget number }) := by
      simp only [last, Task.go, result]
    exact answered ▸ leads_go ..

theorem answer_new (q : Ask) (p : Proxy) (s : σ) : (answer net .new q (p, s)).2.1 = p := by
  cases remote : p.config.remote <;> simp only [answer, remote]

theorem leads_ask (side : Side) (q : Ask) (next : q.Outcome → Script job.Result) (p : Proxy)
    (s : σ) : Leads (⟨job, held, .ready (.ask side q next)⟩, p)
      (⟨job, held, .ready (next (answer net side q (p, s)).1)⟩,
        (answer net side q (p, s)).2.1) := by
  -- What the new store says is what it says on this network.
  have step := leads_go (fun q => (answer net .new q (p, s)).1)
    ⟨job, held, .ready (.ask side q next)⟩ p
  cases side with
  | new =>
    rw [answer_new]
    exact step
  | legacy =>
    simp only [Task.go] at step
    simp only [answer]
    cases allowed : p.allowed q with
    | error e =>
      rw [allowed] at step
      exact step
    | ok done =>
      rw [allowed] at step
      exact step.trans (leads_replicas net q next p)

/-- The steps of one request amount to its run, when nothing comes in between. -/
theorem leads_run {script : Script job.Result} (frees : script.Frees held) (p : Proxy) (s : σ) :
    Leads (⟨job, held, .ready script⟩, p)
      (⟨job, [], .ready (.done (script.run (host net) (p, s)).1)⟩,
        (script.run (host net) (p, s)).2.1) := by
  let told (q : Ask) : q.Outcome := .error (.timeout "no answer")
  induction script generalizing held p s with
  | done a =>
    obtain rfl : held = [] := frees
    exact ⟨[], rfl⟩
  | table next ih => exact (leads_go told _ p).trans (ih _ (frees p.table) p s)
  | ask side q next ih =>
    let answered := answer net side q (p, s)
    exact (leads_ask net side q next p s).trans (ih _ (frees answered.1) answered.2.1 answered.2.2)
  | hold g next ih => exact (leads_go told _ p).trans (ih frees _ s)
  | release g next ih =>
    obtain ⟨later, rfl, frees⟩ := frees
    refine (leads_go told _ p).trans ?_
    simp only [Task.go, List.erase_cons_head]
    exact ih frees _ s
  | note e next ih => exact (leads_go told _ p).trans (ih frees _ s)

/-- A request that is served without interruption is one of the runs. -/
theorem leads_request (q : Ask) (p : Proxy) (s : σ) : ∃ moves, (Load.mk p []).after moves =
    ⟨(request net q (p, s)).2.1, [⟨.request q, [], .ready (.done (request net q (p, s)).1)⟩]⟩ := by
  have frees := Job.frees_script p (.request q)
  obtain ⟨moves, run⟩ := leads_run net frees p s
  exact ⟨.arrive (.request q) :: moves, run⟩

end Run

end Load

open Buffer (Ledger on wrap)

/-- However guards are taken and let go, each shard reads how many of them are still held and their
sizes together, so the account is drained exactly when none is. So it is in a proxy: whatever comes
of its requests, of their calls and of anything else, the account reads what those under way hold,
and nothing once all have ended. -/
theorem account_balances {config : Config} {plan : Route.Plan} {nodeLimits : Config.Limits}
    {epoch : Nat} {p : Proxy} (built : build config plan nodeLimits epoch = .ok p)
    (deeds : List Ledger.Deed) (moves : List Load.Move) :
    (let l := Ledger.empty.after deeds
     l.outstanding.length < 2 ^ 63 →
        (∀ shard, l.buffers.usage shard = ⟨(on shard l.outstanding).length,
          wrap ((on shard l.outstanding).map Guard.size).sum⟩) ∧
        (l.buffers.isDrained = true ↔ l.outstanding = [])) ∧
    let load := (Load.mk p []).after moves
    let buffers := load.proxy.cluster.buffers
    (∀ shard, buffers.usage shard = usageOf shard load.guards) ∧
    (load.guards.length < 2 ^ 63 → (buffers.isDrained = true ↔ load.guards = [])) ∧
    (load.HasEnded → (∀ shard, buffers.usage shard = ⟨0, 0⟩) ∧ buffers.isDrained = true) := by
  refine ⟨?ledger, ?load⟩
  case ledger =>
    intro l few
    have accounts : l.IsBalanced := Ledger.isBalanced_after deeds Buffers.accounts_empty
    refine ⟨fun shard => ?_, accounts.isDrained_iff few⟩
    have fits : (on shard l.outstanding).length < 2 ^ 63 :=
      Nat.lt_of_le_of_lt (List.length_filter_le ..) few
    rw [accounts, usageOf, Buffer.wrap_of_lt fits]
  case load =>
    intro load buffers
    have balance : load.Balance := Load.balance_after moves (Load.balance_build built)
    have accounts : buffers.Accounts load.guards := balance.books.accounts
    refine ⟨accounts, fun few => accounts.isDrained_iff few, fun ended => ?_⟩
    have none : load.guards = [] := Load.guards_of_ended balance ended
    rw [none] at accounts
    exact ⟨fun shard => (accounts shard).trans (Buffer.usageOf_nil shard),
      (accounts.isDrained_iff (by decide)).mpr rfl⟩

/-- A client sets a value and leaves while the call to the node is under way. -/
def abandoned : List Load.Move :=
  let told (q : Ask) : q.Outcome := .error (.timeout "late")
  [.arrive (.request (.set "k" ⟨0, [1, 2, 3], .auto⟩)), .go 0 told, .go 0 told, .go 0 told,
    .happen (.step (.ask 1)), .leave 0]

/-- Until that call fails, its copy is held. -/
theorem account_balances_abandoned :
    ∃ p, build plainConfig ⟨1, [⟨"a", ["0"]⟩], []⟩ ⟨250, 100⟩ 0 = .ok p ∧
      let before := (Load.mk p []).after abandoned
      let later := (Load.mk p []).after
        (abandoned ++ [.happen (.step (.fail 1 (.timeout "a: no answer")))])
      before.guards = [⟨.replicaData, 3⟩] ∧
      before.proxy.cluster.buffers.usage .replicaData = ⟨1, 3⟩ ∧
      before.proxy.cluster.buffers.isDrained = false ∧
      later.HasEnded ∧ later.proxy.cluster.buffers.usage .replicaData = ⟨0, 0⟩ ∧
      later.proxy.cluster.buffers.isDrained = true ∧
      let l := Ledger.empty.after [.hold ⟨.setData, 5⟩, .hold ⟨.setData, 7⟩, .drop 0, .drop 0]
      l.outstanding.length < 2 ^ 63 ∧ l.buffers.usage .setData = ⟨1, 7⟩ := by
  refine ⟨_, build_plain _, ?_⟩
  intro before later
  have held : before.guards = [⟨.replicaData, 3⟩] := by decide +kernel
  have ended : later.HasEnded := by decide +kernel
  have few : before.guards.length < 2 ^ 63 := by rw [held]; decide
  obtain ⟨ledger, reads, drained, -⟩ := account_balances (build_plain ⟨250, 100⟩)
    [.hold ⟨.setData, 5⟩, .hold ⟨.setData, 7⟩, .drop 0, .drop 0] abandoned
  obtain ⟨-, -, -, empty⟩ := account_balances (build_plain ⟨250, 100⟩) []
    (abandoned ++ [.happen (.step (.fail 1 (.timeout "a: no answer")))])
  have one : ((Ledger.empty.after [.hold ⟨.setData, 5⟩, .hold ⟨.setData, 7⟩, .drop 0,
      .drop 0]).outstanding).length < 2 ^ 63 := by decide
  refine ⟨held, ?reads, ?waits, ended, (empty ended).1 _, (empty ended).2, one, ?ledger⟩
  case reads =>
    rw [reads, held]
    decide +kernel
  case waits =>
    apply Bool.eq_false_iff.mpr
    rw [Ne, drained few, held]
    exact List.cons_ne_nil _ _
  case ledger =>
    rw [(ledger one).1]
    decide +kernel

end QuorumKv.Proxy
