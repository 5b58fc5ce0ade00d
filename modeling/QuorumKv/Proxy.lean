import QuorumKv.Cluster.Settle
import QuorumKv.Config.Source
import QuorumKv.Dispatch
import QuorumKv.Dispatch.Count
import QuorumKv.Remote

/-! The proxy as a whole: its configuration, the live switch table, and the cluster of nodes,
which is the legacy store. The new store is behind a web server. Reloads either install a whole
new document or leave everything as it was. -/
namespace QuorumKv

structure Proxy where
  config : Config
  table : Migration.Table
  cluster : Cluster
  /-- What changes of the table were warned about so far. -/
  warned : List Migration.Warning

/-- Who can be reached: the nodes at some addresses, and the web server of the new store. -/
structure Network (σ : Type) where
  reachable : String → Bool
  send : Remote.Transport σ

/-- Nothing listens anywhere. -/
def Network.offline : Network Unit where
  reachable _ := false
  send _ s := (.error (.connection "connection refused"), s)

namespace Proxy

open Migration (Side Table)

def hasNew (p : Proxy) : Bool :=
  p.config.remote.isSome

/-- Wires up a proxy from its documents. -/
def build (config : Config) (plan : Route.Plan) (nodeLimits : Config.Limits) (epoch : Nat) :
    Except Failure Proxy := do
  let cluster ← Cluster.build config.replication config.limits plan nodeLimits epoch
  let table ← Table.ofPlan config.switch
  Dispatch.checkTable config.remote.isSome table
  return ⟨config, table, cluster, []⟩

/-- Wires up a proxy from the files of a directory. -/
def ofDirectory (d : Config.Directory) (epoch : Nat) : Except Failure Proxy := do
  let config ← d.config
  build config (← d.route) config.limits epoch

/-- Installs a table if every store that it needs is there, and warns of what the change skips. -/
def install (p : Proxy) (table : Table) : Except Failure Proxy := do
  Dispatch.checkTable p.hasNew table
  return { p with table := table, warned := p.warned ++ Migration.warnings p.table table }

/-- The switch table that the files say now. -/
def readTable (d : Option Config.Directory) : Except Failure Table := do
  match d with
  | none => throw (.config "no config directory")
  | some d => Table.ofPlan (← d.config).switch

def reloadSwitch (p : Proxy) (d : Option Config.Directory) : Except Failure Proxy := do
  p.install (← readTable d)

def installRoute (p : Proxy) (plan : Route.Plan) : Except Failure Proxy := do
  return { p with cluster := ← p.cluster.reload plan }

def readRoute (d : Option Config.Directory) : Except Failure Route.Plan :=
  match d with
  | none => throw (.config "no config directory")
  | some d => d.route

def reloadRoute (p : Proxy) (d : Option Config.Directory) : Except Failure Proxy := do
  p.installRoute (← readRoute d)

/-- Whether the legacy store may be asked, which the configuration can forbid. -/
def allowed (p : Proxy) : Ask → Except Failure Unit
  | .get _ | .getMeta _ | .getMulti _ =>
    if p.config.replication.enableRead then pure () else throw (.disabled "legacy reads")
  | .set _ _ | .delete _ =>
    if p.config.replication.enableWrite then pure () else throw (.disabled "legacy writes")

/-- Asks the replicas, whatever the configuration allows. -/
def askReplicas {σ : Type} (net : Network σ) (q : Ask) (p : Proxy) : q.Outcome × Proxy :=
  let (r, cluster) := p.cluster.perform net.reachable q
  (r, { p with cluster := cluster })

def answer {σ : Type} (net : Network σ) (side : Side) (q : Ask) (s : Proxy × σ) :
    q.Outcome × (Proxy × σ) :=
  let (p, s) := s
  match side, p.config.remote with
  | .legacy, _ =>
    match p.allowed q with
    | .error e => (.error e, (p, s))
    | .ok () =>
      let (r, p) := p.askReplicas net q
      (r, (p, s))
  | .new, some remote =>
    let (r, s) := Remote.ask net.send remote.endpoint q s
    (r, (p, s))
  | .new, none => (.error (.disabled "new backend not configured"), (p, s))

/-- Requests of clients run on a proxy and what is around it. -/
def host {σ : Type} (net : Network σ) : Dispatch.Host (Proxy × σ) where
  table s := s.1.table
  answer := answer net
  hold g s := ({ s.1 with cluster := s.1.cluster.hold (some g) }, s.2)
  release g s := ({ s.1 with cluster := s.1.cluster.release (some g) }, s.2)
  note e s :=
    let c := s.1.cluster
    ({ s.1 with cluster := { c with metrics := e.count 0 c.metrics } }, s.2)

/-- Serves a request of a client. -/
def request {σ : Type} (net : Network σ) (q : Ask) (s : Proxy × σ) : q.Outcome × (Proxy × σ) :=
  (Dispatch.request s.1.hasNew q).run (host net) s

end Proxy

end QuorumKv
