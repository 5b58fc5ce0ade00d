import QuorumKv.Proxy
import QuorumKv.Web.Service

/-! The web service of the proxy: what it holds in memory, its routes and tables and how to reload
them, and the health of its nodes. -/
namespace QuorumKv

namespace Cluster

/-- The health of every node of the current routes. -/
def statusDocument (c : Cluster) : Document :=
  (c.monitor c.topology).toDocument c.now

/-- The nodes of one bucket, if there is such a bucket. -/
def bucketDocument? (c : Cluster) (bucket : Nat) : Option Document :=
  let router := c.topology.router
  let monitor := c.monitor c.topology
  let shown (addrs : List String) : Document :=
    .list ((addrs.filterMap monitor.node?).map fun n => n.toDocument c.now)
  if bucket < router.buckets then
    let replicas := router.resolve bucket
    some (.table [("bucket", .nat bucket), ("mains", shown replicas.mains),
      ("backups", shown replicas.backups),
      ("read_order", Config.textList (monitor.rank replicas.mains c.now))])
  else none

end Cluster

def Buffers.toDocument (b : Buffers) : Document :=
  .table (b.snapshot.map fun (name, u) =>
    (name, .table [("Count", .int u.count), ("Size", .int u.size)]))

def Router.toDocument (r : Router) : Document :=
  .table (r.snapshot.map fun (id, replicas) =>
    (id, .table [("mains", Config.textList replicas.mains),
      ("backups", Config.textList replicas.backups)]))

namespace Proxy

open Web (Response Target Handler Resource)

def router (p : Proxy) : Router := p.cluster.topology.router

def tableDocument (p : Proxy) : Document :=
  Config.switchDocument p.table.toPlan

/-- Shows something and changes nothing. -/
def page (render : Proxy → Response) : Handler Proxy := fun _ _ _ p => (render p, p)

def documentPage (render : Proxy → Document) : Handler Proxy :=
  page fun p => .document 200 (render p)

/-- The configuration with the live switch table. -/
def configDocument (p : Proxy) : Document :=
  { p.config with switch := p.table.toPlan }.toDocument

def routeDocument (p : Proxy) : Document :=
  .table [("numbucket", .nat p.router.buckets), ("buckets", p.router.toDocument)]

def bucketPage : Handler Proxy := fun texts _ _ p =>
  let id := texts.headD ""
  let response : Response := match Text.uint64? id with
    | none => .explain 400 ("bad bucket id " ++ Text.quoted id)
    | some bucket =>
      match p.cluster.bucketDocument? bucket with
      | some d => .document 200 d
      | none => .explain 404 s!"no bucket {bucket}"
  (response, p)

def scoreLines (p : Proxy) : List String :=
  let c := p.cluster
  (c.monitor c.topology).nodes.map fun (addr, n) =>
    let score := Text.Layout.plain.text (n.score c.now)
    "beanproxy_node_score \x7baddr=\"" ++ addr ++ "\"\x7d " ++ score

def metricsPage (p : Proxy) : Response :=
  .text 200 (Text.unlines p.scoreLines ++ p.cluster.metrics.text (p.cluster.now / 1000))

inductive Component where
  | switcher
  | route
  deriving DecidableEq

def Component.ofName? (name : String) : Option Component :=
  if name == "rwswitcher" then some .switcher
  else if name == "route" then some .route
  else none

/-- Serves the component that the query names, which it must not do twice. -/
def atComponent (serve : Component → Proxy → Response × Proxy) : Handler Proxy :=
  fun _ _ target p =>
    match (target.query.filter fun (name, _) => name == "config").map (·.2) with
    | [] => (.explain 400 "unknown config component: <none>", p)
    | [name] =>
      match Component.ofName? name with
      | some component => serve component p
      | none => (.explain 400 ("unknown config component: " ++ name), p)
    | _ => (.text 400 "duplicate field: config", p)

def showComponent : Handler Proxy := atComponent fun component p =>
  match component with
  | .switcher => (.document 200 p.tableDocument, p)
  | .route => (.document 200 p.router.toDocument, p)

/-- Reads a component again. What goes wrong is explained and changes nothing. -/
def reloadComponent (d : Option Config.Directory) : Handler Proxy := atComponent fun component p =>
  let reloaded := match component with
    | .switcher => p.reloadSwitch d
    | .route => p.reloadRoute d
  match reloaded with
  | .ok p => (.document 200 (.table [("message", .text "success")]), p)
  | .error e => (.explain 502 e.message, p)

/-- The service, over the files that reloads read. -/
def resources (d : Option Config.Directory) : List (Resource Proxy) :=
  let fixed (path : List String) (handlers : List (String × Handler Proxy)) : Resource Proxy :=
    ⟨path.map .word, handlers⟩
  [fixed ["buffer"] [("GET", documentPage fun p => p.cluster.buffers.toDocument)],
    fixed ["reload"] [("GET", showComponent), ("POST", reloadComponent d)],
    fixed ["score", "json"] [("GET", documentPage fun p => p.cluster.statusDocument)],
    fixed ["route"] [("GET", documentPage routeDocument)],
    fixed ["route", "version"] [("GET", page fun p => .text 200 p.cluster.topology.version.repr)],
    ⟨[.word "api", .word "bucket", .any], [("GET", bucketPage)]⟩,
    fixed ["config"] [("GET", documentPage configDocument)],
    fixed ["metrics"] [("GET", page metricsPage)],
    fixed ["health"]
      [("GET", documentPage fun _ =>
        .table [("status", .text "healthy"), ("version", .text release)])]]

def respond (d : Option Config.Directory) (request : Web.Request) (p : Proxy) : Response × Proxy :=
  Web.serve (resources d) request p

end Proxy

end QuorumKv
