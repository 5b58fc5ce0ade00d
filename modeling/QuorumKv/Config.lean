import QuorumKv.Config.Typing
import QuorumKv.Failure
import QuorumKv.Migration.Table
import QuorumKv.Quorum.Write
import QuorumKv.Route

/-! The configuration of the proxy: its records, their defaults, how they are read from and written
to documents, and when they make sense together. -/
namespace QuorumKv.Config

/-- Where the proxy listens. -/
structure Server where
  listen : String
  port : Nat
  webPort : Nat
  threads : Nat
  logLevel : String

/-- What clients may send. -/
structure Limits where
  maxKeyLength : Nat
  bodyMax : Nat
  deriving DecidableEq

/-- Quorum sizes, connections, timeouts in milliseconds, and how nodes are judged. -/
structure Replication where
  n : Nat
  w : Nat
  r : Nat
  maxIdle : Nat
  connectTimeout : Nat
  silence : Nat
  writeTimeout : Nat
  readTimeout : Nat
  /-- Seconds over which response times are averaged. -/
  responseSeconds : Nat
  /-- Seconds over which errors are counted. -/
  errorSeconds : Nat
  maxConnectErrors : Nat
  /-- Microseconds of response time that make one point of a node's score. -/
  scoreDeviation : Float
  /-- How many item sizes are remembered. -/
  itemSizes : Nat
  /-- Microseconds below which all response times count the same. -/
  responseMin : Float
  enableRead : Bool
  enableWrite : Bool

/-- The new store, behind a web server. -/
structure Remote where
  endpoint : String
  timeout : Nat

end QuorumKv.Config

namespace QuorumKv

open Config in
structure Config where
  server : Server
  limits : Limits
  replication : Replication
  switch : Migration.Plan
  remote : Option Remote

namespace Config

open Text (bound16 bound32 bound64)

def Server.default : Server := ⟨"0.0.0.0", 7905, 7908, 8, "info"⟩

def Limits.default : Limits := ⟨250, 50 * 1024 * 1024⟩

def Replication.default : Replication where
  n := 3
  w := 2
  r := 1
  maxIdle := 20
  connectTimeout := 300
  silence := 5000
  writeTimeout := 2000
  readTimeout := 2000
  responseSeconds := 10
  errorSeconds := 10
  maxConnectErrors := 10
  scoreDeviation := 10000
  itemSizes := 4096
  responseMin := 4000
  enableRead := true
  enableWrite := true

def defaultSwitch : Migration.Plan := ⟨"BRW", []⟩

/-- So many acknowledging mains make backups unnecessary. -/
def Replication.mainThreshold (r : Replication) : Nat :=
  Quorum.threshold r.n r.w

def Server.clientAddr (s : Server) : String := s!"{s.listen}:{s.port}"

def Server.webAddr (s : Server) : String := s!"{s.listen}:{s.webPort}"

def Server.read (t : Typing) (d : Document) : Option Server := do
  let fs ← t.fields ["listen", "port", "webport", "threads", "log_level"] d
  let df := Server.default
  return {
    listen := ← fieldOr fs "listen" df.listen t.text
    port := ← fieldOr fs "port" df.port (t.unsigned bound16)
    webPort := ← fieldOr fs "webport" df.webPort (t.unsigned bound16)
    threads := ← fieldOr fs "threads" df.threads (t.unsigned bound64)
    logLevel := ← fieldOr fs "log_level" df.logLevel t.text }

def Limits.read (t : Typing) (d : Document) : Option Limits := do
  let fs ← t.fields ["max_key_len", "body_max"] d
  let df := Limits.default
  return {
    maxKeyLength := ← fieldOr fs "max_key_len" df.maxKeyLength (t.unsigned bound64)
    bodyMax := ← fieldOr fs "body_max" df.bodyMax (t.unsigned bound64) }

def Replication.fieldNames : List String :=
  ["n", "w", "r", "max_free_conns_per_host", "connect_timeout_ms", "dial_fail_silence_ms",
    "write_timeout_ms", "read_timeout_ms", "response_time_seconds", "error_seconds",
    "max_connect_errors", "score_deviation", "item_size_stats", "response_time_min", "enable_read",
    "enable_write"]

def Replication.read (t : Typing) (d : Document) : Option Replication := do
  let fs ← t.fields Replication.fieldNames d
  let df := Replication.default
  let number (name : String) (default : Nat) := fieldOr fs name default (t.unsigned bound64)
  return {
    n := ← number "n" df.n
    w := ← number "w" df.w
    r := ← number "r" df.r
    maxIdle := ← number "max_free_conns_per_host" df.maxIdle
    connectTimeout := ← number "connect_timeout_ms" df.connectTimeout
    silence := ← number "dial_fail_silence_ms" df.silence
    writeTimeout := ← number "write_timeout_ms" df.writeTimeout
    readTimeout := ← number "read_timeout_ms" df.readTimeout
    responseSeconds := ← number "response_time_seconds" df.responseSeconds
    errorSeconds := ← number "error_seconds" df.errorSeconds
    maxConnectErrors :=
      ← fieldOr fs "max_connect_errors" df.maxConnectErrors (t.unsigned bound32)
    scoreDeviation := ← fieldOr fs "score_deviation" df.scoreDeviation t.real
    itemSizes := ← number "item_size_stats" df.itemSizes
    responseMin := ← fieldOr fs "response_time_min" df.responseMin t.real
    enableRead := ← fieldOr fs "enable_read" df.enableRead t.bool
    enableWrite := ← fieldOr fs "enable_write" df.enableWrite t.bool }

/-- Lists of texts by name, in the order of their names. -/
def readLists (t : Typing) : Document → Option (List (String × List String))
  | .table fields =>
    (Text.sortedFields fields).mapM fun (name, d) => (t.texts d).map fun list => (name, list)
  | _ => none

def readSwitch (t : Typing) (d : Document) : Option Migration.Plan := do
  let fs ← t.fields ["default_storage", "prefixes"] d
  return {
    defaultStage := ← fieldOr fs "default_storage" defaultSwitch.defaultStage t.text
    lists := ← fieldOr fs "prefixes" defaultSwitch.lists (readLists t) }

def Remote.read (t : Typing) (d : Document) : Option Remote := do
  let fs ← t.fields ["endpoint", "timeout_ms"] d
  return {
    endpoint := ← field fs "endpoint" t.text
    timeout := ← fieldOr fs "timeout_ms" 1000 (t.unsigned bound64) }

def readRemote (t : Typing) : Document → Option (Option Remote)
  | .null => some none
  | d => (Remote.read t d).map some

def read (t : Typing) (d : Document) : Option Config := do
  let fs ← t.fields ["proxy", "mc", "dstore", "switch", "new_backend"] d
  return {
    server := ← fieldOr fs "proxy" Server.default (Server.read t)
    limits := ← fieldOr fs "mc" Limits.default (Limits.read t)
    replication := ← fieldOr fs "dstore" Replication.default (Replication.read t)
    switch := ← fieldOr fs "switch" defaultSwitch (readSwitch t)
    remote := ← fieldOr fs "new_backend" none (readRemote t) }

def readEntry (t : Typing) (d : Document) : Option Route.Entry := do
  let fs ← t.fields ["addr", "buckets"] d
  return ⟨← field fs "addr" t.text, ← fieldOr fs "buckets" [] t.texts⟩

def readEntries (t : Typing) : Document → Option (List Route.Entry)
  | .list items => items.mapM (readEntry t)
  | _ => none

def readRoute (t : Typing) (d : Document) : Option Route.Plan := do
  let fs ← t.fields ["numbucket", "main", "backup"] d
  return {
    buckets := ← field fs "numbucket" (t.unsigned bound64)
    main := ← fieldOr fs "main" [] (readEntries t)
    backup := ← fieldOr fs "backup" [] t.texts }

def check (c : Config) : Except Failure Unit :=
  let d := c.replication
  if d.n = 0 then throw (.config "n must be at least 1")
  else if d.w = 0 || d.n < d.w then throw (.config s!"w must be in 1..={d.n}, got {d.w}")
  else if d.r = 0 || d.n < d.r then throw (.config s!"r must be in 1..={d.n}, got {d.r}")
  else if d.scoreDeviation ≤ 0 then throw (.config "score_deviation must be positive")
  else if c.limits.maxKeyLength = 0 then throw (.config "max_key_len must be positive")
  else pure ()

def textList (texts : List String) : Document :=
  .list (texts.map .text)

def Server.toDocument (s : Server) : Document :=
  .table [("listen", .text s.listen), ("port", .nat s.port), ("webport", .nat s.webPort),
    ("threads", .nat s.threads), ("log_level", .text s.logLevel)]

def Limits.toDocument (l : Limits) : Document :=
  .table [("max_key_len", .nat l.maxKeyLength), ("body_max", .nat l.bodyMax)]

def Replication.toDocument (r : Replication) : Document :=
  .table (Replication.fieldNames.zip
    [.nat r.n, .nat r.w, .nat r.r, .nat r.maxIdle, .nat r.connectTimeout, .nat r.silence,
      .nat r.writeTimeout, .nat r.readTimeout, .nat r.responseSeconds, .nat r.errorSeconds,
      .nat r.maxConnectErrors, .real r.scoreDeviation, .nat r.itemSizes, .real r.responseMin,
      .bool r.enableRead, .bool r.enableWrite])

def switchDocument (p : Migration.Plan) : Document :=
  .table [("default_storage", .text p.defaultStage),
    ("prefixes", .table (p.lists.map fun (name, list) => (name, textList list)))]

def Remote.toDocument (r : Remote) : Document :=
  .table [("endpoint", .text r.endpoint), ("timeout_ms", .nat r.timeout)]

/-- The remote store is left out when there is none. -/
def toDocument (c : Config) : Document :=
  .table ([("proxy", c.server.toDocument), ("mc", c.limits.toDocument),
    ("dstore", c.replication.toDocument), ("switch", switchDocument c.switch)] ++
    match c.remote with
    | some r => [("new_backend", r.toDocument)]
    | none => [])

def routeDocument (p : Route.Plan) : Document :=
  .table [("numbucket", .nat p.buckets),
    ("main", .list (p.main.map fun e =>
      .table [("addr", .text e.addr), ("buckets", textList e.buckets)])),
    ("backup", textList p.backup)]

end Config

end QuorumKv
