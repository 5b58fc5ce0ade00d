import QuorumKv.Ask
import QuorumKv.Config
import QuorumKv.Key
import QuorumKv.Web.Message
import QuorumKv.Web.Status
import QuorumKv.Web.Url

/-! The store behind a web server: which request a question becomes, and what a response means. Keys
are percent-encoded into one path segment; flags and revision travel in headers. -/
namespace QuorumKv.Remote

/-- The endpoint without slashes at its end. -/
def base (endpoint : String) : String :=
  String.ofList (endpoint.toList.reverse.dropWhile (· == '/')).reverse

def keyUrl (endpoint key : String) : String :=
  base endpoint ++ "/kv/" ++ Key.urlSegment key

/-- A request for what a URL leads to. -/
def requestTo (method url : String) (headers : List (String × Bytes)) (body : Bytes) :
    Except Failure Web.Request :=
  if Web.Url.isUsable url then pure ⟨method, Web.Url.target url, headers, body⟩
  else throw .badUrl

/-- A response that no question expects. -/
def unexpected (endpoint key : String) (status : Nat) : Failure :=
  .http s!"{Web.statusLine status} for key {key} from {base endpoint}"

/-- A header's value; one that cannot be read counts as absent. -/
def headerOr {α : Type} (r : Web.Response) (name : String) (read : Bytes → Option α) (default : α) :
    α :=
  ((Web.header? r.headers name).bind read).getD default

def itemOf (r : Web.Response) : Item where
  flags := headerOr r Web.flagsHeader Web.flags? 0
  value := r.body
  rev := headerOr r Web.revisionHeader Web.revision? .auto

def metaNames : List String :=
  ["rev", "hash", "flags", "size", "timestamp", "chunk_id", "offset"]

def metaValues? : List Document → Option Meta
  | [.int rev, .int hash, .int flags, .int size, .int timestamp, .int chunk, .int offset] => do
    let below := Config.Typing.below
    return {
      rev := ← Revision.ofInt? rev
      hash := UInt32.ofNat (← below Text.bound32 hash)
      flags := UInt32.ofNat (← below Text.bound32 flags)
      size := ← below Text.bound64 size
      timestamp := ← below Text.bound64 timestamp
      chunk := UInt32.ofNat (← below Text.bound32 chunk)
      offset := ← below Text.bound64 offset }
  | _ => none

/-- Every field once, or the seven values in their order. -/
def metaOf? : Document → Option Meta
  | .table fields => do
    let values ← metaNames.mapM fun name =>
      match fields.filter fun (k, _) => k == name with
      | [(_, d)] => some d
      | _ => none
    metaValues? values
  | .list values => metaValues? values
  | _ => none

def metaOfBody (body : Bytes) : Except Failure (Option Meta) :=
  match (Text.Utf8.decode? body).bind Document.Json.parse? >>= metaOf? with
  | some m => pure (some m)
  | none => throw .badAnswer

/-- Something that sends requests. -/
abbrev Transport (σ : Type) := Web.Request → σ → Except Failure Web.Response × σ

variable {σ : Type}

/-- What a response to a request by `method` means; `missing` is what 404 means, and `read` makes
something of a successful one. -/
def meaning {α : Type} (endpoint key method : String) (missing : Except Failure α)
    (read : Web.Response → Except Failure α) (r : Web.Response) : Except Failure α :=
  if r.status = 404 then missing
  else if r.isSuccess then read r
  else if r.status = 409 ∧ method = "PUT" then throw (.stale key)
  else throw (unexpected endpoint key r.status)

/-- Sends one request, if it can be made, and takes the response for what it means. -/
def exchange {α : Type} (send : Transport σ) (endpoint key : String)
    (request : Except Failure Web.Request) (missing : Except Failure α)
    (read : Web.Response → Except Failure α) (s : σ) : Except Failure α × σ :=
  match request with
  | .error e => (.error e, s)
  | .ok request =>
    let (response, s) := send request s
    (response.bind (meaning endpoint key request.method missing read), s)

def get (send : Transport σ) (endpoint key : String) (s : σ) :
    Except Failure (Option Item) × σ :=
  exchange send endpoint key (requestTo "GET" (keyUrl endpoint key) [] []) (pure none)
    (fun r => pure (some (itemOf r))) s

/-- Asks for each key on its own. All are asked for, also when one fails. -/
def getEach (send : Transport σ) (endpoint : String) :
    List String → σ → Except Failure (List (String × Item)) × σ
  | [], s => (pure [], s)
  | key :: keys, s =>
    let (first, s) := get send endpoint key s
    let (rest, s) := getEach send endpoint keys s
    let found : Except Failure (List (String × Item)) := do
      let item? ← first
      let more ← rest
      return (item?.toList.map fun item => (key, item)) ++ more
    (found, s)

def ask (send : Transport σ) (endpoint : String) : (q : Ask) → σ → q.Outcome × σ
  | .get key, s => get send endpoint key s
  | .getMeta key, s =>
    exchange send endpoint key (requestTo "GET" (keyUrl endpoint key ++ "/meta") [] []) (pure none)
      (fun r => metaOfBody r.body) s
  | .getMulti keys, s => getEach send endpoint keys s
  | .set key item, s =>
    exchange send endpoint key
      (requestTo "PUT" (keyUrl endpoint key) (Web.itemHeaders item) item.value)
      (throw (unexpected endpoint key 404)) (fun _ => pure ()) s
  | .delete key, s =>
    exchange send endpoint key (requestTo "DELETE" (keyUrl endpoint key) [] []) (pure false)
      (fun _ => pure true) s

end QuorumKv.Remote
