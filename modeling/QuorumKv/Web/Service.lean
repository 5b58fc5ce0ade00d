import QuorumKv.Web.Message
import QuorumKv.Web.Target

/-! A web service as a list of resources. Paths are matched segment by segment as they are written;
what a pattern leaves open is read as text afterwards. -/
namespace QuorumKv.Web

inductive Piece where
  | word (text : String)
  /-- Any segment; as the last one of a path it must not be empty. -/
  | any
  deriving DecidableEq

/-- The segments that stand where the pattern is open. -/
def capture : List Piece → List String → Option (List String)
  | [], [] => some []
  | [.any], [segment] => if segment.isEmpty then none else some [segment]
  | .word text :: pattern, segment :: segments =>
    if text = segment then capture pattern segments else none
  | .any :: pattern, segment :: segments => (capture pattern segments).map (segment :: ·)
  | [], _ :: _ | _ :: _, [] => none

/-- What a service makes of one request: the texts are what stands in the open pieces. -/
abbrev Handler (σ : Type) := (texts : List String) → Request → Target → σ → Response × σ

structure Resource (σ : Type) where
  pattern : List Piece
  handlers : List (String × Handler σ)

/-- A request for the headers alone is served like one for the whole. -/
def Resource.handler? {σ : Type} (r : Resource σ) (method : String) : Option (Handler σ) :=
  let method := if method == "HEAD" then "GET" else method
  (r.handlers.find? fun (m, _) => m == method).map (·.2)

/-- The resource at a path, with the segments that it leaves open. -/
def find? {σ : Type} (resources : List (Resource σ)) (segments : List String) :
    Option (Resource σ × List String) :=
  resources.findSome? fun r => (capture r.pattern segments).map fun found => (r, found)

def serve {σ : Type} (resources : List (Resource σ)) (request : Request) (s : σ) : Response × σ :=
  let target := Target.ofText request.target
  match find? resources target.segments with
  | none => (.empty 404, s)
  | some (resource, found) =>
    match resource.handler? request.method with
    | none => (.empty 405, s)
    | some handle =>
      let (response, s) := match found.mapM segmentText? with
        | some texts => handle texts request target s
        | none => (.text 400 "Invalid URL: not UTF-8", s)
      (if request.method == "HEAD" then response.withoutBody else response, s)

end QuorumKv.Web
