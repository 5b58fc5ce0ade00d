import QuorumKv.Document.Json
import QuorumKv.Item
import QuorumKv.Text.Utf8

/-! Requests and responses of the web, and the headers that carry an item's flags and revision. -/
namespace QuorumKv.Web

/-- `target` is the path with the query that may follow it, or a whole URL. -/
structure Request where
  method : String
  target : String
  headers : List (String × Bytes)
  body : Bytes
  deriving DecidableEq

structure Response where
  status : Nat
  headers : List (String × Bytes)
  body : Bytes
  deriving DecidableEq

def flagsHeader : String := "x-flags"

def revisionHeader : String := "x-revision"

def typeHeader : String := "content-type"

def lower (name : String) : String :=
  String.ofList (name.toList.map Char.toLower)

/-- The first header of that name, in any case. -/
def header? (headers : List (String × Bytes)) (name : String) : Option Bytes :=
  (headers.find? fun (n, _) => lower n == name).map (·.2)

/-- What a header may hold to be read as text. -/
def isShown (b : UInt8) : Bool :=
  (32 ≤ b && b < 127) || b == 9

def headerText? (bytes : Bytes) : Option String :=
  if bytes.all isShown then Text.Utf8.decode? bytes else none

def flags? (bytes : Bytes) : Option UInt32 :=
  headerText? bytes >>= Text.uint32?

def revision? (bytes : Bytes) : Option Revision :=
  headerText? bytes >>= Text.int64? >>= Revision.ofInt?

/-- The headers that go with an item's value. -/
def itemHeaders (item : Item) : List (String × Bytes) :=
  [(flagsHeader, Text.Utf8.encode item.flags.toNat.repr),
    (revisionHeader, Text.Utf8.encode item.rev.val.repr)]

namespace Response

/-- No content, and so no type of content. -/
def empty (status : Nat) : Response := ⟨status, [], []⟩

def ofBytes (status : Nat) (type : String) (headers : List (String × Bytes)) (body : Bytes) :
    Response :=
  ⟨status, (typeHeader, Text.Utf8.encode type) :: headers, body⟩

def text (status : Nat) (s : String) : Response :=
  ofBytes status "text/plain; charset=utf-8" [] (Text.Utf8.encode s)

def document (status : Nat) (d : Document) : Response :=
  ofBytes status "application/json" [] (Text.Utf8.encode (Document.Json.render d))

def octets (headers : List (String × Bytes)) (body : Bytes) : Response :=
  ofBytes 200 "application/octet-stream" headers body

/-- An explanation for a program to read. -/
def explain (status : Nat) (text : String) : Response :=
  document status (.table [("error", .text text)])

def ofFailure (e : Failure) : Response :=
  explain e.httpStatus e.message

/-- The answer to a request for the headers alone. -/
def withoutBody (r : Response) : Response :=
  { r with body := [] }

def isSuccess (r : Response) : Bool :=
  200 ≤ r.status && r.status < 300

end Response

end QuorumKv.Web
