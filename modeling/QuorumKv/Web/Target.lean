import QuorumKv.Text.Blank
import QuorumKv.Text.Percent

/-! What a request is for: the segments of its path and the fields of its query. -/
namespace QuorumKv.Web

/-- The two sides of the first `sep`; the right side is missing when there is none. -/
def cutAt (sep : Char) : List Char → List Char × Option (List Char)
  | [] => ([], none)
  | c :: cs =>
    if c = sep then ([], some cs)
    else (c :: (cutAt sep cs).1, (cutAt sep cs).2)

structure Target where
  /-- Still with their escapes. -/
  segments : List String
  query : List (String × String)
  deriving DecidableEq

/-- A path segment as text, if its escapes make text. -/
def segmentText? (segment : String) : Option String :=
  Text.Utf8.decode? (Text.Percent.decodeBytes (Text.Utf8.encode segment))

/-- A name or a value in a query. A plus sign stands for a space. -/
def fieldText (cs : List Char) : String :=
  let spaced := cs.map fun c => if c = '+' then ' ' else c
  Text.Utf8.decodeLossy (Text.Percent.decodeBytes (Text.Utf8.encode (String.ofList spaced)))

/-- The fields of a query in their order. A field without `=` has an empty value. -/
def queryFields (cs : List Char) : List (String × String) :=
  ((Text.splitAtEach '&' cs).filter fun part => !part.isEmpty).map fun part =>
    let (name, value) := cutAt '=' part
    (fieldText name, fieldText (value.getD []))

def isSchemeChar (c : Char) : Bool :=
  c.isAlphanum || c == '+' || c == '-' || c == '.'

/-- The part of a target that a path begins. It is the whole target, or what follows a scheme and an
authority, where an empty path stands for `/`. A target of another form names no path. -/
def pathOf (target : List Char) : List Char :=
  if target.head? = some '/' then target
  else
    match target.dropWhile isSchemeChar with
    | ':' :: '/' :: '/' :: rest =>
      let path := rest.dropWhile fun c => !"/?#".toList.contains c
      if path.head? = some '/' then path else '/' :: path
    | _ => []

/-- Reads a target. What follows a `#` does not count. -/
def Target.ofText (text : String) : Target :=
  let (path, query) := cutAt '?' (cutAt '#' (pathOf text.toList)).1
  { segments := (Text.splitAtEach '/' path).tail.map String.ofList
    query := queryFields (query.getD []) }

end QuorumKv.Web
