/-! Documents: the values that configuration files, status pages and metadata answers are made of,
whatever their notation. -/
namespace QuorumKv

inductive Document where
  | null
  | bool (b : Bool)
  | int (n : Int)
  | real (x : Float)
  | text (s : String)
  | list (items : List Document)
  | table (fields : List (String × Document))
  deriving Inhabited

namespace Document

def nat (n : Nat) : Document := .int n

/-- The last field of that name, which is the one that counts when a name is repeated. -/
def field? (fields : List (String × Document)) (name : String) : Option Document :=
  (fields.reverse.find? fun (k, _) => k == name).map (·.2)

/-- Puts a field at its place or, when it is new, at the end. -/
def setField (fields : List (String × Document)) (name : String) (d : Document) :
    List (String × Document) :=
  if fields.any fun (k, _) => k == name then
    fields.map fun (k, old) => if k == name then (k, d) else (k, old)
  else fields ++ [(name, d)]

/-- The fields of a table; nothing else has any. -/
def fields : Document → List (String × Document)
  | .table fields => fields
  | _ => []

/-- The elements of a list; nothing else has any. -/
def items : Document → List Document
  | .list items => items
  | _ => []

/-- Names of these characters need no quotes. -/
def isNameChar (c : Char) : Bool :=
  c.isAlphanum || c == '_' || c == '-'

/-- A name without quotes, and what follows it. -/
def bareName? (cs : List Char) : Option (String × List Char) :=
  let name := cs.takeWhile isNameChar
  if name.isEmpty then none else some (String.ofList name, cs.dropWhile isNameChar)

end Document

end QuorumKv
