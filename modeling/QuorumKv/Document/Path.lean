import QuorumKv.Document
import QuorumKv.Text.Digits

/-! Paths: steps from a document to fields of its tables and elements of its lists. Putting a value
where a path leads makes whatever is missing on the way. -/
namespace QuorumKv.Document

inductive Step where
  | field (name : String)
  /-- An element by its place, from the end of the list when negative. -/
  | element (i : Int)
  deriving DecidableEq

/-! What an earlier and a later value at one place make together: the later one, except that a table
adds its fields to those of an earlier table. -/
mutual

def merge (old : Document) : Document → Document
  | .table later =>
    let start := match old with
      | .null => .table []
      | old => old
    mergeFields start later
  | later => later

def mergeFields (old : Document) : List (String × Document) → Document
  | [] => old
  | (name, d) :: later =>
    let before := (field? old.fields name).getD .null
    mergeFields (.table (setField old.fields name (merge before d))) later

end

/-- A list that is long enough to have an element there, filled up with nulls, and the place of that
element from its start. -/
def reach (i : Int) (items : List Document) : List Document × Nat :=
  let place := if i < 0 then items.length + i else i
  if place < 0 then (List.replicate (-place).toNat .null ++ items, 0)
  else (items ++ List.replicate (place.toNat + 1 - items.length) .null, place.toNat)

/-- Puts a value where the steps lead from what stood there before. A table takes the place of
whatever else a field is asked of, and a list of whatever else an element is asked of. -/
def put (d : Document) : List Step → Document → Document
  | [], old => merge old d
  | .field name :: steps, old =>
    .table (setField old.fields name (put d steps ((field? old.fields name).getD .null)))
  | .element i :: steps, old =>
    let (items, place) := reach i old.items
    .list (items.modify place (put d steps))

def skipGap (cs : List Char) : List Char :=
  cs.dropWhile fun c => c == ' ' || c == '\t'

/-- A place behind its opening bracket, and what follows the closing one. -/
def place? (cs : List Char) : Option (Int × List Char) :=
  let (sign, cs) := match skipGap cs with
    | '-' :: cs => (['-'], cs)
    | cs => ([], cs)
  match Text.signed? Text.bound63 (sign ++ cs.takeWhile Char.isDigit),
      skipGap (cs.dropWhile Char.isDigit) with
  | some i, ']' :: cs => some (i, cs)
  | _, _ => none

/-- Steps to fields begin with a dot, steps to elements stand in brackets. -/
def steps? : (fuel : Nat) → List Char → Option (List Step)
  | _, [] => some []
  | fuel + 1, '.' :: cs => do
    let (name, cs) ← bareName? cs
    return .field name :: (← steps? fuel cs)
  | fuel + 1, '[' :: cs => do
    let (i, cs) ← place? cs
    return .element i :: (← steps? fuel cs)
  | _, _ => none

/-- The path that a text spells, which begins with the name of a field. -/
def path? (text : String) : Option (List Step) := do
  let (name, cs) ← bareName? text.toList
  return .field name :: (← steps? cs.length cs)

end QuorumKv.Document
