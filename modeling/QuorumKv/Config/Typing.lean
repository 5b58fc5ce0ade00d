import QuorumKv.Document
import QuorumKv.Text.Digits
import QuorumKv.Text.Real
import QuorumKv.Text.Shortest

/-! How the values of a document are taken for the fields of a configuration. The strict typing
takes a value for what it is; the lenient one, made for hand-written files and environment
variables, also reads numbers from text and text from numbers. -/
namespace QuorumKv.Config

structure Typing where
  /-- A whole number below the bound. -/
  unsigned : Nat → Document → Option Nat
  real : Document → Option Float
  bool : Document → Option Bool
  text : Document → Option String
  /-- The named fields of a record, which a list gives in the order of their names. -/
  fields : List String → Document → Option (List (String × Document))

namespace Typing

def below (bound : Nat) (n : Int) : Option Nat :=
  if 0 ≤ n && n < bound then some n.toNat else none

def strict : Typing where
  unsigned bound
    | .int n => below bound n
    | _ => none
  real
    | .int n => some (Float.ofInt n)
    | .real x => some x
    | _ => none
  bool
    | .bool b => some b
    | _ => none
  text
    | .text s => some s
    | _ => none
  fields
    | _, .table fields => some fields
    | names, .list values => if values.length ≤ names.length then some (names.zip values) else none
    | _, _ => none

/-- The words that stand for yes and no. -/
def truthWord? (s : String) : Option Bool :=
  let word := String.ofList (s.toList.map Char.toLower)
  if word == "true" || word == "on" || word == "yes" then some true
  else if word == "false" || word == "off" || word == "no" then some false
  else none

/-- The nearest whole number, from 0 to the greatest of 64 bits. -/
def roundToNat (x : Float) : Nat :=
  x.round.toUInt64.toNat

def lenient : Typing where
  unsigned bound
    | .int n => below bound n
    | .real x => below bound (roundToNat x)
    | .bool b => below bound b.toNat
    | .text s =>
      match truthWord? s with
      | some b => below bound b.toNat
      | none => (Text.uint64? s).bind fun n => below bound n
    | _ => none
  real
    | .real x => some x
    | .int n => some (Float.ofInt n)
    | .bool b => some (if b then 1 else 0)
    | .text s =>
      match truthWord? s with
      | some b => some (if b then 1 else 0)
      | none => Text.real? s
    | _ => none
  bool
    | .bool b => some b
    | .int n => some (n != 0)
    | .real x => some (x != 0)
    | .text s => if s == "1" then some true else if s == "0" then some false else truthWord? s
    | _ => none
  text
    | .text s => some s
    | .int n => some n.repr
    | .real x => some (Text.Layout.plain.text x)
    | .bool b => some (if b then "true" else "false")
    | _ => none
  fields
    | _, .table fields => some fields
    | names, .list values => some (names.zip values)
    | _, _ => none

def texts (t : Typing) : Document → Option (List String)
  | .list items => items.mapM t.text
  | _ => none

end Typing

/-- The field of that name, or the default when there is none. -/
def fieldOr {α : Type} (fields : List (String × Document)) (name : String) (default : α)
    (read : Document → Option α) : Option α :=
  match Document.field? fields name with
  | some d => read d
  | none => some default

/-- A field that must be there. -/
def field {α : Type} (fields : List (String × Document)) (name : String)
    (read : Document → Option α) : Option α :=
  (Document.field? fields name).bind read

end QuorumKv.Config
