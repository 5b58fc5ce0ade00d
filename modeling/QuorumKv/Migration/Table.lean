import QuorumKv.Migration.Stage
import QuorumKv.Text.Order
import QuorumKv.Text.Utf8

/-! The switch table gives every key its stage: that of the longest listed beginning of the key, or
the default. A plan is the table as a document writes it, beginnings under their stage. -/
namespace QuorumKv.Migration

/-- The lists are in the order of their stage's spelling. -/
structure Plan where
  defaultStage : String
  lists : List (String × List String)
  deriving DecidableEq

/-- Longest beginnings first, equally long ones in text order. -/
structure Table where
  default : Stage
  entries : List (String × Stage)
  deriving DecidableEq

namespace Table

def comesFirst (a b : String × Stage) : Bool :=
  b.1.utf8ByteSize < a.1.utf8ByteSize ||
    (a.1.utf8ByteSize == b.1.utf8ByteSize && decide (a.1 ≤ b.1))

def arrange (entries : List (String × Stage)) : List (String × Stage) :=
  entries.mergeSort comesFirst

/-- Adds one beginning to the entries read so far. -/
def addEntry (stage : Stage) (entries : List (String × Stage)) (start : String) :
    Except Failure (List (String × Stage)) :=
  if start.isEmpty then throw (.config "empty switch prefix")
  else if entries.any fun (s, _) => s == start then
    throw (.config s!"prefix {Text.quoted start} assigned more than once")
  else pure (entries ++ [(start, stage)])

/-- Adds the beginnings listed under one stage. -/
def addList (entries : List (String × Stage)) (list : String × List String) :
    Except Failure (List (String × Stage)) := do
  let stage ← Stage.ofText list.1
  list.2.foldlM (addEntry stage) entries

def ofPlan (plan : Plan) : Except Failure Table := do
  let default ← Stage.ofText plan.defaultStage
  let entries ← plan.lists.foldlM addList []
  return ⟨default, arrange entries⟩

/-- Puts `start` at `stage`, wherever it was before. -/
def assign (t : Table) (start : String) (stage : Stage) : Table :=
  { t with entries := arrange (t.entries.filter (fun (s, _) => s != start) ++ [(start, stage)]) }

def startsWith (key start : String) : Bool :=
  start.toList.isPrefixOf key.toList

def route (t : Table) (key : String) : Stage :=
  match t.entries.find? fun (start, _) => startsWith key start with
  | some (_, stage) => stage
  | none => t.default

def uses (t : Table) (side : Side) : Bool :=
  t.default.uses side || t.entries.any fun (_, stage) => stage.uses side

/-- The names of the stages in text order. -/
def stagesByName : List Stage := [.brw, .brwCw, .bwCrw, .crw]

/-- The document that says what the table says, in canonical spelling and order. -/
def toPlan (t : Table) : Plan where
  defaultStage := t.default.name
  lists := stagesByName.filterMap fun stage =>
    match t.entries.filter fun (_, s) => s == stage with
    | [] => none
    | found => some (stage.name, Text.sorted (found.map (·.1)))

end Table

/-- A change of the table that takes keys from one end of the migration to the other. -/
inductive Warning where
  | default (before after : Stage)
  | entry (start : String) (before after : Stage)
  deriving DecidableEq

/-- What replacing `previous` by `next` has to be warned about: the default first, then every
beginning that either table lists, in text order. -/
def warnings (previous next : Table) : List Warning :=
  let default :=
    if previous.default.skipsMirror next.default then
      [Warning.default previous.default next.default]
    else []
  let starts := Text.sortedSet ((previous.entries ++ next.entries).map (·.1))
  default ++ starts.filterMap fun start =>
    let before := previous.route start
    let after := next.route start
    if before.skipsMirror after then some (.entry start before after) else none

end QuorumKv.Migration
