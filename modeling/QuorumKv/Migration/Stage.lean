import QuorumKv.Failure
import QuorumKv.Text.Blank
import QuorumKv.Text.Quoted

/-! The stages of a migration from the legacy store to the new one. A key's stage decides which
store serves it, which one receives a copy of its writes, and which one is asked when the first has
nothing. -/
namespace QuorumKv.Migration

inductive Side where
  | legacy
  | new
  deriving DecidableEq, Repr

def Side.name : Side → String
  | legacy => "legacy"
  | new => "new"

/-- In forward order. The names tell which operations each store takes: the legacy store before the
`C`, the new one after it. -/
inductive Stage where
  | brw
  | brwCw
  | bwCrw
  | crw
  deriving DecidableEq, Repr

namespace Stage

def all : List Stage := [brw, brwCw, bwCrw, crw]

def name : Stage → String
  | brw => "BRW"
  | brwCw => "BRW_CW"
  | bwCrw => "BW_CRW"
  | crw => "CRW"

def code : Stage → String
  | brw => "br1w1cr0w0"
  | brwCw => "br1w1cr0w1"
  | bwCrw => "br0w1cr1w1"
  | crw => "br0w0cr1w1"

/-- The place in forward order. -/
def rank : Stage → Nat
  | brw => 0
  | brwCw => 1
  | bwCrw => 2
  | crw => 3

/-- Serves reads and takes writes first. -/
def primary : Stage → Side
  | brw | brwCw => .legacy
  | bwCrw | crw => .new

/-- Receives a copy of every successful write. -/
def mirror : Stage → Option Side
  | brwCw => some .new
  | bwCrw => some .legacy
  | brw | crw => none

/-- Is asked when the primary has nothing, for it still holds the keys that were written before the
new store received copies. -/
def fallback : Stage → Option Side
  | bwCrw => some .legacy
  | brw | brwCw | crw => none

def uses (stage : Stage) (side : Side) : Bool :=
  stage.primary == side || stage.mirror == some side

/-- A jump between the two ends leaves out the stages in which both stores take writes. -/
def skipsMirror : Stage → Stage → Bool
  | brw, crw | crw, brw => true
  | _, _ => false

/-- The same letters, in whatever case. Letters outside ASCII have no other case here. -/
def sameWord (a b : String) : Bool :=
  a.toList.map Char.toLower == b.toList.map Char.toLower

/-- Reads a name or a code. -/
def ofText (text : String) : Except Failure Stage :=
  let word := Text.trim text
  match all.find? fun stage => sameWord stage.name word || sameWord stage.code word with
  | some stage => pure stage
  | none => throw (.config ("unknown storage stage " ++ Text.quoted word))

end Stage

end QuorumKv.Migration
