/-! Revisions order the versions of a key. They are positive for live records and negative for
tombstones, and are compared by magnitude alone: a tombstone at -4 is newer than a value at 3. -/
namespace QuorumKv

namespace Revision

/-- The least and the greatest revision; what would go beyond them stops there. -/
def least : Int := -9223372036854775808

def greatest : Int := 9223372036854775807

end Revision

/-- A signed revision of 64 bits. -/
structure Revision where
  val : Int
  least_le : Revision.least ≤ val
  le_greatest : val ≤ Revision.greatest
  deriving DecidableEq

namespace Revision

/-- The revision nearest to a number. -/
def clamp (n : Int) : Revision where
  val := max least (min n greatest)
  least_le := Int.le_max_left ..
  le_greatest := Int.max_le.mpr ⟨by decide, Int.min_le_right ..⟩

def ofInt? (n : Int) : Option Revision :=
  if h : least ≤ n ∧ n ≤ greatest then some ⟨n, h.1, h.2⟩ else none

/-- As a request, 0 asks the store to assign the next revision. -/
def auto : Revision := ⟨0, by decide, by decide⟩

instance : Inhabited Revision := ⟨auto⟩

def isTombstone (r : Revision) : Bool :=
  r.val < 0

def magnitude (r : Revision) : Nat :=
  r.val.natAbs

/-- Greater magnitude is newer. -/
def compare (a b : Revision) : Ordering :=
  Ord.compare a.magnitude b.magnitude

/-- The magnitude as a revision. Only the least revision has none, and gets the greatest. -/
def abs (r : Revision) : Revision :=
  clamp r.magnitude

/-- What a write without a revision of its own gets, after the stored one. -/
def next : Option Revision → Revision
  | some stored => clamp (stored.abs.val + 1)
  | none => ⟨1, by decide, by decide⟩

/-- What a delete of a record at `current` writes. -/
def tombstone (current : Revision) : Revision :=
  clamp (-min (max current.abs.val 1 + 1) greatest)

/-- What becomes of a write. -/
inductive Verdict where
  /-- It is stored under this revision. -/
  | store (rev : Revision)
  /-- The stored record has the same magnitude and stays. -/
  | duplicate
  /-- What is stored is newer. -/
  | stale (stored : Revision)
  deriving DecidableEq

def resolve (stored : Option Revision) (requested : Revision) : Verdict :=
  if requested = auto then .store (next stored)
  else
    match stored with
    | none => .store requested
    | some stored =>
      match compare requested stored with
      | .gt => .store requested
      | .eq => .duplicate
      | .lt => .stale stored

/-- Keeps `best` unless `r` is strictly newer. -/
def newer {α : Type} (rev : α → Revision) (best : Option α) (x : α) : Option α :=
  match best with
  | none => some x
  | some b => if (rev b).magnitude < (rev x).magnitude then some x else some b

/-- The newest of some records; the first of several that are equally new. -/
def latest {α : Type} (rev : α → Revision) (xs : List α) : Option α :=
  xs.foldl (newer rev) none

end Revision

end QuorumKv
