import QuorumKv.Failure
import QuorumKv.Revision

/-! One read from the replicas of a bucket, as a machine that is told what the nodes answer and
says whom to call. It asks the `needed` best mains, and the next one for every call that fails.
The newest of the records found wins. When all of the quorum have none, the remaining mains and
then the live backups are asked one by one, and the first record found is the answer. -/
namespace QuorumKv.Quorum

inductive Read.Stage (α : Type) where
  /-- The quorum is being gathered. -/
  | gathering
  /-- The quorum had nothing; one further node is being asked, and these are next. -/
  | through (rest : List String)
  | done (result : Except Failure (Option α))

structure Read (α : Type) where
  needed : Nat
  /-- Ranked mains that were not called yet. -/
  untried : List String
  /-- How many calls of the quorum have no answer yet. -/
  pending : Nat
  /-- In the order in which they came. -/
  responses : List (Option α)
  stage : Read.Stage α

namespace Read

variable {α : Type}

def shortfall (s : Read α) : Read α :=
  { s with stage := .done (throw (.readQuorum s.responses.length s.needed)) }

/-- The read and the nodes to call first. -/
def start (needed : Nat) (ranked : List String) : Read α × List String :=
  let calls := ranked.take needed
  let s : Read α := ⟨needed, ranked.drop needed, calls.length, [], .gathering⟩
  (if calls.isEmpty then s.shortfall else s, calls)

/-- Asks the next node after a quorum without a record. -/
def askNext (s : Read α) : List String → Read α × List String
  | [] => ({ s with stage := .done (pure none) }, [])
  | addr :: rest => ({ s with stage := .through rest }, [addr])

/-- What follows an answer that brings the quorum no new call. -/
def advance (rev : α → Revision) (liveBackups : List String) (s : Read α) :
    Read α × List String :=
  if s.needed ≤ s.responses.length then
    match Revision.latest rev (s.responses.filterMap id) with
    | some found => ({ s with stage := .done (pure (some found)) }, [])
    | none => s.askNext (s.untried ++ liveBackups)
  else if s.pending = 0 then (s.shortfall, [])
  else (s, [])

/-- Takes the answer of a node; gives the nodes to call now. `liveBackups` are those of this
moment. -/
def absorb (rev : α → Revision) (liveBackups : List String) (s : Read α)
    (r : Except Failure (Option α)) : Read α × List String :=
  match s.stage, r with
  | .done _, _ => (s, [])
  | .through _, .ok (some found) => ({ s with stage := .done (pure (some found)) }, [])
  | .through rest, _ => s.askNext rest
  | .gathering, .ok found =>
    { s with pending := s.pending - 1, responses := s.responses ++ [found] }.advance rev liveBackups
  | .gathering, .error _ =>
    match s.untried with
    | addr :: rest => ({ s with untried := rest }, [addr])
    | [] => { s with pending := s.pending - 1 }.advance rev liveBackups

/-- The deadline passes. It only concerns the quorum. -/
def expire (s : Read α) : Read α :=
  match s.stage with
  | .gathering => s.shortfall
  | _ => s

def result? (s : Read α) : Option (Except Failure (Option α)) :=
  match s.stage with
  | .done result => some result
  | _ => none

/-- Whether the call under way is one that the read waits for alone. -/
def isThrough (s : Read α) : Bool :=
  match s.stage with
  | .through _ => true
  | _ => false

end Read

end QuorumKv.Quorum
