import QuorumKv.Failure

/-! One write or delete on the replicas of a bucket, as a machine that is told what the nodes answer
and says whom to call. It succeeds with `w` acknowledgements. Live mains come first, at most `n` of
them; backups are brought in when too few mains are live, or once when too few mains acknowledged. A
node that refuses a stale revision is healthy, so a refusal brings in no backup. -/
namespace QuorumKv.Quorum

/-- So many acknowledging mains make backups unnecessary. -/
def threshold (n w : Nat) : Nat := n - w + 1

structure Write where
  key : String
  n : Nat
  w : Nat
  /-- The live mains, which were all called. -/
  mains : List String
  /-- The live backups that were not called yet. -/
  spare : List String
  /-- How many calls have no answer yet. -/
  pending : Nat
  acked : List String
  /-- Whether any node that acknowledged had the key. -/
  found : Bool
  conflicts : Nat
  /-- How many times backups were brought in. -/
  engaged : Nat
  retried : Bool
  result : Option (Except Failure Bool)

namespace Write

/-- The write and the nodes to call first. -/
def start (key : String) (n w bucket : Nat) (liveMains liveBackups : List String) :
    Write × List String :=
  let mains := liveMains.take n
  let extra := if mains.length < threshold n w then liveBackups.take (n - mains.length) else []
  let calls := mains ++ extra
  let s : Write :=
    { key, n, w, mains
      spare := liveBackups.drop extra.length
      pending := calls.length
      acked := []
      found := false
      conflicts := 0
      engaged := if extra.isEmpty then 0 else 1
      retried := false
      result := if calls.isEmpty then some (throw (.noNode bucket)) else none }
  (s, calls)

def verdict (s : Write) : Except Failure Bool :=
  if s.w ≤ s.acked.length then pure s.found
  else if 0 < s.conflicts then throw (.stale s.key)
  else throw (.partialWrite s.acked.length s.w)

def finish (s : Write) : Write :=
  { s with result := some s.verdict }

def ackedMains (s : Write) : Nat :=
  (s.acked.filter fun addr => decide (addr ∈ s.mains)).length

/-- The backups of a second attempt; none when one is out of place. -/
def secondCalls (s : Write) : List String :=
  if !s.retried && s.conflicts == 0 && s.ackedMains < threshold s.n s.w then
    s.spare.take (s.n - s.acked.length)
  else []

/-- What follows an answer: the end, more waiting, or the second attempt. -/
def advance (s : Write) : Write × List String :=
  if s.w ≤ s.acked.length then (s.finish, [])
  else if 0 < s.pending then (s, [])
  else
    match s.secondCalls with
    | [] => (s.finish, [])
    | calls =>
      ({ s with
          spare := s.spare.drop calls.length
          pending := calls.length
          engaged := s.engaged + 1
          retried := true }, calls)

/-- Counts one answer. -/
def tally (s : Write) (addr : String) : Except Failure Bool → Write
  | .ok found => { s with acked := s.acked ++ [addr], found := s.found || found }
  | .error (.stale _) => { s with conflicts := s.conflicts + 1 }
  | .error _ => s

/-- Takes the answer of a node; gives the nodes to call now. An answer after the end is too late. -/
def absorb (s : Write) (addr : String) (r : Except Failure Bool) : Write × List String :=
  if s.result.isSome then (s, [])
  else ({ s with pending := s.pending - 1 }.tally addr r).advance

/-- The deadline passes. -/
def expire (s : Write) : Write :=
  if s.result.isSome then s else s.finish

end Write

end QuorumKv.Quorum
