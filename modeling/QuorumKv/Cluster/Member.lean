import QuorumKv.Health.Monitor
import QuorumKv.Route

/-! The nodes as the proxy knows them. A member is numbered once and for all, so that a call that is
under way keeps to its member when the routes change. -/
namespace QuorumKv.Cluster

/-- Each ready connection with the bytes that were left unread on it, the one used last at the
end. -/
structure Member where
  health : Health.Node
  idle : List Bytes

namespace Member

def addr (m : Member) : String := m.health.addr

/-- The next call takes the ready connection used last, or else a new one with nothing to read. -/
def takeConnection (m : Member) : Bytes × Member :=
  (m.idle.getLast?.getD [], { m with idle := m.idle.dropLast })

/-- Beyond the limit, connections are closed. -/
def keepConnection (m : Member) (maxIdle : Nat) (unread : Bytes) : Member :=
  if m.idle.length < maxIdle then { m with idle := m.idle ++ [unread] } else m

end Member

/-- The routes, the number of each address's member, and how many times the routes were replaced. -/
structure Topology where
  router : Router
  numbers : Assoc String Nat
  version : Nat

/-- Gives one address the member that it has in `known`, or else a new one. -/
def enroll (settings : Health.Settings) (now : Nat) (known : Assoc String Nat)
    (done : Assoc String Nat × List Member) (addr : String) : Assoc String Nat × List Member :=
  match known.get? addr with
  | some number => (done.1.put addr number, done.2)
  | none =>
    (done.1.put addr done.2.length, done.2 ++ [⟨Health.Node.fresh addr settings now, []⟩])

/-- Enrolls every address of a router. Nodes that are in `known` keep their member. -/
def enrollAll (settings : Health.Settings) (now : Nat) (known : Assoc String Nat)
    (members : List Member) (router : Router) : Assoc String Nat × List Member :=
  router.addresses.foldl (enroll settings now known) ([], members)

end QuorumKv.Cluster
