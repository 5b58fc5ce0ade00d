import QuorumKv.Item

/-! What can be asked of anything that stores keys: a node, the replicated cluster of nodes, or the
store behind a web server. -/
namespace QuorumKv

inductive Ask where
  | get (key : String)
  | getMeta (key : String)
  /-- Several keys at once. -/
  | getMulti (keys : List String)
  /-- Stores an item; its revision is the one requested. -/
  | set (key : String) (item : Item)
  | delete (key : String)
  deriving DecidableEq

namespace Ask

/-- What is told when nothing goes wrong. A multi-get tells only of the keys that were found; a
delete tells whether the key was there. -/
abbrev Answer : Ask → Type
  | get _ => Option Item
  | getMeta _ => Option Meta
  | getMulti _ => List (String × Item)
  | set _ _ => Unit
  | delete _ => Bool

/-- How an answer can turn out. -/
abbrev Outcome (q : Ask) : Type := Except Failure q.Answer

/-- Whether an answer says that there is no such key. -/
def isMiss : (q : Ask) → q.Answer → Bool
  | get _, found => found.isNone
  | getMeta _, found => found.isNone
  | delete _, found => !found
  | getMulti _, _ | set _ _, _ => false

end Ask

end QuorumKv
