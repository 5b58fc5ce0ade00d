import QuorumKv.Proofs.Cluster.Reading
import QuorumKv.Proofs.Store

/-! A key that one change alone can still reach: late calls of an operation that has returned, or
the same question again. What that change keeps of a record, everything that happens keeps. -/
namespace QuorumKv

/-- Whether a question may change what is stored under a key. -/
def Ask.Changes (key : String) : Ask → Prop
  | .set k _ | .delete k => k = key
  | _ => False

/-- The change that a frame asks for. -/
def Wire.Frame.change? : Wire.Frame → Option Ask
  | .request (.set key item _) => some (.set key item)
  | .request (.delete key _) => some (.delete key)
  | _ => none

theorem Ask.change?_frame {bodyMax : Nat} {q p : Ask}
    (asks : (q.frame bodyMax).change? = some p) : p = q := by
  cases q with
  | set key item =>
    simp only [Ask.frame, Wire.setFrame] at asks
    split at asks
    · cases asks
    · split at asks
      · cases asks
      · exact (Option.some.inj asks).symm
  | delete key => exact (Option.some.inj asks).symm
  | getMulti keys => cases keys <;> cases asks
  | _ => cases asks

namespace Cluster

/-- Nothing but one change reaches a key. -/
def Rules.onlyChange (limits : Config.Limits) (key : String) (change : Ask) : Rules where
  begins q := q.Carried limits ∧ (q.Changes key → q = change)
  serves _ q := q.Changes key → q = change
  arrives bytes := ∀ frame ∈ Wire.answered (Wire.frames limits.bodyMax bytes),
    ∀ q, frame.change? = some q → q.Changes key → q = change

variable {P : Option Record → Prop} {key : String} {change : Ask}

/-- What a change keeps of the record under a key. -/
structure Keeps (P : Option Record → Prop) (key : String) (change : Ask) : Prop where
  set : ∀ item, change = .set key item → ∀ (s : Store) now, P (s.record? key) →
    P ((s.set key item now).2.record? key)
  delete : change = .delete key → ∀ (s : Store) now, P (s.record? key) →
    P ((s.delete key now).2.record? key)

theorem record_replies {limits : Config.Limits} {now : Nat} {frames : List Wire.Frame} {s : Store}
    (keeps : Keeps P key change)
    (only : ∀ frame ∈ frames, ∀ q, frame.change? = some q → q.Changes key → q = change)
    (held : P (s.record? key)) : P ((Node.replies limits now frames s).2.record? key) := by
  refine Node.replies_keep (fun s => P (s.record? key)) frames ?_ ?_ s held
  · intro s k item noreply listed before
    by_cases here : k = key
    · subst here
      exact keeps.set item (only _ listed _ rfl rfl).symm s now before
    · rwa [Store.record?_set_ne item now here]
  · intro s k noreply listed before
    by_cases here : k = key
    · subst here
      exact keeps.delete (only _ listed _ rfl rfl).symm s now before
    · rwa [Store.record?_delete_ne now here]

/-- What a change keeps of a node's record, every move keeps as long as nothing else reaches it. -/
theorem Traffic.move_record {limits : Config.Limits} {t u : Traffic} {addr : String}
    (keeps : Keeps P key change) (bounds : t.nodeLimits = limits) (sound : t.Sound)
    (move : Traffic.Move (.onlyChange limits key change) t u)
    (held : P ((t.store addr).record? key)) : P ((u.store addr).record? key) := by
  refine move_store (P := fun s => P (s.record? key)) addr ?_ ?_ move held
  · rintro now call ⟨k, known⟩ allowed
    rw [(t.session_toWire now addr (sound.calls k call known).2.2.1).2]
    have only : ∀ frame ∈ [call.q.frame t.nodeLimits.bodyMax],
        ∀ q, frame.change? = some q → q.Changes key → q = change := by
      intro frame listed q asks changes
      obtain rfl := List.mem_singleton.mp listed
      obtain rfl := Ask.change?_frame asks
      exact allowed changes
    exact record_replies keeps only held
  · intro now bytes allowed
    subst bounds
    exact record_replies keeps allowed held

/-- A read that begins while nothing but one change reaches the key is told of records that this
change keeps, and returns what it has found, if that is live. -/
theorem Run.read_undisturbed (may : String → Option Record → Prop) {c d e : Cluster}
    {plan : Route.Plan} {found : Option Item} (sound : c.traffic.Sound)
    (routed : Router.ofPlan plan = .ok c.topology.router) (positive : 0 < c.replication.r)
    (carried : Wire.CarriesKey key) (plain : Key.metaQuery? key = none)
    (keeps : ∀ addr, Keeps (may addr) key change)
    (holds : ∀ addr, may addr ((c.store addr).record? key))
    (later : Run (.onlyChange c.nodeLimits key change) c d)
    (reading : Run (.onlyChange c.nodeLimits key change) (d.begin (.get key)) e)
    (result : e.result? d.next (.get key) = some (.ok found)) :
    ∃ m x, e.traffic.Gathers d.next (c.topology.router.bucketOf key) c.replication.r
        (c.topology.router.resolve (c.topology.router.bucketOf key)) Item.rev
        (Shown may Record.versioned) m ∧
      m.result? = some (.ok x) ∧ found = x.filter fun item => !item.rev.isTombstone := by
  have keep : (Rules.onlyChange c.nodeLimits key change).Keep c.nodeLimits may key := by
    intro t u same sound move held addr
    exact Traffic.move_record (keeps addr) same sound move (held addr)
  obtain ⟨op, known, answer⟩ := Option.bind_eq_some_iff.mp result
  obtain ⟨-, gathers⟩ := later.read_later sound routed positive carried.word.filled plain (.inl rfl)
    carried (fun _ => And.left) keep holds reading known
  generalize op.state = state at gathers answer
  cases state with
  | read m =>
    obtain ⟨x, ended, same⟩ := Operation.State.result_get.mp answer
    exact ⟨m, x, gathers, ended, same⟩
  | _ => exact gathers.elim

end Cluster

end QuorumKv
