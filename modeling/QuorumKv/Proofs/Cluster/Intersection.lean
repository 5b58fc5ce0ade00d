import QuorumKv.Proofs.Cluster.Reading
import QuorumKv.Proofs.Cluster.Writing

/-! A quorum that acknowledged a write meets every quorum that is read later. The node that they
share had the item, or something newer, and nothing that happens to it makes its record older. -/
namespace QuorumKv

namespace Quorum.Read

variable {α : Type} {rev : α → Revision}

/-- Whether a read that has its answers, or has a result that is no failure, ends with a record of
at least this magnitude. -/
def EndsAbove (rev : α → Revision) (needed n : Nat) (m : Read α) : Prop :=
  needed ≤ m.responses.length ∨ (∃ found, m.result? = some (.ok found)) →
    ∃ x, m.result? = some (.ok (some x)) ∧ n ≤ (rev x).magnitude

/-- A quorum that heard of a record ends with nothing older. -/
theorem endsAbove_of_heard {seen : α → Prop} {m : Read α} {n : Nat}
    (follows : m.Follows rev seen)
    (heard : m.needed ≤ m.responses.length → ∃ y, some y ∈ m.responses ∧ n ≤ (rev y).magnitude) :
    m.EndsAbove rev m.needed n := by
  have won (full : m.needed ≤ m.responses.length) :
      ∃ x, m.newest rev = some x ∧ n ≤ (rev x).magnitude := by
    obtain ⟨y, listed, above⟩ := heard full
    cases newest : m.newest rev with
    | none => exact absurd listed (newest_eq_none.mp newest y)
    | some x => exact ⟨x, rfl, Nat.le_trans above ((newest_eq_some newest).2 y listed)⟩
  have full (ended : m.needed ≤ m.responses.length ∨ ∃ found, m.result? = some (.ok found)) :
      m.needed ≤ m.responses.length := by
    obtain full | ⟨found, ok⟩ := ended
    · exact full
    · cases found with
      | none => exact (follows.of_absent ok).1
      | some x => exact (follows.of_found ok).1
  intro ended
  obtain ⟨x, same, above⟩ := won (full ended)
  have answered := full ended
  unfold Follows at follows
  split at follows <;> rename_i stage
  · exact absurd follows (Nat.not_lt.mpr answered)
  · rw [follows.2] at same
    cases same
  · rw [follows.2] at same
    cases same
  · obtain chosen | ⟨silent, -⟩ := follows.2
    · obtain rfl := Option.some.inj (same.symm.trans chosen)
      exact ⟨x, by simp only [result?, stage], above⟩
    · rw [silent] at same
      cases same
  · exact absurd follows (Nat.not_lt.mpr answered)

end Quorum.Read

namespace Cluster

/-- A read of a value or of metadata that ends, when it does, with a record of at least this
magnitude. -/
def Operation.State.EndsAbove (needed n : Nat) : Operation.State → Prop
  | .read m => m.EndsAbove Item.rev needed n
  | .readMeta m => m.EndsAbove Meta.rev needed n
  | _ => False

namespace Traffic

variable {α : Type} {rev : α → Revision} {view : Record → α}

/-- Nodes that all have a record of at least some magnitude. -/
def Above (acked : List String) (n : Nat) (addr : String) (held : Option Record) : Prop :=
  addr ∈ acked → ∃ r, held = some r ∧ n ≤ r.rev.magnitude

theorem endsAbove_of_gathers {t : Traffic} {number bucket needed n : Nat}
    {replicas : Route.Replicas} {acked : List String} {m : Quorum.Read α}
    (shows_rev : ∀ r, rev (view r) = r.rev)
    (gathers : t.Gathers number bucket needed replicas rev (Shown (Above acked n) view) m)
    (nodup : acked.Nodup) (mains : acked ⊆ replicas.mains)
    (overlap : replicas.mains.length < acked.length + needed) : m.EndsAbove rev needed n := by
  rw [← gathers.needed_eq]
  refine Quorum.Read.endsAbove_of_heard gathers.follows fun full => ?_
  obtain ⟨answers, given, -⟩ := gathers.answers
  have more : replicas.mains.length < m.responses.length + acked.length := by
    have := gathers.needed_eq
    omega
  obtain ⟨addr, listed, found, heard, held, above, shown⟩ := given.meets nodup mains more
  obtain ⟨r, rfl, reached⟩ := above listed
  rw [shown] at heard
  exact ⟨view r, heard, shows_rev r ▸ reached⟩

end Traffic

variable {replication : Config.Replication} {limits nodeLimits : Config.Limits}
  {plan : Route.Plan} {epoch : Nat}

/-- After a write under a revision of its own was acknowledged by mains, no quorum that is read
later is without it: what it finds is that revision or a newer one. Other writes, deletes, failures
and delays may come in between in any order. -/
theorem read_above_acknowledged {c₀ c₁ c₂ c₃ : Cluster} {number : Nat} {key : String} {item : Item}
    {q : Ask} {op : Operation}
    (built : build replication limits plan nodeLimits epoch = .ok c₀) (positive : 0 < replication.r)
    (before : Run (.carried nodeLimits) c₀ c₁) (explicit : 0 < item.rev.val)
    (returned : c₁.Acknowledged number (.set key item))
    (overlap : (c₁.replicasOf key).mains.length < replication.w + replication.r)
    (later : Run (.carried nodeLimits) c₁ c₂) (plain : Key.metaQuery? key = none)
    (reads : q = .get key ∨ q = .getMeta key) (carried : q.Carried nodeLimits)
    (reading : Run (.carried nodeLimits) (c₂.begin q) c₃)
    (known : c₃.operations.get? c₂.next = some op) :
    op.q = q ∧ op.state.EndsAbove replication.r item.rev.magnitude := by
  obtain ⟨sound, replicates, bounds, routed⟩ := before.from_build built fun _ => id
  have small : item.rev.magnitude ≤ 9223372036854775807 := by
    refine Revision.magnitude_le_of_not_tombstone ?_
    simp only [Revision.isTombstone, decide_eq_true_eq]
    omega
  obtain ⟨acked, nodup, quorum, mains, held⟩ := before.acknowledged built (fun _ => id) small
    returned
  have filled : key ≠ "" := (returned.carried sound).1.word.filled
  have keep : (Rules.carried nodeLimits).Keep c₁.nodeLimits
      (Traffic.Above acked item.rev.magnitude) key := by
    intro t u _ _ move above addr listed
    exact Traffic.move_atLeast small move (above addr listed)
  obtain ⟨asked, gathers⟩ := later.read_later sound routed (replicates ▸ positive) filled plain
    reads (bounds ▸ carried) (fun _ allowed => bounds ▸ allowed) keep
    (fun addr listed => held addr listed) reading known
  have enough : (c₁.replicasOf key).mains.length < acked.length + c₁.replication.r := by
    rw [replicates]
    omega
  refine ⟨asked, ?_⟩
  rw [← replicates]
  generalize op.state = state at gathers ⊢
  unfold Traffic.GathersFor at gathers
  split at gathers
  · exact Traffic.endsAbove_of_gathers Record.rev_versioned gathers nodup mains enough
  · have viewed (r : Record) : r.toMeta.rev = r.rev := rfl
    exact Traffic.endsAbove_of_gathers viewed gathers nodup mains enough
  · exact gathers.elim

/-- A cluster of one node, in which a set has succeeded. -/
def afterSet (key : String) : Cluster :=
  (ofReplicas (quorums 1 1 1) ⟨250, 100⟩ ⟨["a"], []⟩).run (.begin (.set key fifth) :: callSteps 1)

theorem read_above_acknowledged_one :
    ∃ op, (((afterSet "k").begin (.get "k")).run (callSteps 3)).operations.get?
        (afterSet "k").next = some op ∧
      op.q = .get "k" ∧ op.state.EndsAbove 1 fifth.rev.magnitude := by
  have set_carried : (Ask.set "k" fifth).Carried ⟨250, 100⟩ := ⟨carriesKey_k, by decide, by decide⟩
  have before : Run (.carried ⟨250, 100⟩) (ofReplicas (quorums 1 1 1) ⟨250, 100⟩ ⟨["a"], []⟩)
      (afterSet "k") :=
    Run.start.steps _ (by simp [callSteps, Rules.Allow, Rules.carried, set_carried])
  have returned : (afterSet "k").Acknowledged 0 (.set "k" fifth) := by decide +kernel
  have overlap : ((afterSet "k").replicasOf "k").mains.length < 1 + 1 := by decide +kernel
  have there : ((((afterSet "k").begin (.get "k")).run (callSteps 3)).operations.get?
      (afterSet "k").next).isSome = true := by decide +kernel
  obtain ⟨op, known⟩ := Option.isSome_iff_exists.mp there
  exact ⟨op, known, read_above_acknowledged (build_one 1 1 1 ⟨250, 100⟩) (by decide) before
    (by decide) returned overlap .start (by decide) (.inl rfl) carriesKey_k
    (Run.start.steps _ (by simp [callSteps, Rules.Allow, Rules.carried])) known⟩

/-- A set of six bytes to a node that takes no more than one byte, and a set that the node takes,
side by side. The six bytes are a line that the node answers as well, and this answer stays on the
connection that is used next. -/
def afterOversize : Cluster :=
  (ofReplicas (quorums 1 1 1) ⟨250, 1⟩ ⟨["a"], []⟩).run
    [.begin (.set "j" ⟨0, Text.Utf8.encode "gets k", .auto⟩), .begin (.set "k" fifth), .ask 1,
      .ask 3, .serve 1, .serve 3, .finish 3, .finish 1, .deliver 3]

/-- Questions that a node does not read as they were meant have to be left out: a key that is itself
a metadata query, and a value that is too long for the node to skip. -/
theorem absent_after_acknowledged :
    ((afterSet "?k").Acknowledged 0 (.set "?k" fifth) ∧
      ((((afterSet "?k").begin (.get "?k")).run (callSteps 3)).result? 2 (.get "?k")).map
        Except.toOption = some (some none)) ∧
    (afterOversize.Acknowledged 2 (.set "k" fifth) ∧
      (((afterOversize.begin (.get "k")).run (callSteps 5)).result? 4 (.get "k")).map
        Except.toOption = some (some none)) := by
  decide +kernel

end Cluster

end QuorumKv
