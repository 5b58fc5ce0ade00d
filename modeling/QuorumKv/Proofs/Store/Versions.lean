import QuorumKv.Proofs.Store.Change

/-! The versions that a key takes, one after another. Each is newer than those before it, until
revisions come to the greatest one, where they stay. -/
namespace QuorumKv.Store

/-- The versions of a key from what is there to what is left, one for each change that the key
sees. -/
def versions (key : String) (s : Store) : List Change → List Record
  | [] => (s.record? key).toList
  | change :: rest =>
    let t := s.apply change
    if t.record? key = s.record? key then versions key t rest
    else (s.record? key).toList ++ versions key t rest

/-- What a record becomes when a change reaches it. -/
structure Succeeds (change : Change) (key : String) (old : Option Record) (new : Record) :
    Prop where
  named : change.key = key
  outgrows : ∀ r, old = some r → new.rev.Outgrows r.rev
  /-- Sets make records live, and deletes make tombstones. -/
  sign : match change with
    | .set _ _ _ => 0 < new.rev.val
    | .delete _ _ => new.rev.val < 0

variable {s t : Store} {key : String}

theorem succeeds_of_effect {change : Change} (bounded : s.IsBounded) (effect : Effect s change t)
    (changed : t.record? key ≠ s.record? key) :
    ∃ r, t.record? key = some r ∧ Succeeds change key (s.record? key) r := by
  have put {k : String} {r : Record} {tail : Nat}
      (other : record? ⟨s.records.put k r, tail⟩ key ≠ s.record? key) :
      k = key ∧ record? ⟨s.records.put k r, tail⟩ key = some r := by
    simp only [record?, Assoc.get?_put] at other ⊢
    split at other
    · rename_i same
      exact ⟨same, if_pos same⟩
    · exact absurd rfl other
  cases effect with
  | nothing => exact absurd rfl changed
  | @raise k item old rev now held live hash flags value grants =>
    obtain ⟨rfl, there⟩ := put changed
    refine ⟨_, there, rfl, ?_, grants.positive⟩
    intro r same
    obtain rfl := Option.some.inj (held.symm.trans same)
    exact grants.outgrows (bounded _ _ held)
  | @version k item rev now grants =>
    obtain ⟨rfl, there⟩ := put changed
    refine ⟨_, there, rfl, ?_, grants.positive⟩
    intro r same
    rw [same] at grants
    exact grants.outgrows (bounded _ _ same)
  | @bury k old now held live =>
    obtain ⟨rfl, there⟩ := put changed
    refine ⟨_, there, rfl, ?_, ?_⟩
    · intro r same
      obtain rfl := Option.some.inj (held.symm.trans same)
      exact Revision.tombstone_outgrows (bounded _ _ held)
    · have dead := Revision.tombstone_isTombstone old.rev
      simpa only [Revision.isTombstone, decide_eq_true_eq] using dead

/-- Whatever is there in the beginning is the first version, and later ones outgrow it. -/
theorem mem_versions {r old : Record} {changes : List Change} (bounded : s.IsBounded)
    (held : s.record? key = some old) (listed : r ∈ versions key s changes) :
    r = old ∨ r.rev.Outgrows old.rev := by
  induction changes generalizing s old with
  | nil =>
    simp only [versions, held, Option.toList_some, List.mem_singleton] at listed
    exact .inl listed
  | cons change rest ih =>
    have after := isBounded_apply change bounded
    simp only [versions] at listed
    split at listed
    · rename_i same
      exact ih after (same.trans held) listed
    · rename_i changed
      obtain ⟨new, there, succeeds⟩ := succeeds_of_effect bounded (apply_effect s change) changed
      have grown := succeeds.outgrows old held
      obtain first | later := List.mem_append.mp listed
      · simp only [held, Option.toList_some, List.mem_singleton] at first
        exact .inl first
      · obtain rfl | beyond := ih after there later
        · exact .inr grown
        · exact .inr (beyond.trans grown)

theorem versions_pairwise (bounded : s.IsBounded) (changes : List Change) :
    (versions key s changes).Pairwise fun a b => b.rev.Outgrows a.rev := by
  induction changes generalizing s with
  | nil =>
    unfold versions
    cases s.record? key with
    | none => exact .nil
    | some r => exact List.pairwise_singleton ..
  | cons change rest ih =>
    have after := isBounded_apply change bounded
    simp only [versions]
    split
    · exact ih after
    · rename_i changed
      obtain ⟨new, there, succeeds⟩ := succeeds_of_effect bounded (apply_effect s change) changed
      cases held : s.record? key with
      | none => exact ih after
      | some old =>
        refine List.pairwise_cons.mpr ⟨fun r later => ?_, ih after⟩
        have grown := succeeds.outgrows old held
        obtain rfl | beyond := mem_versions after there later
        · exact grown
        · exact beyond.trans grown

/-- A change that a key sees makes its revision newer, or leaves it as new as can be; a set makes it
positive and a delete negative. So the versions of a key can be told by their revisions until these
come to the greatest one. -/
theorem revisions_outgrow (changes : List Change) :
    (∀ change key, ((empty.after changes).apply change).record? key ≠
        (empty.after changes).record? key →
      ∃ r, ((empty.after changes).apply change).record? key = some r ∧
        Succeeds change key ((empty.after changes).record? key) r) ∧
    ∀ key, (versions key empty changes).Pairwise fun a b =>
      b.rev.Outgrows a.rev ∧
        (a.rev.compare b.rev = .eq → (a.rev.magnitude : Int) = Revision.greatest) := by
  constructor
  · intro change key changed
    exact succeeds_of_effect (isBounded_after changes) (apply_effect _ change) changed
  · intro key
    apply (versions_pairwise (isBounded_after []) changes).imp
    intro a b grown
    exact ⟨grown, grown.greatest_of_eq⟩

/-- An item under the greatest revision. -/
def lastItem : Item := ⟨0, [97], ⟨Revision.greatest, by decide, by decide⟩⟩

/-- Beyond the greatest revision there is none: a delete and a set of something else both change the
record, and its revision is no newer. -/
theorem greatest_not_outgrown :
    let s := empty.after [.set "k" lastItem 0]
    let magnitude (t : Store) := (t.record? "k").map fun r => r.rev.magnitude
    (s.apply (.delete "k" 0)).record? "k" ≠ s.record? "k" ∧
      magnitude (s.apply (.delete "k" 0)) = magnitude s ∧
      (s.apply (.set "k" ⟨0, [98], .auto⟩ 0)).record? "k" ≠ s.record? "k" ∧
      magnitude (s.apply (.set "k" ⟨0, [98], .auto⟩ 0)) = magnitude s := by
  decide +kernel

end QuorumKv.Store
