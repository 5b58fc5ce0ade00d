import QuorumKv.Proofs.Cluster.Reading
import QuorumKv.Proofs.Quorum.Order
import QuorumKv.Proofs.Store

/-! When the mains outvote a record: so many of them have a newer one that every quorum contains one
of those. A record that is not outvoted is what some read returns. -/
namespace QuorumKv.Cluster

/-- Whether a node has a newer record. -/
def isNewer (held : String → Option Record) (r : Record) (addr : String) : Bool :=
  (held addr).any fun other => decide (r.rev.magnitude < other.rev.magnitude)

def Outvoted (mains : List String) (needed : Nat) (held : String → Option Record) (r : Record) :
    Prop :=
  mains.length < needed + (mains.filter (isNewer held r)).length

instance (mains : List String) (needed : Nat) (held : String → Option Record) (r : Record) :
    Decidable (Outvoted mains needed held r) :=
  inferInstanceAs (Decidable (_ < _))

/-- What a read of values returns when the nodes that it may ask hold this and answer in turn. -/
def readInOrder (needed : Nat) (ranked liveBackups : List String)
    (held : String → Option Record) : Option (Except Failure (Option Item)) :=
  Quorum.Read.inOrder Item.rev needed ranked liveBackups fun addr =>
    (held addr).map Record.versioned

variable {mains : List String} {needed : Nat} {held : String → Option Record} {r : Record}

/-- A record that is not outvoted wins when the mains that have nothing newer answer first. -/
theorem readInOrder_of_not_outvoted {addr : String} (positive : 0 < needed)
    (main : addr ∈ mains) (there : held addr = some r)
    (stands : ¬Outvoted mains needed held r) :
    ∃ ranked, Traffic.Ranking ranked mains ∧
      readInOrder needed ranked [] held = some (.ok (some r.versioned)) := by
  -- the mains that have nothing newer, that one first
  let others := mains.filter fun other => !isNewer held r other
  have listed : addr ∈ others := by
    refine List.mem_filter.mpr ⟨main, ?_⟩
    simp [isNewer, there]
  have enough : needed ≤ (addr :: others.erase addr).length := by
    have parts : (mains.filter (isNewer held r)).length + others.length = mains.length := by
      rw [← List.length_append]
      exact (List.filter_append_perm (isNewer held r) mains).length_eq
    have same := (List.perm_cons_erase listed).length_eq
    rw [Outvoted] at stands
    omega
  refine ⟨addr :: others.erase addr, ⟨others, List.filter_sublist,
    (List.perm_cons_erase listed).symm⟩, ?_⟩
  rw [readInOrder, Quorum.Read.inOrder_eq positive enough]
  obtain ⟨k, rfl⟩ : ∃ k, needed = k + 1 := ⟨needed - 1, by omega⟩
  rw [List.take_succ_cons, List.filterMap_cons, there]
  have least : ∀ y ∈ ((others.erase addr).take k).filterMap fun other =>
      (held other).map Record.versioned, y.rev.magnitude ≤ r.versioned.rev.magnitude := by
    intro y heard
    obtain ⟨other, taken, shown⟩ := List.mem_filterMap.mp heard
    obtain ⟨s, known, rfl⟩ := Option.map_eq_some_iff.mp shown
    have older := (List.mem_filter.mp (List.mem_of_mem_erase (List.mem_of_mem_take taken))).2
    simpa [isNewer, known, Record.rev_versioned] using older
  simp only [Option.map_some, Revision.latest_cons least]

/-- A quorum without a record is what the mains that have none can make. -/
theorem readInOrder_of_none {backup : String} (positive : 0 < needed)
    (many : needed ≤ (mains.filter fun addr => (held addr).isNone).length)
    (there : held backup = some r) :
    ∃ ranked, Traffic.Ranking ranked mains ∧
      readInOrder needed ranked [backup] held = some (.ok (some r.versioned)) := by
  let empty := mains.filter fun addr => (held addr).isNone
  have nothing : ∀ addr ∈ empty, held addr = none := by
    intro addr listed
    exact Option.isNone_iff_eq_none.mp (List.mem_filter.mp listed).2
  refine ⟨empty, ⟨empty, List.filter_sublist, .refl _⟩, ?_⟩
  have enough : needed ≤ empty.length := many
  rw [readInOrder, Quorum.Read.inOrder_eq positive enough]
  have silent : ((empty.take needed).filterMap fun addr => (held addr).map Record.versioned) =
      [] := by
    apply List.filterMap_eq_nil_iff.mpr
    intro addr listed
    rw [nothing addr (List.mem_of_mem_take listed), Option.map_none]
  have quiet : ((empty.drop needed).findSome? fun addr => (held addr).map Record.versioned) =
      none := by
    apply List.findSome?_eq_none_iff.mpr
    intro addr listed
    rw [nothing addr (List.mem_of_mem_drop listed), Option.map_none]
  rw [silent]
  simp only [Revision.latest, List.foldl_nil, List.findSome?_append, quiet]
  simp [there]

namespace Traffic

variable {α : Type} {rev : α → Revision} {gives : String → Option α → Prop}

/-- Every quorum hears of something newer than an outvoted record. -/
theorem Answers.outvote {responses : List (Option α)} {answers : List (String × Option α)}
    (given : Answers mains gives responses answers) (nodup : mains.Nodup)
    (full : needed ≤ responses.length) (outvoted : Outvoted mains needed held r) :
    ∃ addr s, held addr = some s ∧ r.rev.magnitude < s.rev.magnitude ∧
      ∃ found ∈ responses, gives addr found := by
  rw [Outvoted] at outvoted
  have apart : (mains.filter (isNewer held r)).Nodup := nodup.sublist List.filter_sublist
  obtain ⟨addr, newer, found, heard, said⟩ :=
    given.meets apart List.filter_sublist.subset (by omega)
  have above := (List.mem_filter.mp newer).2
  rw [isNewer, Option.any_eq_true] at above
  obtain ⟨s, known, more⟩ := above
  exact ⟨addr, s, known, of_decide_eq_true more, found, heard, said⟩

end Traffic

end QuorumKv.Cluster
