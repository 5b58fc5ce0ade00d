import QuorumKv.Proofs.Cluster.Outvoted
import QuorumKv.Proofs.Cluster.Undisturbed
import QuorumKv.Proofs.Cluster.Writing

/-! When an item that was written without a revision is what reads return. Each node assigns the
revision from what it has itself, so that replicas which missed different writes give the same item
different revisions, and different items the same: it depends on what all mains hold when the write
returns. -/
namespace QuorumKv.Cluster

/-- Whether a record has the content of an item. -/
def IsItem (item : Item) (r : Record) : Prop :=
  r.isLive = true ∧ r.flags = item.flags ∧ r.value = item.value

instance (item : Item) (r : Record) : Decidable (IsItem item r) :=
  inferInstanceAs (Decidable (_ ∧ _))

/-- Whether an answer shows the content of an item. -/
def ShowsItem (item x : Item) : Prop :=
  x.rev.isTombstone = false ∧ x.flags = item.flags ∧ x.value = item.value

theorem showsItem_versioned {item : Item} {r : Record} :
    ShowsItem item r.versioned ↔ IsItem item r := by
  rw [ShowsItem, IsItem, Record.rev_versioned, Record.versioned]
  by_cases live : r.isLive = true
  · have alive : r.rev.isTombstone = false := by simpa [Record.isLive] using live
    simp only [live, alive, if_true, true_and, Record.item]
  · have dead : r.rev.isTombstone = true := by simpa [Record.isLive] using live
    simp only [live, dead, Bool.true_eq_false, Bool.false_eq_true, false_and]

/-- Whether the mains outvote whatever is not the item. -/
def Settled (mains : List String) (needed : Nat) (item : Item) (held : String → Option Record) :
    Prop :=
  ∀ addr ∈ mains, ∀ r ∈ held addr, ¬IsItem item r → Outvoted mains needed held r

instance (mains : List String) (needed : Nat) (item : Item) (held : String → Option Record) :
    Decidable (Settled mains needed item held) :=
  inferInstanceAs (Decidable (∀ addr ∈ mains, ∀ r ∈ held addr, _ → _))

/-- A node has what it had, or the item under a revision that is no older. -/
structure Rewritten (item : Item) (held : String → Option Record) (addr : String)
    (now : Option Record) : Prop where
  kept : now = held addr ∨
    ∃ r, now = some r ∧ IsItem item r ∧ ∀ s ∈ held addr, s.rev.magnitude ≤ r.rev.magnitude
  bounded : ∀ r ∈ now, r.rev.magnitude ≤ 9223372036854775807

variable {held : String → Option Record} {addr key : String} {r : Record} {item : Item}

theorem keeps_rewritten (auto : item.rev = .auto) :
    Keeps (Rewritten item held addr) key (.set key item) where
  delete same := by cases same
  set again same s now rewritten := by
    obtain rfl : item = again := by injection same
    obtain ⟨r, there, revision, flags, value⟩ := s.record?_set_auto key item now auto
    have live : r.isLive = true := by
      simp [Record.isLive, revision, Revision.next_not_tombstone]
    have small : r.rev.magnitude ≤ 9223372036854775807 :=
      Revision.magnitude_le_of_not_tombstone (by simpa [Record.isLive] using live)
    rw [there]
    refine ⟨.inr ⟨r, rfl, ⟨live, flags, value⟩, ?_⟩, fun _ same => Option.some.inj same ▸ small⟩
    intro old before
    obtain ⟨last, stored, above⟩ : ∃ last, s.record? key = some last ∧
        old.rev.magnitude ≤ last.rev.magnitude := by
      obtain same | ⟨last, same, -, above⟩ := rewritten.kept
      · exact ⟨old, same.trans before, Nat.le_refl _⟩
      · exact ⟨last, same, above old before⟩
    have limit := rewritten.bounded last stored
    rw [revision, stored, Option.map_some, Revision.next_magnitude]
    omega

/-- A record stays, or something at least as new comes over it. -/
theorem Rewritten.above {now : Option Record} (rewritten : Rewritten item held addr now)
    (there : held addr = some r) : ∃ t, now = some t ∧ r.rev.magnitude ≤ t.rev.magnitude := by
  obtain same | ⟨t, same, -, above⟩ := rewritten.kept
  · exact ⟨r, same.trans there, Nat.le_refl _⟩
  · exact ⟨t, same, above r there⟩

namespace Traffic

/-- Where the item is settled, it is what a read returns. -/
theorem showsItem_of_settled {t : Traffic} {number bucket needed : Nat}
    {replicas : Route.Replicas} {acked : List String} {m : Quorum.Read Item} {found : Option Item}
    (gathers : t.Gathers number bucket needed replicas Item.rev
      (Shown (Rewritten item held) Record.versioned) m)
    (nodup : replicas.mains.Nodup) (distinct : acked.Nodup) (mains : acked ⊆ replicas.mains)
    (there : ∀ addr ∈ acked, ∃ r, held addr = some r)
    (overlap : replicas.mains.length < acked.length + needed)
    (settled : Settled replicas.mains needed item held)
    (ended : m.result? = some (.ok found)) : ∃ x, found = some x ∧ ShowsItem item x := by
  obtain ⟨answers, given, -⟩ := gathers.answers
  -- the quorum hears of a record, because one of its nodes acknowledged the item
  have heard (full : needed ≤ m.responses.length) : ∃ y, some y ∈ m.responses := by
    obtain ⟨addr, listed, answer, told, now, rewritten, same⟩ :=
      given.meets distinct mains (by omega)
    obtain ⟨r, known⟩ := there addr listed
    obtain ⟨w, rfl, -⟩ := rewritten.above known
    exact ⟨w.versioned, by rwa [same] at told⟩
  cases found with
  | none =>
    obtain ⟨full, silent⟩ := gathers.follows.of_absent ended
    obtain ⟨y, told⟩ := heard (gathers.needed_eq ▸ full)
    exact absurd told (Quorum.Read.newest_eq_none.mp silent y)
  | some x =>
    obtain ⟨full, chosen⟩ := gathers.follows.of_found ended
    rw [gathers.needed_eq] at full
    obtain won | ⟨silent, -⟩ := chosen
    · obtain ⟨told, covers⟩ := Quorum.Read.newest_eq_some won
      obtain ⟨addr, main, now, rewritten, same⟩ := given.of_mem told
      obtain ⟨r, rfl, rfl⟩ := Option.map_eq_some_iff.mp same.symm
      refine ⟨_, rfl, showsItem_versioned.mpr (Classical.byContradiction fun other => ?_)⟩
      obtain before | ⟨s, same, is_item, -⟩ := rewritten.kept
      · obtain ⟨newer, s, known, above, answer, listed, now, moved, shown⟩ :=
          given.outvote nodup full (settled addr main r before.symm other)
        obtain ⟨w, rfl, grown⟩ := moved.above known
        rw [shown] at listed
        have least := covers w.versioned listed
        rw [Record.rev_versioned, Record.rev_versioned] at least
        omega
      · exact other (Option.some.inj same ▸ is_item)
    · obtain ⟨y, told⟩ := heard full
      exact absurd told (Quorum.Read.newest_eq_none.mp silent y)

end Traffic

/-- Content that is not settled is not what every read returns. -/
theorem other_of_not_settled {mains : List String} {needed : Nat} (positive : 0 < needed)
    (open_ : ¬Settled mains needed item held) : ∃ ranked x, Traffic.Ranking ranked mains ∧
      readInOrder needed ranked [] held = some (.ok (some x)) ∧ ¬ShowsItem item x := by
  simp only [Settled, Classical.not_forall] at open_
  obtain ⟨addr, main, r, there, other, stands⟩ := open_
  obtain ⟨ranked, ranking, found⟩ := readInOrder_of_not_outvoted positive main there stands
  exact ⟨ranked, r.versioned, ranking, found, fun shown => other (showsItem_versioned.mp shown)⟩

variable {replication : Config.Replication} {limits nodeLimits : Config.Limits}
  {plan : Route.Plan} {epoch : Nat} {rules : Rules}

theorem Run.isBounded {c d : Cluster}
    (built : build replication limits plan nodeLimits epoch = .ok c) (run : Run rules c d)
    (addr : String) : (d.store addr).IsBounded := by
  obtain ⟨-, -, -, stores, -⟩ := build_eq built
  refine Run.keeps (P := fun t => (t.store addr).IsBounded) run ?_ ?_
  · intro t u move bounded
    exact Traffic.move_store (P := Store.IsBounded) addr
      (fun _ _ _ _ => Node.session_isBounded bounded) (fun _ _ _ => Node.session_isBounded bounded)
      move bounded
  · intro k r known
    rw [Traffic.store, traffic, stores] at known
    cases known

/-- After an item was written without a revision and acknowledged by mains, and while nothing but
this item reaches the key, its reads return the item if the mains have settled on it. If they have
not, there are mains whose answers, in some order, make a read return something else. -/
theorem written_reads_back {c₀ c₁ : Cluster} {number : Nat}
    (built : build replication limits plan nodeLimits epoch = .ok c₀) (positive : 0 < replication.r)
    (before : Run (.carried nodeLimits) c₀ c₁) (auto : item.rev = .auto)
    (returned : c₁.Acknowledged number (.set key item))
    (overlap : (c₁.replicasOf key).mains.length < replication.w + replication.r)
    (plain : Key.metaQuery? key = none) :
    (Settled (c₁.replicasOf key).mains replication.r item (c₁.heldUnder key) → ∀ c₂ c₃ found,
      Run (.onlyChange nodeLimits key (.set key item)) c₁ c₂ →
      Run (.onlyChange nodeLimits key (.set key item)) (c₂.begin (.get key)) c₃ →
      c₃.result? c₂.next (.get key) = some (.ok found) →
      ∃ x, found = some x ∧ x.flags = item.flags ∧ x.value = item.value) ∧
    (¬Settled (c₁.replicasOf key).mains replication.r item (c₁.heldUnder key) → ∃ ranked x,
      Traffic.Ranking ranked (c₁.replicasOf key).mains ∧
      readInOrder replication.r ranked [] (c₁.heldUnder key) = some (.ok (some x)) ∧
      ¬ShowsItem item x) := by
  obtain ⟨sound, replicates, bounds, routed⟩ := before.from_build built fun _ => id
  have nodup : (c₁.replicasOf key).all.Nodup := Router.nodup_resolve routed _
  obtain ⟨acked, distinct, quorum, mains, held⟩ := before.acknowledged built (fun _ => id)
    (by rw [auto]; decide) returned
  have there : ∀ addr ∈ acked, ∃ r, c₁.heldUnder key addr = some r := by
    intro addr listed
    obtain ⟨r, known, -⟩ := held addr listed
    exact ⟨r, known⟩
  have enough : (c₁.replicasOf key).mains.length < acked.length + replication.r := by omega
  have bounded (addr : String) := before.isBounded built addr key
  subst replicates bounds
  constructor
  · intro settled c₂ c₃ found later reading result
    obtain ⟨m, x, gathers, ended, rfl⟩ := later.read_undisturbed
      (Rewritten item (c₁.heldUnder key)) sound routed positive (returned.carried sound).1 plain
      (fun _ => keeps_rewritten auto) (fun addr => ⟨.inl rfl, bounded addr⟩) reading result
    obtain ⟨y, rfl, live, flags, value⟩ := Traffic.showsItem_of_settled gathers
      (List.nodup_append.mp nodup).1 distinct mains there enough settled ended
    exact ⟨y, by simp [Option.filter, live], flags, value⟩
  · exact other_of_not_settled positive

/-- An item to be stored under the next revision. -/
def unnumbered : Item := ⟨9, [119], .auto⟩

/-- Both mains had an item when one of them missed the next one. -/
def missedWrite : Cluster :=
  (ofReplicas (quorums 2 1 2) ⟨250, 100⟩ ⟨["a", "b"], []⟩).run
    ([.begin (.set "k" fifth)] ++ callSteps 1 ++ callSteps 2 ++ [.begin (.set "k" unnumbered)] ++
      callSteps 4 ++ failSteps 5)

theorem missed_write_reads_back :
    Settled (missedWrite.replicasOf "k").mains 2 unnumbered (missedWrite.heldUnder "k") ∧
    ∀ c₂ c₃ found,
      Run (.onlyChange ⟨250, 100⟩ "k" (.set "k" unnumbered)) missedWrite c₂ →
      Run (.onlyChange ⟨250, 100⟩ "k" (.set "k" unnumbered)) (c₂.begin (.get "k")) c₃ →
      c₃.result? c₂.next (.get "k") = some (.ok found) →
      ∃ x, found = some x ∧ x.flags = 9 ∧ x.value = [119] := by
  have first : (Ask.set "k" fifth).Carried ⟨250, 100⟩ := ⟨carriesKey_k, by decide, by decide⟩
  have second : (Ask.set "k" unnumbered).Carried ⟨250, 100⟩ := ⟨carriesKey_k, by decide, by decide⟩
  have before : Run (.carried ⟨250, 100⟩) (ofReplicas (quorums 2 1 2) ⟨250, 100⟩ ⟨["a", "b"], []⟩)
      missedWrite :=
    Run.start.steps _ (by simp [callSteps, failSteps, Rules.Allow, Rules.carried, first, second])
  have returned : missedWrite.Acknowledged 3 (.set "k" unnumbered) := by decide +kernel
  have overlap : (missedWrite.replicasOf "k").mains.length < 1 + 2 := by decide +kernel
  have settled : Settled (missedWrite.replicasOf "k").mains 2 unnumbered
      (missedWrite.heldUnder "k") := by decide +kernel
  exact ⟨settled, (written_reads_back (build_two 2 1 2 ⟨250, 100⟩) (by decide) before rfl returned
    overlap (by decide)).1 settled⟩

/-- Each of two mains missed one write: the first that under revision 1, and the second that under
revision 5. -/
def diverged : Cluster :=
  (ofReplicas (quorums 2 1 2) ⟨250, 100⟩ ⟨["a", "b"], []⟩).run
    ([.begin (.set "k" fifth)] ++ callSteps 1 ++ failSteps 2 ++ [.begin (.set "k" unnumbered)] ++
      failSteps 4 ++ callSteps 5)

/-- A read that begins with the mains in a known order. -/
def beginRead (c : Cluster) (key : String) (ranked : List String) : Cluster :=
  let (m, calls) := Quorum.Read.start c.replication.r ranked
  (({ c with next := c.next + 1 } : Cluster).engage 0).place c.next
    (c.topology.router.bucketOf key)
    ⟨.get key, c.topology, c.now + c.replication.readTimeout, .read m⟩ calls

theorem begin_get (c : Cluster) (key : String) :
    c.begin (.get key) = c.beginRead key (c.rank c.topology (c.replicasOf key).mains) :=
  rfl

theorem eq_of_perm_pair {a b : String} {l : List String} (perm : l.Perm [a, b]) :
    l = [a, b] ∨ l = [b, a] := by
  match l, perm.length_eq with
  | [x, y], _ =>
    have listed : x ∈ [a, b] := perm.subset List.mem_cons_self
    obtain rfl | rest := List.mem_cons.mp listed
    · obtain rfl := List.singleton_perm_singleton.mp (List.perm_cons x |>.mp perm)
      exact .inl rfl
    · obtain rfl := List.mem_singleton.mp rest
      have turned := perm.trans (List.Perm.swap x a [])
      obtain rfl := List.singleton_perm_singleton.mp (List.perm_cons x |>.mp turned)
      exact .inr rfl

/-- An item that was written last is not what a read of both mains returns. -/
theorem older_after_write :
    diverged.Acknowledged 3 (.set "k" unnumbered) ∧
      (((diverged.begin (.get "k")).run (callSteps 7 ++ callSteps 8)).result? 6 (.get "k")).map
        Except.toOption = some (some (some fifth)) := by
  have live : diverged.live diverged.topology (diverged.replicasOf "k").mains = ["a", "b"] := by
    decide +kernel
  have ranks := eq_of_perm_pair (live ▸ rank_perm diverged diverged.topology
    (diverged.replicasOf "k").mains)
  refine ⟨by decide +kernel, ?_⟩
  rw [begin_get]
  obtain ranked | ranked := ranks <;> rw [ranked] <;> decide +kernel

/-- Both mains had an item. Then one of them missed a delete and the other the next set, so that one
has a value and the other a tombstone that is equally new. -/
def tied : Cluster :=
  (ofReplicas (quorums 2 1 2) ⟨250, 100⟩ ⟨["a", "b"], []⟩).run
    ([.begin (.set "k" unnumbered)] ++ callSteps 1 ++ callSteps 2 ++ [.begin (.delete "k")] ++
      failSteps 4 ++ callSteps 5 ++ [.begin (.set "k" unnumbered)] ++ callSteps 7 ++ failSteps 8)

/-- Whether a key is there depends on which of two mains answers first. -/
theorem found_or_absent_by_order :
    Run (.carried ⟨250, 100⟩) (ofReplicas (quorums 2 1 2) ⟨250, 100⟩ ⟨["a", "b"], []⟩) tied ∧
    let result (calls : List Step) :=
      (((tied.begin (.get "k")).run calls).result? 9 (.get "k")).map Except.toOption
    ∃ first last, [first, last].Perm [10, 11] ∧
      result (callSteps first ++ callSteps last) =
        some (some (some { unnumbered with rev := .clamp 2 })) ∧
      result (callSteps last ++ callSteps first) = some (some none) := by
  have set_carried : (Ask.set "k" unnumbered).Carried ⟨250, 100⟩ :=
    ⟨carriesKey_k, by decide, by decide⟩
  have delete_carried : (Ask.delete "k").Carried ⟨250, 100⟩ := carriesKey_k
  have live : tied.live tied.topology (tied.replicasOf "k").mains = ["a", "b"] := by
    decide +kernel
  have ranks := eq_of_perm_pair (live ▸ rank_perm tied tied.topology
    (tied.replicasOf "k").mains)
  refine ⟨Run.start.steps _ (by
    simp [callSteps, failSteps, Rules.Allow, Rules.carried, set_carried, delete_carried]), ?_⟩
  rw [begin_get]
  -- the tie is the same in both ranks, only the calls are numbered the other way round
  obtain ranked | ranked := ranks <;> rw [ranked]
  · exact ⟨10, 11, .refl _, by decide +kernel, by decide +kernel⟩
  · exact ⟨11, 10, .swap .., by decide +kernel, by decide +kernel⟩

end QuorumKv.Cluster
