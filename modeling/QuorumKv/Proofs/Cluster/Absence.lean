import QuorumKv.Proofs.Cluster.Outvoted
import QuorumKv.Proofs.Cluster.Undisturbed
import QuorumKv.Proofs.Cluster.Writing

/-! When a deleted key stays absent. A node acknowledges a delete also when it has nothing to
delete, so what was acknowledged says little about the other replicas: it depends on what all of
them hold when the delete returns. -/
namespace QuorumKv.Cluster

/-- Whether no read can find a live record: those of mains are outvoted, and those of backups are
not asked for. -/
structure Buried (replicas : Route.Replicas) (needed : Nat) (held : String → Option Record) :
    Prop where
  mains : ∀ addr ∈ replicas.mains, ∀ r ∈ held addr, r.isLive = true →
    Outvoted replicas.mains needed held r
  backups : needed ≤ (replicas.mains.filter fun addr => (held addr).isNone).length →
    ∀ addr ∈ replicas.backups, ∀ r ∈ held addr, r.isLive = false

/-- A node has what it had, or the tombstone that came over it. -/
def Remains (held : String → Option Record) (addr : String) (now : Option Record) : Prop :=
  now = held addr ∨
    ∃ r t, held addr = some r ∧ r.isLive = true ∧ now = some t ∧ t.rev = r.rev.tombstone

variable {held : String → Option Record} {addr key : String} {r : Record}

theorem not_live_of_tombstone {t : Record} {rev : Revision} (gone : t.rev = rev.tombstone) :
    ¬t.isLive = true := by
  simp [Record.isLive, gone, Revision.tombstone_isTombstone]

theorem keeps_remains : Keeps (Remains held addr) key (.delete key) where
  set item same := by cases same
  delete _ s now remains := by
    have gone := s.record?_delete_self key now
    cases stored : s.record? key with
    | none =>
      rw [stored] at gone remains
      rw [gone]
      exact stored ▸ remains
    | some r =>
      rw [stored] at gone remains
      by_cases live : r.isLive = true
      · simp only [live, if_true] at gone
        obtain ⟨-, t, there, revision⟩ := gone
        rw [there]
        obtain same | ⟨_, s, _, _, same, dead⟩ := remains
        · exact .inr ⟨r, t, same.symm, live, rfl, revision⟩
        · obtain rfl := Option.some.inj same
          exact absurd live (not_live_of_tombstone dead)
      · simp only [live, Bool.false_eq_true, if_false] at gone
        rw [gone]
        exact stored ▸ remains

/-- What is live was there before. -/
theorem Remains.of_live (remains : Remains held addr (some r)) (live : r.isLive = true) :
    held addr = some r := by
  obtain same | ⟨_, t, _, _, same, dead⟩ := remains
  · exact same.symm
  · obtain rfl := Option.some.inj same
    exact absurd live (not_live_of_tombstone dead)

/-- A record stays, or something newer comes over it. -/
theorem Remains.above {now : Option Record} (remains : Remains held addr now)
    (there : held addr = some r) : ∃ t, now = some t ∧ r.rev.magnitude ≤ t.rev.magnitude := by
  obtain same | ⟨s, t, known, live, same, dead⟩ := remains
  · exact ⟨r, same.trans there, Nat.le_refl _⟩
  · obtain rfl := Option.some.inj (there.symm.trans known)
    refine ⟨t, same, ?_⟩
    have small : r.rev.magnitude ≤ 9223372036854775807 :=
      Revision.magnitude_le_of_not_tombstone (by simpa [Record.isLive] using live)
    rw [dead, Revision.tombstone_magnitude]
    omega

/-- What is not buried is what some read returns. -/
theorem found_of_not_buried {replicas : Route.Replicas} {needed : Nat} (positive : 0 < needed)
    (exposed : ¬Buried replicas needed held) : ∃ ranked liveBackups x,
      Traffic.Ranking ranked replicas.mains ∧ liveBackups.Sublist replicas.backups ∧
      readInOrder needed ranked liveBackups held = some (.ok (some x)) ∧
      x.rev.isTombstone = false := by
  have shows {r : Record} (live : r.isLive = true) : r.versioned.rev.isTombstone = false := by
    rw [Record.rev_versioned]
    simpa [Record.isLive] using live
  by_cases outvoted : ∀ addr ∈ replicas.mains, ∀ r ∈ held addr, r.isLive = true →
      Outvoted replicas.mains needed held r
  · have open_backup : ¬(_ → _) := fun backups => exposed ⟨outvoted, backups⟩
    simp only [Classical.not_imp, Classical.not_forall] at open_backup
    obtain ⟨many, addr, backup, r, there, alive⟩ := open_backup
    obtain ⟨ranked, ranking, found⟩ := readInOrder_of_none positive many there
    exact ⟨ranked, [addr], r.versioned, ranking, List.singleton_sublist.mpr backup, found,
      shows (Bool.not_eq_false _ |>.mp alive)⟩
  · simp only [Classical.not_forall] at outvoted
    obtain ⟨addr, main, r, there, live, stands⟩ := outvoted
    obtain ⟨ranked, ranking, found⟩ := readInOrder_of_not_outvoted positive main there stands
    exact ⟨ranked, [], r.versioned, ranking, List.nil_sublist _, found, shows live⟩

namespace Traffic

/-- A read finds nothing live among what is buried. -/
theorem tombstone_of_buried {t : Traffic} {number bucket needed : Nat}
    {replicas : Route.Replicas} {m : Quorum.Read Item} {x : Item}
    (gathers : t.Gathers number bucket needed replicas Item.rev
      (Shown (Remains held) Record.versioned) m)
    (nodup : replicas.mains.Nodup) (buried : Buried replicas needed held)
    (found : m.result? = some (.ok (some x))) : x.rev.isTombstone = true := by
  refine Classical.byContradiction fun live => ?_
  obtain ⟨answers, given, -⟩ := gathers.answers
  -- a live answer shows what its node had when the delete returned
  have origin {addr : String} (shown : Shown (Remains held) Record.versioned addr (some x)) :
      ∃ r, held addr = some r ∧ r.isLive = true ∧ r.rev = x.rev := by
    obtain ⟨now, remains, same⟩ := shown
    obtain ⟨r, rfl, rfl⟩ := Option.map_eq_some_iff.mp same.symm
    rw [Record.rev_versioned] at live
    have alive : r.isLive = true := by simpa [Record.isLive] using live
    exact ⟨r, remains.of_live alive, alive, (Record.rev_versioned r).symm⟩
  -- what outvotes it is among the answers
  have outvoted {addr : String} {r : Record} (main : addr ∈ replicas.mains)
      (there : held addr = some r) (alive : r.isLive = true)
      (full : needed ≤ m.responses.length) :
      ∃ y, some y ∈ m.responses ∧ r.rev.magnitude < y.rev.magnitude := by
    obtain ⟨other, s, known, newer, answer, heard, now, remains, same⟩ :=
      given.outvote nodup full (buried.mains addr main r there alive)
    obtain ⟨w, rfl, above⟩ := remains.above known
    refine ⟨w.versioned, by rwa [same] at heard, ?_⟩
    rw [Record.rev_versioned]
    exact Nat.lt_of_lt_of_le newer above
  obtain ⟨full, chosen⟩ := gathers.follows.of_found found
  rw [gathers.needed_eq] at full
  obtain won | ⟨silent, addr, listed, shown⟩ := chosen
  · obtain ⟨heard, covers⟩ := Quorum.Read.newest_eq_some won
    obtain ⟨addr, main, shown⟩ := given.of_mem heard
    obtain ⟨r, there, alive, same⟩ := origin shown
    obtain ⟨y, other, newer⟩ := outvoted main there alive full
    rw [same] at newer
    exact absurd newer (Nat.not_lt.mpr (covers y other))
  · have nothing := Quorum.Read.newest_eq_none.mp silent
    obtain ⟨r, there, alive, -⟩ := origin shown
    obtain main | backup := List.mem_append.mp listed
    · obtain ⟨y, other, -⟩ := outvoted main there alive full
      exact nothing y other
    · have empty : m.responses.length ≤
          (replicas.mains.filter fun addr => (held addr).isNone).length := by
        apply given.length_le
        rintro other answer main heard ⟨now, remains, same⟩
        refine List.mem_filter.mpr ⟨main, ?_⟩
        cases had : held other with
        | none => rfl
        | some s =>
          obtain ⟨w, rfl, -⟩ := remains.above had
          rw [same] at heard
          exact absurd heard (nothing w.versioned)
      have dead := buried.backups (Nat.le_trans full empty) addr backup r there
      rw [alive] at dead
      cases dead

end Traffic

variable {replication : Config.Replication} {limits nodeLimits : Config.Limits}
  {plan : Route.Plan} {epoch : Nat}

/-- After a delete has returned, and while nothing but deletes reaches the key, its reads find
nothing if what the replicas hold is buried. If it is not, there are nodes whose answers, in some
order, bring the key back. -/
theorem absent_after_delete {c₀ c₁ : Cluster} {number : Nat}
    (built : build replication limits plan nodeLimits epoch = .ok c₀) (positive : 0 < replication.r)
    (before : Run (.carried nodeLimits) c₀ c₁)
    (returned : c₁.Acknowledged number (.delete key)) (plain : Key.metaQuery? key = none) :
    (Buried (c₁.replicasOf key) replication.r (c₁.heldUnder key) → ∀ c₂ c₃ found,
      Run (.onlyChange nodeLimits key (.delete key)) c₁ c₂ →
      Run (.onlyChange nodeLimits key (.delete key)) (c₂.begin (.get key)) c₃ →
      c₃.result? c₂.next (.get key) = some (.ok found) → found = none) ∧
    (¬Buried (c₁.replicasOf key) replication.r (c₁.heldUnder key) → ∃ ranked liveBackups x,
      Traffic.Ranking ranked (c₁.replicasOf key).mains ∧
      liveBackups.Sublist (c₁.replicasOf key).backups ∧
      readInOrder replication.r ranked liveBackups (c₁.heldUnder key) = some (.ok (some x)) ∧
      x.rev.isTombstone = false) := by
  obtain ⟨sound, replicates, bounds, routed⟩ := before.from_build built fun _ => id
  have nodup : (c₁.replicasOf key).all.Nodup := Router.nodup_resolve routed _
  subst replicates bounds
  constructor
  · intro buried c₂ c₃ found later reading result
    obtain ⟨m, x, gathers, ended, rfl⟩ := later.read_undisturbed (Remains (c₁.heldUnder key))
      sound routed positive (returned.carried sound) plain (fun _ => keeps_remains)
      (fun _ => .inl rfl) reading result
    cases x with
    | none => rfl
    | some x =>
      have gone := Traffic.tombstone_of_buried gathers (List.nodup_append.mp nodup).1 buried ended
      simp [Option.filter, gone]
  · exact found_of_not_buried positive

/-- Two mains, one of which missed the delete and keeps its copy. -/
def missedDelete : Cluster :=
  (ofReplicas (quorums 2 1 2) ⟨250, 100⟩ ⟨["a", "b"], []⟩).run
    ([.begin (.set "k" fifth)] ++ callSteps 1 ++ callSteps 2 ++ [.begin (.delete "k")] ++
      callSteps 4 ++ failSteps 5)

theorem absent_after_missed_delete :
    Buried (missedDelete.replicasOf "k") 2 (missedDelete.heldUnder "k") ∧ ∀ c₂ c₃ found,
      Run (.onlyChange ⟨250, 100⟩ "k" (.delete "k")) missedDelete c₂ →
      Run (.onlyChange ⟨250, 100⟩ "k" (.delete "k")) (c₂.begin (.get "k")) c₃ →
      c₃.result? c₂.next (.get "k") = some (.ok found) → found = none := by
  have set_carried : (Ask.set "k" fifth).Carried ⟨250, 100⟩ := ⟨carriesKey_k, by decide, by decide⟩
  have delete_carried : (Ask.delete "k").Carried ⟨250, 100⟩ := carriesKey_k
  have before : Run (.carried ⟨250, 100⟩) (ofReplicas (quorums 2 1 2) ⟨250, 100⟩ ⟨["a", "b"], []⟩)
      missedDelete :=
    Run.start.steps _ (by
      simp [callSteps, failSteps, Rules.Allow, Rules.carried, set_carried, delete_carried])
  have returned : missedDelete.Acknowledged 3 (.delete "k") := by decide +kernel
  have buried : Buried (missedDelete.replicasOf "k") 2 (missedDelete.heldUnder "k") :=
    ⟨by decide +kernel, by decide +kernel⟩
  exact ⟨buried, (absent_after_delete (build_two 2 1 2 ⟨250, 100⟩) (by decide) before returned
    (by decide)).1 buried⟩

/-- A set that only a backup took, and then a delete that the main acknowledges because it has
nothing to delete. -/
def missedByBackup : Cluster :=
  (ofReplicas (quorums 1 1 1) ⟨250, 100⟩ ⟨["a"], ["b"]⟩).run
    ([.begin (.set "k" fifth)] ++ failSteps 1 ++ callSteps 2 ++ [.begin (.delete "k")] ++
      callSteps 4)

/-- A deleted key comes back when the main has nothing and a backup was missed. -/
theorem found_after_delete :
    build (quorums 1 1 1) ⟨250, 100⟩ ⟨1, [⟨"a", ["0"]⟩], ["b"]⟩ ⟨250, 100⟩ 0 =
        .ok (ofReplicas (quorums 1 1 1) ⟨250, 100⟩ ⟨["a"], ["b"]⟩) ∧
      missedByBackup.Acknowledged 3 (.delete "k") ∧
      ((((missedByBackup.begin (.get "k")).run (callSteps 6 ++ callSteps 7)).result? 5
        (.get "k")).map Except.toOption = some (some (some fifth))) := by
  refine ⟨build_backed 1 1 1 _, ?_⟩
  decide +kernel

end QuorumKv.Cluster
