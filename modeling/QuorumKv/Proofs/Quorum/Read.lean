import QuorumKv.Proofs.Revision
import QuorumKv.Quorum.Read

/-! What a read has at each stage: it gathers until it has the answers of a quorum, and only a
quorum without a record sends it to further nodes. -/
namespace QuorumKv

namespace Quorum.Read

variable {α : Type} {rev : α → Revision} {seen : α → Prop}

/-- The newest record that the quorum has so far. -/
def newest (rev : α → Revision) (s : Read α) : Option α :=
  Revision.latest rev (s.responses.filterMap id)

theorem newest_eq_none {s : Read α} :
    s.newest rev = none ↔ ∀ x, some x ∉ s.responses := by
  rw [newest, Revision.latest_eq_none, List.filterMap_eq_nil_iff]
  constructor
  · exact fun silent x heard => nomatch silent (some x) heard
  · intro silent answer heard
    cases answer with
    | none => rfl
    | some x => exact absurd heard (silent x)

theorem newest_eq_some {s : Read α} {x : α} (won : s.newest rev = some x) :
    some x ∈ s.responses ∧ ∀ y, some y ∈ s.responses → (rev y).magnitude ≤ (rev x).magnitude := by
  obtain ⟨listed, covers⟩ := Revision.latest_mem won
  obtain ⟨answer, heard, same⟩ := List.mem_filterMap.mp listed
  refine ⟨same ▸ heard, fun y other => covers y ?_⟩
  exact List.mem_filterMap.mpr ⟨some y, other, rfl⟩

/-- How the stage of a read follows from its answers. What no quorum had must have been `seen`
elsewhere. -/
def Follows (rev : α → Revision) (seen : α → Prop) (s : Read α) : Prop :=
  match s.stage with
  | .gathering => s.responses.length < s.needed
  | .through _ => s.needed ≤ s.responses.length ∧ s.newest rev = none
  | .done (.ok none) => s.needed ≤ s.responses.length ∧ s.newest rev = none
  | .done (.ok (some x)) => s.needed ≤ s.responses.length ∧
      (s.newest rev = some x ∨ s.newest rev = none ∧ seen x)
  | .done (.error _) => s.responses.length < s.needed

theorem stage_of_result {s : Read α} {result : Except Failure (Option α)}
    (known : s.result? = some result) : s.stage = .done result := by
  unfold result? at known
  split at known
  · rename_i stage
    rw [stage, Option.some.inj known]
  · cases known

theorem Follows.of_found {s : Read α} {x : α} (follows : s.Follows rev seen)
    (found : s.result? = some (.ok (some x))) : s.needed ≤ s.responses.length ∧
      (s.newest rev = some x ∨ s.newest rev = none ∧ seen x) := by
  simp only [Follows, stage_of_result found] at follows
  exact follows

theorem Follows.of_absent {s : Read α} (follows : s.Follows rev seen)
    (found : s.result? = some (.ok none)) :
    s.needed ≤ s.responses.length ∧ s.newest rev = none := by
  simp only [Follows, stage_of_result found] at follows
  exact follows

theorem follows_start {needed : Nat} (positive : 0 < needed) (ranked : List String) :
    (start needed ranked).1.Follows rev seen := by
  simp only [start]
  split
  · exact positive
  · exact positive

/-- Only the stage changes, and the nodes to call are those that are next. -/
theorem askNext_eq (s : Read α) (addrs : List String) :
    (∃ stage, (s.askNext addrs).1 = { s with stage := stage } ∧
      (stage = .done (pure none) ∨ ∃ rest, stage = .through rest ∧ rest ⊆ addrs)) ∧
    (s.askNext addrs).2 ⊆ addrs := by
  cases addrs with
  | nil => exact ⟨⟨_, rfl, .inl rfl⟩, List.Subset.refl _⟩
  | cons addr rest =>
    refine ⟨⟨_, rfl, .inr ⟨rest, rfl, List.subset_cons_self ..⟩⟩, ?_⟩
    simp [askNext]

/-- A read that gathered one more answer, or ran out of nodes. -/
theorem advance_eq (rev : α → Revision) (seen : α → Prop) (liveBackups : List String)
    {s : Read α} (gathering : s.stage = .gathering) :
    ∃ stage, (s.advance rev liveBackups).1 = { s with stage := stage } ∧
      Follows rev seen { s with stage := stage } ∧
      (stage = .gathering → (s.advance rev liveBackups).2 = []) ∧
      (s.advance rev liveBackups).2 ⊆ s.untried ++ liveBackups ∧
      ∀ rest, stage = .through rest → rest ⊆ s.untried ++ liveBackups := by
  by_cases full : s.needed ≤ s.responses.length
  · cases won : Revision.latest rev (s.responses.filterMap id) with
    | some found =>
      have step : s.advance rev liveBackups =
          ({ s with stage := .done (pure (some found)) }, []) := by
        simp only [advance, if_pos full, won]
      rw [step]
      exact ⟨.done (pure (some found)), rfl, ⟨full, .inl won⟩, by simp⟩
    | none =>
      obtain ⟨⟨stage, same, kind⟩, calls⟩ := askNext_eq s (s.untried ++ liveBackups)
      have step : s.advance rev liveBackups = s.askNext (s.untried ++ liveBackups) := by
        simp only [advance, if_pos full, won]
      rw [step]
      refine ⟨stage, same, ?_, ?_, calls, ?_⟩
      · obtain rfl | ⟨rest, rfl, -⟩ := kind <;> exact ⟨full, won⟩
      · rintro rfl
        obtain never | ⟨rest, never, -⟩ := kind <;> cases never
      · rintro rest rfl
        obtain never | ⟨others, equal, sub⟩ := kind
        · cases never
        · obtain rfl := Read.Stage.through.inj equal
          exact sub
  · by_cases alone : s.pending = 0
    · have step : s.advance rev liveBackups = (s.shortfall, []) := by
        simp only [advance, if_neg full, if_pos alone]
      rw [step]
      exact ⟨_, rfl, Nat.not_le.mp full, fun _ => rfl, by simp, by simp⟩
    · have step : s.advance rev liveBackups = (s, []) := by
        simp only [advance, if_neg full, if_neg alone]
      rw [step]
      refine ⟨.gathering, by rw [← gathering], ?_, fun _ => rfl, by simp, by simp⟩
      exact Nat.not_le.mp full

/-- What an answer does to a read that follows from its answers. -/
structure Absorbed (rev : α → Revision) (seen : α → Prop) (liveBackups : List String)
    (s : Read α) (r : Except Failure (Option α)) (after : Read α) (calls : List String) :
    Prop where
  needed : after.needed = s.needed
  follows : after.Follows rev seen
  responses : (after.responses = s.responses ∨
    s.stage = .gathering ∧ ∃ found, r = .ok found ∧ after.responses = s.responses ++ [found])
  /-- While it goes on gathering, an answer is kept and a failure replaced. -/
  gathering : after.stage = .gathering → s.stage = .gathering ∧
    ((∃ found, r = .ok found ∧ after.responses = s.responses ++ [found] ∧
        after.untried = s.untried ∧ calls = []) ∨
      after.responses = s.responses ∧ s.untried = calls ++ after.untried)
  untried : after.untried ⊆ s.untried
  calls : ∀ addr ∈ calls, addr ∈ s.untried ++ liveBackups ∨
    ∃ rest, s.stage = .through rest ∧ addr ∈ rest
  rest : ∀ later, after.stage = .through later → ∀ addr ∈ later,
    addr ∈ s.untried ++ liveBackups ∨ ∃ rest, s.stage = .through rest ∧ addr ∈ rest

theorem absorbed_advance {liveBackups : List String} {s next : Read α}
    {r : Except Failure (Option α)} (gathering : s.stage = .gathering)
    (same : next.needed = s.needed ∧ next.untried = s.untried ∧ next.stage = .gathering)
    (kept : (∃ found, r = .ok found ∧ next.responses = s.responses ++ [found]) ∨
      next.responses = s.responses ∧ s.untried = []) :
    Absorbed rev seen liveBackups s r (next.advance rev liveBackups).1
      (next.advance rev liveBackups).2 := by
  obtain ⟨needed, untried, still⟩ := same
  obtain ⟨stage, after, follows, quiet, calls, rest⟩ :=
    advance_eq rev seen liveBackups still
  rw [untried] at calls rest
  rw [after]
  refine ⟨needed, follows, ?_, ?_, ?_, fun addr listed => .inl (calls listed),
    fun later kind addr listed => .inl (rest later kind listed)⟩
  · obtain ⟨found, ok, grown⟩ | ⟨equal, -⟩ := kept
    · exact .inr ⟨gathering, found, ok, grown⟩
    · exact .inl equal
  · intro on
    refine ⟨gathering, ?_⟩
    have none_now := quiet on
    obtain ⟨found, ok, grown⟩ | ⟨equal, empty⟩ := kept
    · exact .inl ⟨found, ok, grown, untried, none_now⟩
    · refine .inr ⟨equal, ?_⟩
      simp only [none_now, untried, empty, List.nil_append]
  · simp [untried]

theorem absorb_absorbed (liveBackups : List String) {s : Read α}
    (r : Except Failure (Option α)) (follows : s.Follows rev seen)
    (heard : ∀ x, r = .ok (some x) → seen x) :
    Absorbed rev seen liveBackups s r (s.absorb rev liveBackups r).1
      (s.absorb rev liveBackups r).2 := by
  cases stage : s.stage with
  | done result =>
    have same : s.absorb rev liveBackups r = (s, []) := by simp only [absorb, stage]
    rw [same]
    exact ⟨rfl, follows, .inl rfl, fun on => by simp [stage] at on, List.Subset.refl _,
      by simp, fun later kind => by simp [stage] at kind⟩
  | through rest =>
    simp only [Follows, stage] at follows
    have asked {addrs : List String} (sub : addrs ⊆ rest) :
        Absorbed rev seen liveBackups s r (s.askNext addrs).1 (s.askNext addrs).2 := by
      obtain ⟨⟨next, same, kind⟩, calls⟩ := askNext_eq s addrs
      rw [same]
      refine ⟨rfl, ?_, .inl rfl, ?_, List.Subset.refl _,
        fun addr listed => .inr ⟨rest, stage, sub (calls listed)⟩, ?_⟩
      · obtain rfl | ⟨others, rfl, -⟩ := kind <;> exact follows
      · rintro rfl
        obtain never | ⟨others, never, -⟩ := kind <;> cases never
      · rintro later rfl addr listed
        obtain never | ⟨others, equal, inside⟩ := kind
        · cases never
        · obtain rfl := Read.Stage.through.inj equal
          exact .inr ⟨rest, stage, sub (inside listed)⟩
    cases r with
    | error e =>
      have same : s.absorb rev liveBackups (.error e) = s.askNext rest := by
        simp only [absorb, stage]
      rw [same]
      exact asked (List.Subset.refl _)
    | ok found =>
      cases found with
      | none =>
        have same : s.absorb rev liveBackups (.ok none) = s.askNext rest := by
          simp only [absorb, stage]
        rw [same]
        exact asked (List.Subset.refl _)
      | some x =>
        have same : s.absorb rev liveBackups (.ok (some x)) =
            ({ s with stage := .done (pure (some x)) }, []) := by simp only [absorb, stage]
        rw [same]
        exact ⟨rfl, ⟨follows.1, .inr ⟨follows.2, heard x rfl⟩⟩, .inl rfl,
          fun on => (by cases on), List.Subset.refl _, by simp, fun later kind => (by cases kind)⟩
  | gathering =>
    cases r with
    | ok found =>
      have same : s.absorb rev liveBackups (.ok found) =
          { s with pending := s.pending - 1, responses := s.responses ++ [found] }.advance rev
            liveBackups := by simp only [absorb, stage]
      rw [same]
      exact absorbed_advance stage ⟨rfl, rfl, stage⟩ (.inl ⟨found, rfl, rfl⟩)
    | error e =>
      cases untried : s.untried with
      | nil =>
        have same : s.absorb rev liveBackups (.error e) =
            { s with pending := s.pending - 1 }.advance rev liveBackups := by
          simp only [absorb, stage, untried]
        rw [same]
        exact absorbed_advance stage ⟨rfl, rfl, stage⟩ (.inr ⟨rfl, untried⟩)
      | cons addr rest =>
        have same : s.absorb rev liveBackups (.error e) =
            ({ s with untried := rest }, [addr]) := by simp only [absorb, stage, untried]
        rw [same]
        refine ⟨rfl, ?_, .inl rfl, fun _ => ⟨stage, .inr ⟨rfl, untried⟩⟩, ?_, ?_, ?_⟩
        · simp only [Follows, stage] at follows ⊢
          exact follows
        · rw [untried]
          exact List.subset_cons_self ..
        · simp [untried]
        · intro later kind
          simp [stage] at kind

theorem follows_expire {s : Read α} (follows : s.Follows rev seen) :
    s.expire.Follows rev seen := by
  unfold expire
  cases stage : s.stage with
  | gathering =>
    simp only [Follows, stage] at follows
    exact follows
  | through rest => exact follows
  | done result => exact follows

/-- The nodes that a read may still call, of a bucket with some backups. -/
def ahead (s : Read α) (backups : List String) : List String :=
  match s.stage with
  | .gathering => s.untried ++ backups
  | .through rest => rest
  | .done _ => []

theorem ahead_askNext (s : Read α) (addrs backups : List String) :
    ((s.askNext addrs).2 ++ (s.askNext addrs).1.ahead backups).Sublist addrs := by
  cases addrs with
  | nil => exact .refl _
  | cons addr rest => exact .refl _

theorem ahead_advance {s : Read α} {live backups : List String} (gathering : s.stage = .gathering)
    (routable : live.Sublist backups) :
    ((s.advance rev live).2 ++ (s.advance rev live).1.ahead backups).Sublist
      (s.untried ++ backups) := by
  unfold advance
  split
  · split
    · exact List.nil_sublist _
    · exact (ahead_askNext ..).trans (routable.append_left _)
  · split
    · exact List.nil_sublist _
    · simp only [ahead, gathering, List.nil_append, List.Sublist.refl]

/-- A read calls the nodes in front of it in order, and may leave some out. -/
theorem ahead_absorb (rev : α → Revision) (s : Read α) {live backups : List String}
    (routable : live.Sublist backups) (r : Except Failure (Option α)) :
    ((s.absorb rev live r).2 ++ (s.absorb rev live r).1.ahead backups).Sublist
      (s.ahead backups) := by
  obtain ⟨needed, untried, pending, responses, stage⟩ := s
  cases stage with
  | done result => exact .refl _
  | through rest =>
    cases r with
    | error why => exact ahead_askNext ..
    | ok found =>
      cases found with
      | none => exact ahead_askNext ..
      | some x => exact List.nil_sublist _
  | gathering =>
    cases r with
    | ok found => exact ahead_advance rfl routable
    | error why =>
      cases untried with
      | nil => exact ahead_advance rfl routable
      | cons addr rest => exact .refl _

theorem ahead_expire (s : Read α) (backups : List String) :
    (s.expire.ahead backups).Sublist (s.ahead backups) := by
  unfold expire
  split
  · exact List.nil_sublist _
  · exact .refl _

theorem ahead_start (needed : Nat) (ranked backups : List String) :
    ((start (α := α) needed ranked).2 ++
      (start (α := α) needed ranked).1.ahead backups).Sublist (ranked ++ backups) := by
  have all : ranked.take needed ++ (ranked.drop needed ++ backups) = ranked ++ backups := by
    rw [← List.append_assoc, List.take_append_drop]
  simp only [start]
  split
  · exact (List.append_nil (ranked.take needed)).symm ▸
      (List.take_sublist ..).trans (List.sublist_append_left ..)
  · exact all ▸ .refl _

end Quorum.Read

end QuorumKv
