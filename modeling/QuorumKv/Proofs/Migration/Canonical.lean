import Mathlib.Data.List.Perm.Basic
import QuorumKv.Proofs.Migration.Assignments
import QuorumKv.Proofs.Text.Order

/-! The plan that a table is written back as lists the same assignments, grouped by stage. So it is
a plan of that very table, whatever plan the table came from. -/
namespace QuorumKv.Migration.Table

variable {t : Table}

/-- The list under one stage in the canonical plan; none if no beginning is at the stage. -/
def listAt? (t : Table) (stage : Stage) : Option (String × List String) :=
  match t.entries.filter fun entry => entry.2 == stage with
  | [] => none
  | found => some (stage.name, Text.sorted (found.map (·.1)))

theorem lists_toPlan (t : Table) : t.toPlan.lists = stagesByName.filterMap t.listAt? :=
  rfl

theorem name_of_listAt? {stage : Stage} {list : String × List String}
    (written : t.listAt? stage = some list) : list.1 = stage.name := by
  unfold listAt? at written
  split at written
  · cases written
  · obtain rfl := Option.some.inj written
    rfl

/-- The list under a stage holds the entries at the stage. -/
theorem listed_listAt? (t : Table) (stage : Stage) :
    ((t.listAt? stage).elim [] listed).Perm (t.entries.filter fun entry => entry.2 == stage) := by
  have at_stage : ∀ entry ∈ t.entries.filter fun entry => entry.2 == stage, entry.2 = stage := by
    intro entry known
    exact beq_iff_eq.mp (List.mem_filter.mp known).2
  unfold listAt?
  generalize t.entries.filter (fun entry => entry.2 == stage) = found at at_stage
  cases found with
  | nil => exact .nil
  | cons first rest =>
    have regained : ((first :: rest).map (·.1)).map (fun start => (start, stage)) =
        first :: rest := by
      rw [List.map_map]
      refine (List.map_congr_left ?_).trans (List.map_id _)
      rintro ⟨start, other⟩ known
      rw [id, ← at_stage _ known]
      rfl
    have spells : stage.Spells (stage.name, Text.sorted ((first :: rest).map (·.1))).1 :=
      stage.spells_name
    have perm := (Text.sorted_perm ((first :: rest).map (·.1))).map fun start => (start, stage)
    rw [regained] at perm
    rwa [Option.elim_some, listed_of_spells spells]

theorem flatMap_filterMap {α β γ : Type} (f : α → Option β) (g : β → List γ) (xs : List α) :
    (xs.filterMap f).flatMap g = xs.flatMap fun x => (f x).elim [] g := by
  induction xs with
  | nil => rfl
  | cons x rest ih =>
    rw [List.filterMap_cons, List.flatMap_cons, ← ih]
    cases f x <;> rfl

/-- Grouping entries by their stage loses none. -/
theorem group_perm (entries : List (String × Stage)) :
    (stagesByName.flatMap fun stage => entries.filter fun entry => entry.2 == stage).Perm
      entries := by
  rw [List.perm_iff_count]
  intro entry
  have at_stage (stage : Stage) :
      (entries.filter fun other => other.2 == stage).count entry =
        if entry.2 = stage then entries.count entry else 0 := by
    split
    · rename_i same
      exact List.count_filter (by simpa using same)
    · rename_i different
      rw [List.count_eq_zero, List.mem_filter]
      rintro ⟨-, same⟩
      exact different (beq_iff_eq.mp same)
  simp only [stagesByName, List.flatMap_cons, List.flatMap_nil, List.count_append, at_stage]
  cases entry.2 <;> simp

theorem assignments_toPlan (t : Table) : t.toPlan.assignments.Perm t.entries := by
  rw [Plan.assignments, lists_toPlan, flatMap_filterMap]
  have each : (stagesByName.flatMap fun stage => (t.listAt? stage).elim [] listed).Perm
      (stagesByName.flatMap fun stage => t.entries.filter fun entry => entry.2 == stage) :=
    List.Perm.flatMap_left _ fun stage _ => listed_listAt? t stage
  exact each.trans (group_perm t.entries)

theorem isReadable_toPlan (t : Table) : t.toPlan.IsReadable := by
  intro list written
  rw [lists_toPlan] at written
  obtain ⟨stage, -, written⟩ := List.mem_filterMap.mp written
  exact ⟨stage, name_of_listAt? written ▸ stage.spells_name⟩

theorem ordered_toPlan (t : Table) : (t.toPlan.lists.map (·.1)).Pairwise (· < ·) := by
  have names : stagesByName.Pairwise fun a b => a.name < b.name := by decide
  rw [lists_toPlan, List.pairwise_map, List.pairwise_filterMap]
  apply names.imp
  intro a b first list written list' written'
  rw [name_of_listAt? written, name_of_listAt? written']
  exact first

/-- A table is the table of its canonical plan. -/
theorem ofPlan_toPlan (clean : IsClean t.entries)
    (ordered : t.entries.Pairwise fun a b => comesFirst a b = true) :
    ofPlan t.toPlan = .ok t := by
  have perm := assignments_toPlan t
  have arranged : t.entries = arrange t.toPlan.assignments := by
    rw [← arrange_eq_of_perm perm.symm clean.nodup, arrange_of_ordered ordered]
  exact ofPlan_ok_iff.mpr
    ⟨t.default.spells_name, isReadable_toPlan t, clean.perm perm.symm, arranged⟩

theorem ofPlan_toPlan_of_ofPlan {plan : Plan} (built : ofPlan plan = .ok t) :
    ofPlan t.toPlan = .ok t := by
  obtain ⟨-, -, clean, arranged⟩ := ofPlan_ok_iff.mp built
  apply ofPlan_toPlan
  · rw [arranged]
    exact clean.perm (arrange_perm _).symm
  · rw [arranged]
    exact ordered_arrange _

end QuorumKv.Migration.Table
