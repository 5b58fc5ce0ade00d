import Mathlib.Data.List.MinMax
import QuorumKv.Proofs.Migration.Assignments
import QuorumKv.Proofs.Text.Order

/-! Replacing a switch table warns of every key that jumps over the mirrored stages, and of nothing
else. There is no end of keys, but only the beginnings that the tables list are looked at: the
longest of them that a key has is sent by either table where the key is sent. -/
namespace QuorumKv.Migration

open Table (startsWith)

/-- Whether a change of the table takes a key from one end of the migration to the other. -/
def Jumps (previous next : Table) (key : String) : Prop :=
  previous.route key = .brw ∧ next.route key = .crw ∨
    previous.route key = .crw ∧ next.route key = .brw

theorem skipsMirror_iff {a b : Stage} :
    a.skipsMirror b = true ↔ a = .brw ∧ b = .crw ∨ a = .crw ∧ b = .brw := by
  cases a <;> cases b <;> simp [Stage.skipsMirror]

theorem jumps_iff {previous next : Table} {key : String} :
    Jumps previous next key ↔ (previous.route key).skipsMirror (next.route key) = true :=
  skipsMirror_iff.symm

namespace Warning

/-- A key that a warning is about. The default is that of the empty text, which nothing begins. -/
def key : Warning → String
  | default _ _ => ""
  | entry start _ _ => start

def before : Warning → Stage
  | default before _ | entry _ before _ => before

def after : Warning → Stage
  | default _ after | entry _ _ after => after

end Warning

variable {previous next : Table}

theorem default_mem_warnings {before after : Stage} :
    .default before after ∈ warnings previous next ↔
      before = previous.default ∧ after = next.default ∧
        previous.default.skipsMirror next.default = true := by
  unfold warnings
  rw [List.mem_append]
  constructor
  · rintro (here | there)
    · split at here
      · rename_i skips
        obtain ⟨rfl, rfl⟩ := Warning.default.inj (List.mem_singleton.mp here)
        exact ⟨rfl, rfl, skips⟩
      · cases here
    · obtain ⟨start, -, found⟩ := List.mem_filterMap.mp there
      dsimp only at found
      split at found <;> cases found
  · rintro ⟨rfl, rfl, skips⟩
    left
    rw [if_pos skips]
    exact List.mem_singleton_self _

theorem entry_mem_warnings {start : String} {before after : Stage} :
    .entry start before after ∈ warnings previous next ↔
      start ∈ previous.starts ++ next.starts ∧ before = previous.route start ∧
        after = next.route start ∧ Jumps previous next start := by
  have listed : start ∈ Text.sortedSet ((previous.entries ++ next.entries).map (·.1)) ↔
      start ∈ previous.starts ++ next.starts := by
    rw [Text.mem_sortedSet, List.map_append, Table.starts, Table.starts]
  unfold warnings
  rw [List.mem_append, ← listed, jumps_iff]
  constructor
  · rintro (here | there)
    · split at here
      · cases List.mem_singleton.mp here
      · cases here
    · obtain ⟨probe, known, found⟩ := List.mem_filterMap.mp there
      dsimp only at found
      split at found
      · rename_i skips
        obtain ⟨rfl, rfl, rfl⟩ := Warning.entry.inj (Option.some.inj found)
        exact ⟨known, rfl, rfl, skips⟩
      · cases found
  · rintro ⟨known, rfl, rfl, skips⟩
    right
    apply List.mem_filterMap.mpr
    exact ⟨start, known, if_pos skips⟩

/-- The same table again takes no key anywhere. -/
theorem warnings_self (t : Table) : warnings t t = [] := by
  have stays (stage : Stage) : stage.skipsMirror stage = false := by
    cases stage <;> rfl
  simp [warnings, stays]

/-- Of the beginnings of a key in a list, one is the longest. -/
theorem exists_longest {key : String} {starts : List String}
    (some_start : ∃ start ∈ starts, startsWith key start = true) :
    ∃ start ∈ starts, startsWith key start = true ∧
      ∀ other ∈ starts, startsWith key other = true → other.length ≤ start.length := by
  cases found : (starts.filter (startsWith key)).argmax String.length with
  | none =>
    obtain ⟨start, listed, begins⟩ := some_start
    have empty := List.argmax_eq_none.mp found
    exact absurd (List.mem_filter.mpr ⟨listed, begins⟩) (empty ▸ List.not_mem_nil)
  | some start =>
    obtain ⟨listed, begins⟩ := List.mem_filter.mp (List.argmax_mem found)
    refine ⟨start, listed, begins, ?_⟩
    intro other known part
    exact List.le_of_mem_argmax (List.mem_filter.mpr ⟨known, part⟩) found

/-- A key has a listed beginning that both tables send where they send the key. -/
theorem exists_probe {key : String}
    (some_start : ∃ start ∈ previous.starts ++ next.starts, startsWith key start = true) :
    ∃ start ∈ previous.starts ++ next.starts, startsWith key start = true ∧
      previous.route start = previous.route key ∧ next.route start = next.route key := by
  obtain ⟨start, listed, begins, longest⟩ := exists_longest some_start
  refine ⟨start, listed, begins, ?_, ?_⟩
  · apply Table.route_of_longest begins
    intro other known
    exact longest other (List.mem_append_left _ known)
  · apply Table.route_of_longest begins
    intro other known
    exact longest other (List.mem_append_right _ known)

/-- Without a listed beginning, a key is sent by the defaults. -/
theorem routes_of_none {key : String}
    (none : ∀ start ∈ previous.starts ++ next.starts, startsWith key start = false) :
    previous.route key = previous.default ∧ next.route key = next.default := by
  constructor
  · apply Table.route_of_none
    intro start listed
    exact none start (List.mem_append_left _ listed)
  · apply Table.route_of_none
    intro start listed
    exact none start (List.mem_append_right _ listed)

/-- A jump is warned about: under the default if no listed text begins the key, and else at a
beginning of the key that jumps in the same way. -/
theorem warned_of_jumps {key : String} (jumps : Jumps previous next key) :
    if ∃ start ∈ previous.starts ++ next.starts, startsWith key start = true then
      ∃ start, startsWith key start = true ∧
        .entry start (previous.route key) (next.route key) ∈ warnings previous next
    else .default (previous.route key) (next.route key) ∈ warnings previous next := by
  split
  · rename_i some_start
    obtain ⟨start, listed, begins, was, will⟩ := exists_probe some_start
    refine ⟨start, begins, entry_mem_warnings.mpr ⟨listed, was.symm, will.symm, ?_⟩⟩
    rwa [Jumps, was, will]
  · rename_i none
    have same : previous.route key = previous.default ∧ next.route key = next.default := by
      apply routes_of_none
      intro start listed
      exact Bool.eq_false_iff.mpr fun begins => none ⟨start, listed, begins⟩
    refine default_mem_warnings.mpr ⟨same.1, same.2, ?_⟩
    rwa [jumps_iff, same.1, same.2] at jumps

/-- A warning is about a key that jumps as the warning says, if neither table lists the empty
text. -/
theorem jumps_of_warned (filled : ∀ start ∈ previous.starts ++ next.starts, start ≠ "")
    {warning : Warning} (warned : warning ∈ warnings previous next) :
    Jumps previous next warning.key ∧ previous.route warning.key = warning.before ∧
      next.route warning.key = warning.after := by
  cases warning with
  | default before after =>
    obtain ⟨rfl, rfl, skips⟩ := default_mem_warnings.mp warned
    have same : previous.route "" = previous.default ∧ next.route "" = next.default := by
      apply routes_of_none
      intro start listed
      exact Table.startsWith_empty (filled start listed)
    refine ⟨jumps_iff.mpr ?_, same⟩
    rwa [Warning.key, same.1, same.2]
  | entry start before after =>
    obtain ⟨-, rfl, rfl, jumps⟩ := entry_mem_warnings.mp warned
    exact ⟨jumps, rfl, rfl⟩

/-- A change of the table is warned about exactly when some key jumps. Every key that does is
covered by a warning that says where it goes from and to, and every warning is about a key that
does. -/
theorem warned_iff_jumps {was will : Plan} (before : Table.ofPlan was = .ok previous)
    (after : Table.ofPlan will = .ok next) :
    (warnings previous next ≠ [] ↔ ∃ key, Jumps previous next key) ∧
    (∀ key, Jumps previous next key →
      if ∃ start ∈ previous.starts ++ next.starts, startsWith key start = true then
        ∃ start, startsWith key start = true ∧
          .entry start (previous.route key) (next.route key) ∈ warnings previous next
      else .default (previous.route key) (next.route key) ∈ warnings previous next) ∧
    ∀ warning ∈ warnings previous next, Jumps previous next warning.key ∧
      previous.route warning.key = warning.before ∧ next.route warning.key = warning.after := by
  have filled : ∀ start ∈ previous.starts ++ next.starts, start ≠ "" := by
    intro start listed
    obtain old | new := List.mem_append.mp listed
    · exact Table.filled_ofPlan before start old
    · exact Table.filled_ofPlan after start new
  refine ⟨⟨?warned, ?silent⟩, fun key => warned_of_jumps, fun warning => jumps_of_warned filled⟩
  case warned =>
    intro some_warning
    obtain ⟨warning, warned⟩ := List.exists_mem_of_ne_nil _ some_warning
    exact ⟨warning.key, (jumps_of_warned filled warned).1⟩
  case silent =>
    rintro ⟨key, jumps⟩ none
    have covered := warned_of_jumps jumps
    rw [none] at covered
    split at covered
    · obtain ⟨start, -, listed⟩ := covered
      cases listed
    · cases covered

/-- One table sends `ab` to the other end and the next one `a`, all but `abc`: the keys below `abc`
go back. -/
theorem warned_iff_jumps_nested :
    let previous : Table := ⟨.brw, [("ab", .crw)]⟩
    let next : Table := ⟨.brw, [("abc", .brw), ("a", .crw)]⟩
    Table.ofPlan ⟨"BRW", [("CRW", ["ab"])]⟩ = .ok previous ∧
      Table.ofPlan ⟨"BRW", [("BRW", ["abc"]), ("CRW", ["a"])]⟩ = .ok next ∧
      Jumps previous next "abcd" ∧
      ∃ start, startsWith "abcd" start = true ∧
        .entry start .crw .brw ∈ warnings previous next := by
  intro previous next
  have was : Table.ofPlan ⟨"BRW", [("CRW", ["ab"])]⟩ = .ok previous := by decide +kernel
  have arranged : Table.arrange next.entries = next.entries :=
    List.mergeSort_of_pairwise (by decide)
  have will : Table.ofPlan ⟨"BRW", [("BRW", ["abc"]), ("CRW", ["a"])]⟩ = .ok next := by
    change Except.ok ⟨.brw, Table.arrange next.entries⟩ = Except.ok next
    rw [arranged]
  have jumps : Jumps previous next "abcd" := .inr ⟨by decide, by decide⟩
  obtain ⟨-, covered, -⟩ := warned_iff_jumps was will
  have warned := covered "abcd" jumps
  rw [if_pos ⟨"abc", by decide, by decide⟩] at warned
  exact ⟨was, will, jumps, warned⟩

end QuorumKv.Migration
