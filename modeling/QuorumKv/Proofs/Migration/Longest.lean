import QuorumKv.Proofs.Assoc
import QuorumKv.Proofs.Migration.Assignments

/-! A key is sent by the longest listed beginning that it has, to the stage that was assigned to it
last. The lookup takes the first beginning that fits, so this rests on two things that every plan
establishes and every later assignment keeps: the entries are in order, and none is listed twice. -/
namespace QuorumKv.Migration

/-- The stage that a list of assignments gives to a beginning last. -/
def lastAssigned? (history : List (String × Stage)) (start : String) : Option Stage :=
  (history.reverse.find? fun entry => entry.1 == start).map (·.2)

theorem lastAssigned?_append (history : List (String × Stage)) (change : String × Stage)
    (start : String) : lastAssigned? (history ++ [change]) start =
      if change.1 = start then some change.2 else lastAssigned? history start := by
  rw [lastAssigned?, List.reverse_append, List.reverse_singleton, List.singleton_append]
  by_cases same : change.1 = start
  · simp [same]
  · have other : (change.1 == start) = false := by simpa using same
    rw [if_neg same, List.find?_cons, other]
    rfl

/-- Where no beginning is assigned twice, each was last assigned where it stands. -/
theorem lastAssigned?_iff_mem {history : List (String × Stage)} {start : String} {stage : Stage}
    (nodup : (history.map (·.1)).Nodup) :
    lastAssigned? history start = some stage ↔ (start, stage) ∈ history := by
  rw [lastAssigned?, Option.map_eq_some_iff]
  constructor
  · rintro ⟨entry, found, rfl⟩
    have same : entry.1 = start := by simpa using List.find?_some found
    rw [← same]
    exact List.mem_reverse.mp (List.mem_of_find?_eq_some found)
  · intro known
    have nodup' : (history.reverse.map (·.1)).Nodup := by
      rw [List.map_reverse]
      exact List.nodup_reverse.mpr nodup
    exact ⟨(start, stage), Assoc.find?_of_nodup nodup' (List.mem_reverse.mpr known), rfl⟩

namespace Table

variable {t : Table}

/-- A table after some assignments, one after the other. -/
def assignAll (t : Table) (changes : List (String × Stage)) : Table :=
  changes.foldl (fun t change => t.assign change.1 change.2) t

/-- Whether the entries of a table are what a history assigned last. -/
def Holds (t : Table) (history : List (String × Stage)) : Prop :=
  ∀ start stage, (start, stage) ∈ t.entries ↔ lastAssigned? history start = some stage

theorem mem_assign {change entry : String × Stage} :
    entry ∈ (t.assign change.1 change.2).entries ↔
      entry.1 ≠ change.1 ∧ entry ∈ t.entries ∨ entry = change := by
  rw [assign, (arrange_perm _).mem_iff, List.mem_append, List.mem_filter, List.mem_singleton]
  simp [and_comm]

theorem holds_assign {history : List (String × Stage)} (holds : t.Holds history)
    (change : String × Stage) : (t.assign change.1 change.2).Holds (history ++ [change]) := by
  intro start stage
  rw [mem_assign, lastAssigned?_append, holds start stage]
  by_cases same : change.1 = start
  · subst same
    simp [Prod.ext_iff, eq_comm]
  · have other : (start, stage) ≠ change := by
      rintro rfl
      exact same rfl
    simp [same, other, Ne.symm same]

theorem holds_assignAll {history : List (String × Stage)} (holds : t.Holds history)
    (changes : List (String × Stage)) : (t.assignAll changes).Holds (history ++ changes) := by
  induction changes generalizing t history with
  | nil =>
    rw [List.append_nil]
    exact holds
  | cons change rest ih =>
    rw [← List.singleton_append, ← List.append_assoc]
    exact ih (holds_assign holds change)

theorem default_assignAll (changes : List (String × Stage)) :
    (t.assignAll changes).default = t.default := by
  induction changes generalizing t with
  | nil => rfl
  | cons change rest ih => exact ih (t := t.assign change.1 change.2)

theorem Holds.mem_starts {history : List (String × Stage)} (holds : t.Holds history)
    {start : String} : start ∈ t.starts ↔ start ∈ history.map (·.1) := by
  have assigned : (∃ stage, lastAssigned? history start = some stage) ↔
      start ∈ history.map (·.1) := by
    rw [← Option.isSome_iff_exists, lastAssigned?, Option.isSome_map, List.find?_isSome]
    simp
  rw [Table.mem_starts, ← assigned]
  exact exists_congr (holds start)

/-- What lookups rely on: the entries are in order, and no beginning is listed twice. -/
structure IsTidy (t : Table) : Prop where
  ordered : t.entries.Pairwise fun a b => comesFirst a b = true
  nodup : t.starts.Nodup

theorem isTidy_of_arranged {entries : List (String × Stage)}
    (nodup : (entries.map (·.1)).Nodup) (arranged : t.entries = arrange entries) : t.IsTidy where
  ordered := by
    rw [arranged]
    exact ordered_arrange entries
  nodup := by
    rw [starts, arranged]
    exact ((arrange_perm entries).map (·.1)).nodup_iff.mpr nodup

theorem isTidy_ofPlan {plan : Plan} (built : ofPlan plan = .ok t) : t.IsTidy := by
  obtain ⟨-, -, clean, arranged⟩ := ofPlan_ok_iff.mp built
  exact isTidy_of_arranged clean.nodup arranged

theorem isTidy_assign (tidy : t.IsTidy) (start : String) (stage : Stage) :
    (t.assign start stage).IsTidy := by
  refine isTidy_of_arranged ?_ rfl
  rw [List.map_append, List.nodup_append']
  have others : ((t.entries.filter fun entry => entry.1 != start).map (·.1)).Sublist t.starts :=
    List.filter_sublist.map _
  refine ⟨tidy.nodup.sublist others, List.nodup_singleton _, ?_⟩
  simp [List.disjoint_singleton]

theorem isTidy_assignAll (tidy : t.IsTidy) (changes : List (String × Stage)) :
    (t.assignAll changes).IsTidy := by
  induction changes generalizing t with
  | nil => exact tidy
  | cons change rest ih => exact ih (isTidy_assign tidy change.1 change.2)

/-- A text that is no longer than a text that begins it is that text. -/
theorem eq_of_startsWith {text start : String} (begins : startsWith text start = true)
    (short : text.utf8ByteSize ≤ start.utf8ByteSize) : text = start := by
  obtain ⟨rest, whole⟩ := startsWith_iff.mp begins
  have joined : text = start ++ String.ofList rest := by
    rw [← String.toList_inj, String.toList_append, String.toList_ofList, whole]
  have nothing : (String.ofList rest).utf8ByteSize = 0 := by
    rw [joined, String.utf8ByteSize_append] at short
    omega
  rw [String.utf8ByteSize_eq_zero_iff] at nothing
  rw [joined, nothing, String.append_empty]

/-- Of a key's beginnings, one that comes before another one is longer. -/
theorem length_lt_of_comesFirst {key : String} {a b : String × Stage}
    (begins : startsWith key a.1 = true) (begins' : startsWith key b.1 = true)
    (first : comesFirst a b = true) (other : b.1 ≠ a.1) : b.1.length < a.1.length := by
  by_contra longer
  have part : startsWith b.1 a.1 = true :=
    startsWith_of_length_le begins' begins (Nat.le_of_not_lt longer)
  have short : b.1.utf8ByteSize ≤ a.1.utf8ByteSize := by
    rw [comesFirst_iff] at first
    omega
  exact other (eq_of_startsWith part short)

/-- Whether a beginning of a key is listed and longer than all other listed ones. -/
def IsLongest (t : Table) (key start : String) : Prop :=
  start ∈ t.starts ∧ startsWith key start = true ∧
    ∀ other ∈ t.starts, startsWith key other = true → other ≠ start → other.length < start.length

/-- The first entry that fits is the longest one. -/
theorem IsTidy.route_cases (tidy : t.IsTidy) (key : String) :
    (∃ start, t.IsLongest key start ∧ (start, t.route key) ∈ t.entries) ∨
      (∀ start ∈ t.starts, startsWith key start = false) ∧ t.route key = t.default := by
  cases found : t.entries.find? fun entry => startsWith key entry.1 with
  | none =>
    have none : ∀ start ∈ t.starts, startsWith key start = false := by
      intro start known
      obtain ⟨entry, listed, rfl⟩ := List.mem_map.mp known
      exact Bool.eq_false_iff.mpr (List.find?_eq_none.mp found entry listed)
    exact .inr ⟨none, route_of_none none⟩
  | some entry =>
    obtain ⟨begins, front, back, parts, before⟩ := List.find?_eq_some_iff_append.mp found
    have routed : t.route key = entry.2 := by
      rw [route_eq, found]
      rfl
    have listed : entry ∈ t.entries := List.mem_of_find?_eq_some found
    refine .inl ⟨entry.1, ⟨List.mem_map_of_mem listed, begins, ?_⟩, routed ▸ listed⟩
    intro start known begins' different
    obtain ⟨other, listed', rfl⟩ := List.mem_map.mp known
    -- What stands before the first entry that fits does not fit.
    have later : other ∈ back := by
      rw [parts, List.mem_append, List.mem_cons] at listed'
      obtain early | rfl | late := listed'
      · have fails := before other early
        rw [begins'] at fails
        cases fails
      · exact absurd rfl different
      · exact late
    have ordered := tidy.ordered
    rw [parts, List.pairwise_append, List.pairwise_cons] at ordered
    exact length_lt_of_comesFirst begins begins' (ordered.2.1.1 other later) different

end Table

/-- Whether two plans say the same in other orders and with other spellings of the stages. -/
structure Plan.IsRewriting (plan other : Plan) : Prop where
  default : ∀ stage : Stage, stage.Spells plan.defaultStage ↔ stage.Spells other.defaultStage
  readable : plan.IsReadable ↔ other.IsReadable
  starts : plan.starts.Perm other.starts
  stages : ∀ start stage, plan.Lists start stage ↔ other.Lists start stage

theorem Plan.IsRewriting.symm {plan other : Plan} (same : plan.IsRewriting other) :
    other.IsRewriting plan where
  default stage := (same.default stage).symm
  readable := same.readable.symm
  starts := same.starts.symm
  stages start stage := (same.stages start stage).symm

namespace Table

variable {plan other : Plan} {t : Table}

theorem ofPlan_of_rewriting (same : plan.IsRewriting other) (built : ofPlan plan = .ok t) :
    ofPlan other = .ok t := by
  obtain ⟨default, readable, clean, arranged⟩ := ofPlan_ok_iff.mp built
  have readable' := same.readable.mp readable
  have nodup : (other.assignments.map (·.1)).Nodup := by
    have once := clean.nodup
    rw [Plan.map_assignments readable] at once
    rw [Plan.map_assignments readable']
    exact same.starts.nodup_iff.mp once
  have perm : plan.assignments.Perm other.assignments := by
    apply (List.perm_ext_iff_of_nodup clean.nodup.of_map nodup.of_map).mpr
    rintro ⟨start, stage⟩
    rw [Plan.mem_assignments, Plan.mem_assignments, same.stages]
  have arranged' : t.entries = arrange other.assignments := by
    rw [arranged, arrange_eq_of_perm perm clean.nodup]
  exact ofPlan_ok_iff.mpr
    ⟨(same.default _).mp default, readable', clean.perm perm, arranged'⟩

theorem exists_ofPlan_iff : (∃ t, ofPlan plan = .ok t) ↔
    (∃ stage : Stage, stage.Spells plan.defaultStage) ∧ plan.IsReadable ∧
      (∀ start ∈ plan.starts, start ≠ "") ∧ plan.starts.Nodup := by
  have clean (readable : plan.IsReadable) : IsClean plan.assignments ↔
      (∀ start ∈ plan.starts, start ≠ "") ∧ plan.starts.Nodup := by
    rw [← Plan.map_assignments readable, List.forall_mem_map]
    exact ⟨fun clean => ⟨clean.filled, clean.nodup⟩, fun both => ⟨both.1, both.2⟩⟩
  constructor
  · rintro ⟨t, built⟩
    obtain ⟨default, readable, proper, -⟩ := ofPlan_ok_iff.mp built
    exact ⟨⟨_, default⟩, readable, (clean readable).mp proper⟩
  · rintro ⟨⟨stage, default⟩, readable, proper⟩
    exact ⟨⟨stage, arrange plan.assignments⟩,
      ofPlan_ok_iff.mpr ⟨default, readable, (clean readable).mpr proper, rfl⟩⟩

/-- A plan is accepted if its stages can be read and its beginnings are neither empty nor listed
twice. However its table is changed then, a key is sent by the longest beginning in the table to the
stage that was assigned to it last, and to the default if it has none of them. In which order and
spelling the plan said so does not matter. -/
theorem routes_by_longest (plan : Plan) :
    ((∃ t, ofPlan plan = .ok t) ↔
      (∃ stage : Stage, stage.Spells plan.defaultStage) ∧ plan.IsReadable ∧
        (∀ start ∈ plan.starts, start ≠ "") ∧ plan.starts.Nodup) ∧
    (∀ t, ofPlan plan = .ok t → ∀ changes,
      let later := t.assignAll changes
      later.default.Spells plan.defaultStage ∧
      (∀ start, start ∈ later.starts ↔ start ∈ plan.starts ++ changes.map (·.1)) ∧
      ∀ key,
        (∀ start, later.IsLongest key start →
          lastAssigned? (plan.assignments ++ changes) start = some (later.route key)) ∧
        ((∃ start, later.IsLongest key start) ∨
          (∀ start ∈ later.starts, startsWith key start = false) ∧
            later.route key = later.default)) ∧
    ∀ other, plan.IsRewriting other → ∀ t, ofPlan plan = .ok t ↔ ofPlan other = .ok t := by
  refine ⟨exists_ofPlan_iff, ?routes, ?rewriting⟩
  case rewriting =>
    intro other same t
    exact ⟨ofPlan_of_rewriting same, ofPlan_of_rewriting same.symm⟩
  case routes =>
    intro t built changes later
    obtain ⟨default, readable, clean, arranged⟩ := ofPlan_ok_iff.mp built
    have planned : t.Holds plan.assignments := by
      intro start stage
      rw [lastAssigned?_iff_mem clean.nodup, arranged, (arrange_perm _).mem_iff]
    have holds : later.Holds (plan.assignments ++ changes) := holds_assignAll planned changes
    have tidy : later.IsTidy := isTidy_assignAll (isTidy_ofPlan built) changes
    refine ⟨?_, ?_, ?_⟩
    · rw [default_assignAll]
      exact default
    · intro start
      rw [holds.mem_starts, List.map_append, Plan.map_assignments readable]
    · intro key
      obtain ⟨start, longest, entry⟩ | ⟨none, routed⟩ := tidy.route_cases key
      · refine ⟨?_, .inl ⟨start, longest⟩⟩
        intro other longest'
        have same : other = start := by
          by_contra different
          have less := longest.2.2 other longest'.1 longest'.2.1 different
          have more := longest'.2.2 start longest.1 longest.2.1 (Ne.symm different)
          omega
        rw [same]
        exact (holds start _).mp entry
      · refine ⟨?_, .inr ⟨none, routed⟩⟩
        rintro start ⟨known, begins, -⟩
        rw [none start known] at begins
        cases begins

/-- Of nested beginnings the longest one counts, here one that was assigned again. Everything begins
with the empty text, once that is assigned. -/
theorem routes_by_longest_nested :
    let plan : Plan := ⟨" BR1w1cr0w0", [("CRW", ["ab"]), ("brw_cw", ["abc", "a"])]⟩
    let other : Plan := ⟨"brw", [("BRW_cw", ["a", "abc"]), ("br0w0cr1w1 ", ["ab"])]⟩
    ∃ t, ofPlan plan = .ok t ∧ ofPlan other = .ok t ∧
      (t.assignAll [("ab", .bwCrw), ("", .crw)]).route "abd" = .bwCrw ∧
      (t.assignAll [("ab", .bwCrw), ("", .crw)]).route "b" = .crw := by
  intro plan other
  have readable : plan.IsReadable := by
    rw [Plan.IsReadable, List.forall_mem_cons, List.forall_mem_singleton]
    exact ⟨⟨.crw, by decide +kernel⟩, ⟨.brwCw, by decide +kernel⟩⟩
  have readable' : other.IsReadable := by
    rw [Plan.IsReadable, List.forall_mem_cons, List.forall_mem_singleton]
    exact ⟨⟨.brwCw, by decide +kernel⟩, ⟨.crw, by decide +kernel⟩⟩
  have perm : plan.assignments.Perm other.assignments := by decide +kernel
  have same : plan.IsRewriting other := by
    refine ⟨?_, iff_of_true readable readable', by decide, ?_⟩
    · intro stage
      cases stage <;> decide +kernel
    · intro start stage
      rw [← Plan.mem_assignments, ← Plan.mem_assignments, perm.mem_iff]
  obtain ⟨accepted, routes, rewriting⟩ := routes_by_longest plan
  obtain ⟨t, built⟩ := accepted.mpr ⟨⟨.brw, by decide +kernel⟩, readable, by decide, by decide⟩
  obtain ⟨-, listed, sent⟩ := routes t built [("ab", .bwCrw), ("", .crw)]
  have goes (key start : String) {stage : Stage}
      (known : start ∈ plan.starts ++ ["ab", ""]) (begins : startsWith key start = true)
      (longest : ∀ other ∈ plan.starts ++ ["ab", ""], startsWith key other = true →
        other ≠ start → other.length < start.length)
      (last : lastAssigned? (plan.assignments ++ [("ab", .bwCrw), ("", .crw)]) start =
        some stage) :
      (t.assignAll [("ab", .bwCrw), ("", .crw)]).route key = stage := by
    have assigned := (sent key).1 start ⟨(listed start).mpr known, begins,
      fun other known' => longest other ((listed other).mp known')⟩
    exact Option.some.inj (assigned.symm.trans last)
  refine ⟨t, built, (rewriting other same t).mp built, ?_, ?_⟩
  · exact goes "abd" "ab" (by decide) (by decide) (by decide) (by decide +kernel)
  · exact goes "b" "" (by decide) (by decide) (by decide) (by decide +kernel)

end Table

end QuorumKv.Migration
