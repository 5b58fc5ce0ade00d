import Mathlib.Data.List.Find
import QuorumKv.Migration.Table

/-! What a switch table says of a key. The stage comes from an entry whose beginning the key has, or
is the default; a text that begins the key, and that no entry for the key outgrows, is sent the same
way as the key. -/
namespace QuorumKv.Migration.Table

theorem startsWith_iff {key start : String} :
    startsWith key start = true ↔ start.toList <+: key.toList :=
  List.isPrefixOf_iff_prefix

theorem startsWith_trans {key middle start : String} (whole : startsWith key middle = true)
    (part : startsWith middle start = true) : startsWith key start = true := by
  rw [startsWith_iff] at whole part ⊢
  exact part.trans whole

/-- Of two beginnings of a key, the longer one begins with the shorter one. -/
theorem startsWith_of_length_le {key middle start : String} (whole : startsWith key middle = true)
    (part : startsWith key start = true) (shorter : start.length ≤ middle.length) :
    startsWith middle start = true := by
  rw [startsWith_iff] at whole part ⊢
  exact List.prefix_of_prefix_length_le part whole shorter

/-- Only the empty text begins the empty text. -/
theorem startsWith_empty {start : String} (filled : start ≠ "") : startsWith "" start = false := by
  apply Bool.eq_false_iff.mpr
  intro begins
  rw [startsWith_iff] at begins
  exact filled (String.toList_inj.mp (List.prefix_nil.mp begins))

/-- Every beginning that the table lists. -/
def starts (t : Table) : List String :=
  t.entries.map (·.1)

theorem mem_starts {t : Table} {start : String} :
    start ∈ t.starts ↔ ∃ stage, (start, stage) ∈ t.entries := by
  simp [starts]

theorem route_eq (t : Table) (key : String) :
    t.route key =
      ((t.entries.find? fun entry => startsWith key entry.1).map (·.2)).getD t.default := by
  unfold route
  split
  · rename_i found
    rw [found]
    rfl
  · rename_i found
    rw [found]
    rfl

/-- The stage of a key stands in the table, at an entry that the key starts with or as the
default. -/
theorem route_cases (t : Table) (key : String) :
    (∃ start, (start, t.route key) ∈ t.entries ∧ startsWith key start = true) ∨
      t.route key = t.default ∧ ∀ start ∈ t.starts, startsWith key start = false := by
  rw [route_eq]
  cases found : t.entries.find? fun entry => startsWith key entry.1 with
  | some entry =>
    have begins := List.find?_some found
    exact .inl ⟨entry.1, List.mem_of_find?_eq_some found, begins⟩
  | none =>
    refine .inr ⟨rfl, ?_⟩
    intro start listed
    obtain ⟨stage, entry⟩ := mem_starts.mp listed
    exact Bool.eq_false_iff.mpr (List.find?_eq_none.mp found _ entry)

theorem route_of_none {t : Table} {key : String}
    (none : ∀ start ∈ t.starts, startsWith key start = false) : t.route key = t.default := by
  obtain ⟨start, entry, begins⟩ | ⟨default, -⟩ := t.route_cases key
  · rw [none start (mem_starts.mpr ⟨_, entry⟩)] at begins
    cases begins
  · exact default

/-- Two texts with the same listed beginnings are sent the same way. -/
theorem route_congr {t : Table} {key text : String}
    (same : ∀ start ∈ t.starts, startsWith text start = startsWith key start) :
    t.route text = t.route key := by
  have found : (t.entries.find? fun entry => startsWith text entry.1) =
      t.entries.find? fun entry => startsWith key entry.1 := by
    apply List.find?_congr
    intro entry listed
    exact same entry.1 (List.mem_map_of_mem listed)
  rw [route_eq, route_eq, found]

/-- A beginning of a key that is as long as any listed one is sent the same way as the key. -/
theorem route_of_longest {t : Table} {key text : String} (begins : startsWith key text = true)
    (longest : ∀ start ∈ t.starts, startsWith key start = true → start.length ≤ text.length) :
    t.route text = t.route key := by
  apply route_congr
  intro start listed
  apply Bool.eq_iff_iff.mpr
  constructor
  · intro part
    exact startsWith_trans begins part
  · intro part
    exact startsWith_of_length_le begins part (longest start listed part)

/-- A table that does not use a store sends no key there. -/
theorem uses_route {t : Table} {side : Side} {key : String}
    (there : (t.route key).uses side = true) : t.uses side = true := by
  rw [uses, Bool.or_eq_true]
  obtain ⟨start, entry, -⟩ | ⟨default, -⟩ := t.route_cases key
  · exact .inr (List.any_eq_true.mpr ⟨_, entry, there⟩)
  · exact .inl (default ▸ there)

end QuorumKv.Migration.Table
