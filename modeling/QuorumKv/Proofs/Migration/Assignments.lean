import Mathlib.Data.List.Nodup
import QuorumKv.Proofs.Failure
import QuorumKv.Proofs.Migration.Table

/-! A plan assigns stages to beginnings, list after list. It may write them in any order and spell
their stages as it likes: its table holds the same assignments in the one order that a set of
entries with different beginnings has. -/
namespace QuorumKv.Migration

namespace Stage

/-- Whether a text is the name or the code of a stage, in any case and with any blanks around. -/
def Spells (stage : Stage) (text : String) : Prop :=
  sameWord stage.name (Text.trim text) = true ∨ sameWord stage.code (Text.trim text) = true

instance (stage : Stage) (text : String) : Decidable (stage.Spells text) :=
  inferInstanceAs (Decidable (_ ∨ _))

theorem mem_all (stage : Stage) : stage ∈ all := by
  cases stage <;> decide

theorem sameWord_of_sameWord {a b word : String} (one : sameWord a word = true)
    (other : sameWord b word = true) : sameWord a b = true := by
  rw [sameWord, beq_iff_eq] at one other ⊢
  exact one.trans other.symm

/-- No name or code is that of two stages. -/
theorem eq_of_sameWord : ∀ a ∈ all, ∀ b ∈ all, ∀ u ∈ [a.name, a.code], ∀ v ∈ [b.name, b.code],
    sameWord u v = true → a = b := by
  decide +kernel

theorem eq_of_spells {a b : Stage} {text : String} (one : a.Spells text) (other : b.Spells text) :
    a = b := by
  have word (stage : Stage) (spells : stage.Spells text) :
      ∃ u ∈ [stage.name, stage.code], sameWord u (Text.trim text) = true := by
    cases spells with
    | inl name => exact ⟨stage.name, by simp, name⟩
    | inr code => exact ⟨stage.code, by simp, code⟩
  obtain ⟨u, of_a, same⟩ := word a one
  obtain ⟨v, of_b, same'⟩ := word b other
  have same : sameWord u v = true := sameWord_of_sameWord same same'
  exact eq_of_sameWord a (mem_all a) b (mem_all b) u of_a v of_b same

theorem ofText_ok_iff {text : String} {stage : Stage} :
    ofText text = .ok stage ↔ stage.Spells text := by
  have test {s : Stage} : (sameWord s.name (Text.trim text) || sameWord s.code (Text.trim text)) =
      true ↔ s.Spells text := by
    rw [Bool.or_eq_true, Spells]
  unfold ofText
  simp only
  split
  · rename_i found known
    have passes := List.find?_some known
    have spells : found.Spells text := test.mp passes
    constructor
    · intro read
      obtain rfl := Except.ok.inj read
      exact spells
    · intro other
      rw [eq_of_spells spells other]
      rfl
  · rename_i unknown
    constructor
    · exact nofun
    · intro spells
      have fails := List.find?_eq_none.mp unknown stage (mem_all stage)
      exact absurd (test.mpr spells) fails

/-- A stage's name spells it. -/
theorem spells_name (stage : Stage) : stage.Spells stage.name := by
  left
  cases stage <;> decide +kernel

end Stage

/-- The beginnings of a list with their stage, if that can be read. -/
def listed (list : String × List String) : List (String × Stage) :=
  match Stage.ofText list.1 with
  | .ok stage => list.2.map fun start => (start, stage)
  | .error _ => []

namespace Plan

def assignments (plan : Plan) : List (String × Stage) :=
  plan.lists.flatMap listed

/-- Every beginning that the plan lists, list after list. -/
def starts (plan : Plan) : List String :=
  plan.lists.flatMap (·.2)

/-- Whether the plan lists a beginning under a stage, however the stage is spelled. -/
def Lists (plan : Plan) (start : String) (stage : Stage) : Prop :=
  ∃ list ∈ plan.lists, stage.Spells list.1 ∧ start ∈ list.2

/-- Whether every list stands under a stage. -/
def IsReadable (plan : Plan) : Prop :=
  ∀ list ∈ plan.lists, ∃ stage : Stage, stage.Spells list.1

end Plan

theorem listed_of_spells {list : String × List String} {stage : Stage}
    (spells : stage.Spells list.1) : listed list = list.2.map fun start => (start, stage) := by
  rw [listed, Stage.ofText_ok_iff.mpr spells]

theorem mem_listed {list : String × List String} {start : String} {stage : Stage} :
    (start, stage) ∈ listed list ↔ stage.Spells list.1 ∧ start ∈ list.2 := by
  rw [← Stage.ofText_ok_iff, listed]
  cases Stage.ofText list.1 with
  | error e => simp
  | ok found =>
    simp only [List.mem_map, Prod.mk.injEq, Except.ok.injEq]
    constructor
    · rintro ⟨_, known, rfl, rfl⟩
      exact ⟨rfl, known⟩
    · rintro ⟨rfl, known⟩
      exact ⟨start, known, rfl, rfl⟩

namespace Plan

theorem mem_assignments {plan : Plan} {start : String} {stage : Stage} :
    (start, stage) ∈ plan.assignments ↔ plan.Lists start stage := by
  simp only [assignments, List.mem_flatMap, mem_listed, Lists]

theorem map_assignments {plan : Plan} (readable : plan.IsReadable) :
    plan.assignments.map (·.1) = plan.starts := by
  rw [assignments, starts, List.map_flatMap]
  apply List.flatMap_congr
  intro list known
  obtain ⟨stage, spells⟩ := readable list known
  rw [listed_of_spells spells, List.map_map]
  exact List.map_id _

end Plan

namespace Table

theorem comesFirst_iff {a b : String × Stage} :
    comesFirst a b = true ↔ b.1.utf8ByteSize < a.1.utf8ByteSize ∨
      a.1.utf8ByteSize = b.1.utf8ByteSize ∧ a.1 ≤ b.1 := by
  simp [comesFirst]

theorem comesFirst_trans (a b c : String × Stage) (ab : comesFirst a b = true)
    (bc : comesFirst b c = true) : comesFirst a c = true := by
  rw [comesFirst_iff] at ab bc ⊢
  obtain ab | ⟨ab, first⟩ := ab
  · left
    omega
  · obtain bc | ⟨bc, second⟩ := bc
    · left
      omega
    · exact .inr ⟨ab.trans bc, String.le_trans first second⟩

theorem comesFirst_total (a b : String × Stage) : (comesFirst a b || comesFirst b a) = true := by
  rw [Bool.or_eq_true, comesFirst_iff, comesFirst_iff]
  have texts := String.le_total a.1 b.1
  rcases Nat.lt_trichotomy a.1.utf8ByteSize b.1.utf8ByteSize with less | same | more
  · exact .inr (.inl less)
  · exact texts.imp (fun le => .inr ⟨same, le⟩) fun le => .inr ⟨same.symm, le⟩
  · exact .inl (.inl more)

theorem fst_eq_of_comesFirst {a b : String × Stage} (ab : comesFirst a b = true)
    (ba : comesFirst b a = true) : a.1 = b.1 := by
  rw [comesFirst_iff] at ab ba
  have sizes : a.1.utf8ByteSize = b.1.utf8ByteSize := by omega
  have first : a.1 ≤ b.1 := (ab.resolve_left (by omega)).2
  have second : b.1 ≤ a.1 := (ba.resolve_left (by omega)).2
  exact String.le_antisymm first second

theorem ordered_arrange (entries : List (String × Stage)) :
    (arrange entries).Pairwise fun a b => comesFirst a b = true :=
  List.pairwise_mergeSort comesFirst_trans comesFirst_total entries

theorem arrange_perm (entries : List (String × Stage)) : (arrange entries).Perm entries :=
  List.mergeSort_perm entries comesFirst

theorem arrange_of_ordered {entries : List (String × Stage)}
    (ordered : entries.Pairwise fun a b => comesFirst a b = true) : arrange entries = entries :=
  List.mergeSort_of_pairwise ordered

/-- Entries with different beginnings have only one order. -/
theorem arrange_eq_of_perm {entries others : List (String × Stage)} (same : entries.Perm others)
    (nodup : (entries.map (·.1)).Nodup) : arrange entries = arrange others := by
  refine List.Perm.eq_of_pairwise ?_ (ordered_arrange entries) (ordered_arrange others)
    ((arrange_perm entries).trans (same.trans (arrange_perm others).symm))
  intro a b of_entries of_others ab ba
  have known : a ∈ entries := (arrange_perm entries).mem_iff.mp of_entries
  have known' : b ∈ entries := same.mem_iff.mpr ((arrange_perm others).mem_iff.mp of_others)
  exact List.inj_on_of_nodup_map nodup known known' (fst_eq_of_comesFirst ab ba)

/-- What the entries of a plan must be like: no empty beginning, and no beginning twice. -/
structure IsClean (entries : List (String × Stage)) : Prop where
  filled : ∀ entry ∈ entries, entry.1 ≠ ""
  nodup : (entries.map (·.1)).Nodup

theorem IsClean.perm {entries others : List (String × Stage)} (clean : IsClean entries)
    (same : entries.Perm others) : IsClean others where
  filled entry known := clean.filled entry (same.mem_iff.mpr known)
  nodup := (same.map (·.1)).nodup_iff.mp clean.nodup

theorem IsClean.of_append {front back : List (String × Stage)} (clean : IsClean (front ++ back)) :
    IsClean front where
  filled entry known := clean.filled entry (List.mem_append_left back known)
  nodup := by
    have nodup := clean.nodup
    rw [List.map_append] at nodup
    exact nodup.of_append_left

theorem addEntry_ok_iff {stage : Stage} {entries after : List (String × Stage)} {start : String}
    (clean : IsClean entries) :
    addEntry stage entries start = .ok after ↔
      IsClean after ∧ after = entries ++ [(start, stage)] := by
  have fits : IsClean (entries ++ [(start, stage)]) ↔
      start ≠ "" ∧ start ∉ entries.map (·.1) := by
    constructor
    · intro both
      have nodup := both.nodup
      rw [List.map_append, List.nodup_append'] at nodup
      exact ⟨both.filled (start, stage) (by simp), fun known => nodup.2.2 known (by simp)⟩
    · rintro ⟨filled, new⟩
      constructor
      · intro entry known
        obtain old | here := List.mem_append.mp known
        · exact clean.filled entry old
        · obtain rfl := List.mem_singleton.mp here
          exact filled
      · rw [List.map_append, List.nodup_append']
        exact ⟨clean.nodup, List.nodup_singleton _, by simpa using new⟩
  have known : (entries.any fun entry => entry.1 == start) = true ↔
      start ∈ entries.map (·.1) := by
    simp
  unfold addEntry
  split
  · rename_i empty
    constructor
    · exact nofun
    · rintro ⟨clean, rfl⟩
      exact absurd (String.isEmpty_iff.mp empty) (fits.mp clean).1
  · rename_i filled
    split
    · rename_i twice
      constructor
      · exact nofun
      · rintro ⟨clean, rfl⟩
        exact absurd (known.mp twice) (fits.mp clean).2
    · rename_i new
      constructor
      · intro added
        obtain rfl := Except.ok.inj added
        refine ⟨fits.mpr ⟨?_, fun old => new (known.mpr old)⟩, rfl⟩
        rintro rfl
        exact filled rfl
      · rintro ⟨-, rfl⟩
        rfl

theorem addList_ok_iff {entries after : List (String × Stage)} {list : String × List String}
    (clean : IsClean entries) :
    addList entries list = .ok after ↔
      (∃ stage : Stage, stage.Spells list.1) ∧ IsClean after ∧ after = entries ++ listed list := by
  unfold addList
  cases read : Stage.ofText list.1 with
  | error e =>
    constructor
    · exact nofun
    · rintro ⟨⟨stage, spells⟩, -⟩
      rw [Stage.ofText_ok_iff.mpr spells] at read
      cases read
  | ok stage =>
    have spells := Stage.ofText_ok_iff.mp read
    have fold : list.2.foldlM (addEntry stage) entries = .ok after ↔
        (∀ start ∈ list.2, True) ∧ IsClean after ∧
          after = entries ++ list.2.flatMap fun start => [(start, stage)] := by
      apply foldlM_append_iff (fun _ _ => IsClean.of_append) _ clean
      intro entries start after clean
      rw [addEntry_ok_iff clean, true_and]
    rw [listed_of_spells spells, List.map_eq_flatMap]
    change list.2.foldlM (addEntry stage) entries = .ok after ↔ _
    rw [fold]
    exact and_congr_left' ⟨fun _ => ⟨stage, spells⟩, fun _ _ _ => trivial⟩

/-- A plan has a table exactly when its stages can be read and its beginnings are clean, and then it
holds what the plan assigns. -/
theorem ofPlan_ok_iff {plan : Plan} {t : Table} :
    ofPlan plan = .ok t ↔ t.default.Spells plan.defaultStage ∧ plan.IsReadable ∧
      IsClean plan.assignments ∧ t.entries = arrange plan.assignments := by
  have clean : IsClean [] := ⟨nofun, .nil⟩
  have fold (entries : List (String × Stage)) : plan.lists.foldlM addList [] = .ok entries ↔
      plan.IsReadable ∧ IsClean entries ∧ entries = [] ++ plan.assignments := by
    apply foldlM_append_iff (fun _ _ => IsClean.of_append) _ clean
    intro entries list after clean
    exact addList_ok_iff clean
  rw [← Stage.ofText_ok_iff]
  constructor
  · intro built
    obtain ⟨stage, default, built⟩ := ok_of_bind built
    obtain ⟨entries, folded, built⟩ := ok_of_bind built
    obtain rfl := Except.ok.inj built
    obtain ⟨readable, clean, rfl⟩ := (fold entries).mp folded
    exact ⟨default, readable, clean, rfl⟩
  · rintro ⟨default, readable, clean, arranged⟩
    have folded := (fold _).mpr ⟨readable, clean, rfl⟩
    have same : t = ⟨t.default, arrange ([] ++ plan.assignments)⟩ := by
      rw [List.nil_append, ← arranged]
    simp only [ofPlan, default, folded, bind, Except.bind]
    rw [same]
    rfl

/-- No plan lists the empty text. -/
theorem filled_ofPlan {plan : Plan} {t : Table} (built : ofPlan plan = .ok t) :
    ∀ start ∈ t.starts, start ≠ "" := by
  obtain ⟨-, -, clean, arranged⟩ := ofPlan_ok_iff.mp built
  intro start known
  obtain ⟨stage, entry⟩ := mem_starts.mp known
  exact clean.filled _ ((arrange_perm _).mem_iff.mp (arranged ▸ entry))

end Table

end QuorumKv.Migration
