import Mathlib.Data.List.Nodup
import QuorumKv.Proofs.Assoc
import QuorumKv.Text.Order

/-! Sorting texts and dropping repetitions keeps every text. -/
namespace QuorumKv.Text

variable {α : Type} [BEq α] [LawfulBEq α]

theorem mem_eraseReps {x : α} {xs : List α} : x ∈ xs.eraseReps ↔ x ∈ xs := by
  -- what the loop has seen is its current element and the ones that it gathered
  have loop : ∀ (rest : List α) (a : α) (done : List α),
      x ∈ List.eraseRepsBy.loop (· == ·) a rest done ↔ x ∈ done ∨ x = a ∨ x ∈ rest := by
    intro rest
    induction rest with
    | nil =>
      intro a done
      simp [List.eraseRepsBy.loop, or_comm]
    | cons b rest ih =>
      intro a done
      unfold List.eraseRepsBy.loop
      cases same : a == b with
      | true =>
        obtain rfl := beq_iff_eq.mp same
        simp only [ih, List.mem_cons, or_self_left]
      | false =>
        simp only [ih, List.mem_cons, or_assoc]
        exact or_left_comm
  cases xs with
  | nil => exact Iff.rfl
  | cons a rest =>
    rw [List.mem_cons, List.eraseReps, List.eraseRepsBy, loop]
    exact or_iff_right List.not_mem_nil

/-- Of repetitions alone, one is left. -/
theorem eraseReps_of_same {a : α} {xs : List α} (filled : xs ≠ []) (same : ∀ x ∈ xs, x = a) :
    xs.eraseReps = [a] := by
  have loop : ∀ rest : List α, (∀ x ∈ rest, x = a) →
      List.eraseRepsBy.loop (· == ·) a rest [] = [a] := by
    intro rest
    induction rest with
    | nil => exact fun _ => rfl
    | cons b rest ih =>
      intro same
      obtain rfl := same b List.mem_cons_self
      simp only [List.eraseRepsBy.loop, beq_self_eq_true]
      exact ih fun x listed => same x (.tail _ listed)
  cases xs with
  | nil => exact absurd rfl filled
  | cons b rest =>
    obtain rfl := same b List.mem_cons_self
    exact loop rest fun x listed => same x (.tail _ listed)

theorem eraseReps_cons_cons (a b : α) (rest : List α) :
    (a :: b :: rest).eraseReps =
      if a == b then (b :: rest).eraseReps else a :: (b :: rest).eraseReps := by
  have loop : ∀ (rest : List α) (a : α) (done : List α),
      List.eraseRepsBy.loop (· == ·) a rest done =
        done.reverse ++ List.eraseRepsBy.loop (· == ·) a rest [] := by
    intro rest
    induction rest with
    | nil => simp [List.eraseRepsBy.loop]
    | cons c rest ih =>
      intro a done
      unfold List.eraseRepsBy.loop
      cases a == c with
      | true => exact ih a done
      | false =>
        simp only
        rw [ih c (a :: done), ih c [a]]
        simp
  simp only [List.eraseReps, List.eraseRepsBy, List.eraseRepsBy.loop]
  cases same : a == b with
  | true =>
    obtain rfl := beq_iff_eq.mp same
    rfl
  | false => exact loop rest b [a]

/-- In an order, repetitions stand side by side, so that none is left. -/
theorem nodup_eraseReps {le : α → α → Prop} (antisymm : ∀ a b, le a b → le b a → a = b)
    {xs : List α} (ordered : xs.Pairwise le) : xs.eraseReps.Nodup := by
  induction xs with
  | nil => exact .nil
  | cons a rest ih =>
    cases rest with
    | nil => exact List.nodup_cons.mpr ⟨List.not_mem_nil, .nil⟩
    | cons b rest =>
      obtain ⟨first, others⟩ := List.pairwise_cons.mp ordered
      rw [eraseReps_cons_cons]
      cases same : a == b with
      | true => exact ih others
      | false =>
        refine List.nodup_cons.mpr ⟨?_, ih others⟩
        intro again
        rw [mem_eraseReps] at again
        have other : a ≠ b := by simpa using same
        obtain here | later := List.mem_cons.mp again
        · exact other here
        · have back : le b a := (List.pairwise_cons.mp others).1 a later
          exact other (antisymm a b (first b List.mem_cons_self) back)

theorem eraseReps_of_nodup {xs : List α} (nodup : xs.Nodup) : xs.eraseReps = xs := by
  induction xs with
  | nil => rfl
  | cons a rest ih =>
    cases rest with
    | nil => rfl
    | cons b rest =>
      obtain ⟨new, others⟩ := List.nodup_cons.mp nodup
      have other : a ≠ b := fun same => new (same ▸ List.mem_cons_self)
      rw [eraseReps_cons_cons, if_neg (by simpa using other), ih others]

theorem eraseReps_sublist (xs : List α) : xs.eraseReps.Sublist xs := by
  induction xs with
  | nil => exact .slnil
  | cons a rest ih =>
    cases rest with
    | nil => exact .refl _
    | cons b rest =>
      rw [eraseReps_cons_cons]
      split
      · exact ih.cons a
      · exact ih.cons_cons a

theorem ordered_sorted (texts : List String) :
    (sorted texts).Pairwise fun a b => decide (a ≤ b) = true := by
  apply List.pairwise_mergeSort
  · intro a b c ab bc
    exact decide_eq_true (String.le_trans (of_decide_eq_true ab) (of_decide_eq_true bc))
  · intro a b
    simpa using String.le_total a b

theorem sorted_perm (texts : List String) : (sorted texts).Perm texts :=
  List.mergeSort_perm texts _

theorem nodup_sortedSet (texts : List String) : (sortedSet texts).Nodup := by
  refine nodup_eraseReps ?_ (ordered_sorted texts)
  intro a b ab ba
  exact String.le_antisymm (of_decide_eq_true ab) (of_decide_eq_true ba)

theorem ordered_sortedSet (texts : List String) : (sortedSet texts).Pairwise (· ≤ ·) :=
  ((ordered_sorted texts).sublist (eraseReps_sublist _)).imp of_decide_eq_true

/-- A set of texts is in order already. -/
theorem sortedSet_sortedSet (texts : List String) :
    sortedSet (sortedSet texts) = sortedSet texts := by
  have ordered := (ordered_sorted texts).sublist (eraseReps_sublist _)
  have same : sorted (sortedSet texts) = sortedSet texts := List.mergeSort_of_pairwise ordered
  rw [sortedSet, same, eraseReps_of_nodup (nodup_sortedSet texts)]

theorem mem_sortedSet {text : String} {texts : List String} :
    text ∈ sortedSet texts ↔ text ∈ texts := by
  rw [sortedSet, mem_eraseReps, sorted, List.mem_mergeSort]

/-- Fields in the order of their names, no two of one name, stay as they are. -/
theorem sortedFields_of_ordered {β : Type} {fields : List (String × β)}
    (ordered : (fields.map (·.1)).Pairwise (· < ·)) : sortedFields fields = fields := by
  have nodup : (fields.map (·.1)).Nodup := ordered.imp String.ne_of_lt
  have arranged : sorted (fields.map (·.1)) = fields.map (·.1) := by
    apply List.mergeSort_of_pairwise
    exact ordered.imp fun less => decide_eq_true (String.not_lt.mp (String.lt_asymm less))
  have names : sortedSet (fields.map (·.1)) = fields.map (·.1) := by
    rw [sortedSet, arranged, eraseReps_of_nodup nodup]
  have nodup' : (fields.reverse.map (·.1)).Nodup := by
    rw [List.map_reverse]
    exact List.nodup_reverse.mpr nodup
  have itself : ∀ field ∈ fields,
      (fields.reverse.find? fun other => other.1 == field.1) = some field := by
    intro field known
    exact Assoc.find?_of_nodup nodup' (List.mem_reverse.mpr known)
  rw [sortedFields, names, List.filterMap_map]
  exact (List.filterMap_congr itself).trans List.filterMap_some

end QuorumKv.Text
