import QuorumKv.Revision

/-! The arithmetic of revisions, and the newest of several records: which one it is depends on what
is there, not on the order in which it came. -/
namespace QuorumKv.Revision

theorem ext_val {a b : Revision} (same : a.val = b.val) : a = b := by
  cases a
  cases b
  simp only at same
  simp only [same]

theorem magnitude_le_of_not_tombstone {r : Revision} (live : ¬r.isTombstone = true) :
    r.magnitude ≤ 9223372036854775807 := by
  have high := r.le_greatest
  simp only [greatest] at high
  simp only [isTombstone, decide_eq_true_eq] at live
  simp only [magnitude]
  omega

theorem next_val (stored : Revision) :
    (next (some stored)).val = min (stored.magnitude + 1) 9223372036854775807 := by
  simp only [next, abs, clamp, least, greatest]
  omega

theorem next_magnitude (stored : Revision) :
    (next (some stored)).magnitude = min (stored.magnitude + 1) 9223372036854775807 := by
  rw [magnitude, next_val]
  omega

theorem next_not_tombstone (stored : Option Revision) : (next stored).isTombstone = false := by
  cases stored with
  | none => rfl
  | some stored =>
    rw [isTombstone, next_val, decide_eq_false_iff_not]
    omega

theorem tombstone_val (current : Revision) :
    (tombstone current).val =
      -min (max (min current.magnitude 9223372036854775807) 1 + 1) 9223372036854775807 := by
  simp only [tombstone, abs, clamp, least, greatest]
  omega

theorem tombstone_magnitude (current : Revision) :
    (tombstone current).magnitude =
      min (max (min current.magnitude 9223372036854775807) 1 + 1) 9223372036854775807 := by
  rw [magnitude, tombstone_val]
  omega

theorem tombstone_isTombstone (current : Revision) : (tombstone current).isTombstone = true := by
  rw [isTombstone, tombstone_val, decide_eq_true_eq]
  omega

/-- What becomes of a write under a revision of its own. -/
theorem resolve_explicit {stored : Option Revision} {requested : Revision}
    (explicit : requested ≠ auto) :
    resolve stored requested =
      match stored with
      | none => .store requested
      | some held =>
        if held.magnitude < requested.magnitude then .store requested
        else if held.magnitude = requested.magnitude then .duplicate
        else .stale held := by
  cases stored with
  | none => simp only [resolve, if_neg explicit]
  | some held =>
    simp only [resolve, if_neg explicit, compare]
    rcases Nat.lt_trichotomy held.magnitude requested.magnitude with newer | same | older
    · rw [if_pos newer, Nat.compare_eq_gt.mpr newer]
    · rw [if_neg (by omega), if_pos same, Nat.compare_eq_eq.mpr same.symm]
    · rw [if_neg (by omega), if_neg (by omega), Nat.compare_eq_lt.mpr older]

/-- Whether a revision is newer than another, or both are as new as a revision can be. -/
def Outgrows (new old : Revision) : Prop :=
  old.magnitude < new.magnitude ∨ (old.magnitude : Int) = greatest ∧ (new.magnitude : Int) = greatest

theorem Outgrows.trans {a b c : Revision} (later : c.Outgrows b) (earlier : b.Outgrows a) :
    c.Outgrows a := by
  unfold Outgrows at *
  omega

/-- Two revisions compare equal only where none is newer. -/
theorem Outgrows.greatest_of_eq {new old : Revision} (grown : new.Outgrows old)
    (equal : old.compare new = .eq) : (old.magnitude : Int) = greatest := by
  have same : old.magnitude = new.magnitude := Nat.compare_eq_eq.mp equal
  unfold Outgrows at grown
  omega

theorem next_outgrows {stored : Revision} (bounded : stored.magnitude ≤ 9223372036854775807) :
    (next (some stored)).Outgrows stored := by
  simp only [Outgrows, next_magnitude, greatest]
  omega

theorem tombstone_outgrows {current : Revision}
    (bounded : current.magnitude ≤ 9223372036854775807) :
    current.tombstone.Outgrows current := by
  simp only [Outgrows, tombstone_magnitude, greatest]
  omega

variable {α : Type} {rev : α → Revision}

/-- The winner is one of the records, and none of them is newer. -/
theorem foldl_newer (best : Option α) (xs : List α) :
    (xs.foldl (newer rev) best = none ↔ best = none ∧ xs = []) ∧
    ∀ x, xs.foldl (newer rev) best = some x → (best = some x ∨ x ∈ xs) ∧
      (∀ b, best = some b → (rev b).magnitude ≤ (rev x).magnitude) ∧
      ∀ y ∈ xs, (rev y).magnitude ≤ (rev x).magnitude := by
  induction xs generalizing best with
  | nil =>
    refine ⟨by simp, fun x won => ⟨.inl won, fun b same => ?_, by simp⟩⟩
    obtain rfl := Option.some.inj (same.symm.trans won)
    exact Nat.le_refl _
  | cons y ys ih =>
    obtain ⟨absent, present⟩ := ih (newer rev best y)
    have kept : ∃ z, newer rev best y = some z ∧ (best = some z ∨ z = y) ∧
        (∀ b, best = some b → (rev b).magnitude ≤ (rev z).magnitude) ∧
        (rev y).magnitude ≤ (rev z).magnitude := by
      cases best with
      | none => exact ⟨y, rfl, .inr rfl, by simp, Nat.le_refl _⟩
      | some b =>
        by_cases older : (rev b).magnitude < (rev y).magnitude
        · refine ⟨y, by simp [newer, older], .inr rfl, ?_, Nat.le_refl _⟩
          intro c same
          obtain rfl := Option.some.inj same
          exact Nat.le_of_lt older
        · refine ⟨b, by simp [newer, older], .inl rfl, ?_, Nat.not_lt.mp older⟩
          intro c same
          obtain rfl := Option.some.inj same
          exact Nat.le_refl _
    obtain ⟨z, chosen, origin, covers, above⟩ := kept
    rw [List.foldl_cons]
    constructor
    · rw [absent, chosen]
      simp
    · intro x won
      obtain ⟨source, first, others⟩ := present x won
      have least : (rev z).magnitude ≤ (rev x).magnitude := first z chosen
      refine ⟨?_, fun b same => Nat.le_trans (covers b same) least, ?_⟩
      · obtain same | later := source
        · obtain rfl := Option.some.inj (chosen.symm.trans same)
          obtain old | rfl := origin
          · exact .inl old
          · exact .inr List.mem_cons_self
        · exact .inr (.tail _ later)
      · intro w listed
        obtain rfl | later := List.mem_cons.mp listed
        · exact Nat.le_trans above least
        · exact others w later

/-- What beats the first record is newer than it. -/
theorem foldl_newer_first {b x : α} {xs : List α} (won : xs.foldl (newer rev) (some b) = some x) :
    x = b ∨ (rev b).magnitude < (rev x).magnitude := by
  induction xs generalizing b with
  | nil => exact .inl (Option.some.inj won).symm
  | cons y ys ih =>
    rw [List.foldl_cons] at won
    by_cases newer_y : (rev b).magnitude < (rev y).magnitude
    · rw [newer, if_pos newer_y] at won
      obtain rfl | above := ih won
      · exact .inr newer_y
      · exact .inr (Nat.lt_trans newer_y above)
    · rw [newer, if_neg newer_y] at won
      exact ih won

/-- Order and repetition do not matter, as long as no two records are equally new. -/
theorem foldl_newer_congr {best : Option α} {xs ys : List α} (same : ∀ x, x ∈ xs ↔ x ∈ ys)
    (unique : ∀ x ∈ xs, ∀ y ∈ xs, (rev x).magnitude = (rev y).magnitude → x = y) :
    xs.foldl (newer rev) best = ys.foldl (newer rev) best := by
  obtain ⟨absent, present⟩ := @foldl_newer α rev best xs
  obtain ⟨absent', present'⟩ := @foldl_newer α rev best ys
  cases won : xs.foldl (newer rev) best with
  | none =>
    obtain ⟨nothing, rfl⟩ := absent.mp won
    have empty : ys = [] := List.eq_nil_iff_forall_not_mem.mpr fun y listed =>
      List.not_mem_nil ((same y).mpr listed)
    exact (absent'.mpr ⟨nothing, empty⟩).symm
  | some x =>
    cases won' : ys.foldl (newer rev) best with
    | none =>
      obtain ⟨nothing, rfl⟩ := absent'.mp won'
      have empty : xs = [] := List.eq_nil_iff_forall_not_mem.mpr fun y listed =>
        List.not_mem_nil ((same y).mp listed)
      rw [absent.mpr ⟨nothing, empty⟩] at won
      cases won
    | some y =>
      obtain ⟨source, first, covers⟩ := present x won
      obtain ⟨source', first', covers'⟩ := present' y won'
      have le : (rev x).magnitude ≤ (rev y).magnitude := by
        obtain start | listed := source
        · exact first' x start
        · exact covers' x ((same x).mp listed)
      have ge : (rev y).magnitude ≤ (rev x).magnitude := by
        obtain start | listed := source'
        · exact first y start
        · exact covers y ((same y).mpr listed)
      -- a record that was there first wins against all that are equally new
      have kept {b : α} (start : best = some b) (equal : (rev b).magnitude = (rev x).magnitude) :
          x = y := by
        subst start
        have beaten := foldl_newer_first won
        have beaten' := foldl_newer_first won'
        have stays : x = b := beaten.resolve_right (by omega)
        have stays' : y = b := beaten'.resolve_right (by omega)
        rw [stays, stays']
      congr 1
      obtain start | listed := source
      · exact kept start rfl
      · obtain start | listed' := source'
        · exact kept start (Nat.le_antisymm ge le)
        · exact unique x listed y ((same y).mpr listed') (Nat.le_antisymm le ge)

theorem latest_eq_none (xs : List α) : latest rev xs = none ↔ xs = [] := by
  rw [latest, (foldl_newer none xs).1]
  simp

theorem latest_mem {xs : List α} {x : α} (won : latest rev xs = some x) :
    x ∈ xs ∧ ∀ y ∈ xs, (rev y).magnitude ≤ (rev x).magnitude := by
  obtain ⟨source, -, covers⟩ := (foldl_newer none xs).2 x won
  obtain absurd_source | listed := source
  · cases absurd_source
  · exact ⟨listed, covers⟩

/-- A record that nothing after it beats wins. -/
theorem latest_cons {x : α} {ys : List α}
    (above : ∀ y ∈ ys, (rev y).magnitude ≤ (rev x).magnitude) : latest rev (x :: ys) = some x := by
  have still : ys.foldl (newer rev) (some x) = some x := by
    induction ys with
    | nil => rfl
    | cons y rest ih =>
      have older : ¬(rev x).magnitude < (rev y).magnitude := Nat.not_lt.mpr (above y (by simp))
      rw [List.foldl_cons, newer, if_neg older]
      exact ih fun z listed => above z (.tail _ listed)
  exact still

end QuorumKv.Revision
