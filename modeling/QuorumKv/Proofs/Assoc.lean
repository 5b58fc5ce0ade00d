import QuorumKv.Assoc

/-! What holds of every entry of a map still does after an entry was put or erased. -/
namespace QuorumKv.Assoc

variable {α β : Type} [DecidableEq α]

theorem get?_erase (m : Assoc α β) (a x : α) :
    (m.erase a).get? x = if a = x then none else m.get? x := by
  induction m with
  | nil => simp [erase, get?]
  | cons p rest ih =>
    obtain ⟨k, b⟩ := p
    simp only [erase] at ih ⊢
    by_cases gone : k = a
    · subst gone
      rw [List.filter_cons_of_neg (by simp), ih]
      by_cases same : k = x <;> simp [get?, same]
    · rw [List.filter_cons_of_pos (by simpa using gone)]
      by_cases same : k = x
      · subst same
        simp [get?, Ne.symm gone]
      · rw [get?, if_neg same, get?, if_neg same, ih]

theorem get?_put_self (m : Assoc α β) (a : α) (b : β) : (m.put a b).get? a = some b := by
  rw [get?_put, if_pos rfl]

theorem get?_put_ne (m : Assoc α β) {a x : α} (b : β) (other : a ≠ x) :
    (m.put a b).get? x = m.get? x := by
  rw [get?_put, if_neg other]

theorem mem_keys_put {m : Assoc α β} {a x : α} {b : β} :
    x ∈ (m.put a b).keys ↔ a = x ∨ x ∈ m.keys := by
  rw [← get?_isSome_iff, ← get?_isSome_iff, get?_put]
  split <;> simp_all

/-- After some entries that follow a rule were put, their keys have what the rule gives them. -/
theorem get?_foldl_put {rule : α → Option β} {entries : List (α × β)} (m : Assoc α β)
    (follow : ∀ a b, (a, b) ∈ entries → rule a = some b) (x : α) :
    (entries.foldl (fun m (a, b) => m.put a b) m).get? x =
      if x ∈ entries.map (·.1) then rule x else m.get? x := by
  induction entries generalizing m with
  | nil => rfl
  | cons entry rest ih =>
    obtain ⟨a, b⟩ := entry
    have first : rule a = some b := follow a b List.mem_cons_self
    rw [List.foldl_cons, ih (m.put a b) fun a b listed => follow a b (.tail _ listed)]
    by_cases later : x ∈ rest.map (·.1)
    · rw [if_pos later, if_pos (.tail _ later)]
    · rw [if_neg later, get?_put]
      by_cases here : a = x
      · subst here
        rw [if_pos rfl, if_pos (by simp), first]
      · have absent : x ∉ ((a, b) :: rest).map (·.1) := by
          rw [List.map_cons, List.mem_cons, not_or]
          exact ⟨Ne.symm here, later⟩
        rw [if_neg here, if_neg absent]

theorem eraseDups_filter (p : α → Bool) (keys : List α) :
    (keys.filter p).eraseDups = keys.eraseDups.filter p := by
  match keys with
  | [] => rfl
  | a :: rest =>
    have fewer : (rest.filter fun b => !b == a).length < (a :: rest).length :=
      Nat.lt_succ_of_le (List.length_filter_le ..)
    have later := eraseDups_filter p (rest.filter fun b => !b == a)
    have swap : (rest.filter p).filter (fun b => !b == a) =
        (rest.filter fun b => !b == a).filter p := by
      rw [List.filter_filter, List.filter_filter]
      exact List.filter_congr fun b _ => Bool.and_comm ..
    by_cases chosen : p a = true
    · rw [List.filter_cons_of_pos chosen, List.eraseDups_cons, List.eraseDups_cons,
        List.filter_cons_of_pos chosen, swap, later]
    · have same : rest.filter p = (rest.filter fun b => !b == a).filter p := by
        rw [List.filter_filter]
        apply List.filter_congr
        intro b _
        by_cases here : b = a
        · subst here
          simp [chosen]
        · simp [here]
      rw [List.filter_cons_of_neg chosen, List.eraseDups_cons, List.filter_cons_of_neg chosen, same,
        later]
termination_by keys.length
decreasing_by exact fewer

/-- The entries of some keys, in the order in which the keys first came. -/
theorem inOrder_eq (m : Assoc α β) (keys : List α) :
    m.inOrder keys = keys.eraseDups.filterMap fun a => (m.get? a).map (a, ·) := by
  induction keys generalizing m with
  | nil => rfl
  | cons a rest ih =>
    rw [List.eraseDups_cons, eraseDups_filter, List.filterMap_cons, List.filterMap_filter, inOrder]
    cases known : m.get? a with
    | some b =>
      have others : ∀ x, (if (!x == a) = true then (m.get? x).map (x, ·) else none) =
          ((m.erase a).get? x).map (x, ·) := by
        intro x
        rw [get?_erase]
        by_cases here : a = x
        · simp [here]
        · simp [here, Ne.symm here]
      simp only [others, Option.map_some]
      rw [← ih]
    | none =>
      have others : ∀ x, (if (!x == a) = true then (m.get? x).map (x, ·) else none) =
          (m.get? x).map (x, ·) := by
        intro x
        by_cases here : x = a
        · simp [here, known]
        · simp [here]
      simp only [others, Option.map_none]
      rw [← ih]

/-- In a map that has each key once, every entry can be looked up. -/
theorem get?_of_mem {m : Assoc α β} {a : α} {b : β} (nodup : m.keys.Nodup)
    (listed : (a, b) ∈ m) : m.get? a = some b := by
  induction m with
  | nil => cases listed
  | cons p rest ih =>
    obtain ⟨k, c⟩ := p
    obtain ⟨new, others⟩ := List.nodup_cons.mp nodup
    obtain same | later := List.mem_cons.mp listed
    · cases same
      exact if_pos rfl
    · have other : ¬k = a := by
        rintro rfl
        exact new (List.mem_map.mpr ⟨(k, b), later, rfl⟩)
      rw [get?, if_neg other]
      exact ih others later

/-- Of pairs with different keys, the first one with a key is the only one. -/
theorem find?_of_nodup {entries : List (α × β)} (nodup : (entries.map (·.1)).Nodup) {entry : α × β}
    (known : entry ∈ entries) :
    (entries.find? fun other => other.1 == entry.1) = some entry := by
  induction entries with
  | nil => cases known
  | cons first rest ih =>
    rw [List.map_cons] at nodup
    obtain ⟨new, others⟩ := List.nodup_cons.mp nodup
    rw [List.find?_cons]
    obtain rfl | later := List.mem_cons.mp known
    · rw [beq_self_eq_true]
    · have different : first.1 ≠ entry.1 := by
        intro same
        rw [same] at new
        exact new (List.mem_map_of_mem later)
      rw [beq_eq_false_iff_ne.mpr different]
      exact ih others later

theorem mem_of_get? {m : Assoc α β} {a : α} {b : β} (known : m.get? a = some b) :
    (a, b) ∈ m := by
  induction m with
  | nil => cases known
  | cons p rest ih =>
    obtain ⟨k, c⟩ := p
    unfold get? at known
    split at known
    · rename_i same
      obtain rfl := Option.some.inj known
      exact same ▸ List.mem_cons_self
    · exact .tail _ (ih known)

theorem erase_of_absent {m : Assoc α β} {a : α} (absent : a ∉ m.keys) : m.erase a = m := by
  apply List.filter_eq_self.mpr
  rintro ⟨k, b⟩ listed
  have other : k ≠ a := by
    rintro rfl
    exact absent (List.mem_map.mpr ⟨(k, b), listed, rfl⟩)
  simpa using other

theorem nodup_put {m : Assoc α β} (nodup : m.keys.Nodup) (a : α) (b : β) :
    (m.put a b).keys.Nodup := by
  rw [keys_put]
  split
  · exact nodup
  · rename_i absent
    exact (List.perm_append_singleton ..).nodup_iff.mpr (List.nodup_cons.mpr ⟨absent, nodup⟩)

theorem nodup_erase {m : Assoc α β} (nodup : m.keys.Nodup) (a : α) : (m.erase a).keys.Nodup :=
  nodup.sublist (List.filter_sublist.map _)

/-- An entry that is put stands beside those of the other keys. -/
theorem perm_put {m : Assoc α β} (nodup : m.keys.Nodup) (a : α) (b : β) :
    (m.put a b).Perm ((a, b) :: m.erase a) := by
  induction m with
  | nil => exact .refl _
  | cons p rest ih =>
    obtain ⟨k, c⟩ := p
    obtain ⟨new, others⟩ := List.nodup_cons.mp nodup
    by_cases here : k = a
    · subst here
      have gone : erase ((k, c) :: rest) k = rest :=
        (List.filter_cons_of_neg (by simp)).trans (erase_of_absent new)
      rw [gone, put, if_pos rfl]
    · have stays : erase ((k, c) :: rest) a = (k, c) :: erase rest a :=
        List.filter_cons_of_pos (by simpa using here)
      rw [stays, put, if_neg here]
      exact ((ih others).cons _).trans (.swap ..)

theorem put_same {m : Assoc α β} {a : α} {b : β} (known : m.get? a = some b) : m.put a b = m := by
  induction m with
  | nil => cases known
  | cons p rest ih =>
    obtain ⟨k, c⟩ := p
    by_cases here : k = a
    · subst here
      rw [get?, if_pos rfl, Option.some.injEq] at known
      rw [put, if_pos rfl, known]
    · rw [get?, if_neg here] at known
      rw [put, if_neg here, ih known]

/-- Every entry of a map. -/
def All (m : Assoc α β) (P : α → β → Prop) : Prop :=
  ∀ a b, m.get? a = some b → P a b

variable {P Q : α → β → Prop} {m : Assoc α β}

instance [∀ a b, Decidable (P a b)] : Decidable (m.All P) :=
  decidable_of_iff (∀ entry ∈ m, ∀ b ∈ m.get? entry.1, P entry.1 b) <| by
    constructor
    · exact fun each a b known => each (a, b) (mem_of_get? known) b known
    · exact fun all entry _ b known => all entry.1 b known

theorem All.imp (all : m.All P) (weaker : ∀ a b, m.get? a = some b → P a b → Q a b) : m.All Q :=
  fun a b known => weaker a b known (all a b known)

theorem All.put {a : α} {b : β} (all : m.All P) (new : P a b) : (m.put a b).All P := by
  intro x y known
  rw [get?_put] at known
  split at known
  · rename_i same
    rw [← same, ← Option.some.inj known]
    exact new
  · exact all x y known

theorem All.erase {a : α} (all : m.All P) : (m.erase a).All P := by
  intro x y known
  rw [get?_erase] at known
  split at known
  · cases known
  · exact all x y known

/-- An entry goes, or another takes its place. -/
theorem All.replace {a : α} {b : β} {m' : Assoc α β} (all : m.All P)
    (replaced : m' = m.erase a ∨ m' = m.put a b) (new : P a b) : m'.All P := by
  obtain rfl | rfl := replaced
  · exact all.erase
  · exact all.put new

end QuorumKv.Assoc
