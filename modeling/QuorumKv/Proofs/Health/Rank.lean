import QuorumKv.Health.Monitor

/-! The order in which the nodes of a bucket are asked. -/
namespace QuorumKv.Health.Monitor

theorem comesFirst_iff {a b : Int × String} :
    comesFirst a b = true ↔ a.1 < b.1 ∨ a.1 = b.1 ∧ a.2 ≤ b.2 := by
  simp only [comesFirst, Bool.or_eq_true, Bool.and_eq_true, decide_eq_true_eq, beq_iff_eq]

theorem comesFirst_trans (a b c : Int × String) (first : comesFirst a b = true)
    (second : comesFirst b c = true) : comesFirst a c = true := by
  rw [comesFirst_iff] at first second ⊢
  obtain lower | ⟨same, before⟩ := first
  · obtain still | ⟨equal, -⟩ := second
    · exact .inl (Int.lt_trans lower still)
    · exact .inl (equal ▸ lower)
  · rw [same]
    exact second.imp id fun ⟨equal, later⟩ => ⟨equal, String.le_trans before later⟩

theorem comesFirst_total (a b : Int × String) : (comesFirst a b || comesFirst b a) = true := by
  rw [Bool.or_eq_true, comesFirst_iff, comesFirst_iff]
  obtain lower | same | higher := Int.lt_trichotomy a.1 b.1
  · exact .inl (.inl lower)
  · exact (String.le_total a.2 b.2).imp (fun le => .inr ⟨same, le⟩) fun le => .inr ⟨same.symm, le⟩
  · exact .inr (.inl higher)

/-- The routable nodes are asked in the order of their scores, and in text order where these are
equal. -/
theorem rank_sorted (m : Monitor) (addrs : List String) (now : Nat) :
    (m.rank addrs now).Perm (m.live addrs now) ∧
      (m.rank addrs now).Pairwise fun a b =>
        comesFirst (m.score a now, a) (m.score b now, b) = true := by
  let scored := (m.live addrs now).map fun addr => (m.score addr now, addr)
  have perm : (scored.mergeSort comesFirst).Perm scored := List.mergeSort_perm ..
  have scores : ∀ a ∈ scored.mergeSort comesFirst, a = (m.score a.2 now, a.2) := by
    intro a listed
    obtain ⟨addr, -, rfl⟩ := List.mem_map.mp (perm.mem_iff.mp listed)
    rfl
  constructor
  · have nodes := perm.map (·.2)
    simp only [scored, List.map_map, Function.comp_def, List.map_id'] at nodes
    exact nodes
  · have sorted : (scored.mergeSort comesFirst).Pairwise fun a b => comesFirst a b = true :=
      List.pairwise_mergeSort comesFirst_trans comesFirst_total scored
    refine List.pairwise_map.mpr (sorted.imp_of_mem fun here there before => ?_)
    rwa [← scores _ here, ← scores _ there]

/-- Among nodes that are equally healthy only the text order counts. -/
theorem rank_of_even {m : Monitor} {addrs : List String} {now : Nat}
    (even : ∀ a ∈ addrs, ∀ b ∈ addrs, m.score a now = m.score b now)
    (ordered : addrs.Pairwise (· ≤ ·)) : m.rank addrs now = m.live addrs now := by
  obtain ⟨perm, sorted⟩ := m.rank_sorted addrs now
  have inside : ∀ a ∈ m.rank addrs now, a ∈ addrs :=
    fun a listed => (List.mem_filter.mp (perm.mem_iff.mp listed)).1
  have text_order : (m.rank addrs now).Pairwise (· ≤ ·) := by
    refine sorted.imp_of_mem fun {a b} here there before => ?_
    obtain lower | ⟨-, le⟩ := comesFirst_iff.mp before
    · exact absurd lower (even a (inside a here) b (inside b there) ▸ Int.lt_irrefl _)
    · exact le
  exact perm.eq_of_pairwise (fun _ _ _ _ => String.le_antisymm) text_order
    (ordered.sublist List.filter_sublist)

end QuorumKv.Health.Monitor
