/-! Sums of numbers. -/
namespace QuorumKv

def total : List Nat → Nat
  | [] => 0
  | n :: ns => n + total ns

theorem total_append (ns ms : List Nat) : total (ns ++ ms) = total ns + total ms := by
  induction ns with
  | nil => simp [total]
  | cons n ns ih => simp only [List.cons_append, total, ih]; omega

end QuorumKv
