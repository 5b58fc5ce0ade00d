import Mathlib.Algebra.GroupWithZero.Nat
import Mathlib.Data.List.Basic
import QuorumKv.Buffer

/-! The account of buffers balances. However guards are taken and let go, each shard reads what the
guards that are still held on it come to, so all shards read nothing only when there are none. -/
namespace QuorumKv

open Buffer

namespace Buffer

/-- A number below 2^63 does not wrap. -/
theorem wrap_of_lt {n : Nat} (fits : n < 9223372036854775808) : wrap n = n := by
  apply Int.bmod_eq_of_le <;> omega

/-- The guards on one shard. -/
def on (shard : Shard) (guards : List Guard) : List Guard :=
  guards.filter fun g => g.shard = shard

/-- What a shard reads while these guards are held. -/
def usageOf (shard : Shard) (guards : List Guard) : Usage :=
  ⟨wrap (on shard guards).length, wrap ((on shard guards).map Guard.size).sum⟩

theorem usageOf_nil (shard : Shard) : usageOf shard [] = ⟨0, 0⟩ := by
  have zero : wrap (0 : Nat) = 0 := wrap_of_lt (by decide)
  simp only [usageOf, on, List.filter_nil, List.length_nil, List.map_nil, List.sum_nil, zero]

theorem usageOf_cons (shard : Shard) (g : Guard) (guards : List Guard) :
    usageOf shard (g :: guards) = if g.shard = shard then
      ⟨wrap ((usageOf shard guards).count + 1), wrap ((usageOf shard guards).size + g.size)⟩
      else usageOf shard guards := by
  by_cases here : g.shard = shard
  · have more : on shard (g :: guards) = g :: on shard guards :=
      List.filter_cons_of_pos (by simpa using here)
    rw [if_pos here, usageOf, more, usageOf]
    simp only [wrap, Int.bmod_add_bmod, List.length_cons, List.map_cons, List.sum_cons,
      Int.natCast_add, Int.natCast_one, Int.add_comm (g.size : Int)]
  · have same : on shard (g :: guards) = on shard guards :=
      List.filter_cons_of_neg (by simpa using here)
    rw [if_neg here, usageOf, same, usageOf]

theorem usageOf_perm {guards others : List Guard} (perm : guards.Perm others) (shard : Shard) :
    usageOf shard guards = usageOf shard others := by
  have same : (on shard guards).Perm (on shard others) := perm.filter _
  rw [usageOf, usageOf, same.length_eq, (same.map Guard.size).sum_nat]

end Buffer

namespace Buffers

/-- An account reads what these guards come to, on every shard. -/
def Accounts (b : Buffers) (guards : List Guard) : Prop :=
  ∀ shard, b.usage shard = usageOf shard guards

variable {b : Buffers} {g : Guard} {guards others : List Guard}

theorem accounts_empty : empty.Accounts [] := by
  intro shard
  cases shard <;> rfl

theorem Accounts.perm (accounts : b.Accounts guards) (perm : guards.Perm others) :
    b.Accounts others :=
  fun shard => (accounts shard).trans (usageOf_perm perm shard)

theorem Accounts.hold (accounts : b.Accounts guards) : (b.hold g).Accounts (g :: guards) := by
  intro shard
  rw [Buffers.hold, usage_update, usageOf_cons]
  by_cases here : g.shard = shard
  · subst here
    rw [if_pos rfl, if_pos rfl, accounts]
  · rw [if_neg here, if_neg here, accounts]

theorem Accounts.release (accounts : b.Accounts (g :: guards)) : (b.release g).Accounts guards := by
  intro shard
  have before := accounts shard
  rw [usageOf_cons] at before
  rw [Buffers.release, usage_update]
  by_cases here : g.shard = shard
  · subst here
    rw [if_pos rfl] at before ⊢
    rw [before]
    simp only [usageOf, wrap, Int.bmod_add_bmod, Int.bmod_sub_bmod, Int.add_sub_cancel]
  · rw [if_neg here] at before ⊢
    exact before

/-- While fewer than 2^63 guards are held, no count has come round to nothing again. -/
theorem Accounts.isDrained_iff (accounts : b.Accounts guards)
    (few : guards.length < 9223372036854775808) : b.isDrained = true ↔ guards = [] := by
  constructor
  · intro drained
    rw [List.eq_nil_iff_forall_not_mem]
    intro g listed
    -- The shard of a guard counts one guard at least.
    have nothing : b.usage g.shard = ⟨0, 0⟩ := by
      have each := List.all_eq_true.mp drained g.shard (by cases g.shard <;> decide)
      exact eq_of_beq each
    rw [accounts, usageOf, Usage.mk.injEq] at nothing
    obtain ⟨count, -⟩ := nothing
    have here : g ∈ on g.shard guards := List.mem_filter.mpr ⟨listed, by simp⟩
    have fits : (on g.shard guards).length < 9223372036854775808 :=
      Nat.lt_of_le_of_lt (List.length_filter_le ..) few
    rw [wrap_of_lt fits, Int.natCast_eq_zero, List.length_eq_zero_iff] at count
    exact List.ne_nil_of_mem here count
  · rintro rfl
    apply List.all_eq_true.mpr
    intro shard _
    rw [accounts, usageOf_nil]
    exact beq_self_eq_true _

end Buffers

namespace Buffer.Ledger

inductive Deed where
  | hold (g : Guard)
  /-- Lets the guard with this number go. -/
  | drop (i : Nat)

def perform (l : Ledger) : Deed → Ledger
  | .hold g => l.hold g
  | .drop i => l.drop i

def after (l : Ledger) (deeds : List Deed) : Ledger :=
  deeds.foldl perform l

/-- A ledger reads what its guards come to. -/
def IsBalanced (l : Ledger) : Prop :=
  l.buffers.Accounts l.outstanding

variable {l : Ledger}

theorem isBalanced_hold (g : Guard) (balanced : l.IsBalanced) : (l.hold g).IsBalanced := by
  have perm : (g :: l.outstanding).Perm (l.hold g).outstanding := by
    rw [Ledger.hold, outstanding, outstanding, List.filterMap_append]
    exact (List.perm_append_singleton ..).symm
  exact Buffers.Accounts.perm (Buffers.Accounts.hold balanced) perm

/-- Letting a guard go takes it, and it alone, out of what is held. -/
theorem outstanding_set {i : Nat} {g : Guard} (there : l.guards[i]? = some (some g)) :
    l.outstanding.Perm (g :: (l.guards.set i none).filterMap id) := by
  obtain ⟨inside, known⟩ := List.getElem?_eq_some_iff.mp there
  have split : l.guards = l.guards.take i ++ some g :: l.guards.drop (i + 1) := by
    rw [← known, List.getElem_cons_drop, List.take_append_drop]
  rw [List.set_eq_take_append_cons_drop, if_pos inside, outstanding, split]
  simp only [List.filterMap_append, List.filterMap_cons, id_eq]
  rw [← split]
  exact List.perm_middle

theorem isBalanced_drop (i : Nat) (balanced : l.IsBalanced) : (l.drop i).IsBalanced := by
  unfold drop
  split
  · rename_i g there
    exact Buffers.Accounts.release (Buffers.Accounts.perm balanced (outstanding_set there))
  · exact balanced

theorem isBalanced_perform (deed : Deed) (balanced : l.IsBalanced) :
    (l.perform deed).IsBalanced := by
  cases deed with
  | hold g => exact isBalanced_hold g balanced
  | drop i => exact isBalanced_drop i balanced

theorem isBalanced_after (deeds : List Deed) (balanced : l.IsBalanced) :
    (l.after deeds).IsBalanced := by
  induction deeds generalizing l with
  | nil => exact balanced
  | cons deed rest ih => exact ih (isBalanced_perform deed balanced)

end Buffer.Ledger

end QuorumKv
