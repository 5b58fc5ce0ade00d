/-! Maps as lists of pairs, in the order in which their keys first came. -/
namespace QuorumKv

abbrev Assoc (α β : Type) := List (α × β)

namespace Assoc

variable {α β γ : Type} [DecidableEq α]

def get? (m : Assoc α β) (a : α) : Option β :=
  match m with
  | [] => none
  | (k, b) :: rest => if k = a then some b else get? rest a

/-- The value under `a` becomes `b`; a new key goes to the end. -/
def put (m : Assoc α β) (a : α) (b : β) : Assoc α β :=
  match m with
  | [] => [(a, b)]
  | (k, c) :: rest => if k = a then (a, b) :: rest else (k, c) :: put rest a b

def erase (m : Assoc α β) (a : α) : Assoc α β :=
  m.filter fun (k, _) => k ≠ a

def keys (m : Assoc α β) : List α :=
  m.map (·.1)

def contains (m : Assoc α β) (a : α) : Bool :=
  (m.get? a).isSome

/-- The entries of some keys in the order given, each key once. -/
def inOrder (m : Assoc α β) : List α → List (α × β)
  | [] => []
  | a :: as =>
    match m.get? a with
    | some b => (a, b) :: inOrder (m.erase a) as
    | none => inOrder m as

theorem get?_put (m : Assoc α β) (a : α) (b : β) (x : α) :
    (m.put a b).get? x = if a = x then some b else m.get? x := by
  induction m with
  | nil => simp [put, get?]
  | cons p rest ih =>
    obtain ⟨k, c⟩ := p
    by_cases hk : k = a
    · subst hk
      by_cases hx : k = x <;> simp [put, get?, hx]
    · by_cases hx : k = x
      · subst hx
        have ha : ¬ a = k := fun h => hk h.symm
        simp [put, get?, hk, ha]
      · simp [put, get?, hk, hx, ih]

theorem keys_put (m : Assoc α β) (a : α) (b : β) :
    (m.put a b).keys = if a ∈ m.keys then m.keys else m.keys ++ [a] := by
  induction m with
  | nil => simp [put, keys]
  | cons p rest ih =>
    obtain ⟨k, c⟩ := p
    by_cases hk : k = a
    · simp [put, keys, hk]
    · have ha : ¬ a = k := fun h => hk h.symm
      simp only [keys, put, hk, if_false, List.map_cons, List.mem_cons, ha, false_or] at ih ⊢
      rw [ih]
      split <;> simp_all

theorem get?_isSome_iff (m : Assoc α β) (a : α) : (m.get? a).isSome ↔ a ∈ m.keys := by
  induction m with
  | nil => simp [get?, keys]
  | cons p rest ih =>
    obtain ⟨k, c⟩ := p
    by_cases hk : k = a
    · simp [get?, keys, hk]
    · have ha : ¬ a = k := fun h => hk h.symm
      simp only [keys, get?, hk, if_false, List.map_cons, List.mem_cons, ha, false_or] at ih ⊢
      exact ih

end Assoc

end QuorumKv
