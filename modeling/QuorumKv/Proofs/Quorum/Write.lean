import QuorumKv.Quorum.Write

/-! What a write calls and counts: each node at most once, and success only with enough
acknowledgements. -/
namespace QuorumKv.Quorum.Write

/-- Whether success was reported only with enough acknowledgements. -/
def IsEarned (s : Write) : Prop :=
  ∀ found, s.result = some (.ok found) → s.w ≤ s.acked.length

theorem succeeded_iff {result : Option (Except Failure Bool)} :
    result.any Except.isOk = true ↔ ∃ found, result = some (.ok found) := by
  constructor
  · intro ok
    match result, ok with
    | some (.ok found), _ => exact ⟨found, rfl⟩
  · rintro ⟨found, rfl⟩
    rfl

/-- A write calls live mains first and then backups, and keeps the other backups for later. -/
theorem start_calls (key : String) (n w bucket : Nat) (mains backups : List String) :
    ((start key n w bucket mains backups).2 ++
        (start key n w bucket mains backups).1.spare).Sublist (mains ++ backups) ∧
      (start key n w bucket mains backups).1.acked = [] ∧
      (start key n w bucket mains backups).1.w = w ∧
      (start key n w bucket mains backups).1.IsEarned := by
  refine ⟨?_, rfl, rfl, ?_⟩
  · simp only [start]
    split
    · rw [List.append_assoc]
      have rest := List.prefix_iff_eq_append.mp
        (List.take_prefix (n - (mains.take n).length) backups)
      exact (List.take_sublist ..).append (rest.symm ▸ List.Sublist.refl backups)
    · rw [List.append_nil]
      exact (List.take_sublist ..).append (List.drop_sublist ..)
  · intro found ok
    have early (empty : Bool) (refused : Except Failure Bool)
        (said : refused = .error (.noNode bucket)) :
        (if empty then some refused else none) ≠ some (.ok found) := by
      cases empty <;> simp [said]
    exact absurd ok (early _ _ rfl)

theorem isEarned_finish (s : Write) : s.finish.IsEarned := by
  intro found ok
  have same : s.verdict = .ok found := Option.some.inj ok
  unfold verdict at same
  split at same
  · rename_i enough
    exact enough
  · split at same <;> cases same

/-- What an answer does to a write. -/
structure Absorbed (s : Write) (addr : String) (r : Except Failure Bool) (after : Write)
    (calls : List String) : Prop where
  w : after.w = s.w
  earned : after.IsEarned
  acked : after.acked = s.acked ∨ ∃ found, r = .ok found ∧ after.acked = s.acked ++ [addr]
  spare : s.spare = calls ++ after.spare

theorem tally_acked (s : Write) (addr : String) (r : Except Failure Bool) :
    (s.tally addr r).w = s.w ∧ (s.tally addr r).spare = s.spare ∧
      (s.tally addr r).result = s.result ∧ ((s.tally addr r).acked = s.acked ∨
        ∃ found, r = .ok found ∧ (s.tally addr r).acked = s.acked ++ [addr]) := by
  cases r with
  | ok found => exact ⟨rfl, rfl, rfl, .inr ⟨found, rfl, rfl⟩⟩
  | error why => cases why <;> exact ⟨rfl, rfl, rfl, .inl rfl⟩

theorem secondCalls_of_spare (s : Write) : s.secondCalls <+: s.spare := by
  unfold secondCalls
  split
  · exact List.take_prefix ..
  · exact List.nil_prefix

/-- A write that is still open goes on with the backups that it did not call, or ends. -/
theorem advance_calls {s : Write} (open_ : s.result = none) :
    (s.advance).1.w = s.w ∧ (s.advance).1.IsEarned ∧ (s.advance).1.acked = s.acked ∧
      s.spare = (s.advance).2 ++ (s.advance).1.spare := by
  have earned : s.IsEarned := by
    intro found ok
    rw [open_] at ok
    cases ok
  unfold advance
  split
  · exact ⟨rfl, isEarned_finish s, rfl, rfl⟩
  · split
    · exact ⟨rfl, earned, rfl, rfl⟩
    · split
      · exact ⟨rfl, isEarned_finish s, rfl, rfl⟩
      · exact ⟨rfl, earned, rfl, (List.prefix_iff_eq_append.mp (secondCalls_of_spare s)).symm⟩

theorem absorb_absorbed {s : Write} (earned : s.IsEarned) (addr : String)
    (r : Except Failure Bool) :
    Absorbed s addr r (s.absorb addr r).1 (s.absorb addr r).2 := by
  unfold absorb
  split
  · exact ⟨rfl, earned, .inl rfl, rfl⟩
  · rename_i still
    have open_ : s.result = none := by simpa using still
    obtain ⟨w, spare, result, acked⟩ := tally_acked { s with pending := s.pending - 1 } addr r
    obtain ⟨quota, now, kept, called⟩ := advance_calls (result.trans open_)
    refine ⟨quota.trans w, now, ?_, spare.symm.trans called⟩
    rw [kept]
    exact acked

theorem expire_eq (s : Write) (earned : s.IsEarned) :
    s.expire.w = s.w ∧ s.expire.IsEarned ∧ s.expire.acked = s.acked ∧
      s.expire.spare = s.spare := by
  unfold expire
  split
  · exact ⟨rfl, earned, rfl, rfl⟩
  · exact ⟨rfl, isEarned_finish s, rfl, rfl⟩

end QuorumKv.Quorum.Write
