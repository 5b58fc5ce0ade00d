import QuorumKv.Node.Web
import QuorumKv.Proofs.Node.Exchange
import QuorumKv.Proofs.Store.Change

/-! What an accepted set says about its key: the record is live and has the revision that was told.
There is one exception. A tombstone of just the magnitude that the item asks for is as new as the
item, so it stays, and the set is accepted as a duplicate. -/
namespace QuorumKv

/-- Only what asks for a revision of its own can be a duplicate. -/
theorem Revision.resolve_duplicate {stored : Option Revision} {requested : Revision}
    (decided : resolve stored requested = .duplicate) :
    requested ≠ auto ∧ ∃ held, stored = some held ∧ held.magnitude = requested.magnitude := by
  have explicit : requested ≠ auto := by
    rintro rfl
    simp [resolve] at decided
  rw [resolve_explicit explicit] at decided
  cases stored with
  | none => cases decided
  | some held =>
    simp only at decided
    split at decided
    · cases decided
    · split at decided
      · exact ⟨explicit, held, rfl, ‹_›⟩
      · cases decided

namespace Store

/-- Whether the key has a live record under this revision. -/
def IsLiveAt (s : Store) (key : String) (rev : Revision) : Prop :=
  ∃ r, s.record? key = some r ∧ r.isLive = true ∧ r.rev = rev

/-- Whether the key has a tombstone that is as new as this revision. -/
def IsBuriedAt (s : Store) (key : String) (rev : Revision) : Prop :=
  ∃ r, s.record? key = some r ∧ r.isLive = false ∧ r.rev.magnitude = rev.magnitude

variable {s : Store} {key : String} {item : Item} {now : Nat} {rev : Revision}

/-- A set is accepted in two ways: the item is written, or a record that is as new stays. -/
theorem set_ok_cases (ok : (s.set key item now).1 = .ok rev) :
    (Grants (s.record? key) item rev ∧ (s.set key item now).2 = s.write key item rev now) ∨
    (rev = item.rev ∧ 0 < rev.val ∧ (s.set key item now).2 = s ∧
      ∃ r, s.record? key = some r ∧ r.rev.magnitude = rev.magnitude) := by
  unfold set at ok ⊢
  split at ok
  · cases ok
  · rename_i live
    rw [if_neg live]
    simp only [Bool.not_eq_true] at live
    cases decided : Revision.resolve ((s.record? key).map Record.rev) item.rev with
    | store granted =>
      rw [decided] at ok
      obtain rfl := Except.ok.inj ok
      exact .inl ⟨⟨live, decided⟩, rfl⟩
    | duplicate =>
      rw [decided] at ok
      obtain rfl := Except.ok.inj ok
      obtain ⟨explicit, held, stored, equal⟩ := Revision.resolve_duplicate decided
      obtain ⟨r, there, rfl⟩ := Option.map_eq_some_iff.mp stored
      have some_revision : item.rev.val ≠ 0 := fun zero => explicit (Revision.ext_val zero)
      simp only [Revision.isTombstone, decide_eq_false_iff_not] at live
      exact .inr ⟨rfl, by omega, rfl, r, there, equal⟩
    | stale held =>
      rw [decided] at ok
      cases ok

/-- A set is not granted over a tombstone that is as new. -/
theorem Grants.not_buried (grants : Grants (s.record? key) item rev) :
    ¬s.IsBuriedAt key item.rev := by
  rintro ⟨r, held, dead, equal⟩
  have negative : r.rev.val < 0 := by simpa [Record.isLive, Revision.isTombstone] using dead
  have explicit : item.rev ≠ .auto := by
    intro auto
    rw [auto] at equal
    simp only [Revision.magnitude, Revision.auto] at equal
    omega
  have decided := grants.decided
  rw [Revision.resolve_explicit explicit, held, Option.map_some] at decided
  simp [equal] at decided

theorem isLiveAt_write (grants : Grants (s.record? key) item rev) :
    (s.write key item rev now).IsLiveAt key rev := by
  obtain ⟨r, there, rfl, -⟩ := record?_write_self s key item rev now
  have positive := grants.positive
  have live : r.isLive = true := by
    simp only [Record.isLive, Revision.isTombstone, Bool.not_eq_true', decide_eq_false_iff_not]
    omega
  exact ⟨r, there, live, rfl⟩

/-- Of two revisions that are equally new, a positive one and that of a live record are one. -/
theorem isLiveAt_of_magnitude {r : Record} (there : s.record? key = some r)
    (equal : r.rev.magnitude = rev.magnitude) (positive : 0 < rev.val) (live : r.isLive = true) :
    s.IsLiveAt key rev := by
  refine ⟨r, there, live, Revision.ext_val ?_⟩
  simp only [Record.isLive, Revision.isTombstone, Bool.not_eq_true', decide_eq_false_iff_not] at live
  simp only [Revision.magnitude] at equal
  omega

/-- After a set was accepted, the record of its key is live under the revision that was told,
unless a tombstone that is as new was there. Then that tombstone is what is left. -/
theorem isLiveAt_of_ok (ok : (s.set key item now).1 = .ok rev) :
    ((s.set key item now).2.IsLiveAt key rev ↔ ¬s.IsBuriedAt key item.rev) ∧
      (s.IsBuriedAt key item.rev → rev = item.rev ∧ (s.set key item now).2 = s) := by
  obtain ⟨grants, after⟩ | ⟨rfl, positive, after, r, there, equal⟩ := set_ok_cases ok
  · have free := grants.not_buried
    rw [after]
    exact ⟨iff_of_true (isLiveAt_write grants) free, fun buried => absurd buried free⟩
  · rw [after]
    refine ⟨⟨?_, ?_⟩, fun _ => ⟨rfl, rfl⟩⟩
    · rintro ⟨l, held, live, -⟩ ⟨d, held', dead, -⟩
      obtain rfl := Option.some.inj (held.symm.trans held')
      rw [live] at dead
      cases dead
    · intro free
      cases live : r.isLive with
      | true => exact isLiveAt_of_magnitude there equal positive live
      | false => exact absurd ⟨r, there, live, equal⟩ free

end Store

namespace Node

/-- A status of 200 reports the revision under which the set was accepted. -/
theorem storeValue_ok {now : Nat} {key : String} {request : Web.Request} {item : Item} {s : Store}
    (brought : broughtItem request = .ok item)
    (ok : (storeValue now key request s).1.status = 200) :
    (storeValue now key request s).2 = (s.set key item now).2 ∧
      ∃ rev, (s.set key item now).1 = .ok rev ∧ (storeValue now key request s).1 =
        .document 200 (.table [("key", .text key), ("revision", .int rev.val)]) := by
  have refused (e : Failure) : (Web.Response.ofFailure e).status ≠ 200 := by
    cases e <;> simp [Web.Response.ofFailure, Web.Response.explain, Web.Response.document,
      Web.Response.ofBytes, Failure.httpStatus]
  unfold storeValue at ok ⊢
  simp only [brought] at ok ⊢
  split at ok
  · rename_i rev after outcome
    rw [outcome]
    exact ⟨rfl, rev, rfl, rfl⟩
  · exact absurd ok (refused _)

end Node

namespace Store

/-- After an accepted set the record of the key is live under the revision that was told, unless a
tombstone that is as new as the item stays there. Nodes say that they stored an item, on the wire or
with a status of 200, only after their store accepted it, and the latter tells the revision. -/
theorem accepted_unless_buried (s : Store) (key : String) (item : Item) (now : Nat) :
    (∀ rev, (s.set key item now).1 = .ok rev →
      ((s.set key item now).2.IsLiveAt key rev ↔ ¬s.IsBuriedAt key item.rev) ∧
        (s.IsBuriedAt key item.rev → rev = item.rev ∧ (s.set key item now).2 = s)) ∧
    (∀ limits, (Node.storeItem limits now key item s).1 = "STORED" →
      (∃ rev, (s.set key item now).1 = .ok rev) ∧
        (Node.storeItem limits now key item s).2 = (s.set key item now).2) ∧
    ∀ request, Node.broughtItem request = .ok item →
      (Node.storeValue now key request s).1.status = 200 →
      (Node.storeValue now key request s).2 = (s.set key item now).2 ∧
        ∃ rev, (s.set key item now).1 = .ok rev ∧ (Node.storeValue now key request s).1 =
          .document 200 (.table [("key", .text key), ("revision", .int rev.val)]) :=
  ⟨fun _ => isLiveAt_of_ok, fun _ => Node.storeItem_stored, fun _ => Node.storeValue_ok⟩

/-- A key that was stored and deleted. -/
def buriedOnce : Store :=
  empty.after [.set "k" ⟨0, [97], .auto⟩ 0, .delete "k" 0]

/-- A newer item is stored over the tombstone. -/
theorem accepted_over_tombstone :
    (buriedOnce.set "k" ⟨0, [98], .clamp 3⟩ 0).1 = .ok (.clamp 3) ∧
      ¬buriedOnce.IsBuriedAt "k" (.clamp 3) ∧
      (buriedOnce.set "k" ⟨0, [98], .clamp 3⟩ 0).2.IsLiveAt "k" (.clamp 3) := by
  have ok : (buriedOnce.set "k" ⟨0, [98], .clamp 3⟩ 0).1 = .ok (.clamp 3) := by decide +kernel
  have free : ¬buriedOnce.IsBuriedAt "k" (.clamp 3) := by
    rintro ⟨r, held, -, equal⟩
    have older : buriedOnce.record? "k" = some ⟨0, [], .clamp (-2), 0, 0, 256⟩ := by decide +kernel
    obtain rfl := Option.some.inj (older.symm.trans held)
    exact absurd equal (by decide)
  obtain ⟨accepted, -, -⟩ := accepted_unless_buried buriedOnce "k" ⟨0, [98], .clamp 3⟩ 0
  exact ⟨ok, free, (accepted _ ok).1.mpr free⟩

/-- An item that asks for the magnitude of the tombstone is acknowledged as stored, and the key
stays deleted. -/
theorem acknowledged_and_buried :
    let item : Item := ⟨0, [98], .clamp 2⟩
    let left := (buriedOnce.set "k" item 0).2
    (buriedOnce.set "k" item 0).1 = .ok item.rev ∧
      (Node.storeItem ⟨250, 1024⟩ 0 "k" item buriedOnce).1 = "STORED" ∧
      ¬left.IsLiveAt "k" item.rev ∧ left.get? "k" = none ∧
      (left.record? "k").map (fun r => r.rev.val) = some (-2) := by
  intro item left
  have buried : left.record? "k" = some ⟨0, [], .clamp (-2), 0, 0, 256⟩ := by decide +kernel
  refine ⟨by decide +kernel, by decide +kernel, ?_, by decide +kernel, by decide +kernel⟩
  rintro ⟨r, held, live, -⟩
  obtain rfl := Option.some.inj (buried.symm.trans held)
  exact absurd live (by decide)

end Store

end QuorumKv
