import QuorumKv.Node.Session
import QuorumKv.Proofs.Revision

/-! What sets and deletes do to the records of a store: only to the key that they name, and never so
that its revision becomes older. -/
namespace QuorumKv

/-- A tombstone shows its revision as well. -/
theorem Record.rev_versioned (r : Record) : r.versioned.rev = r.rev := by
  unfold Record.versioned
  split <;> rfl

namespace Store

theorem record?_append (s : Store) (key : String) (flags : UInt32) (value : Bytes)
    (rev : Revision) (now : Nat) (k : String) :
    (s.append key flags value rev now).record? k =
      if key = k then some ⟨flags, value, rev, Hash.Crc32.checksum value, now, s.tail⟩
      else s.record? k :=
  Assoc.get?_put ..

/-- A key that a write does not name stays as it is. -/
theorem record?_write_ne {s : Store} {key k : String} (item : Item) (rev : Revision) (now : Nat)
    (other : key ≠ k) : (s.write key item rev now).record? k = s.record? k := by
  unfold write
  split
  · split
    · rw [record?, Assoc.get?_put, if_neg other, record?]
    · rw [record?_append, if_neg other]
  · rw [record?_append, if_neg other]

/-- What is written is there under its revision. -/
theorem record?_write_self (s : Store) (key : String) (item : Item) (rev : Revision) (now : Nat) :
    ∃ r, (s.write key item rev now).record? key = some r ∧ r.rev = rev ∧
      r.flags = item.flags ∧ r.value = item.value := by
  unfold write
  split
  · rename_i r held
    split
    · rename_i same
      simp only [Bool.and_eq_true, beq_iff_eq] at same
      refine ⟨{ r with rev := rev, timestamp := now }, ?_, rfl, same.1.2, same.2⟩
      rw [record?, Assoc.get?_put, if_pos rfl]
    · exact ⟨_, by rw [record?_append, if_pos rfl], rfl, rfl, rfl⟩
  · exact ⟨_, by rw [record?_append, if_pos rfl], rfl, rfl, rfl⟩

theorem record?_set_ne {s : Store} {key k : String} (item : Item) (now : Nat) (other : key ≠ k) :
    (s.set key item now).2.record? k = s.record? k := by
  unfold set
  split
  · rfl
  · split
    · exact record?_write_ne item _ now other
    · rfl
    · rfl

theorem record?_delete_ne {s : Store} {key k : String} (now : Nat) (other : key ≠ k) :
    (s.delete key now).2.record? k = s.record? k := by
  unfold delete
  split
  · split
    · rw [record?_append, if_neg other]
    · rfl
  · rfl

theorem set_refused {s : Store} {item : Item} (key : String) (now : Nat)
    (negative : item.rev.isTombstone = true) :
    s.set key item now =
      (throw (.protocol s!"negative revision {item.rev.val} on set of {key}"), s) := by
  rw [set, if_pos negative]

theorem set_auto {s : Store} {item : Item} (key : String) (now : Nat) (auto : item.rev = .auto) :
    s.set key item now = (pure (Revision.next ((s.record? key).map Record.rev)),
      s.write key item (Revision.next ((s.record? key).map Record.rev)) now) := by
  have live : ¬item.rev.isTombstone = true := by rw [auto]; decide
  simp only [set, if_neg live, Revision.resolve, if_pos auto]

theorem set_explicit {s : Store} {item : Item} (key : String) (now : Nat)
    (live : ¬item.rev.isTombstone = true) (explicit : item.rev ≠ .auto) :
    s.set key item now =
      match s.record? key with
      | none => (pure item.rev, s.write key item item.rev now)
      | some r =>
        if r.rev.magnitude < item.rev.magnitude then (pure item.rev, s.write key item item.rev now)
        else if r.rev.magnitude = item.rev.magnitude then (pure item.rev, s)
        else (throw (.stale key), s) := by
  simp only [set, if_neg live, Revision.resolve_explicit explicit]
  cases s.record? key with
  | none => rfl
  | some r =>
    simp only [Option.map_some]
    by_cases newer : r.rev.magnitude < item.rev.magnitude
    · simp only [if_pos newer]
    · simp only [if_neg newer]
      by_cases equal : r.rev.magnitude = item.rev.magnitude
      · simp only [if_pos equal]
      · simp only [if_neg equal]

/-- A set without a revision is always taken, and gets the next one. -/
theorem record?_set_auto (s : Store) (key : String) (item : Item) (now : Nat)
    (auto : item.rev = .auto) :
    ∃ r, (s.set key item now).2.record? key = some r ∧
      r.rev = Revision.next ((s.record? key).map Record.rev) ∧
      r.flags = item.flags ∧ r.value = item.value := by
  rw [set_auto key now auto]
  exact record?_write_self s key item _ now

/-- What a delete leaves under its key. -/
theorem record?_delete_self (s : Store) (key : String) (now : Nat) :
    match s.record? key with
    | none => (s.delete key now) = (false, s)
    | some r =>
      if r.isLive then (s.delete key now).1 = true ∧
        ∃ t, (s.delete key now).2.record? key = some t ∧ t.rev = r.rev.tombstone
      else s.delete key now = (false, s) := by
  cases held : s.record? key with
  | none => simp only [delete, held]
  | some r =>
    by_cases live : r.isLive = true
    · simp only [live, if_true]
      have buried : s.delete key now = (true, s.append key 0 [] r.rev.tombstone now) := by
        simp only [delete, held, live, if_true]
      rw [buried]
      exact ⟨rfl, _, by rw [record?_append, if_pos rfl], rfl⟩
    · simp only [delete, held, live, Bool.false_eq_true, if_false]

/-- The key has a version of at least this magnitude. -/
def AtLeast (s : Store) (key : String) (n : Nat) : Prop :=
  ∃ r, s.record? key = some r ∧ n ≤ r.rev.magnitude

theorem atLeast_set {s : Store} {key : String} {n : Nat} (held : s.AtLeast key n)
    (bounded : n ≤ 9223372036854775807) (k : String) (item : Item) (now : Nat) :
    (s.set k item now).2.AtLeast key n := by
  obtain ⟨r, stored, reached⟩ := held
  by_cases same : k = key
  · subst same
    have written (rev : Revision) (grown : n ≤ rev.magnitude) :
        (s.write k item rev now).AtLeast k n := by
      obtain ⟨w, there, revision, -⟩ := record?_write_self s k item rev now
      exact ⟨w, there, revision ▸ grown⟩
    by_cases negative : item.rev.isTombstone = true
    · rw [set_refused k now negative]
      exact ⟨r, stored, reached⟩
    · by_cases auto : item.rev = .auto
      · rw [set_auto k now auto, stored]
        apply written
        rw [Option.map_some, Revision.next_magnitude]
        omega
      · rw [set_explicit k now negative auto, stored]
        by_cases newer : r.rev.magnitude < item.rev.magnitude
        · simp only [if_pos newer]
          exact written _ (Nat.le_of_lt (Nat.lt_of_le_of_lt reached newer))
        · simp only [if_neg newer]
          split <;> exact ⟨r, stored, reached⟩
  · exact ⟨r, (record?_set_ne item now same).trans stored, reached⟩

theorem atLeast_delete {s : Store} {key : String} {n : Nat} (held : s.AtLeast key n)
    (bounded : n ≤ 9223372036854775807) (k : String) (now : Nat) :
    (s.delete k now).2.AtLeast key n := by
  obtain ⟨r, stored, reached⟩ := held
  by_cases same : k = key
  · subst same
    have gone := record?_delete_self s k now
    rw [stored] at gone
    by_cases live : r.isLive = true
    · simp only [live, if_true] at gone
      obtain ⟨-, t, there, revision⟩ := gone
      refine ⟨t, there, ?_⟩
      rw [revision, Revision.tombstone_magnitude]
      omega
    · simp only [live, Bool.false_eq_true, if_false] at gone
      rw [gone]
      exact ⟨r, stored, reached⟩
  · exact ⟨r, (record?_delete_ne now same).trans stored, reached⟩

/-- An accepted write bounds what is stored from below, also when the store had that revision
already. -/
theorem atLeast_of_set {s : Store} {key : String} {item : Item} {now : Nat} {rev : Revision}
    (ok : (s.set key item now).1 = .ok rev) :
    (s.set key item now).2.AtLeast key item.rev.magnitude := by
  have written (rev : Revision) (reached : item.rev.magnitude ≤ rev.magnitude) :
      (s.write key item rev now).AtLeast key item.rev.magnitude := by
    obtain ⟨w, there, revision, -⟩ := record?_write_self s key item rev now
    exact ⟨w, there, revision ▸ reached⟩
  by_cases negative : item.rev.isTombstone = true
  · rw [set_refused key now negative] at ok
    cases ok
  · by_cases auto : item.rev = .auto
    · rw [set_auto key now auto]
      exact written _ (by rw [auto]; exact Nat.zero_le _)
    · rw [set_explicit key now negative auto] at ok ⊢
      cases stored : s.record? key with
      | none => exact written _ (Nat.le_refl _)
      | some r =>
        rw [stored] at ok
        by_cases newer : r.rev.magnitude < item.rev.magnitude
        · simp only [if_pos newer]
          exact written _ (Nat.le_refl _)
        · simp only [if_neg newer] at ok ⊢
          by_cases equal : r.rev.magnitude = item.rev.magnitude
          · simp only [if_pos equal]
            exact ⟨r, stored, Nat.le_of_eq equal.symm⟩
          · simp only [if_neg equal] at ok
            cases ok

/-- Whether no revision lies beyond the greatest one. Only the least one, which nothing stores,
does. -/
def IsBounded (s : Store) : Prop :=
  ∀ key r, s.record? key = some r → r.rev.magnitude ≤ 9223372036854775807

theorem isBounded_write {s : Store} {rev : Revision} (bounded : s.IsBounded)
    (small : rev.magnitude ≤ 9223372036854775807) (key : String) (item : Item) (now : Nat) :
    (s.write key item rev now).IsBounded := by
  intro k r there
  by_cases same : key = k
  · subst same
    obtain ⟨w, written, revision, -⟩ := record?_write_self s key item rev now
    obtain rfl := Option.some.inj (written.symm.trans there)
    exact revision ▸ small
  · rw [record?_write_ne item rev now same] at there
    exact bounded k r there

theorem isBounded_set {s : Store} (bounded : s.IsBounded) (key : String) (item : Item)
    (now : Nat) : (s.set key item now).2.IsBounded := by
  by_cases negative : item.rev.isTombstone = true
  · rwa [set_refused key now negative]
  · by_cases auto : item.rev = .auto
    · rw [set_auto key now auto]
      apply isBounded_write bounded
      cases s.record? key with
      | none => decide
      | some r =>
        rw [Option.map_some, Revision.next_magnitude]
        omega
    · have small : item.rev.magnitude ≤ 9223372036854775807 :=
        Revision.magnitude_le_of_not_tombstone negative
      rw [set_explicit key now negative auto]
      cases s.record? key with
      | none => exact isBounded_write bounded small key item now
      | some r =>
        simp only
        split
        · exact isBounded_write bounded small key item now
        · split <;> exact bounded

theorem isBounded_delete {s : Store} (bounded : s.IsBounded) (key : String) (now : Nat) :
    (s.delete key now).2.IsBounded := by
  intro k r there
  by_cases same : key = k
  · subst same
    have gone := s.record?_delete_self key now
    cases held : s.record? key with
    | none =>
      rw [held] at gone
      rw [gone, held] at there
      cases there
    | some old =>
      rw [held] at gone
      by_cases live : old.isLive = true
      · simp only [live, if_true] at gone
        obtain ⟨-, t, buried, revision⟩ := gone
        obtain rfl := Option.some.inj (buried.symm.trans there)
        rw [revision, Revision.tombstone_magnitude]
        omega
      · simp only [live, Bool.false_eq_true, if_false] at gone
        rw [gone] at there
        exact bounded key r there
  · rw [record?_delete_ne now same] at there
    exact bounded k r there

end Store

namespace Node

/-- What a frame may do to a store. Only an accepted key is set. -/
theorem reply_cases (limits : Config.Limits) (now : Nat) (frame : Wire.Frame) (store : Store) :
    (reply limits now frame store).2 = store ∨
    (∃ key item noreply, frame = .request (.set key item noreply) ∧
      Key.validate limits.maxKeyLength key = .ok () ∧
      (reply limits now frame store).2 = (store.set key item now).2) ∨
    (∃ key noreply, frame = .request (.delete key noreply) ∧
      (reply limits now frame store).2 = (store.delete key now).2) := by
  cases frame with
  | request r =>
    cases r with
    | set key item noreply =>
      simp only [reply, execute, storeItem]
      split
      · exact .inl rfl
      · rename_i valid
        split <;> rename_i outcome
        · exact .inr (.inl ⟨key, item, noreply, rfl, valid, by rw [outcome]⟩)
        · exact .inr (.inl ⟨key, item, noreply, rfl, valid, by rw [outcome]⟩)
    | delete key noreply => exact .inr (.inr ⟨key, noreply, rfl, rfl⟩)
    | _ => exact .inl rfl
  | _ => exact .inl rfl

/-- What one set or delete keeps, a whole session keeps. -/
theorem replies_keep {limits : Config.Limits} {now : Nat} (P : Store → Prop)
    (frames : List Wire.Frame)
    (set : ∀ s key item noreply, .request (.set key item noreply) ∈ frames → P s →
      P (s.set key item now).2)
    (delete : ∀ s key noreply, .request (.delete key noreply) ∈ frames → P s →
      P (s.delete key now).2)
    (store : Store) (held : P store) : P (replies limits now frames store).2 := by
  induction frames generalizing store with
  | nil => exact held
  | cons frame rest ih =>
    have one : P (reply limits now frame store).2 := by
      obtain same | ⟨key, item, noreply, kind, -, stored⟩ | ⟨key, noreply, kind, deleted⟩ :=
        reply_cases limits now frame store
      · rw [same]
        exact held
      · rw [stored]
        exact set store key item noreply (by rw [kind]; exact List.mem_cons_self) held
      · rw [deleted]
        exact delete store key noreply (by rw [kind]; exact List.mem_cons_self) held
    exact ih (fun s key item noreply listed => set s key item noreply (.tail _ listed))
      (fun s key noreply listed => delete s key noreply (.tail _ listed)) _ one

theorem session_atLeast {limits : Config.Limits} {now : Nat} {bytes : Bytes} {store : Store}
    {key : String} {n : Nat} (held : store.AtLeast key n) (bounded : n ≤ 9223372036854775807) :
    (session limits now bytes store).2.AtLeast key n :=
  replies_keep (fun s => s.AtLeast key n) _
    (fun _ k item _ _ before => Store.atLeast_set before bounded k item now)
    (fun _ k _ _ before => Store.atLeast_delete before bounded k now) store held

theorem session_isBounded {limits : Config.Limits} {now : Nat} {bytes : Bytes} {store : Store}
    (bounded : store.IsBounded) : (session limits now bytes store).2.IsBounded :=
  replies_keep Store.IsBounded _ (fun _ k item _ _ before => Store.isBounded_set before k item now)
    (fun _ k _ _ before => Store.isBounded_delete before k now) store bounded

end Node

end QuorumKv
