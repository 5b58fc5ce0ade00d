import QuorumKv.Proofs.Assoc
import QuorumKv.Proofs.Store

/-! A store under a sequence of sets and deletes. One of them leaves the store as it is, raises the
revision of a record in its place, appends a version to the log, or appends a tombstone. -/
namespace QuorumKv

namespace Store

/-- A set or a delete, at a time in seconds. -/
inductive Change where
  | set (key : String) (item : Item) (now : Nat)
  | delete (key : String) (now : Nat)
  deriving DecidableEq

def Change.key : Change → String
  | .set key _ _ => key
  | .delete key _ => key

/-- The store afterwards, whatever the answer was. -/
def apply (s : Store) : Change → Store
  | .set key item now => (s.set key item now).2
  | .delete key now => (s.delete key now).2

def after (s : Store) (changes : List Change) : Store :=
  changes.foldl apply s

theorem after_append (s : Store) (changes more : List Change) :
    s.after (changes ++ more) = (s.after changes).after more :=
  List.foldl_append

/-- Whether a set of an item is accepted over a record, under this revision. -/
structure Grants (held : Option Record) (item : Item) (rev : Revision) : Prop where
  live : item.rev.isTombstone = false
  decided : Revision.resolve (held.map Record.rev) item.rev = .store rev

/-- Everything that a change can do. -/
inductive Effect (s : Store) : Change → Store → Prop where
  | nothing (change : Change) : Effect s change s
  | raise {key : String} {item : Item} {r : Record} {rev : Revision} (now : Nat)
      (held : s.record? key = some r) (live : r.isLive = true)
      (hash : r.hash = Hash.Crc32.checksum item.value) (flags : r.flags = item.flags)
      (value : r.value = item.value) (grants : Grants (some r) item rev) :
      Effect s (.set key item now)
        ⟨s.records.put key { r with rev := rev, timestamp := now }, s.tail⟩
  | version {key : String} {item : Item} {rev : Revision} (now : Nat)
      (grants : Grants (s.record? key) item rev) :
      Effect s (.set key item now) (s.append key item.flags item.value rev now)
  | bury {key : String} {r : Record} (now : Nat) (held : s.record? key = some r)
      (live : r.isLive = true) :
      Effect s (.delete key now) (s.append key 0 [] r.rev.tombstone now)

theorem effect_write {s : Store} {key : String} {item : Item} {rev : Revision} (now : Nat)
    (grants : Grants (s.record? key) item rev) :
    Effect s (.set key item now) (s.write key item rev now) := by
  unfold write
  split
  · rename_i r held
    split
    · rename_i same
      simp only [Bool.and_eq_true, beq_iff_eq] at same
      obtain ⟨⟨⟨live, hash⟩, flags⟩, value⟩ := same
      exact .raise now held live hash flags value (held ▸ grants)
    · exact .version now grants
  · exact .version now grants

theorem apply_effect (s : Store) (change : Change) : Effect s change (s.apply change) := by
  cases change with
  | set key item now =>
    simp only [apply, Store.set]
    split
    · exact .nothing _
    · rename_i live
      split
      · rename_i rev decided
        exact effect_write now ⟨by simpa using live, decided⟩
      · exact .nothing _
      · exact .nothing _
  | delete key now =>
    simp only [apply, Store.delete]
    split
    · rename_i r held
      split
      · rename_i live
        exact .bury now held live
      · exact .nothing _
    · exact .nothing _

theorem mem_keys_of_record? {s : Store} {key : String} {r : Record}
    (held : s.record? key = some r) : key ∈ s.records.keys :=
  (Assoc.get?_isSome_iff s.records key).mp (Option.isSome_of_eq_some held)

/-- A change brings in no key but the one that it sets. -/
theorem mem_keys_of_effect {s t : Store} {change : Change} {key : String}
    (effect : Effect s change t) (stored : key ∈ t.records.keys) :
    key ∈ s.records.keys ∨ ∃ item now, change = .set key item now := by
  cases effect with
  | nothing => exact .inl stored
  | raise now held =>
    obtain rfl | before := Assoc.mem_keys_put.mp stored
    · exact .inl (mem_keys_of_record? held)
    · exact .inl before
  | version now grants =>
    obtain rfl | before := Assoc.mem_keys_put.mp stored
    · exact .inr ⟨_, _, rfl⟩
    · exact .inl before
  | bury now held =>
    obtain rfl | before := Assoc.mem_keys_put.mp stored
    · exact .inl (mem_keys_of_record? held)
    · exact .inl before

/-- What every change keeps, every sequence of changes keeps. -/
theorem after_keeps {P : Store → Prop} (kept : ∀ s change, P s → P (s.apply change)) {s : Store}
    (held : P s) (changes : List Change) : P (s.after changes) := by
  induction changes generalizing s with
  | nil => exact held
  | cons change rest ih => exact ih (kept s change held)

theorem isBounded_apply {s : Store} (change : Change) (bounded : s.IsBounded) :
    (s.apply change).IsBounded := by
  cases change with
  | set key item now => exact isBounded_set bounded key item now
  | delete key now => exact isBounded_delete bounded key now

theorem isBounded_after (changes : List Change) : (empty.after changes).IsBounded := by
  apply after_keeps
  · exact fun _ => isBounded_apply
  · intro key r held
    cases held

/-- A set gets the next revision, or its own if that is newer than what is held. -/
theorem Grants.cases {held : Option Record} {item : Item} {rev : Revision}
    (grants : Grants held item rev) :
    rev = Revision.next (held.map Record.rev) ∨
      rev = item.rev ∧ item.rev ≠ .auto ∧ ∀ r ∈ held, r.rev.magnitude < rev.magnitude := by
  obtain ⟨-, decided⟩ := grants
  by_cases auto : item.rev = .auto
  · simp only [Revision.resolve, if_pos auto, Revision.Verdict.store.injEq] at decided
    exact .inl decided.symm
  · refine .inr ?_
    rw [Revision.resolve_explicit auto] at decided
    cases held with
    | none =>
      obtain rfl := Revision.Verdict.store.inj decided
      exact ⟨rfl, auto, fun _ absent => (Option.not_mem_none _ absent).elim⟩
    | some old =>
      simp only [Option.map_some] at decided
      split at decided
      · rename_i newer
        obtain rfl := Revision.Verdict.store.inj decided
        refine ⟨rfl, auto, ?_⟩
        rintro r ⟨⟩
        exact newer
      · split at decided <;> cases decided

/-- The revision under which a set is accepted is that of a live record. -/
theorem Grants.positive {held : Option Record} {item : Item} {rev : Revision}
    (grants : Grants held item rev) : 0 < rev.val := by
  obtain rfl | ⟨rfl, explicit, -⟩ := grants.cases
  · cases held with
    | none => decide
    | some r =>
      rw [Option.map_some, Revision.next_val]
      omega
  · have live := grants.live
    simp only [Revision.isTombstone, decide_eq_false_iff_not] at live
    have some_revision : item.rev.val ≠ 0 := fun zero => explicit (Revision.ext_val zero)
    omega

/-- It is newer than what was there, or both are as new as can be. -/
theorem Grants.outgrows {old : Record} {item : Item} {rev : Revision}
    (grants : Grants (some old) item rev) (bounded : old.rev.magnitude ≤ 9223372036854775807) :
    rev.Outgrows old.rev := by
  obtain rfl | ⟨-, -, newer⟩ := grants.cases
  · exact Revision.next_outgrows bounded
  · exact .inl (newer old rfl)

end Store

end QuorumKv
