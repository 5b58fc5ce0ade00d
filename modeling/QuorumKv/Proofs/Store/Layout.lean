import Mathlib.Data.List.Basic
import QuorumKv.Proofs.Assoc
import QuorumKv.Proofs.Store.Change

/-! How the records of a store lie in its log. A version is appended at the end and a raised
revision keeps its slot, so that the slots of all keys lie side by side, whole units below the end
of the log. -/
namespace QuorumKv

/-- Where the slot of a record ends. -/
def Record.stop (key : String) (r : Record) : Nat :=
  r.offset + Record.slot key.utf8ByteSize r.value.length

theorem Record.slot_units (keyLength valueLength : Nat) :
    256 ∣ Record.slot keyLength valueLength :=
  Nat.dvd_mul_left ..

/-- A slot is always longer than what it holds. -/
theorem Record.lt_slot (keyLength valueLength : Nat) :
    24 + keyLength + valueLength < Record.slot keyLength valueLength := by
  unfold Record.slot
  omega

/-- A record as it lies in a log that ends at `tail`. -/
structure Record.IsLaidOut (tail : Nat) (key : String) (r : Record) : Prop where
  numbered : r.rev.val ≠ 0
  hashed : r.hash = Hash.Crc32.checksum r.value
  emptied : r.rev.isTombstone = true → r.value = [] ∧ r.flags = 0
  aligned : 256 ∣ r.offset
  below : r.stop key ≤ tail

namespace Store

/-- Whether the slots of two records do not overlap. -/
def IsApart (key : String) (r : Record) (k : String) (t : Record) : Prop :=
  r.stop key ≤ t.offset ∨ t.stop k ≤ r.offset

structure IsLaidOut (s : Store) : Prop where
  distinct : s.records.keys.Nodup
  aligned : 256 ∣ s.tail
  records : ∀ key r, s.record? key = some r → r.IsLaidOut s.tail key
  apart : ∀ key r k t, s.record? key = some r → s.record? k = some t → key ≠ k →
    IsApart key r k t

variable {s : Store}

theorem laidOut_empty : empty.IsLaidOut where
  distinct := .nil
  aligned := Nat.dvd_zero _
  records _ _ held := by cases held
  apart _ _ _ _ held := by cases held

/-- A record takes its place, apart from those of all other keys. -/
theorem laidOut_put {key : String} {r : Record} {tail : Nat} (laid : s.IsLaidOut)
    (grown : s.tail ≤ tail) (aligned : 256 ∣ tail) (new : r.IsLaidOut tail key)
    (apart : ∀ k t, s.record? k = some t → key ≠ k → IsApart key r k t) :
    IsLaidOut ⟨s.records.put key r, tail⟩ := by
  have cases_put {k : String} {t : Record}
      (held : (s.records.put key r).get? k = some t) :
      k = key ∧ t = r ∨ key ≠ k ∧ s.record? k = some t := by
    rw [Assoc.get?_put] at held
    split at held
    · rename_i same
      exact .inl ⟨same.symm, (Option.some.inj held).symm⟩
    · rename_i other
      exact .inr ⟨other, held⟩
  refine ⟨?distinct, aligned, ?records, ?apart⟩
  case distinct =>
    rw [Assoc.keys_put]
    split
    · exact laid.distinct
    · rename_i absent
      refine List.nodup_append.mpr ⟨laid.distinct, List.nodup_cons.mpr ⟨List.not_mem_nil, .nil⟩, ?_⟩
      rintro a listed b one rfl
      exact absent (List.mem_singleton.mp one ▸ listed)
  case records =>
    intro k t held
    obtain ⟨rfl, rfl⟩ | ⟨-, known⟩ := cases_put held
    · exact new
    · have before := laid.records k t known
      exact { before with below := Nat.le_trans before.below grown }
  case apart =>
    intro j a k b heldA heldB other
    obtain ⟨rfl, rfl⟩ | ⟨-, knownA⟩ := cases_put heldA
    · obtain ⟨rfl, rfl⟩ | ⟨apart', knownB⟩ := cases_put heldB
      · exact absurd rfl other
      · exact apart k b knownB apart'
    · obtain ⟨rfl, rfl⟩ | ⟨-, knownB⟩ := cases_put heldB
      · exact (apart j a knownA other.symm).symm
      · exact laid.apart j a k b knownA knownB other

/-- What is appended lies behind everything that was there. -/
theorem laidOut_append (key : String) {flags : UInt32} {value : Bytes} {rev : Revision} (now : Nat)
    (laid : s.IsLaidOut) (numbered : rev.val ≠ 0)
    (emptied : rev.isTombstone = true → value = [] ∧ flags = 0) :
    (s.append key flags value rev now).IsLaidOut := by
  apply laidOut_put laid
  · exact Nat.le_add_right ..
  · exact Nat.dvd_add laid.aligned (Record.slot_units ..)
  · exact ⟨numbered, rfl, emptied, laid.aligned, Nat.le_refl _⟩
  · intro k t held _
    exact .inr (laid.records k t held).below

theorem laidOut_effect {change : Change} {t : Store} (effect : Effect s change t)
    (laid : s.IsLaidOut) : t.IsLaidOut := by
  cases effect with
  | nothing => exact laid
  | @raise key item r rev now held live hash flags value grants =>
    have positive := grants.positive
    have before := laid.records key r held
    apply laidOut_put laid (Nat.le_refl _) laid.aligned
    · refine ⟨Int.ne_of_gt positive, before.hashed, ?_, before.aligned, before.below⟩
      intro dead
      simp only [Revision.isTombstone, decide_eq_true_eq] at dead
      omega
    · intro k u known other
      exact laid.apart key r k u held known other
  | version now grants =>
    have positive := grants.positive
    apply laidOut_append _ now laid (by omega)
    intro dead
    simp only [Revision.isTombstone, decide_eq_true_eq] at dead
    omega
  | @bury key r now held live =>
    apply laidOut_append _ now laid
    · rw [Revision.tombstone_val]
      omega
    · exact fun _ => ⟨rfl, rfl⟩

theorem laidOut_after (changes : List Change) : (empty.after changes).IsLaidOut := by
  apply after_keeps
  · exact fun s change => laidOut_effect (apply_effect s change)
  · exact laidOut_empty

/-- A key that was stored once has a record ever after. -/
theorem isSome_effect {change : Change} {t : Store} {key : String} (effect : Effect s change t)
    (stored : (s.record? key).isSome = true) : (t.record? key).isSome = true := by
  have put (k : String) (r : Record) (tail : Nat) :
      (record? ⟨s.records.put k r, tail⟩ key).isSome = true := by
    simp only [record?, Assoc.get?_put]
    split
    · rfl
    · exact stored
  cases effect with
  | nothing => exact stored
  | raise => exact put ..
  | version => exact put ..
  | bury => exact put ..

/-- As many entries are of a kind as there are keys whose record is. -/
theorem length_filter_records (distinct : s.records.keys.Nodup) (p : Record → Bool) :
    (s.records.filter fun (_, r) => p r).length =
      (s.records.keys.filter fun key => (s.record? key).any p).length := by
  rw [Assoc.keys, List.filter_map, List.length_map]
  congr 1
  apply List.filter_congr
  rintro ⟨key, r⟩ listed
  have held : s.record? key = some r := Assoc.get?_of_mem distinct listed
  simp only [Function.comp_apply, held, Option.any_some]

/-- The log of a store that only sets and deletes have touched: what each record is, where its
slot lies, that no key is lost, and that live records and tombstones are all there is. -/
theorem layout_after (changes : List Change) (room : (empty.after changes).tail < UInt64.size) :
    let s := empty.after changes
    s.IsLaidOut ∧
    (∀ key r, s.record? key = some r →
      (Record.slotWord key.utf8ByteSize r.value.length).toNat =
          Record.slot key.utf8ByteSize r.value.length ∧
        24 + key.utf8ByteSize + r.value.length <
          (Record.slotWord key.utf8ByteSize r.value.length).toNat) ∧
    (∀ more key, (s.record? key).isSome = true → ((s.after more).record? key).isSome = true) ∧
    (∀ key, key ∈ s.records.keys ↔ (s.record? key).isSome = true) ∧
    s.stats.liveKeys = (s.records.keys.filter fun key => (s.record? key).any Record.isLive).length ∧
    s.stats.tombstones =
      (s.records.keys.filter fun key => (s.record? key).any fun r => !r.isLive).length ∧
    s.stats.liveKeys + s.stats.tombstones = s.records.keys.length := by
  intro s
  have laid : s.IsLaidOut := laidOut_after changes
  refine ⟨laid, ?_, ?_, ?_, ?_, ?_, ?_⟩
  · intro key r held
    have below := (laid.records key r held).below
    have word : (Record.slotWord key.utf8ByteSize r.value.length).toNat =
        Record.slot key.utf8ByteSize r.value.length := by
      rw [Record.slotWord, UInt64.toNat_ofNat']
      apply Nat.mod_eq_of_lt
      exact Nat.lt_of_le_of_lt (Nat.le_trans (Nat.le_add_left ..) below) room
    exact ⟨word, word ▸ Record.lt_slot ..⟩
  · intro more key
    exact fun stored => after_keeps (P := fun t => (t.record? key).isSome = true)
      (fun t change => isSome_effect (apply_effect t change)) stored more
  · intro key
    exact (Assoc.get?_isSome_iff _ key).symm
  · exact length_filter_records laid.distinct Record.isLive
  · exact length_filter_records laid.distinct fun r => !r.isLive
  · have split := List.length_eq_length_filter_add (l := s.records)
      fun entry : String × Record => entry.2.isLive
    simp only [stats, Assoc.keys, List.length_map]
    exact split.symm

/-- A value that is written twice, the second time under a higher revision, next to a key that is
deleted. -/
def rewrites : List Change :=
  [.set "k" ⟨7, [97], .auto⟩ 1, .set "j" ⟨0, [98], .auto⟩ 2, .set "k" ⟨7, [97], .clamp 9⟩ 3,
    .delete "j" 4]

theorem layout_after_rewrites :
    (empty.after rewrites).tail = 768 ∧ (empty.after rewrites).IsLaidOut ∧
      (empty.after rewrites).stats.liveKeys + (empty.after rewrites).stats.tombstones =
        (empty.after rewrites).records.keys.length := by
  have tail : (empty.after rewrites).tail = 768 := by decide +kernel
  obtain ⟨laid, -, -, -, -, -, counts⟩ := layout_after rewrites (by rw [tail]; decide)
  exact ⟨tail, laid, counts⟩

end Store

end QuorumKv
