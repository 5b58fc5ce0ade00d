import QuorumKv.Dispatch.Memory
import QuorumKv.Proofs.Dispatch.Register
import QuorumKv.Proofs.Store

/-! Record stores as registers: as long as sets leave the revision to the store, what a reader finds
is what was set last. -/
namespace QuorumKv

/-- What an item says, whatever its revision. -/
def Item.content (item : Item) : UInt32 × Bytes :=
  (item.flags, item.value)

namespace Store

/-- What a reader finds under a key. -/
def content? (s : Store) (key : String) : Option (UInt32 × Bytes) :=
  (s.get? key).map Item.content

theorem content?_eq (s : Store) (key : String) :
    s.content? key = ((s.record? key).filter Record.isLive).map fun r => (r.flags, r.value) := by
  rw [content?, get?, Option.map_map]
  rfl

theorem content?_set_auto (s : Store) (key : String) {item : Item} (now : Nat)
    (auto : item.rev = .auto) : (s.set key item now).2.content? key = some item.content := by
  obtain ⟨r, there, revision, flags, value⟩ := s.record?_set_auto key item now auto
  have live : r.isLive = true := by
    rw [Record.isLive, revision, Revision.next_not_tombstone, Bool.not_false]
  rw [content?_eq, there, Option.filter_some_pos live, Option.map_some, flags, value]
  rfl

/-- A delete tells whether a reader found something, and leaves nothing to find. -/
theorem content?_delete (s : Store) (key : String) (now : Nat) :
    (s.delete key now).1 = (s.content? key).isSome ∧
      (s.delete key now).2.content? key = none := by
  have left := record?_delete_self s key now
  cases held : s.record? key with
  | none =>
    rw [held] at left
    simp only at left
    simp [left, content?_eq, held]
  | some r =>
    rw [held] at left
    by_cases live : r.isLive = true
    · simp only [live, if_true] at left
      obtain ⟨told, t, there, revision⟩ := left
      have dead : t.isLive = false := by
        rw [Record.isLive, revision, Revision.tombstone_isTombstone, Bool.not_true]
      simp [content?_eq, told, held, there, live, dead]
    · simp only [live, Bool.false_eq_true, if_false] at left
      simp [left, content?_eq, held, live]

end Store

namespace Dispatch.Memory

open Migration (Side)

/-- Neither store refuses calls. -/
def IsUp (m : Memory) : Prop :=
  ∀ side, m.fails side = false

variable {m : Memory}

theorem answer_of_isUp (up : m.IsUp) (side : Side) (q : Ask) :
    answer side q m = (((m.store side).answer m.now q).1,
      m.putStore side ((m.store side).answer m.now q).2) := by
  rw [answer, if_neg (by simp [up side])]

theorem isUp_putStore (up : m.IsUp) (side : Side) (s : Store) : (m.putStore side s).IsUp := by
  cases side with
  | legacy | new => exact fun other => up other

/-- What a reader finds in each store. -/
def contents (m : Memory) (key : String) (side : Side) : Option (UInt32 × Bytes) :=
  (m.store side).content? key

theorem contents_putStore (m : Memory) (key : String) (side : Side) (s : Store) :
    (m.putStore side s).contents key =
      Function.update (m.contents key) side (s.content? key) := by
  funext other
  cases side <;> cases other <;> rfl

/-- Both stores hold a key as registers do, while sets leave the revision to them. -/
def registers (key : String) : Registers host key (UInt32 × Bytes) where
  shown := Item.content
  accepts item := item.rev = .auto
  Holds m h := m.IsUp ∧ m.contents key = h
  asked_get side := by
    rintro ⟨up, rfl⟩
    simp only [host, answer_of_isUp up]
    refine ⟨⟨_, rfl, rfl⟩, isUp_putStore up side _, ?_⟩
    rw [contents_putStore]
    exact Function.update_eq_self ..
  asked_set {m h} side item := by
    rintro ⟨up, rfl⟩ auto
    simp only [host, answer_of_isUp up]
    refine ⟨?_, isUp_putStore up side _, ?_⟩
    · simp only [Store.answer, Store.set_auto key m.now auto]
      rfl
    · rw [contents_putStore]
      exact congrArg _ (Store.content?_set_auto _ key m.now auto)
  asked_delete {m h} side := by
    rintro ⟨up, rfl⟩
    simp only [host, answer_of_isUp up]
    obtain ⟨told, gone⟩ := (m.store side).content?_delete key m.now
    refine ⟨congrArg _ told, isUp_putStore up side _, ?_⟩
    rw [contents_putStore]
    exact congrArg _ gone
  held _ := id
  released _ := id
  noted _ := id

/-- At first no key is there. -/
theorem registers_start (key : String) (table : Migration.Table) (now : Nat) :
    (registers key).Holds (start table now) fun _ => none := by
  constructor
  · rintro (_ | _) <;> rfl
  · funext side
    cases side <;> rfl

end Dispatch.Memory

end QuorumKv
