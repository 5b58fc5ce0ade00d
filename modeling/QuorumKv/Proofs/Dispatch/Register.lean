import Mathlib.Logic.Function.Basic
import QuorumKv.Dispatch

/-! What one request does to a key when both stores are there and hold it as a register: it reads
from where the stage reads, and writes to where the stage writes. -/
namespace QuorumKv.Dispatch

open Migration (Side Stage Table)

section Run

variable {σ α β : Type} {host : Host σ} {s : σ}

theorem run_bind (p : Script α) (f : α → Script β) :
    (p >>= f).run host s = (f (p.run host s).1).run host (p.run host s).2 := by
  change (p.bind f).run host s = _
  induction p generalizing s with
  | done a => rfl
  | table next ih => exact ih ..
  | ask side q next ih => exact ih ..
  | hold guard next ih => exact ih
  | release guard next ih => exact ih
  | note event next ih => exact ih

theorem run_pure (a : α) : (pure a : Script α).run host s = (a, s) :=
  rfl

theorem run_snapshot : Script.snapshot.run host s = (host.table s, s) :=
  rfl

theorem run_holding (guard : Buffer.Guard) (p : Script α) :
    (Script.holding guard p).run host s =
      ((p.run host (host.hold guard s)).1,
        host.release guard (p.run host (host.hold guard s)).2) :=
  run_bind (s := host.hold guard s) p fun a => .release guard (.done a)

/-- A store that is there is asked, and the call is noted. -/
theorem run_askStore (cmd : String) (side : Side) (q : Ask) :
    (askStore true cmd side q).run host s =
      ((host.answer side q s).1,
        host.note (.asked cmd side (host.answer side q s).1.isOk) (host.answer side q s).2) := by
  rw [askStore, if_neg (by simp)]
  rfl

/-- A copy that arrives is nothing more than the call. -/
theorem run_mirror {cmd key : String} {stage : Stage} {side : Side} {q : Ask} {r : q.Answer}
    (arrives : ((askStore true cmd side q).run host s).1 = .ok r) :
    (mirror true cmd key stage side q).run host s =
      (some r, ((askStore true cmd side q).run host s).2) := by
  rw [mirror, run_bind, arrives]
  rfl

end Run

/-- The two stores of a host hold a key as registers do. `Holds s h` says that in the state `s` both
of them answer, and hold `h`. -/
structure Registers {σ : Type} (host : Host σ) (key : String) (V : Type) where
  /-- What matters of an item. -/
  shown : Item → V
  /-- The items that may be set. -/
  accepts : Item → Prop
  Holds : σ → (Side → Option V) → Prop
  asked_get {s h} (side : Side) : Holds s h →
    (∃ found, (host.answer side (.get key) s).1 = .ok found ∧ found.map shown = h side) ∧
      Holds (host.answer side (.get key) s).2 h
  asked_set {s h} (side : Side) (item : Item) : Holds s h → accepts item →
    (host.answer side (.set key item) s).1 = .ok () ∧
      Holds (host.answer side (.set key item) s).2 (Function.update h side (some (shown item)))
  asked_delete {s h} (side : Side) : Holds s h →
    (host.answer side (.delete key) s).1 = .ok (h side).isSome ∧
      Holds (host.answer side (.delete key) s).2 (Function.update h side none)
  held {s h} (guard : Buffer.Guard) : Holds s h → Holds (host.hold guard s) h
  released {s h} (guard : Buffer.Guard) : Holds s h → Holds (host.release guard s) h
  noted {s h} (event : Event) : Holds s h → Holds (host.note event s) h

/-- What a reader finds in a stage. -/
def reads {V : Type} (stage : Stage) (h : Side → Option V) : Option V :=
  (h stage.primary).or (stage.fallback.bind h)

/-- What the stores hold after a write in a stage. -/
def written {V : Type} (stage : Stage) (h : Side → Option V) (v : Option V) : Side → Option V :=
  fun side => if stage.uses side then v else h side

namespace Registers

variable {σ V : Type} {host : Host σ} {key : String} {s : σ} {h : Side → Option V} {stage : Stage}

/-- Asking a store, as part of a request. -/
theorem askStore_get (R : Registers host key V) (cmd : String) (side : Side) (holds : R.Holds s h) :
    (∃ found, ((askStore true cmd side (.get key)).run host s).1 = .ok found ∧
      found.map R.shown = h side) ∧
    R.Holds ((askStore true cmd side (.get key)).run host s).2 h := by
  rw [run_askStore]
  obtain ⟨answer, still⟩ := R.asked_get side holds
  exact ⟨answer, R.noted _ still⟩

theorem askStore_set (R : Registers host key V) (cmd : String) (side : Side) {item : Item}
    (holds : R.Holds s h) (accepted : R.accepts item) :
    ((askStore true cmd side (.set key item)).run host s).1 = .ok () ∧
    R.Holds ((askStore true cmd side (.set key item)).run host s).2
      (Function.update h side (some (R.shown item))) := by
  rw [run_askStore]
  obtain ⟨answer, now⟩ := R.asked_set side item holds accepted
  exact ⟨answer, R.noted _ now⟩

theorem askStore_delete (R : Registers host key V) (cmd : String) (side : Side)
    (holds : R.Holds s h) :
    ((askStore true cmd side (.delete key)).run host s).1 = .ok (h side).isSome ∧
    R.Holds ((askStore true cmd side (.delete key)).run host s).2
      (Function.update h side none) := by
  rw [run_askStore]
  obtain ⟨answer, now⟩ := R.asked_delete side holds
  exact ⟨answer, R.noted _ now⟩

/-- A get returns what the stage reads, and changes nothing. -/
theorem get_reads (R : Registers host key V) (routed : ∀ s, (host.table s).route key = stage)
    (holds : R.Holds s h) :
    (∃ found, ((get true key).run host s).1 = .ok found ∧ found.map R.shown = reads stage h) ∧
    R.Holds ((get true key).run host s).2 h := by
  unfold get lookup
  rw [run_bind, run_snapshot]
  simp only [routed]
  rw [run_bind]
  obtain ⟨⟨found, answer, same⟩, still⟩ := R.askStore_get "get" stage.primary holds
  rw [answer]
  unfold reads
  cases fallback : stage.fallback with
  | none => exact ⟨⟨found, rfl, by simp [same]⟩, still⟩
  | some side =>
    cases found with
    | some item => exact ⟨⟨some item, rfl, by simp [← same]⟩, still⟩
    | none =>
      obtain ⟨⟨second, answer, equal⟩, still⟩ := R.askStore_get "get" side still
      exact ⟨⟨second, answer, by simp [← same, equal]⟩, still⟩

theorem written_of_alone (v : Option V) (alone : stage.mirror = none) :
    written stage h v = Function.update h stage.primary v := by
  cases stage with
  | brw | crw =>
    funext side
    cases side <;> rfl
  | brwCw | bwCrw => cases alone

theorem written_of_mirror {other : Side} (v : Option V) (copied : stage.mirror = some other) :
    written stage h v = Function.update (Function.update h stage.primary v) other v := by
  cases stage with
  | brw | crw => cases copied
  | brwCw | bwCrw =>
    cases copied
    funext side
    cases side <;> rfl

/-- A set succeeds, and the item is wherever the stage writes. -/
theorem set_writes (R : Registers host key V) (routed : ∀ s, (host.table s).route key = stage)
    {item : Item} (holds : R.Holds s h) (accepted : R.accepts item) :
    ((set true key item).run host s).1 = .ok () ∧
    R.Holds ((set true key item).run host s).2 (written stage h (some (R.shown item))) := by
  unfold set
  rw [run_holding, run_bind, run_snapshot]
  simp only [routed]
  rw [run_bind]
  obtain ⟨answer, now⟩ :=
    R.askStore_set "set" stage.primary (R.held ⟨.setData, item.value.length⟩ holds) accepted
  rw [answer]
  cases copied : stage.mirror with
  | none =>
    rw [written_of_alone _ copied]
    exact ⟨rfl, R.released _ now⟩
  | some side =>
    rw [written_of_mirror _ copied]
    obtain ⟨answer, now⟩ :=
      R.askStore_set "set" side (R.held ⟨.mirrorData, item.value.length⟩ now) accepted
    simp only
    rw [run_bind, run_holding, run_mirror answer]
    exact ⟨rfl, R.released _ (R.released _ now)⟩

/-- A delete tells whether a get would have found the key, and the key is gone wherever the stage
writes. -/
theorem delete_writes (R : Registers host key V) (routed : ∀ s, (host.table s).route key = stage)
    (holds : R.Holds s h) :
    ((delete true key).run host s).1 = .ok (reads stage h).isSome ∧
    R.Holds ((delete true key).run host s).2 (written stage h none) := by
  unfold delete
  rw [run_bind, run_snapshot]
  simp only [routed]
  rw [run_bind]
  obtain ⟨answer, now⟩ := R.askStore_delete "delete" stage.primary holds
  rw [answer]
  cases copied : stage.mirror with
  | none =>
    rw [written_of_alone _ copied]
    refine ⟨?_, now⟩
    cases stage with
    | brw | crw => simp [reads, Stage.fallback, run_pure]
    | brwCw | bwCrw => cases copied
  | some side =>
    rw [written_of_mirror _ copied]
    obtain ⟨answer, now⟩ := R.askStore_delete "delete" side now
    simp only
    rw [run_bind, run_mirror answer]
    refine ⟨?_, now⟩
    cases stage with
    | brw | crw => cases copied
    | brwCw => simp [reads, Stage.fallback, run_pure]
    | bwCrw =>
      cases copied
      simp [reads, Stage.fallback, Stage.primary, run_pure]

end Registers

end QuorumKv.Dispatch
