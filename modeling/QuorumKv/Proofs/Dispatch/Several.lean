import Mathlib.Data.List.Basic
import QuorumKv.Proofs.Assoc
import QuorumKv.Proofs.Dispatch.Memory
import QuorumKv.Proofs.Dispatch.Served

/-! A request for several keys finds under each of them what a request for that key alone finds,
although it asks in groups: whichever store a group goes to, a key is asked of its primary first,
and of its fallback only if the primary did not have it. -/
namespace QuorumKv.Dispatch

open Migration (Side Stage Table)

/-- The stores of a host that are there answer every get, and a get of several keys as they answer
those of each. `Holds s h` says that in the state `s` they hold `h`. -/
structure Stocked {σ : Type} (host : Host σ) (hasNew : Bool) where
  Holds : σ → (String → Side → Option Item) → Prop
  asked_get {s h side} (key : String) : IsThere hasNew side → Holds s h →
    (host.answer side (.get key) s).1 = .ok (h key side) ∧
      Holds (host.answer side (.get key) s).2 h
  asked_getMulti {s h side} (keys : List String) : IsThere hasNew side → Holds s h →
    (∃ values, (host.answer side (.getMulti keys) s).1 = .ok values ∧
      ∀ key item, (key, item) ∈ values ↔ key ∈ keys ∧ h key side = some item) ∧
      Holds (host.answer side (.getMulti keys) s).2 h
  noted {s h} (event : Event) : Holds s h → Holds (host.note event s) h

/-- Only the legacy store is fallen back on, and it is always there. -/
theorem there_of_fallback {stage : Stage} {side : Side} (fallback : stage.fallback = some side)
    (hasNew : Bool) : IsThere hasNew side := by
  cases stage <;> cases fallback
  exact nofun

namespace Stocked

variable {σ : Type} {host : Host σ} {hasNew : Bool} {s : σ} {h : String → Side → Option Item}
  {keys : List String} {side : Side}

theorem askStore_get (S : Stocked host hasNew) (cmd key : String) (there : IsThere hasNew side)
    (holds : S.Holds s h) :
    ((askStore hasNew cmd side (.get key)).run host s).1 = .ok (h key side) ∧
      S.Holds ((askStore hasNew cmd side (.get key)).run host s).2 h := by
  rw [askStore_of_there there]
  obtain ⟨answer, still⟩ := S.asked_get key there holds
  exact ⟨answer, S.noted _ still⟩

/-- A get returns what the key's stage reads. -/
theorem get_reads (S : Stocked host hasNew) {key : String}
    (there : IsThere hasNew ((host.table s).route key).primary) (holds : S.Holds s h) :
    ((get hasNew key).run host s).1 = .ok (reads ((host.table s).route key) (h key)) := by
  unfold get lookup
  rw [run_bind, run_snapshot]
  generalize (host.table s).route key = stage at there
  simp only
  rw [run_bind]
  obtain ⟨answer, still⟩ := S.askStore_get "get" key there holds
  rw [answer]
  unfold reads
  cases fallback : stage.fallback with
  | none => simp [run_pure]
  | some side =>
    cases found : h key stage.primary with
    | some item => simp [Ask.isMiss, run_pure]
    | none =>
      exact (S.askStore_get "get" key (there_of_fallback fallback hasNew) still).1

/-- A group adds what its store has of its keys to what was found before. -/
theorem askGroup_finds (S : Stocked host hasNew) (found : Assoc String Item)
    (there : ∀ key ∈ keys, IsThere hasNew side) (holds : S.Holds s h) :
    (∃ all, ((askGroup hasNew side keys found).run host s).1 = .ok all ∧
      ∀ x, all.get? x = if x ∈ keys then (h x side).or (found.get? x) else found.get? x) ∧
      S.Holds ((askGroup hasNew side keys found).run host s).2 h := by
  unfold askGroup
  cases keys with
  | nil => exact ⟨⟨found, rfl, fun _ => rfl⟩, holds⟩
  | cons first rest =>
    rw [if_neg (by simp), run_bind, askStore_of_there (there first List.mem_cons_self)]
    obtain ⟨⟨values, answer, same⟩, still⟩ :=
      S.asked_getMulti (first :: rest) (there first List.mem_cons_self) holds
    simp only [Script.call, Script.run]
    rw [answer]
    refine ⟨⟨_, rfl, fun x => ?_⟩, S.noted _ still⟩
    have follow : ∀ key item, (key, item) ∈ values → h key side = some item :=
      fun key item listed => ((same key item).mp listed).2
    rw [Assoc.get?_foldl_put found follow]
    have named : x ∈ values.map (·.1) ↔ x ∈ first :: rest ∧ (h x side).isSome := by
      constructor
      · intro listed
        obtain ⟨⟨key, item⟩, found, rfl⟩ := List.mem_map.mp listed
        obtain ⟨asked, here⟩ := (same key item).mp found
        exact ⟨asked, by rw [here, Option.isSome_some]⟩
      · rintro ⟨asked, here⟩
        obtain ⟨item, here⟩ := Option.isSome_iff_exists.mp here
        exact List.mem_map_of_mem ((same x item).mpr ⟨asked, here⟩)
    by_cases asked : x ∈ first :: rest
    · cases here : h x side <;> simp only [named, asked, here, Option.isSome, if_true,
        Option.some_or, Option.none_or, and_true, and_false, Bool.false_eq_true, if_false]
    · rw [if_neg fun listed => asked (named.mp listed).1, if_neg asked]

/-- Groups of keys that go to different stores add what the store of each key has. -/
theorem askGroups_finds (S : Stocked host hasNew) (sideOf : String → Option Side)
    (found : Assoc String Item) (there : ∀ key ∈ keys, ∀ side ∈ sideOf key, IsThere hasNew side)
    (holds : S.Holds s h) :
    let keysOf (side : Side) := keys.filter fun key => sideOf key = some side
    (∃ all, ((askGroups hasNew keysOf found).run host s).1 = .ok all ∧
      ∀ x, all.get? x =
        if x ∈ keys then ((sideOf x).bind (h x)).or (found.get? x) else found.get? x) ∧
      S.Holds ((askGroups hasNew keysOf found).run host s).2 h := by
  intro keysOf
  have group (side : Side) : ∀ key ∈ keysOf side, IsThere hasNew side := by
    intro key listed
    obtain ⟨listed, here⟩ := List.mem_filter.mp listed
    exact there key listed side (by simpa using here)
  unfold askGroups
  rw [run_bind]
  obtain ⟨⟨old, answer, first⟩, still⟩ := S.askGroup_finds found (group .legacy) holds
  rw [answer]
  obtain ⟨⟨all, answer, second⟩, still⟩ := S.askGroup_finds old (group .new) still
  refine ⟨⟨all, answer, fun x => ?_⟩, still⟩
  rw [second, first]
  simp only [keysOf, List.mem_filter, decide_eq_true_eq]
  by_cases asked : x ∈ keys
  · cases sideOf x with
    | none => simp
    | some side => cases side <;> simp [asked]
  · simp [asked]

/-- A request for several keys returns, once each and in the order in which they first came, those
under which a get finds something, with what the get finds. -/
theorem getMulti_gets (S : Stocked host hasNew)
    (there : ∀ key ∈ keys, IsThere hasNew ((host.table s).route key).primary)
    (holds : S.Holds s h) :
    ∃ value : String → Option Item,
      (∀ key ∈ keys, ∀ t, S.Holds t h → host.table t = host.table s →
        ((get hasNew key).run host t).1 = .ok (value key)) ∧
      ((getMulti hasNew keys).run host s).1 =
        .ok (keys.eraseDups.filterMap fun key => (value key).map (key, ·)) := by
  refine ⟨fun key => reads ((host.table s).route key) (h key), ?_, ?_⟩
  · intro key listed t same table
    rw [S.get_reads (by rw [table]; exact there key listed) same, table]
  unfold getMulti
  rw [run_bind, run_snapshot]
  generalize host.table s = table at there
  simp only
  rw [run_bind]
  have primaries : ∀ key ∈ keys, ∀ side ∈ some (table.route key).primary, IsThere hasNew side :=
    fun key listed side here => (Option.some.inj here) ▸ there key listed
  obtain ⟨⟨found, answer, first⟩, still⟩ :=
    S.askGroups_finds (fun key => some (table.route key).primary) [] primaries holds
  simp only [Option.some.injEq] at answer first still
  rw [answer]
  simp only
  rw [run_bind]
  -- what the primaries had stays, so that only the keys they missed can gain from a fallback
  let missed := keys.filter fun key => !found.contains key
  have fallbacks : ∀ key ∈ missed, ∀ side ∈ (table.route key).fallback, IsThere hasNew side :=
    fun key _ side fallback => there_of_fallback fallback hasNew
  obtain ⟨⟨all, answer, second⟩, -⟩ :=
    S.askGroups_finds (fun key => (table.route key).fallback) found fallbacks still
  rw [answer]
  have value : ∀ key ∈ keys, all.get? key = reads (table.route key) (h key) := by
    intro key listed
    have primary : found.get? key = h key (table.route key).primary := by
      rw [first, if_pos listed]
      exact Option.or_none
    rw [second, primary, reads]
    cases here : h key (table.route key).primary with
    | some item => simp [missed, Assoc.contains, primary, here]
    | none => simp [missed, Assoc.contains, primary, here, listed]
  simp only [run_pure, Assoc.inOrder_eq]
  congr 1
  refine List.filterMap_congr fun key listed => ?_
  rw [value key (List.mem_eraseDups.mp listed)]

end Stocked

namespace Memory

/-- What each store has under a key. -/
def stock (m : Memory) (key : String) (side : Side) : Option Item :=
  (m.store side).get? key

theorem putStore_store (m : Memory) (side : Side) : m.putStore side (m.store side) = m := by
  cases side <;> rfl

/-- Two record stores that do not refuse calls. -/
def stocked (hasNew : Bool) : Stocked host hasNew where
  Holds m h := m.IsUp ∧ m.stock = h
  asked_get {m h side} key _ := by
    rintro ⟨up, rfl⟩
    simp only [host, answer_of_isUp up, Store.answer, putStore_store]
    exact ⟨rfl, up, trivial⟩
  asked_getMulti {m h side} keys _ := by
    rintro ⟨up, rfl⟩
    simp only [host, answer_of_isUp up, Store.answer, putStore_store]
    refine ⟨⟨_, rfl, fun key item => ?_⟩, up, trivial⟩
    simp only [List.mem_filterMap, Option.map_eq_some_iff, Prod.mk.injEq]
    constructor
    · rintro ⟨_, listed, _, here, rfl, rfl⟩
      exact ⟨listed, here⟩
    · rintro ⟨listed, here⟩
      exact ⟨key, listed, item, here, rfl, rfl⟩
  noted _ := id

end Memory

/-- In one request, a key that only the fallback has, one that both stores have, asked for twice,
one of the legacy store and two that are nowhere. -/
theorem getMulti_gets_stages :
    let old := (Store.empty.set "b:1" ⟨0, [49], .auto⟩ 0).2
    let m : Memory :=
      { Memory.start ⟨.brw, [("b:", .bwCrw), ("c:", .crw)]⟩ 0 with
        legacy := ((old.set "b:2" ⟨0, [50], .auto⟩ 0).2.set "a" ⟨0, [51], .auto⟩ 0).2
        new := (Store.empty.set "b:2" ⟨1, [52], .auto⟩ 0).2 }
    let keys := ["b:2", "b:1", "c:1", "a", "b:2", "b:3"]
    ((get true "b:1").run Memory.host m).1 = .ok (some ⟨0, [49], .clamp 1⟩) ∧
    ((getMulti true keys).run Memory.host m).1 =
      .ok [("b:2", ⟨1, [52], .clamp 1⟩), ("b:1", ⟨0, [49], .clamp 1⟩),
        ("a", ⟨0, [51], .clamp 1⟩)] := by
  intro old m keys
  have up : m.IsUp := by
    rintro (_ | _) <;> rfl
  have there : ∀ key ∈ keys, IsThere true ((Memory.host.table m).route key).primary :=
    fun _ _ _ => rfl
  have holds : (Memory.stocked true).Holds m m.stock := ⟨up, rfl⟩
  obtain ⟨value, single, several⟩ := (Memory.stocked true).getMulti_gets there holds
  have alone (key : String) (found : Option Item) (listed : key ∈ keys)
      (run : ((get true key).run Memory.host m).1 = .ok found) : value key = found :=
    Except.ok.inj ((single key listed m holds rfl).symm.trans run)
  have fallback : ((get true "b:1").run Memory.host m).1 = .ok (some ⟨0, [49], .clamp 1⟩) := by
    decide
  refine ⟨fallback, several.trans ?_⟩
  have once : keys.eraseDups = ["b:2", "b:1", "c:1", "a", "b:3"] := by decide
  rw [once]
  simp only [List.filterMap_cons, List.filterMap_nil, Option.map,
    alone "b:1" _ (by decide) fallback,
    alone "b:2" (some ⟨1, [52], .clamp 1⟩) (by decide) (by decide),
    alone "a" (some ⟨0, [51], .clamp 1⟩) (by decide) (by decide),
    alone "c:1" none (by decide) (by decide), alone "b:3" none (by decide) (by decide)]

end QuorumKv.Dispatch
