import Mathlib.Logic.Function.Iterate
import QuorumKv.Proofs.Dispatch.Migration

/-! Sets of one key that go on at the same time. While both stores take writes, each request calls
the primary and then the mirror, and nothing keeps the calls of different requests in the same order
at both: each store ends with what the last call that reached it brought. -/
namespace QuorumKv.Dispatch

open Migration (Side Stage Table)

namespace Script

variable {α β σ : Type}

/-- One step of a script. It asks one store at most. -/
def step (host : Host σ) : Script α → σ → Script α × σ
  | done a, s => (done a, s)
  | table next, s => (next (host.table s), s)
  | ask side q next, s => (next (host.answer side q s).1, (host.answer side q s).2)
  | hold g next, s => (next, host.hold g s)
  | release g next, s => (next, host.release g s)
  | note e next, s => (next, host.note e s)

/-- The call that the next step makes. -/
def call? : Script α → Option (Side × Ask)
  | ask side q _ => some (side, q)
  | _ => none

def result? : Script α → Option α
  | done a => some a
  | _ => none

/-- Without anything in between, the steps of a script amount to its run. -/
theorem steps_run (host : Host σ) (p : Script α) (s : σ) :
    ∃ n, (fun c : Script α × σ => c.1.step host c.2)^[n] (p, s) =
      (done (p.run host s).1, (p.run host s).2) := by
  induction p generalizing s with
  | done a => exact ⟨0, rfl⟩
  | table next ih =>
    obtain ⟨n, rest⟩ := ih (host.table s) s
    exact ⟨n + 1, rest⟩
  | ask side q next ih =>
    obtain ⟨n, rest⟩ := ih (host.answer side q s).1 (host.answer side q s).2
    exact ⟨n + 1, rest⟩
  | hold g next ih =>
    obtain ⟨n, rest⟩ := ih (host.hold g s)
    exact ⟨n + 1, rest⟩
  | release g next ih =>
    obtain ⟨n, rest⟩ := ih (host.release g s)
    exact ⟨n + 1, rest⟩
  | note e next ih =>
    obtain ⟨n, rest⟩ := ih (host.note e s)
    exact ⟨n + 1, rest⟩

end Script

/-- Requests under way at one host, and the calls that have reached its stores, oldest first. -/
structure Pool (σ : Type) where
  requests : List (Script (Except Failure Unit))
  state : σ
  calls : List (Side × Ask)

namespace Pool

variable {σ : Type}

/-- Clients set one key to different items. -/
def ofItems (key : String) (items : List Item) (s : σ) : Pool σ :=
  ⟨items.map (set true key), s, []⟩

/-- One of the requests takes a step. -/
def step (host : Host σ) (p : Pool σ) (turn : Nat) : Pool σ :=
  match p.requests[turn]? with
  | none => p
  | some script =>
    let (next, s) := script.step host p.state
    ⟨p.requests.set turn next, s, p.calls ++ script.call?.toList⟩

def after (host : Host σ) (p : Pool σ) (turns : List Nat) : Pool σ :=
  turns.foldl (step host) p

/-- Whether all requests have returned. -/
def HasEnded (p : Pool σ) : Prop :=
  ∀ script ∈ p.requests, script.result?.isSome = true

instance (p : Pool σ) : Decidable p.HasEnded :=
  inferInstanceAs (Decidable (∀ script ∈ p.requests, _))

end Pool

/-- The last call that reached a store. -/
def latest (calls : List (Side × Ask)) (side : Side) : Option Ask :=
  (calls.reverse.find? fun call => call.1 == side).map (·.2)

theorem latest_snoc (calls : List (Side × Ask)) (call : Side × Ask) (side : Side) :
    latest (calls ++ [call]) side = if call.1 = side then some call.2 else latest calls side := by
  simp only [latest, List.reverse_append, List.reverse_singleton, List.singleton_append,
    List.find?_cons]
  by_cases same : call.1 = side
  · simp [same]
  · rw [beq_false_of_ne same, if_neg same]

theorem isSome_latest_snoc {calls : List (Side × Ask)} {side : Side} (call : Side × Ask)
    (before : (latest calls side).isSome) : (latest (calls ++ [call]) side).isSome := by
  rw [latest_snoc]
  split
  · rfl
  · exact before

/-- A script that sets an item in some stores, one after the other, and then returns `a`, as long as
every call succeeds. -/
inductive Sets (stage : Stage) (key : String) (item : Item) {α : Type} :
    List Side → Script α → α → Prop where
  | done (a : α) : Sets stage key item [] (.done a) a
  | table {sides next a} (rest : ∀ table : Table, table.route key = stage →
      Sets stage key item sides (next table) a) : Sets stage key item sides (.table next) a
  | ask {side sides next a} (rest : Sets stage key item sides (next (.ok ())) a) :
      Sets stage key item (side :: sides) (.ask side (.set key item) next) a
  | hold {sides guard next a} (rest : Sets stage key item sides next a) :
      Sets stage key item sides (.hold guard next) a
  | release {sides guard next a} (rest : Sets stage key item sides next a) :
      Sets stage key item sides (.release guard next) a
  | note {sides event next a} (rest : Sets stage key item sides next a) :
      Sets stage key item sides (.note event next) a

namespace Sets

variable {α β : Type} {stage : Stage} {key : String} {item : Item} {sides others : List Side}

theorem bind {p : Script α} {a : α} (first : Sets stage key item sides p a) {f : α → Script β}
    {b : β} (second : Sets stage key item others (f a) b) :
    Sets stage key item (sides ++ others) (p >>= f) b := by
  induction first with
  | done a => exact second
  | table _ ih => exact .table fun table routed => ih table routed second
  | ask _ ih => exact .ask (ih second)
  | hold _ ih => exact .hold (ih second)
  | release _ ih => exact .release (ih second)
  | note _ ih => exact .note (ih second)

theorem holding {p : Script α} {a : α} (guard : Buffer.Guard)
    (rest : Sets stage key item sides p a) : Sets stage key item sides (.holding guard p) a := by
  have whole := rest.bind (f := fun a => .release guard (.done a)) (.release (.done a))
  rw [List.append_nil] at whole
  exact .hold whole

theorem askStore (cmd : String) (side : Side) :
    Sets stage key item [side] (askStore true cmd side (.set key item)) (.ok ()) := by
  rw [Dispatch.askStore, if_neg (by simp)]
  exact .ask (.note (.done _))

theorem mirror (cmd : String) (at_ : Stage) (side : Side) :
    Sets stage key item [side] (mirror true cmd key at_ side (.set key item)) (some ()) :=
  (askStore cmd side).bind (.done _)

/-- In a stage with a mirror, a set calls the primary and then the mirror. -/
theorem set {side : Side} (copied : stage.mirror = some side) :
    Sets stage key item [stage.primary, side] (set true key item) (.ok ()) := by
  apply holding
  refine .table fun table routed => ?_
  simp only [Script.bind, routed]
  change Sets stage key item ([stage.primary] ++ ([side] ++ [])) _ _
  refine (askStore "set" stage.primary).bind ?_
  simp only [copied]
  exact ((mirror "set" stage side).holding _).bind (.done _)

/-- One step of such a script. A call of its own takes a store off its list, and leaves the item
there. -/
theorem step {σ V : Type} {host : Host σ} {s : σ} {h : Side → Option V} {p : Script α} {a : α}
    (sets : Sets stage key item sides p a) (R : Registers host key V)
    (routed : ∀ s, (host.table s).route key = stage) (accepted : R.accepts item)
    (holds : R.Holds s h) :
    match p.call? with
    | none => Sets stage key item sides (p.step host s).1 a ∧ R.Holds (p.step host s).2 h
    | some (side, q) => q = .set key item ∧ ∃ rest, sides = side :: rest ∧
        Sets stage key item rest (p.step host s).1 a ∧
        R.Holds (p.step host s).2 (Function.update h side (some (R.shown item))) := by
  cases sets with
  | done => exact ⟨.done a, holds⟩
  | table rest => exact ⟨rest _ (routed s), holds⟩
  | ask rest =>
    obtain ⟨answer, now⟩ := R.asked_set _ item holds accepted
    refine ⟨rfl, _, rfl, ?_, now⟩
    simp only [Script.step, answer]
    exact rest
  | hold rest => exact ⟨rest, R.held _ holds⟩
  | release rest => exact ⟨rest, R.released _ holds⟩
  | note rest => exact ⟨rest, R.noted _ holds⟩

/-- A script that has returned did all that it had to do. -/
theorem ended {p : Script α} {a : α} (sets : Sets stage key item sides p a)
    (finished : p.result?.isSome = true) : sides = [] ∧ p = .done a := by
  cases sets with
  | done => exact ⟨rfl, rfl⟩
  | table | ask | hold | release | note => cases finished

end Sets

section Pool

variable {σ V : Type} {host : Host σ} {key : String} {stage : Stage} {items : List Item}

/-- What holds while sets of a key go on: each store holds what its last call brought, and a request
still has to call every store that nobody has called. -/
structure Pool.Sound (R : Registers host key V) (stage : Stage) (items : List Item)
    (p : Pool σ) : Prop where
  holds : ∃ h, R.Holds p.state h ∧ ∀ side q, latest p.calls side = some q →
    ∃ item ∈ items, q = .set key item ∧ h side = some (R.shown item)
  requests : ∀ script ∈ p.requests, ∃ item ∈ items, ∃ sides,
    Sets stage key item sides script (.ok ()) ∧
      ∀ side, side ∈ sides ∨ (latest p.calls side).isSome

theorem Pool.Sound.step {R : Registers host key V} {p : Pool σ} (sound : p.Sound R stage items)
    (routed : ∀ s, (host.table s).route key = stage) (accepted : ∀ item ∈ items, R.accepts item)
    (turn : Nat) : (p.step host turn).Sound R stage items := by
  unfold Pool.step
  cases there : p.requests[turn]? with
  | none => exact sound
  | some script =>
    obtain ⟨item, listed, sides, sets, called⟩ := sound.requests script (List.mem_of_getElem? there)
    obtain ⟨h, holds, last⟩ := sound.holds
    have stepped := sets.step R routed (accepted item listed) holds
    cases call : script.call? with
    | none =>
      rw [call] at stepped
      simp only [call, Option.toList_none, List.append_nil]
      refine ⟨⟨h, stepped.2, last⟩, ?_⟩
      intro other known
      obtain old | rfl := List.mem_or_eq_of_mem_set known
      · exact sound.requests other old
      · exact ⟨item, listed, sides, stepped.1, called⟩
    | some made =>
      obtain ⟨side, q⟩ := made
      rw [call] at stepped
      obtain ⟨rfl, rest, rfl, sets, holds⟩ := stepped
      simp only [call, Option.toList_some]
      refine ⟨⟨_, holds, ?_⟩, ?_⟩
      · intro any q reached
        rw [latest_snoc] at reached
        by_cases same : side = any
        · subst same
          rw [if_pos rfl] at reached
          exact ⟨item, listed, (Option.some.inj reached).symm, Function.update_self ..⟩
        · rw [if_neg same] at reached
          rw [Function.update_of_ne (Ne.symm same)]
          exact last any q reached
      · intro other known
        obtain old | rfl := List.mem_or_eq_of_mem_set known
        · obtain ⟨item, listed, sides, sets, called⟩ := sound.requests other old
          exact ⟨item, listed, sides, sets, fun any =>
            (called any).imp_right (isSome_latest_snoc _)⟩
        · refine ⟨item, listed, rest, sets, fun any => ?_⟩
          obtain due | before := called any
          · obtain rfl | still := List.mem_cons.mp due
            · exact .inr (by rw [latest_snoc, if_pos rfl]; rfl)
            · exact .inl still
          · exact .inr (isSome_latest_snoc _ before)

theorem Pool.Sound.after {R : Registers host key V} {p : Pool σ} (sound : p.Sound R stage items)
    (routed : ∀ s, (host.table s).route key = stage) (accepted : ∀ item ∈ items, R.accepts item)
    (turns : List Nat) : (p.after host turns).Sound R stage items := by
  induction turns generalizing p with
  | nil => exact sound
  | cons turn rest ih => exact ih (sound.step routed accepted turn)

/-- When all requests have returned, each store has been called, and holds what its last call
brought. -/
theorem Pool.Sound.ended {R : Registers host key V} {p : Pool σ} (sound : p.Sound R stage items)
    (ended : p.HasEnded) (some_request : 0 < p.requests.length) :
    (∀ script ∈ p.requests, script = .done (.ok ())) ∧
    ∃ last : Side → Item,
      (∀ side, last side ∈ items ∧ latest p.calls side = some (.set key (last side))) ∧
      R.Holds p.state fun side => some (R.shown (last side)) := by
  have returned : ∀ script ∈ p.requests, script = .done (.ok ()) ∧
      ∀ side, (latest p.calls side).isSome := by
    intro script known
    obtain ⟨item, -, sides, sets, called⟩ := sound.requests script known
    obtain ⟨rfl, same⟩ := sets.ended (ended script known)
    exact ⟨same, fun side => (called side).resolve_left List.not_mem_nil⟩
  obtain ⟨script, known⟩ := List.exists_mem_of_length_pos some_request
  obtain ⟨h, holds, brought⟩ := sound.holds
  have each (side : Side) : ∃ item ∈ items, latest p.calls side = some (.set key item) ∧
      h side = some (R.shown item) := by
    obtain ⟨q, reached⟩ := Option.isSome_iff_exists.mp ((returned script known).2 side)
    obtain ⟨item, listed, rfl, held⟩ := brought side q reached
    exact ⟨item, listed, reached, held⟩
  choose last listed reached held using each
  obtain rfl : h = fun side => some (R.shown (last side)) := funext held
  exact ⟨fun script known => (returned script known).1, last,
    fun side => ⟨listed side, reached side⟩, holds⟩

theorem Pool.length_after (host : Host σ) (p : Pool σ) (turns : List Nat) :
    (p.after host turns).requests.length = p.requests.length := by
  induction turns generalizing p with
  | nil => rfl
  | cons turn rest ih =>
    refine (ih (p.step host turn)).trans ?_
    unfold Pool.step
    split
    · rfl
    · exact List.length_set ..

/-- Every store is the primary or the mirror of a stage that has a mirror. -/
theorem mem_primary_mirror {stage : Stage} {mirror : Side} (copied : stage.mirror = some mirror)
    (side : Side) : side ∈ [stage.primary, mirror] := by
  cases stage with
  | brw | crw => cases copied
  | brwCw | bwCrw =>
    cases copied
    cases side <;> decide

theorem Pool.sound_ofItems {s : σ} {h : Side → Option V} (R : Registers host key V)
    (start : R.Holds s h) {mirror : Side} (copied : stage.mirror = some mirror) :
    (ofItems key items s).Sound R stage items := by
  constructor
  · refine ⟨h, start, ?_⟩
    rintro side q ⟨⟩
  · intro script known
    obtain ⟨item, listed, rfl⟩ := List.mem_map.mp known
    refine ⟨item, listed, [stage.primary, mirror], .set copied, fun side => .inl ?_⟩
    exact mem_primary_mirror copied side

end Pool

variable {σ V : Type} {host : Host σ} {key : String} {items : List Item} {s : σ}
  {h : Side → Option V}

/-- When all of some concurrent sets have returned, each store holds what the last call that reached
it brought. A reader finds that of the legacy store before the key moves on, and that of the new
store afterwards: the same, just when the two calls brought the same. -/
theorem stores_hold_last_calls (R : Registers host key V) (start : R.Holds s h) (table : Table)
    {mirror : Side} (copied : (table.route key).mirror = some mirror) (some_request : items ≠ [])
    (accepted : ∀ item ∈ items, R.accepts item) (turns : List Nat)
    (ended : ((Pool.ofItems key items s).after (host.under table) turns).HasEnded) :
    let p := (Pool.ofItems key items s).after (host.under table) turns
    (∀ script ∈ p.requests, script = .done (.ok ())) ∧
    ∃ last : Side → Item,
      (∀ side, last side ∈ items ∧ latest p.calls side = some (.set key (last side))) ∧
      (R.Holds p.state fun side => some (R.shown (last side))) ∧
      ∀ before after : Table, before.route key = .brwCw → after.route key = .bwCrw →
        ∃ x y, ((get true key).run (host.under before) p.state).1 = .ok x ∧
          ((get true key).run (host.under after) p.state).1 = .ok y ∧
          x.map R.shown = some (R.shown (last .legacy)) ∧
          y.map R.shown = some (R.shown (last .new)) ∧
          (x.map R.shown = y.map R.shown ↔
            R.shown (last .legacy) = R.shown (last .new)) := by
  intro p
  have sound : p.Sound (R.under table) (table.route key) items :=
    (Pool.sound_ofItems (R.under table) start copied).after (route_under table key) accepted turns
  have some_script : 0 < p.requests.length := by
    rw [Pool.length_after, Pool.ofItems, List.length_map]
    exact List.length_pos_iff.mpr some_request
  obtain ⟨returned, last, calls, holds⟩ := sound.ended ended some_script
  refine ⟨returned, last, calls, holds, ?_⟩
  intro before after first second
  obtain ⟨⟨x, answered, found⟩, -⟩ := (R.under before).get_reads (route_under before key) holds
  obtain ⟨⟨y, replied, moved⟩, -⟩ := (R.under after).get_reads (route_under after key) holds
  rw [first] at found
  rw [second] at moved
  have legacy : x.map R.shown = some (R.shown (last .legacy)) := found
  have new : y.map R.shown = some (R.shown (last .new)) := moved
  refine ⟨x, y, answered, replied, legacy, new, ?_⟩
  rw [legacy, new, Option.some_inj]

/-- Two items for one key. -/
def rivals : List Item :=
  [⟨0, [97], .auto⟩, ⟨0, [98], .auto⟩]

/-- Two sets under way at once, in a stage with a mirror. -/
def race (turns : List Nat) : Pool Memory :=
  (Pool.ofItems "k" rivals (Memory.start ⟨.brwCw, []⟩ 0)).after (Memory.host.under ⟨.brwCw, []⟩)
    turns

/-- The second request calls both stores after the first. -/
def inOrder : List Nat :=
  [0, 0, 0, 1, 1, 1, 0, 0, 0, 0, 0, 0, 1, 1, 1, 1, 1, 1]

/-- The second request calls the primary after the first, and the mirror before it. -/
def overtaking : List Nat :=
  [0, 0, 0, 1, 1, 1, 1, 1, 1, 1, 1, 1, 0, 0, 0, 0, 0, 0]

/-- Where the calls come in the same order, both stores hold the second item. -/
theorem stores_hold_last_calls_inOrder :
    ((Memory.registers "k").Holds (Memory.start ⟨.brwCw, []⟩ 0) (fun _ => none) ∧
      ((⟨.brwCw, []⟩ : Table).route "k").mirror = some .new ∧ rivals ≠ [] ∧
      (∀ item ∈ rivals, item.rev = .auto) ∧ (race inOrder).HasEnded) ∧
    (∀ script ∈ (race inOrder).requests, script = .done (.ok ())) ∧
      (race inOrder).state.contents "k" = fun _ => some (0, [98]) := by
  have start := Memory.registers_start "k" ⟨.brwCw, []⟩ 0
  have copied : ((⟨.brwCw, []⟩ : Table).route "k").mirror = some .new := rfl
  have auto : ∀ item ∈ rivals, item.rev = .auto := by decide
  have ended : (race inOrder).HasEnded := by decide +kernel
  have kept := stores_hold_last_calls (Memory.registers "k") start ⟨.brwCw, []⟩ copied
    (by decide : rivals ≠ []) auto inOrder ended
  rw [← race] at kept
  obtain ⟨returned, last, calls, ⟨-, holds⟩, -⟩ := kept
  refine ⟨⟨start, copied, by decide, auto, ended⟩, returned, holds.trans ?_⟩
  have second (side : Side) : latest (race inOrder).calls side =
      some (.set "k" ⟨0, [98], .auto⟩) := by
    cases side <;> decide +kernel
  funext side
  have same : last side = ⟨0, [98], .auto⟩ := by
    simpa using (calls side).2.symm.trans (second side)
  rw [same]
  rfl

/-- A request that is overtaken between its two calls leaves its item in the mirror alone, and once
the key has moved on a reader finds another item than before. -/
theorem stores_differ_after_overtaking :
    (race overtaking).requests.map Script.result? = [some (.ok ()), some (.ok ())] ∧
    (race overtaking).state.events = [.asked "set" .legacy true, .asked "set" .new true,
      .asked "set" .legacy true, .asked "set" .new true] ∧
    (race overtaking).state.contents "k" .legacy = some (0, [98]) ∧
    (race overtaking).state.contents "k" .new = some (0, [97]) ∧
    (((get true "k").run (Memory.host.under ⟨.brwCw, []⟩) (race overtaking).state).1.map
      fun found => found.map Item.content) = .ok (some (0, [98])) ∧
    (((get true "k").run (Memory.host.under ⟨.bwCrw, []⟩) (race overtaking).state).1.map
      fun found => found.map Item.content) = .ok (some (0, [97])) := by
  decide +kernel

end QuorumKv.Dispatch
