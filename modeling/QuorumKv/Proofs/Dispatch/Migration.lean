import Mathlib.Data.List.Induction
import QuorumKv.Proofs.Dispatch.Memory

/-! A key on its way from the legacy store to the new one. While its stage only moves forward, a
reader finds what was written last, whichever stores took it. The only key that is lost is one that
went straight from the first stage to the last, where nothing had copied it. -/
namespace QuorumKv.Dispatch

open Migration (Side Stage Table)

/-- What a client does with a key. -/
inductive Deed where
  | get
  | set (item : Item)
  | delete

namespace Deed

def ask (key : String) : Deed → Ask
  | get => .get key
  | set item => .set key item
  | delete => .delete key

/-- What is left under the key by a deed that changes it. -/
def leaves {V : Type} (shown : Item → V) : Deed → Option (Option V)
  | get => none
  | set item => some (some (shown item))
  | delete => some none

end Deed

/-- The host when another table is live. -/
def Host.under {σ : Type} (host : Host σ) (table : Table) : Host σ :=
  { host with table := fun _ => table }

/-- Each deed of a client with the table that was live. -/
abbrev History := List (Table × Deed)

def Host.after {σ : Type} (host : Host σ) (key : String) (past : History) (s : σ) : σ :=
  past.foldl (fun s (table, deed) => ((request true (deed.ask key)).run (host.under table) s).2) s

/-- Whether the stage of a key never goes back. -/
def MovesForward (key : String) (tables : List Table) : Prop :=
  tables.Pairwise fun earlier later => (earlier.route key).rank ≤ (later.route key).rank

instance (key : String) (tables : List Table) : Decidable (MovesForward key tables) :=
  inferInstanceAs (Decidable (List.Pairwise _ _))

/-- The last change of a key: the stage in which it was made, and what it left. A key that nobody
changed is as if it had been deleted at the very beginning. -/
def lastChange {V : Type} (key : String) (shown : Item → V) (past : History) : Stage × Option V :=
  (past.reverse.findSome? fun (table, deed) =>
    (deed.leaves shown).map fun left => (table.route key, left)).getD (.brw, none)

/-- What a reader in a stage is to find after the last change: what it left, except in the last
stage when it was made in the first. -/
def due {V : Type} (stage : Stage) (last : Stage × Option V) : Option V :=
  if last.1 = .brw ∧ stage = .crw then none else last.2

variable {V : Type} {last : Stage × Option V} {h : Side → Option V} {stage : Stage}

/-- What the stores hold after the last change. The new store got it unless it was made in the first
stage, and then it never got anything; the legacy store got it unless it was made in the last. -/
structure Tracks (last : Stage × Option V) (h : Side → Option V) : Prop where
  new : h .new = if last.1 = .brw then none else last.2
  legacy : last.1 ≠ .crw → h .legacy = last.2

/-- A change in the same stage or a later one is tracked. -/
theorem Tracks.change (tracks : Tracks last h) (later : last.1.rank ≤ stage.rank)
    (left : Option V) : Tracks (stage, left) (written stage h left) := by
  cases stage with
  | brw =>
    have first : last.1 = .brw := by
      cases made : last.1 <;> simp_all [Stage.rank]
    refine ⟨?_, fun _ => rfl⟩
    rw [if_pos rfl]
    exact tracks.new.trans (if_pos first)
  | brwCw | bwCrw => exact ⟨rfl, fun _ => rfl⟩
  | crw => exact ⟨rfl, fun other => absurd rfl other⟩

/-- A reader in the same stage or a later one finds what is due. -/
theorem Tracks.read (tracks : Tracks last h) (later : last.1.rank ≤ stage.rank) :
    reads stage h = due stage last := by
  have legacy : stage ≠ .crw → h .legacy = last.2 := by
    intro before
    apply tracks.legacy
    intro made
    rw [made] at later
    cases stage with
    | brw | brwCw | bwCrw => exact absurd later (by decide)
    | crw => exact before rfl
  cases stage with
  | brw | brwCw => simp [reads, due, Stage.primary, Stage.fallback, legacy]
  | bwCrw =>
    by_cases first : last.1 = .brw <;>
      simp [reads, due, Stage.primary, Stage.fallback, legacy, tracks.new, first]
  | crw => simp [reads, due, Stage.primary, Stage.fallback, tracks.new]

theorem lastChange_snoc (key : String) (shown : Item → V) (past : History) (table : Table)
    (deed : Deed) : lastChange key shown (past ++ [(table, deed)]) =
      match deed.leaves shown with
      | none => lastChange key shown past
      | some left => (table.route key, left) := by
  simp only [lastChange, List.reverse_append, List.reverse_singleton, List.singleton_append,
    List.findSome?_cons]
  cases deed with
  | get | set | delete => rfl

/-- The last change was made in a stage that the history went through, if there was any. -/
theorem lastChange_rank (key : String) (shown : Item → V) (past : History) {limit : Nat}
    (bounded : ∀ table ∈ past.map (·.1), (table.route key).rank ≤ limit) :
    (lastChange key shown past).1.rank ≤ limit := by
  induction past using List.reverseRecOn with
  | nil => exact Nat.zero_le _
  | append_singleton past newest ih =>
    obtain ⟨table, deed⟩ := newest
    simp only [List.map_append, List.forall_mem_append] at bounded
    rw [lastChange_snoc]
    cases deed with
    | get => exact ih bounded.1
    | set | delete => exact bounded.2 table (by simp)

variable {σ : Type} {host : Host σ} {key : String} {s : σ}

def Registers.under (R : Registers host key V) (table : Table) :
    Registers (host.under table) key V where
  shown := R.shown
  accepts := R.accepts
  Holds := R.Holds
  asked_get := R.asked_get
  asked_set := R.asked_set
  asked_delete := R.asked_delete
  held := R.held
  released := R.released
  noted := R.noted

theorem route_under (table : Table) (key : String) (s : σ) :
    ((host.under table).table s).route key = table.route key :=
  rfl

theorem after_snoc (past : History) (table : Table) (deed : Deed) :
    host.after key (past ++ [(table, deed)]) s =
      ((request true (deed.ask key)).run (host.under table) (host.after key past s)).2 := by
  rw [Host.after, List.foldl_append]
  rfl

/-- Whatever a client did while the stage moved forward, the stores hold what its last change
left. -/
theorem tracks_after (R : Registers host key V) (start : R.Holds s fun _ => none)
    (past : History) (forward : MovesForward key (past.map (·.1)))
    (accepted : ∀ table item, (table, .set item) ∈ past → R.accepts item) :
    ∃ h, R.Holds (host.after key past s) h ∧ Tracks (lastChange key R.shown past) h := by
  induction past using List.reverseRecOn with
  | nil => exact ⟨_, start, rfl, fun _ => rfl⟩
  | append_singleton past newest ih =>
    obtain ⟨table, deed⟩ := newest
    rw [List.map_append] at forward
    obtain ⟨before, -, later⟩ := List.pairwise_append.mp forward
    obtain ⟨h, holds, tracks⟩ := ih before fun table item listed =>
      accepted table item (List.mem_append_left _ listed)
    have bounded := lastChange_rank key R.shown past fun earlier listed =>
      later earlier listed table (by simp)
    rw [after_snoc, lastChange_snoc]
    cases deed with
    | get => exact ⟨h, ((R.under table).get_reads (route_under table key) holds).2, tracks⟩
    | set item =>
      have fits : R.accepts item := accepted table item (by simp)
      exact ⟨_, ((R.under table).set_writes (route_under table key) holds fits).2,
        tracks.change bounded _⟩
    | delete =>
      exact ⟨_, ((R.under table).delete_writes (route_under table key) holds).2,
        tracks.change bounded _⟩

/-- A client finds what its last change left, except in the last stage when that change was made in
the first. A delete tells whether a get would have found the key, and a set succeeds. -/
theorem finds_last_change (R : Registers host key V) (start : R.Holds s fun _ => none)
    (past : History) (table : Table) (forward : MovesForward key (past.map (·.1) ++ [table]))
    (accepted : ∀ table item, (table, .set item) ∈ past → R.accepts item) :
    let now := host.after key past s
    let live := host.under table
    ∃ found, ((get true key).run live now).1 = .ok found ∧
      found.map R.shown = due (table.route key) (lastChange key R.shown past) ∧
      ((delete true key).run live now).1 = .ok found.isSome ∧
      ∀ item, R.accepts item → ((set true key item).run live now).1 = .ok () := by
  intro now live
  obtain ⟨before, -, later⟩ := List.pairwise_append.mp forward
  obtain ⟨h, holds, tracks⟩ := tracks_after R start past before accepted
  have bounded := lastChange_rank key R.shown past fun earlier listed =>
    later earlier listed table (by simp)
  have reading : reads (table.route key) h = due (table.route key) _ := tracks.read bounded
  obtain ⟨⟨found, got, same⟩, -⟩ := (R.under table).get_reads (route_under table key) holds
  refine ⟨found, got, same.trans reading, ?_, ?_⟩
  · have deleted := ((R.under table).delete_writes (route_under table key) holds).1
    rwa [← same, Option.isSome_map] at deleted
  · intro item fits
    exact ((R.under table).set_writes (route_under table key) holds fits).1

/-- A walk through the stages in which both stores take writes, before the last one. -/
def walk : History :=
  [(⟨.brw, []⟩, .set ⟨0, [97], .auto⟩), (⟨.brw, [("k", .brwCw)]⟩, .delete),
    (⟨.brw, [("k", .bwCrw)]⟩, .set ⟨7, [98], .auto⟩), (⟨.bwCrw, []⟩, .get)]

/-- The stores after the walk. -/
def walked : Memory :=
  Memory.host.after "k" walk (Memory.start ⟨.brw, []⟩ 0)

/-- After the walk, a reader in the last stage finds what was set last. -/
theorem finds_last_change_walk :
    ((Memory.registers "k").Holds (Memory.start ⟨.brw, []⟩ 0) (fun _ => none) ∧
      MovesForward "k" (walk.map (·.1) ++ [⟨.crw, []⟩]) ∧
      ∀ table item, (table, .set item) ∈ walk → item.rev = .auto) ∧
    ∃ found, ((get true "k").run (Memory.host.under ⟨.crw, []⟩) walked).1 = .ok found ∧
      found.map Item.content = some (7, [98]) ∧
      ((delete true "k").run (Memory.host.under ⟨.crw, []⟩) walked).1 = .ok true := by
  have holds := Memory.registers_start "k" ⟨.brw, []⟩ 0
  have forward : MovesForward "k" (walk.map (·.1) ++ [⟨.crw, []⟩]) := by decide +kernel
  have auto : ∀ table item, (table, .set item) ∈ walk → item.rev = .auto := by
    rintro table item listed
    obtain ⟨-, rfl⟩ | ⟨-, rfl⟩ : _ ∨ _ := by simpa [walk] using listed
    · rfl
    · rfl
  have kept := finds_last_change (Memory.registers "k") holds walk ⟨.crw, []⟩ forward auto
  rw [← walked] at kept
  obtain ⟨found, got, same, deleted, -⟩ := kept
  have left : found.map Item.content = some (7, [98]) := same.trans (by decide +kernel)
  have there : found.isSome = true := by
    rw [← Option.isSome_map (f := Item.content), left]
    rfl
  rw [there] at deleted
  exact ⟨⟨holds, forward, auto⟩, found, got, left, deleted⟩

end QuorumKv.Dispatch
