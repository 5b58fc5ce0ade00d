import Mathlib.Data.List.TakeWhile
import QuorumKv.Proofs.Dispatch.Numbering
import QuorumKv.Proofs.Store.Layout

/-! The revisions that clients are shown while a key moves from one store to the other. A reader who
moves with the key may be shown a lower revision than before, once, and by no more than the old
store was ahead. -/
namespace QuorumKv.Dispatch

open Migration (Side Stage Table)
open Revision (level shown lead)

variable {σ : Type} {host : Host σ} {key : String} {s : σ} {traffic : Traffic}

def Host.serve (host : Host σ) (traffic : Traffic) (s : σ) : σ :=
  traffic.foldl (fun s (table, q) => ((request true q).run (host.under table) s).2) s

/-- What the gets of a key among requests find, oldest first. -/
def Host.finds (host : Host σ) (key : String) : Traffic → σ → List (Side × Revision)
  | [], _ => []
  | (table, q) :: rest, s =>
    (if q = .get key then (host.under table).sees key s else none).toList ++
      host.finds key rest ((request true q).run (host.under table) s).2

/-- The requests of clients number a key as the stages say, and find these numbers. -/
theorem RecordStores.serve_eq (R : RecordStores host) (answers : R.Answers s)
    (auto : ∀ entry ∈ traffic, entry.2.IsAuto key) :
    R.numbers key (host.serve traffic s) = (R.numbers key s).after key traffic ∧
      host.finds key traffic s = (R.numbers key s).finds key traffic ∧
      R.Answers (host.serve traffic s) := by
  induction traffic generalizing s with
  | nil => exact ⟨rfl, rfl, answers⟩
  | cons entry rest ih =>
    obtain ⟨table, q⟩ := entry
    obtain ⟨first, others⟩ := List.forall_mem_cons.mp auto
    obtain ⟨stepped, still⟩ :=
      (R.under table).numbers_request (route_under table key) answers q first
    have seen := (R.under table).sees_eq (route_under table key) answers
    change R.numbers key _ = (R.numbers key s).step key (table.route key) q at stepped
    change _ = (R.numbers key s).sees (table.route key) at seen
    obtain ⟨after, finds, answers⟩ := ih still others
    rw [stepped] at after finds
    refine ⟨after, ?_, answers⟩
    rw [Host.finds, finds, seen]
    rfl

theorem isNumber_after (changes : List Store.Change) (key : String) :
    Revision.IsNumber ((Store.empty.after changes).number? key) := by
  intro r there
  obtain ⟨record, held, rfl⟩ := Option.map_eq_some_iff.mp there
  exact ⟨((Store.laidOut_after changes).records key record held).numbered,
    Store.isBounded_after changes key record held⟩

/-- The requests before a key leaves the first stage. -/
def untilLeft (key : String) (traffic : Traffic) : Traffic :=
  traffic.takeWhile fun entry => entry.1.route key = .brw

/-- A key that has left the first stage does not come back to it. -/
theorem split_untilLeft (forward : MovesForward key (traffic.map (·.1))) :
    ∃ late, traffic = untilLeft key traffic ++ late ∧
      (∀ entry ∈ untilLeft key traffic, entry.1.route key = .brw) ∧
      ∀ entry ∈ late, entry.1.route key ≠ .brw := by
  refine ⟨traffic.dropWhile fun entry => entry.1.route key = .brw,
    List.takeWhile_append_dropWhile.symm, ?_, ?_⟩
  · intro entry listed
    have still := List.mem_takeWhile_imp listed
    exact of_decide_eq_true still
  · induction traffic with
    | nil => exact fun entry listed => absurd listed List.not_mem_nil
    | cons entry rest ih =>
      obtain ⟨onward, ranks⟩ := Numbers.rank_of_forward forward
      rw [List.dropWhile_cons]
      split
      · exact ih onward
      · rename_i left
        intro later listed back
        have beyond := ranks later listed
        rw [back] at beyond
        cases stage : entry.1.route key with
        | brw => exact left (decide_eq_true stage)
        | brwCw | bwCrw | crw =>
          rw [stage] at beyond
          exact absurd beyond (by decide)

/-- Whether a key moves forward under requests to record stores that all calls get through to: first
those in the first stage, then the later ones. Sets of the key leave the revision to the stores. -/
structure RecordStores.Migrates (R : RecordStores host) (key : String) (s : σ)
    (early late : Traffic) : Prop where
  answers : R.Answers s
  start : ∀ side, ∃ changes, R.stores s side = Store.empty.after changes
  auto : ∀ table item, (table, .set key item) ∈ early ++ late → item.rev = .auto
  forward : MovesForward key ((early ++ late).map (·.1))
  first : ∀ entry ∈ early, entry.1.route key = .brw
  beyond : ∀ entry ∈ late, entry.1.route key ≠ .brw

/-- A client who reads a key under one table and sets it under a later one, and what others do in
between. -/
structure Update where
  table : Table
  meanwhile : Traffic
  later : Table
  item : Item

namespace Update

/-- What is done before the key is set. -/
def before (u : Update) (key : String) : Traffic :=
  (u.table, .get key) :: u.meanwhile

def tables (u : Update) : List Table :=
  u.table :: u.meanwhile.map (·.1) ++ [u.later]

/-- Whether the client found something and sets the next revision, and the others left the key
alone. -/
structure IsNext (u : Update) (host : Host σ) (key : String) (s : σ)
    (found : Side × Revision) : Prop where
  saw : (host.under u.table).sees key s = some found
  next : u.item.rev.val = found.2.val + 1
  alone : ∀ entry ∈ u.meanwhile, entry.2.changes key = false

theorem unchanged_before {u : Update} {found : Side × Revision} (next : u.IsNext host key s found) :
    ∀ entry ∈ u.before key, entry.2.changes key = false :=
  List.forall_mem_cons.mpr ⟨rfl, next.alone⟩

end Update

/-- The stores that a stage writes to. -/
theorem mem_written_iff {stage : Stage} {side : Side} :
    side ∈ stage.primary :: stage.mirror.toList ↔ stage.uses side = true := by
  cases stage <;> cases side <;> decide

namespace RecordStores.Migrates

variable {R : RecordStores host} {early late : Traffic}

theorem isAuto (way : R.Migrates key s early late) :
    ∀ entry ∈ early ++ late, entry.2.IsAuto key := by
  rintro ⟨table, q⟩ listed item rfl
  exact way.auto table item listed

theorem proper (way : R.Migrates key s early late) : (R.numbers key s).IsProper := by
  intro side
  obtain ⟨changes, same⟩ := way.start side
  rw [RecordStores.numbers, same]
  exact isNumber_after changes key

/-- The stores when the key leaves the first stage, and at the end. -/
theorem serve (way : R.Migrates key s early late) :
    let left := R.numbers key (host.serve early s)
    left = (R.numbers key s).after key early ∧ left.IsProper ∧ R.Answers (host.serve early s) ∧
      R.numbers key (host.serve (early ++ late) s) = left.after key late ∧
      R.Answers (host.serve (early ++ late) s) := by
  obtain ⟨autoEarly, autoLate⟩ := List.forall_mem_append.mp way.isAuto
  obtain ⟨leaves, -, answersLeft⟩ := R.serve_eq way.answers autoEarly
  obtain ⟨arrives, -, answersNow⟩ := R.serve_eq answersLeft autoLate
  have proper := Numbers.proper_after way.proper autoEarly
  rw [← leaves] at proper
  have serves : host.serve (early ++ late) s = host.serve late (host.serve early s) :=
    List.foldl_append
  rw [serves]
  exact ⟨leaves, proper, answersLeft, arrives, answersNow⟩

theorem follow (way : R.Migrates key s early late) :
    let left := R.numbers key (host.serve early s)
    (host.finds key (early ++ late) s).Pairwise (Follows (lead (left .legacy) (left .new))) := by
  intro left
  obtain ⟨(leaves : left = _), -⟩ := way.serve
  rw [(R.serve_eq way.answers way.isAuto).2.1, leaves]
  exact Numbers.finds_follow way.proper way.isAuto way.forward way.first way.beyond

/-- What the sets of an update call, and that no store refuses that showed the revision, or was near
the one that did. -/
theorem update (way : R.Migrates key s early late) (u : Update) (found : Side × Revision)
    (next : u.IsNext host key (host.serve (early ++ late) s) found)
    (onward : MovesForward key ((early ++ late).map (·.1) ++ u.tables)) :
    let left := R.numbers key (host.serve early s)
    let near (side : Side) := side = found.1 ∨ lead (left side) (left found.1) ≤ 1
    let live := host.under u.later
    let ready := host.serve (u.before key) (host.serve (early ++ late) s)
    (∀ call ∈ (set true key u.item).calls live ready, near call.side → call.ok = true) ∧
    (near (u.later.route key).primary →
      ((set true key u.item).run live ready).1 = .ok () ∧
      ((set true key u.item).calls live ready).map (·.side) =
        (u.later.route key).primary :: (u.later.route key).mirror.toList) := by
  intro left near live ready
  obtain ⟨-, properLeft, -, arrives, answersNow⟩ := way.serve
  have spared := Update.unchanged_before next
  have autoBefore : ∀ entry ∈ u.before key, entry.2.IsAuto key := by
    rintro ⟨table, q⟩ listed item rfl
    exact absurd (spared _ listed) (by simp [Ask.changes])
  obtain ⟨same, -, answersReady⟩ := R.serve_eq answersNow autoBefore
  have numbers : R.numbers key ready = left.after key late :=
    same.trans ((Numbers.after_unchanged spared).trans arrives)
  have seen : (left.after key late).sees (u.table.route key) = some found := by
    have reads := (R.under u.table).sees_eq (route_under u.table key) answersNow
    rw [← arrives]
    exact reads.symm.trans next.saw
  obtain ⟨-, after, across⟩ := List.pairwise_append.mp onward
  have taken (side : Side) (used : (u.later.route key).uses side = true) (close : near side) :
      u.item.rev.isTaken (R.numbers key ready side) = true := by
    rw [numbers]
    refine Numbers.isTaken_next properLeft (List.forall_mem_append.mp way.isAuto).2 ?_ way.beyond
      ?_ seen next.next used close
    · intro entry listed
      refine across entry.1 (List.mem_map_of_mem (List.mem_append_right _ listed)) u.table ?_
      exact List.mem_cons_self
    · exact (List.pairwise_cons.mp after).1 u.later (by simp)
  obtain ⟨ok, calls⟩ := (R.under u.later).calls_set (route_under u.later key) answersReady u.item
  constructor
  · intro call listed close
    rw [calls] at listed
    obtain ⟨side, among, rfl⟩ := List.mem_map.mp listed
    refine taken side (mem_written_iff.mp ?_) close
    split at among
    · exact among
    · exact List.mem_cons.mpr (.inl (List.mem_singleton.mp among))
  · intro close
    have accepted : u.item.rev.isTaken
        ((R.under u.later).numbers key ready (u.later.route key).primary) = true :=
      taken _ (mem_written_iff.mp List.mem_cons_self) close
    have fine := ok.trans accepted
    rw [calls, if_pos accepted, List.map_map]
    refine ⟨?_, List.map_id _⟩
    cases told : ((set true key u.item).run live ready).1 with
    | error e =>
      rw [told] at fine
      cases fine
    | ok done => rfl

/-- How far the revisions that are shown can fall, and that the next revision may then be too low for
the legacy store. -/
theorem exposed (way : R.Migrates key s early late) :
    let left := R.numbers key (host.serve early s)
    let drop := lead (left .legacy) (left .new)
    0 < drop → (level (left .legacy) : Int) + 2 ≤ Revision.greatest →
      ∃ more : Traffic, ∃ a b : Revision, R.Migrates key s early more ∧
        host.finds key more (host.serve early s) = [(.legacy, a), (.new, b)] ∧
        a.val = b.val + drop ∧
        ∀ item, item.rev.val = b.val + 1 → 1 < drop →
          ⟨.legacy, .set key item, false⟩ ∈
            (set true key item).calls (host.under ⟨.bwCrw, []⟩) (host.serve (early ++ more) s) := by
  intro left drop ahead room
  obtain ⟨-, (proper : left.IsProper), answersLeft, -, -⟩ := way.serve
  obtain ⟨a, b, legacy, new, found, fall⟩ := Numbers.finds_exposing proper ahead room
  obtain ⟨moves, fine⟩ := Numbers.moves_exposing key left
  have shows := (R.serve_eq answersLeft fun entry listed => (fine entry listed).2).2.1
  have again : R.Migrates key s early (Numbers.exposing key left) := by
    refine ⟨way.answers, way.start, ?auto, ?forward, way.first, fun entry listed =>
      (fine entry listed).1⟩
    case auto =>
      intro table item listed
      obtain old | added := List.mem_append.mp listed
      · exact way.auto table item (List.mem_append_left _ old)
      · exact (fine _ added).2 item rfl
    case forward =>
      have before := way.forward
      rw [List.map_append] at before ⊢
      refine List.pairwise_append.mpr ⟨(List.pairwise_append.mp before).1, moves, ?_⟩
      intro a old b _
      obtain ⟨entry, listed, rfl⟩ := List.mem_map.mp old
      rw [way.first entry listed]
      exact Nat.zero_le _
  refine ⟨_, a, b, again, shows.trans found, fall, ?_⟩
  intro item next wide
  change 1 < lead (left .legacy) (left .new) at wide
  obtain ⟨-, -, -, reached, answersNow⟩ := again.serve
  obtain ⟨-, calls⟩ :=
    (R.under ⟨.bwCrw, []⟩).calls_set (route_under ⟨.bwCrw, []⟩ key) answersNow item
  obtain ⟨behind, lower⟩ := Revision.val_of_shown new
  obtain ⟨before, higher⟩ := Revision.val_of_shown legacy
  rw [← reached] at lower higher
  have positive : 0 < item.rev.val := by omega
  have taken : item.rev.isTaken (R.numbers key
      (host.serve (early ++ Numbers.exposing key left) s) .new) = true :=
    (Revision.isTaken_iff positive _).mpr (by omega)
  have refused : item.rev.isTaken (R.numbers key
      (host.serve (early ++ Numbers.exposing key left) s) .legacy) = false :=
    Bool.eq_false_iff.mpr fun accepted => by
      have close := (Revision.isTaken_iff positive _).mp accepted
      omega
  rw [calls]
  refine List.mem_map.mpr ⟨.legacy, ?_, congrArg (Answered.mk _ _) refused⟩
  exact if_pos taken ▸ List.mem_cons_of_mem _ List.mem_cons_self

end RecordStores.Migrates

/-- Clients who read a key on its way from the legacy store to the new one are shown revisions that
do not go down, except where they come to the new store, and there by no more than the legacy store
was ahead when the key left the first stage. Whoever sets the revision after the one that was shown
is refused by neither the store that showed it nor one that was at most one ahead of that store.
And if the legacy store was ahead, a key may come to where it is shown under a revision that is
lower by just that, and then the next revision is refused if that was by more than one. -/
theorem revisions_follow (R : RecordStores host) (answers : R.Answers s)
    (start : ∀ side, ∃ changes, R.stores s side = Store.empty.after changes) {traffic : Traffic}
    (auto : ∀ table item, (table, .set key item) ∈ traffic → item.rev = .auto)
    (forward : MovesForward key (traffic.map (·.1))) :
    let early := untilLeft key traffic
    let left := R.numbers key (host.serve early s)
    let drop := lead (left .legacy) (left .new)
    let now := host.serve traffic s
    (host.finds key traffic s).Pairwise (Follows drop) ∧
    (∀ (u : Update) (found : Side × Revision), u.IsNext host key now found →
      MovesForward key (traffic.map (·.1) ++ u.tables) →
      let near (side : Side) := side = found.1 ∨ lead (left side) (left found.1) ≤ 1
      let live := host.under u.later
      let ready := host.serve (u.before key) now
      (∀ call ∈ (set true key u.item).calls live ready, near call.side → call.ok = true) ∧
      (near (u.later.route key).primary →
        ((set true key u.item).run live ready).1 = .ok () ∧
        ((set true key u.item).calls live ready).map (·.side) =
          (u.later.route key).primary :: (u.later.route key).mirror.toList)) ∧
    (0 < drop → (level (left .legacy) : Int) + 2 ≤ Revision.greatest →
      ∃ more : Traffic, ∃ a b : Revision, R.Migrates key s early more ∧
        host.finds key more (host.serve early s) = [(.legacy, a), (.new, b)] ∧
        a.val = b.val + drop ∧
        ∀ item, item.rev.val = b.val + 1 → 1 < drop →
          ⟨.legacy, .set key item, false⟩ ∈
            (set true key item).calls (host.under ⟨.bwCrw, []⟩) (host.serve (early ++ more) s)) := by
  intro early left drop now
  obtain ⟨late, split, first, beyond⟩ := split_untilLeft forward
  have way : R.Migrates key s early late :=
    ⟨answers, start, split ▸ auto, split ▸ forward, first, beyond⟩
  refine ⟨?follow, ?update, way.exposed⟩
  case follow =>
    have follow := way.follow
    rwa [← split] at follow
  case update =>
    intro u found
    have update := way.update u found
    rwa [← split] at update

/-- Two versions that only the legacy store numbers. -/
def headStart : Traffic :=
  [(⟨.brw, []⟩, .set "k" ⟨0, [97], .auto⟩), (⟨.brw, []⟩, .get "k"), (⟨.brw, []⟩, .delete "k")]

/-- A version that both stores number, read from one and then from the other. -/
def handover : Traffic :=
  [(⟨.brw, [("k", .brwCw)]⟩, .set "k" ⟨0, [99], .auto⟩), (⟨.brw, [("k", .brwCw)]⟩, .get "k"),
    (⟨.bwCrw, []⟩, .get "k")]

/-- The stores in memory, when nothing has been stored. -/
def blank : Memory :=
  Memory.start ⟨.brw, []⟩ 0

/-- The client that reads last, and sets the next revision. -/
def lastReader : Update :=
  ⟨⟨.bwCrw, []⟩, [], ⟨.bwCrw, []⟩, ⟨0, [100], .clamp 2⟩⟩

/-- The legacy store has numbered two versions more than the new one, and the revision that is shown
falls by two. -/
theorem revisions_follow_handover :
    Memory.records.Migrates "k" blank headStart handover ∧
    lastReader.IsNext Memory.host "k" (Memory.host.serve (headStart ++ handover) blank)
      (.new, .clamp 1) ∧
    (Memory.host.finds "k" (headStart ++ handover) blank).Pairwise (Follows 2) ∧
    ((set true "k" lastReader.item).run (Memory.host.under ⟨.bwCrw, []⟩)
      (Memory.host.serve (lastReader.before "k")
        (Memory.host.serve (headStart ++ handover) blank))).1 = .ok () := by
  have way : Memory.records.Migrates "k" blank headStart handover := by
    refine ⟨(Memory.registers_start "k" ⟨.brw, []⟩ 0).1, ?start, ?auto, by decide +kernel,
      by decide +kernel, by decide +kernel⟩
    case start =>
      rintro (_ | _) <;> exact ⟨[], rfl⟩
    case auto =>
      intro table item listed
      obtain ⟨-, rfl⟩ | ⟨-, rfl⟩ : _ ∨ _ := by
        simpa [headStart, handover] using listed
      all_goals rfl
  have next : lastReader.IsNext Memory.host "k"
      (Memory.host.serve (headStart ++ handover) blank) (.new, .clamp 1) :=
    ⟨by decide +kernel, by decide +kernel, fun entry listed => absurd listed List.not_mem_nil⟩
  have early : untilLeft "k" (headStart ++ handover) = headStart := by decide +kernel
  have ahead : lead (Memory.records.numbers "k" (Memory.host.serve headStart blank) .legacy)
      (Memory.records.numbers "k" (Memory.host.serve headStart blank) .new) = 2 := by
    decide +kernel
  obtain ⟨follow, update, -⟩ := revisions_follow Memory.records way.answers way.start way.auto
    way.forward
  rw [early, ahead] at follow
  have onward : MovesForward "k" ((headStart ++ handover).map (·.1) ++ lastReader.tables) := by
    decide +kernel
  exact ⟨way, next, follow, ((update lastReader _ next onward).2 (.inl rfl)).1⟩

/-- Two more versions after a get. -/
def overtaken : Traffic :=
  [(⟨.brw, []⟩, .set "k" ⟨0, [97], .auto⟩), (⟨.brw, []⟩, .get "k"),
    (⟨.brw, []⟩, .set "k" ⟨0, [98], .auto⟩), (⟨.brw, []⟩, .set "k" ⟨0, [99], .auto⟩)]

/-- A key that moves on without a call being lost is shown under a lower revision than before, and
the next revision is refused by the legacy store, which still takes writes. Revisions are refused as
well where the key has been set since the get. -/
theorem revisions_go_back :
    blank.IsUp ∧
    (MovesForward "k" ((headStart ++ handover).map (·.1)) ∧
      (Memory.host.finds "k" (headStart ++ handover) blank).map (fun found => found.2.val) =
        [1, 3, 1] ∧
      ((set true "k" ⟨0, [100], .clamp 2⟩).calls (Memory.host.under ⟨.bwCrw, []⟩)
        (Memory.host.serve (headStart ++ handover) blank)).map (fun call => (call.side, call.ok)) =
        [(.new, true), (.legacy, false)]) ∧
    MovesForward "k" (overtaken.map (·.1)) ∧
      (Memory.host.finds "k" overtaken blank).map (fun found => found.2.val) = [1] ∧
      ((set true "k" ⟨0, [100], .clamp 2⟩).calls (Memory.host.under ⟨.brw, []⟩)
        (Memory.host.serve overtaken blank)).map (fun call => (call.side, call.ok)) =
        [(.legacy, false)] :=
  ⟨(Memory.registers_start "k" ⟨.brw, []⟩ 0).1, by decide +kernel, by decide +kernel⟩

end QuorumKv.Dispatch
