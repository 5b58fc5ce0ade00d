import QuorumKv.Proofs.Dispatch.Records

/-! The numbers of a key in two record stores, while the key moves from one to the other. The store
that the key leaves may have numbered more versions than the one that it comes to, which had only
the writes since it received copies. How far it is ahead is settled when the key leaves the first
stage: from then on both stores number the same requests. -/
namespace QuorumKv

namespace Revision

theorem isTaken_iff {requested : Revision} (positive : 0 < requested.val)
    (number : Option Revision) :
    requested.isTaken number = true ↔ (level number : Int) ≤ requested.val := by
  have live : requested.isTombstone = false := by
    rw [isTombstone, decide_eq_false_iff_not]
    omega
  have explicit : requested ≠ auto := by
    rintro rfl
    exact absurd positive (by decide)
  simp only [isTaken, live, Bool.not_false, Bool.true_and, decide_eq_true_eq, explicit, false_or,
    magnitude]
  omega

/-- Whether a record may have such a number. -/
def IsNumber (number : Option Revision) : Prop :=
  ∀ r, number = some r → r.val ≠ 0 ∧ r.magnitude ≤ 9223372036854775807

variable {number a b : Option Revision}

theorem val_of_shown {r : Revision} (seen : shown number = some r) :
    number = some r ∧ r.val = level number := by
  obtain ⟨rfl, live⟩ := Option.filter_eq_some_iff.mp seen
  simp only [isTombstone, Bool.not_eq_true', decide_eq_false_iff_not] at live
  refine ⟨rfl, ?_⟩
  simp only [level, Option.elim_some, magnitude]
  omega

theorem level_le (proper : IsNumber number) : level number ≤ 9223372036854775807 := by
  cases number with
  | none => exact Nat.zero_le _
  | some r => exact (proper r rfl).2

theorem level_next (number : Option Revision) :
    level (some (next number)) = min (level number + 1) 9223372036854775807 := by
  cases number with
  | none => rfl
  | some r => exact next_magnitude r

theorem shown_next (number : Option Revision) : shown (some (next number)) = some (next number) := by
  rw [shown, Option.filter_some_pos]
  rw [next_not_tombstone, Bool.not_false]

theorem level_buried (proper : IsNumber number) :
    level (buried number) =
      if (shown number).isSome then min (level number + 1) 9223372036854775807
      else level number := by
  cases number with
  | none => rfl
  | some r =>
    obtain ⟨nonzero, bounded⟩ := proper r rfl
    have positive : 0 < r.magnitude := Int.natAbs_pos.mpr nonzero
    cases dead : r.isTombstone with
    | true => simp [buried, shown, dead]
    | false =>
      simp only [buried, shown, level, dead, Option.map_some, Option.elim_some, Bool.false_eq_true,
        if_false, tombstone_magnitude, Bool.not_false, Option.filter_some_pos, Option.isSome_some,
        if_true]
      omega

theorem shown_buried (number : Option Revision) : shown (buried number) = none := by
  cases number with
  | none => rfl
  | some r =>
    cases dead : r.isTombstone with
    | true => simp [buried, shown, dead]
    | false => simp [buried, shown, dead, tombstone_isTombstone]

theorem isNumber_next (number : Option Revision) : IsNumber (some (next number)) := by
  rintro r ⟨⟩
  cases number with
  | none => decide
  | some stored =>
    rw [next_val, next_magnitude]
    omega

theorem isNumber_buried (proper : IsNumber number) : IsNumber (buried number) := by
  cases number with
  | none => exact proper
  | some stored =>
    cases dead : stored.isTombstone with
    | true =>
      simp only [buried, Option.map_some, dead, if_true]
      exact proper
    | false =>
      simp only [buried, Option.map_some, dead, Bool.false_eq_true, if_false]
      rintro r ⟨⟩
      rw [tombstone_val, tombstone_magnitude]
      omega

/-- How far the first of two numbers may be ahead of the second from now on, while the same calls
reach both. A delete moves a number on only where there is something to delete. -/
def lead (a b : Option Revision) : Nat :=
  level a + (if (shown a).isSome ∧ shown b = none then 1 else 0) - level b

theorem level_le_lead (a b : Option Revision) : level a ≤ level b + lead a b := by
  unfold lead
  omega

theorem lead_next (a b : Option Revision) (proper : IsNumber a) :
    lead (some (next a)) (some (next b)) ≤ lead a b := by
  have bounded := level_le proper
  simp only [lead, level_next, shown_next]
  simp
  omega

theorem lead_buried (left : IsNumber a) (right : IsNumber b) :
    lead (buried a) (buried b) ≤ lead a b := by
  have bounded := level_le left
  simp only [lead, level_buried left, level_buried right, shown_buried]
  cases shown a <;> cases shown b <;> simp <;> omega

end Revision

/-- Whether the sets of a key leave the revision to the stores. -/
def Ask.IsAuto (key : String) (q : Ask) : Prop :=
  ∀ item, q = .set key item → item.rev = .auto

/-- What a call may make of the numbers of a key: nothing, the next ones, or those of tombstones. -/
theorem Ask.renumber_cases {key : String} {q : Ask} (auto : q.IsAuto key) :
    q.renumber key = id ∨ (q.renumber key = fun number => some (Revision.next number)) ∨
      q.renumber key = Revision.buried := by
  by_cases changed : q.changes key = true
  · cases q with
    | get | getMeta | getMulti => cases changed
    | set k item =>
      obtain rfl : k = key := eq_of_beq changed
      exact .inr (.inl (funext (renumber_set_auto k (auto item rfl))))
    | delete k =>
      obtain rfl : k = key := eq_of_beq changed
      exact .inr (.inr (funext (renumber_delete k)))
  · exact .inl (funext (renumber_of_unchanged (Bool.not_eq_true _ ▸ changed)))

section Call

open Revision

variable {key : String} {q : Ask} {a b : Option Revision}

theorem Ask.isNumber_renumber (auto : q.IsAuto key) (proper : IsNumber a) :
    IsNumber (q.renumber key a) := by
  obtain same | numbered | deleted := Ask.renumber_cases auto
  · rwa [same]
  · rw [numbered]
    exact isNumber_next a
  · rw [deleted]
    exact isNumber_buried proper

theorem Ask.level_le_renumber (auto : q.IsAuto key) (proper : IsNumber a) :
    level a ≤ level (q.renumber key a) := by
  have bounded := level_le proper
  obtain same | numbered | deleted := Ask.renumber_cases auto
  · rw [same]
    exact Nat.le_refl _
  · rw [numbered, level_next]
    omega
  · rw [deleted, level_buried proper]
    split <;> omega

theorem Ask.lead_renumber (auto : q.IsAuto key) (left : IsNumber a) (right : IsNumber b) :
    lead (q.renumber key a) (q.renumber key b) ≤ lead a b := by
  obtain same | numbered | deleted := Ask.renumber_cases auto
  · rw [same]
    exact Nat.le_refl _
  · rw [numbered]
    exact lead_next a b left
  · rw [deleted]
    exact lead_buried left right

/-- A key that is there where the second number is, if it is where the first one is, stays so. -/
theorem Ask.shown_renumber (auto : q.IsAuto key) (follows : shown b = none → shown a = none) :
    shown (q.renumber key b) = none → shown (q.renumber key a) = none := by
  obtain same | numbered | deleted := Ask.renumber_cases auto
  · rwa [same]
  · simp only [numbered, shown_next, reduceCtorEq, false_implies]
  · simp only [deleted, shown_buried, true_implies]

end Call

namespace Dispatch

open Migration (Side Stage Table)
open Revision (level shown lead)

/-- Requests of clients, each with the table that was live. -/
abbrev Traffic := List (Table × Ask)

/-- How what is found later may differ from what was found before: in the same store the revision
does not go down, from the new store there is no way back, and a reader who comes to it finds a
revision that is lower by some `drop` at most. -/
structure Follows (drop : Nat) (a b : Side × Revision) : Prop where
  grows : a.1 = b.1 → a.2.val ≤ b.2.val
  stays : a.1 = .new → b.1 = .new
  falls : a.2.val ≤ b.2.val + drop

theorem Follows.of_same {drop : Nat} {a b : Side × Revision} (same : a.1 = b.1)
    (grows : a.1 = b.1 → a.2.val ≤ b.2.val) : Follows drop a b := by
  refine ⟨grows, fun new => same.symm.trans new, ?_⟩
  have grown := grows same
  omega

/-- Where the stores are in between decides how far a revision may fall. -/
theorem Follows.of_levels {n : Numbers} {drop : Nat} {a b : Side × Revision}
    (before : a.2.val ≤ level (n a.1)) (after : level (n b.1) ≤ b.2.val)
    (stays : a.1 = .new → b.1 = .new) (bound : lead (n .legacy) (n .new) ≤ drop) :
    Follows drop a b := by
  obtain ⟨side, r⟩ := a
  obtain ⟨other, t⟩ := b
  simp only at before after stays
  cases side with
  | new =>
    obtain rfl := stays rfl
    exact .of_same rfl fun _ => Int.le_trans before after
  | legacy =>
    cases other with
    | legacy => exact .of_same rfl fun _ => Int.le_trans before after
    | new =>
      have apart := Revision.level_le_lead (n .legacy) (n .new)
      refine ⟨nofun, nofun, ?_⟩
      simp only
      omega

namespace Numbers

variable {key : String} {stage : Stage} {q : Ask} {n : Numbers} {traffic : Traffic}

/-- What requests make of the numbers of a key. -/
def after (key : String) (traffic : Traffic) (n : Numbers) : Numbers :=
  traffic.foldl (fun n (table, q) => n.step key (table.route key) q) n

/-- What a request shows of the numbers of a key, if it is a get. -/
def shows (key : String) (stage : Stage) (q : Ask) (n : Numbers) : Option (Side × Revision) :=
  if q = .get key then n.sees stage else none

/-- What the gets among requests find, oldest first. -/
def finds (key : String) : Traffic → Numbers → List (Side × Revision)
  | [], _ => []
  | (table, q) :: rest, n =>
    (n.shows key (table.route key) q).toList ++ finds key rest (n.step key (table.route key) q)

/-- Whether records may have these numbers. -/
def IsProper (n : Numbers) : Prop :=
  ∀ side, Revision.IsNumber (n side)

theorem proper_step (proper : n.IsProper) (auto : q.IsAuto key) :
    (n.step key stage q).IsProper := by
  intro side
  unfold step
  split
  · exact Ask.isNumber_renumber auto (proper side)
  · exact proper side

theorem level_step (proper : n.IsProper) (auto : q.IsAuto key) (side : Side) :
    level (n side) ≤ level (n.step key stage q side) := by
  unfold step
  split
  · exact Ask.level_le_renumber auto (proper side)
  · exact Nat.le_refl _

theorem proper_after (proper : n.IsProper) (auto : ∀ entry ∈ traffic, entry.2.IsAuto key) :
    (n.after key traffic).IsProper := by
  induction traffic generalizing n with
  | nil => exact proper
  | cons entry rest ih =>
    obtain ⟨first, others⟩ := List.forall_mem_cons.mp auto
    exact ih (proper_step proper first) others

theorem level_after (proper : n.IsProper) (auto : ∀ entry ∈ traffic, entry.2.IsAuto key)
    (side : Side) : level (n side) ≤ level (n.after key traffic side) := by
  induction traffic generalizing n with
  | nil => exact Nat.le_refl _
  | cons entry rest ih =>
    obtain ⟨first, others⟩ := List.forall_mem_cons.mp auto
    exact Nat.le_trans (level_step proper first side) (ih (proper_step proper first) others)

/-- A reader sees the number of the store that has the key: the primary, or the legacy store where
the new one has nothing. -/
theorem sees_cases {found : Side × Revision} (seen : n.sees stage = some found) :
    shown (n found.1) = some found.2 ∧ (found.1 = stage.primary ∨
      stage = .bwCrw ∧ found.1 = .legacy ∧ shown (n .new) = none) := by
  obtain primary | ⟨nothing, second⟩ := Option.or_eq_some_iff.mp seen
  · obtain ⟨r, there, rfl⟩ := Option.map_eq_some_iff.mp primary
    exact ⟨there, .inl rfl⟩
  · obtain ⟨side, next, second⟩ := Option.bind_eq_some_iff.mp second
    obtain ⟨r, there, rfl⟩ := Option.map_eq_some_iff.mp second
    cases stage with
    | brw | brwCw | crw => cases next
    | bwCrw =>
      cases next
      exact ⟨there, .inr ⟨rfl, rfl, Option.map_eq_none_iff.mp nothing⟩⟩

theorem shows_get {found : Side × Revision} (got : n.shows key stage q = some found) :
    q = .get key ∧ n.sees stage = some found := by
  unfold shows at got
  split at got
  · exact ⟨‹_›, got⟩
  · cases got

/-- A get changes nothing, and shows the number that the store has come to. -/
theorem shows_level {found : Side × Revision} (got : n.shows key stage q = some found) :
    n.step key stage q = n ∧ found.2.val = level (n found.1) := by
  obtain ⟨rfl, seen⟩ := shows_get got
  refine ⟨step_of_unchanged rfl stage n, ?_⟩
  exact (Revision.val_of_shown (sees_cases seen).1).2

/-- What a get finds in a store lies between the numbers that the store has before and after. -/
theorem finds_between (proper : n.IsProper) (auto : ∀ entry ∈ traffic, entry.2.IsAuto key)
    {found : Side × Revision} (listed : found ∈ n.finds key traffic) :
    (level (n found.1) : Int) ≤ found.2.val ∧
      found.2.val ≤ level (n.after key traffic found.1) := by
  induction traffic generalizing n with
  | nil => exact absurd listed List.not_mem_nil
  | cons entry rest ih =>
    obtain ⟨first, others⟩ := List.forall_mem_cons.mp auto
    obtain now | later := List.mem_append.mp listed
    · have same := (shows_level (Option.mem_toList.mp now)).2
      have grown := level_after proper auto found.1
      omega
    · have grown := @level_step key (entry.1.route key) entry.2 n proper first found.1
      obtain ⟨least, most⟩ := ih (proper_step proper first) others later
      exact ⟨by omega, most⟩

/-- A relation between what is found earlier and later, from what it says of one get and all that
follow it. -/
theorem pairwise_finds {R : Side × Revision → Side × Revision → Prop} {entry : Table × Ask}
    (first : ∀ found, n.shows key (entry.1.route key) entry.2 = some found →
      ∀ later ∈ n.finds key traffic, R found later)
    (others : ((n.step key (entry.1.route key) entry.2).finds key traffic).Pairwise R) :
    (n.finds key (entry :: traffic)).Pairwise R := by
  change List.Pairwise R ((n.shows key (entry.1.route key) entry.2).toList ++ _)
  cases got : n.shows key (entry.1.route key) entry.2 with
  | none => exact others
  | some found =>
    refine List.pairwise_cons.mpr ⟨?_, others⟩
    rw [(shows_level got).1]
    exact first found got

/-- What is found in one store never decreases. -/
theorem finds_sorted (proper : n.IsProper) (auto : ∀ entry ∈ traffic, entry.2.IsAuto key) :
    (n.finds key traffic).Pairwise fun a b => a.1 = b.1 → a.2.val ≤ b.2.val := by
  induction traffic generalizing n with
  | nil => exact .nil
  | cons entry rest ih =>
    obtain ⟨first, others⟩ := List.forall_mem_cons.mp auto
    refine pairwise_finds ?_ (ih (proper_step proper first) others)
    intro found got later listed same
    rw [(shows_level got).2, same]
    exact (finds_between proper others listed).1

/-- In a stage without a fallback, all is found in the primary. -/
theorem finds_primary (alone : stage.fallback = none)
    (fixed : ∀ entry ∈ traffic, entry.1.route key = stage) :
    ∀ found ∈ n.finds key traffic, found.1 = stage.primary := by
  induction traffic generalizing n with
  | nil => exact fun found listed => absurd listed List.not_mem_nil
  | cons entry rest ih =>
    obtain ⟨first, others⟩ := List.forall_mem_cons.mp fixed
    intro found listed
    obtain now | later := List.mem_append.mp listed
    · have seen := (shows_get (Option.mem_toList.mp now)).2
      rw [first] at seen
      obtain primary | ⟨rfl, -⟩ := (sees_cases seen).2
      · exact primary
      · cases alone
    · exact ih others found later

theorem after_unchanged (unchanged : ∀ entry ∈ traffic, entry.2.changes key = false) :
    n.after key traffic = n := by
  induction traffic generalizing n with
  | nil => rfl
  | cons entry rest ih =>
    obtain ⟨first, others⟩ := List.forall_mem_cons.mp unchanged
    refine (ih others).trans ?_
    exact step_of_unchanged first _ n

/-- Writes that go to both stores. -/
def Both (key : String) (entry : Table × Ask) : Prop :=
  ∀ side, (entry.1.route key).uses side = true

theorem both_of_rank {entry : Table × Ask} (beyond : entry.1.route key ≠ .brw)
    (before : (entry.1.route key).rank < 3) : Both key entry := by
  intro side
  cases stage : entry.1.route key with
  | brw => exact absurd stage beyond
  | crw =>
    rw [stage] at before
    exact absurd before (by decide)
  | brwCw | bwCrw => cases side <;> rfl

theorem step_both {entry : Table × Ask} (both : Both key entry) :
    n.step key (entry.1.route key) entry.2 = fun side => entry.2.renumber key (n side) := by
  funext side
  simp only [step, both side, if_true]

theorem lead_step {entry : Table × Ask} (proper : n.IsProper) (auto : entry.2.IsAuto key)
    (both : Both key entry) (a b : Side) :
    let m := n.step key (entry.1.route key) entry.2
    lead (m a) (m b) ≤ lead (n a) (n b) := by
  rw [step_both both]
  exact Ask.lead_renumber auto (proper a) (proper b)

/-- While both stores take all writes, none gets further ahead of the other. -/
theorem lead_after (proper : n.IsProper) (auto : ∀ entry ∈ traffic, entry.2.IsAuto key)
    (both : ∀ entry ∈ traffic, Both key entry) (a b : Side) :
    lead (n.after key traffic a) (n.after key traffic b) ≤ lead (n a) (n b) := by
  induction traffic generalizing n with
  | nil => exact Nat.le_refl _
  | cons entry rest ih =>
    obtain ⟨first, others⟩ := List.forall_mem_cons.mp auto
    obtain ⟨here, there⟩ := List.forall_mem_cons.mp both
    have now := lead_step proper first here a b
    exact Nat.le_trans (ih (proper_step proper first) others there) now

/-- The stages after one of a given rank. -/
theorem rank_of_forward {entry : Table × Ask}
    (forward : MovesForward key ((entry :: traffic).map (·.1))) :
    MovesForward key (traffic.map (·.1)) ∧
      ∀ later ∈ entry :: traffic, (entry.1.route key).rank ≤ (later.1.route key).rank := by
  obtain ⟨first, others⟩ := List.pairwise_cons.mp forward
  refine ⟨others, List.forall_mem_cons.mpr ⟨Nat.le_refl _, ?_⟩⟩
  exact fun later listed => first later.1 (List.mem_map_of_mem listed)

/-- Nothing comes after the last stage. -/
theorem crw_of_forward {entry : Table × Ask}
    (forward : MovesForward key ((entry :: traffic).map (·.1)))
    (last : entry.1.route key = .crw) :
    ∀ later ∈ entry :: traffic, later.1.route key = .crw := by
  intro later listed
  have beyond := (rank_of_forward forward).2 later listed
  rw [last] at beyond
  cases stage : later.1.route key with
  | brw | brwCw | bwCrw =>
    rw [stage] at beyond
    exact absurd beyond (by decide)
  | crw => rfl

/-- Once the new store serves a key and has it wherever the legacy store does, all is found in the
new store. -/
theorem finds_new (auto : ∀ entry ∈ traffic, entry.2.IsAuto key)
    (forward : MovesForward key (traffic.map (·.1)))
    (served : ∀ entry ∈ traffic, 2 ≤ (entry.1.route key).rank)
    (follows : shown (n .new) = none → shown (n .legacy) = none) :
    ∀ found ∈ n.finds key traffic, found.1 = .new := by
  induction traffic generalizing n with
  | nil => exact fun found listed => absurd listed List.not_mem_nil
  | cons entry rest ih =>
    cases stage : entry.1.route key with
    | brw | brwCw =>
      have beyond := served entry List.mem_cons_self
      rw [stage] at beyond
      exact absurd beyond (by decide)
    | crw => exact finds_primary rfl (crw_of_forward forward stage)
    | bwCrw =>
      obtain ⟨first, others⟩ := List.forall_mem_cons.mp auto
      have both : Both key entry := both_of_rank (by rw [stage]; decide) (by rw [stage]; decide)
      intro found listed
      obtain now | later := List.mem_append.mp listed
      · have seen := (shows_get (Option.mem_toList.mp now)).2
        rw [stage] at seen
        obtain ⟨there, primary | ⟨-, legacy, missing⟩⟩ := sees_cases seen
        · exact primary
        · rw [legacy, follows missing] at there
          cases there
      · refine ih others (rank_of_forward forward).1 (List.forall_mem_cons.mp served).2 ?_ found later
        rw [step_both both]
        exact Ask.shown_renumber first follows

/-- After the first stage, readers move from the legacy store to the new one for good, and what they
find goes down by no more than the legacy store was ahead. -/
theorem finds_late (proper : n.IsProper) (auto : ∀ entry ∈ traffic, entry.2.IsAuto key)
    (forward : MovesForward key (traffic.map (·.1)))
    (late : ∀ entry ∈ traffic, entry.1.route key ≠ .brw) {drop : Nat}
    (bound : lead (n .legacy) (n .new) ≤ drop) :
    (n.finds key traffic).Pairwise (Follows drop) := by
  induction traffic generalizing n with
  | nil => exact .nil
  | cons entry rest ih =>
    by_cases last : entry.1.route key = .crw
    · -- the legacy store gets no more writes, but nobody reads it either
      have sides := @finds_primary key .crw n _ rfl (crw_of_forward forward last)
      refine (finds_sorted proper auto).imp_of_mem fun first second grows => ?_
      exact .of_same ((sides _ first).trans (sides _ second).symm) grows
    · obtain ⟨first, others⟩ := List.forall_mem_cons.mp auto
      obtain ⟨early, beyond⟩ := List.forall_mem_cons.mp late
      have before : (entry.1.route key).rank < 3 := by
        cases stage : entry.1.route key with
        | brw | brwCw | bwCrw => decide
        | crw => exact absurd stage last
      have both := both_of_rank early before
      obtain ⟨onward, ranks⟩ := rank_of_forward forward
      have kept := lead_step proper first both .legacy .new
      refine pairwise_finds ?_ (ih (proper_step proper first) others onward beyond
        (Nat.le_trans kept bound))
      intro found got later listed
      have number := (shows_level got).2
      have least := (finds_between proper others listed).1
      obtain ⟨there, origin⟩ := sees_cases (shows_get got).2
      have stays : found.1 = .new → later.1 = .new := by
        intro new
        rw [new] at there origin
        have served : entry.1.route key = .bwCrw := by
          obtain primary | ⟨-, ⟨⟩, -⟩ := origin
          cases stage : entry.1.route key with
          | brw | brwCw =>
            rw [stage] at primary
            cases primary
          | bwCrw => rfl
          | crw => exact absurd stage last
        rw [served] at ranks
        -- the new store has the key now, and nobody falls back on the legacy one any more
        refine finds_new others onward (List.forall_mem_cons.mp ranks).2 ?_ later listed
        exact fun missing => absurd (there.symm.trans missing) (Option.some_ne_none _)
      exact .of_levels (Int.le_of_eq number) least stays bound

theorem finds_append (early late : Traffic) (n : Numbers) :
    n.finds key (early ++ late) = n.finds key early ++ (n.after key early).finds key late := by
  induction early generalizing n with
  | nil => rfl
  | cons entry rest ih =>
    refine (congrArg _ (ih _)).trans ?_
    exact (List.append_assoc ..).symm

/-- What is found on the whole way of a key. What the stores do to each other is decided by where
they are when the key leaves the first stage. -/
theorem finds_follow {early late : Traffic} (proper : n.IsProper)
    (auto : ∀ entry ∈ early ++ late, entry.2.IsAuto key)
    (forward : MovesForward key ((early ++ late).map (·.1)))
    (first : ∀ entry ∈ early, entry.1.route key = .brw)
    (beyond : ∀ entry ∈ late, entry.1.route key ≠ .brw) :
    let left := n.after key early
    (n.finds key (early ++ late)).Pairwise (Follows (lead (left .legacy) (left .new))) := by
  intro left
  obtain ⟨autoEarly, autoLate⟩ := List.forall_mem_append.mp auto
  rw [List.map_append] at forward
  have onward : MovesForward key (late.map (·.1)) := (List.pairwise_append.mp forward).2.1
  have properLeft : left.IsProper := proper_after proper autoEarly
  have legacy := @finds_primary key .brw n _ rfl first
  rw [finds_append]
  refine List.pairwise_append.mpr ⟨?within, finds_late properLeft autoLate onward beyond
    (Nat.le_refl _), ?across⟩
  case within =>
    refine (finds_sorted proper autoEarly).imp_of_mem fun one two grows => ?_
    exact .of_same ((legacy _ one).trans (legacy _ two).symm) grows
  case across =>
    intro a one b two
    have most := (finds_between proper autoEarly one).2
    have least := (finds_between properLeft autoLate two).1
    refine .of_levels most least ?_ (Nat.le_refl _)
    exact fun new => absurd ((legacy a one).symm.trans new) (by decide)

/-- Whoever saw a revision may go on to the next one, in the store where it was seen, and in one
that was not ahead of that store by more than one when the key left the first stage. -/
theorem isTaken_next {late : Traffic} {stage' : Stage} {found : Side × Revision} {next : Revision}
    (proper : n.IsProper) (auto : ∀ entry ∈ late, entry.2.IsAuto key)
    (forward : ∀ entry ∈ late, (entry.1.route key).rank ≤ stage.rank)
    (beyond : ∀ entry ∈ late, entry.1.route key ≠ .brw) (later : stage.rank ≤ stage'.rank)
    (seen : (n.after key late).sees stage = some found) (follows : next.val = found.2.val + 1)
    {side : Side} (used : stage'.uses side = true)
    (near : side = found.1 ∨ lead (n side) (n found.1) ≤ 1) :
    next.isTaken (n.after key late side) = true := by
  obtain ⟨there, origin⟩ := sees_cases seen
  have number := (Revision.val_of_shown there).2
  refine (Revision.isTaken_iff (by omega) _).mpr ?_
  by_cases same : side = found.1
  · rw [same]
    omega
  · -- the other store is written to only before the last stage
    have before : stage.rank < 3 := by
      by_contra last
      obtain rfl : stage = .crw := by
        cases stage <;> simp [Stage.rank] at last ⊢
      obtain rfl : stage' = .crw := by
        cases stage' <;> simp [Stage.rank] at later ⊢
      obtain new | ⟨⟨⟩, -⟩ := origin
      rw [new] at same
      cases side with
      | legacy => cases used
      | new => exact same rfl
    have both : ∀ entry ∈ late, Both key entry := fun entry listed =>
      both_of_rank (beyond entry listed) (Nat.lt_of_le_of_lt (forward entry listed) before)
    have apart := lead_after proper auto both side found.1
    have close := near.resolve_left same
    have ahead := Revision.level_le_lead (n.after key late side) (n.after key late found.1)
    omega

/-- A set that both stores take, and a get from each of them. -/
def comparing (key : String) : Traffic :=
  [(⟨.brwCw, []⟩, .set key ⟨0, [], .auto⟩), (⟨.brwCw, []⟩, .get key), (⟨.bwCrw, []⟩, .get key)]

theorem finds_comparing (key : String) (n : Numbers) :
    (∀ side, shown (n.after key (comparing key) side) = some (Revision.next (n side))) ∧
      n.finds key (comparing key) =
        [(.legacy, Revision.next (n .legacy)), (.new, Revision.next (n .new))] := by
  have written : n.step key .brwCw (.set key ⟨0, [], .auto⟩) =
      fun side => some (Revision.next (n side)) := by
    funext side
    cases side <;> exact Ask.renumber_set_auto key rfl _
  have read (stage : Stage) (m : Numbers) : m.step key stage (.get key) = m :=
    step_of_unchanged rfl stage m
  constructor
  · intro side
    change shown (((n.step key .brwCw _).step key .brwCw _).step key .bwCrw _ side) = _
    rw [read, read, written]
    exact Revision.shown_next _
  · change _ ++ (((n.step key .brwCw _).shows key .brwCw _).toList ++
      ((((n.step key .brwCw _).step key .brwCw _).shows key .bwCrw _).toList ++ [])) = _
    rw [read, written]
    simp [shows, sees, reads, Stage.primary, Stage.fallback, Revision.shown_next]

/-- Requests that show how far the legacy store is ahead. Where only that store has the key, it is
deleted before the stores are compared. -/
def exposing (key : String) (n : Numbers) : Traffic :=
  if (shown (n .legacy)).isSome ∧ shown (n .new) = none then
    (⟨.brwCw, []⟩, .delete key) :: comparing key
  else comparing key

theorem moves_exposing (key : String) (n : Numbers) :
    MovesForward key ((exposing key n).map (·.1)) ∧
      ∀ entry ∈ exposing key n, entry.1.route key ≠ .brw ∧ entry.2.IsAuto key := by
  have routes (stage : Stage) : (⟨stage, []⟩ : Table).route key = stage := rfl
  unfold exposing comparing
  split
  all_goals
    constructor
    · simp [MovesForward, routes, Stage.rank]
    · simp [routes, Ask.IsAuto]

theorem finds_exposing (proper : n.IsProper) (ahead : 0 < lead (n .legacy) (n .new))
    (room : (level (n .legacy) : Int) + 2 ≤ Revision.greatest) :
    ∃ a b : Revision, shown (n.after key (exposing key n) .legacy) = some a ∧
      shown (n.after key (exposing key n) .new) = some b ∧
      n.finds key (exposing key n) = [(.legacy, a), (.new, b)] ∧
      a.val = b.val + lead (n .legacy) (n .new) := by
  have value (number : Option Revision) : (Revision.next number).val =
      (min (level number + 1) 9223372036854775807 : Nat) := by
    rw [← Revision.level_next]
    exact (Revision.val_of_shown (Revision.shown_next number)).2
  simp only [Revision.greatest] at room
  unfold exposing
  split
  · rename_i alone
    obtain ⟨after, finds⟩ := finds_comparing key (n.step key .brwCw (.delete key))
    have deleted (side : Side) : n.step key .brwCw (.delete key) side = Revision.buried (n side) := by
      cases side <;> exact Ask.renumber_delete key _
    refine ⟨_, _, after .legacy, after .new, finds, ?_⟩
    rw [value, value, deleted, deleted, Revision.level_buried (proper _),
      Revision.level_buried (proper _), if_pos alone.1, alone.2]
    simp only [lead, if_pos alone] at ahead ⊢
    simp
    omega
  · rename_i together
    obtain ⟨after, finds⟩ := finds_comparing key n
    refine ⟨_, _, after .legacy, after .new, finds, ?_⟩
    rw [value, value]
    simp only [lead, if_neg together] at ahead ⊢
    omega

end Numbers

end Dispatch

end QuorumKv
