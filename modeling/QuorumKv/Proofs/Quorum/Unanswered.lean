import QuorumKv.Proofs.Key
import QuorumKv.Proofs.Quorum.Course
import QuorumKv.Proofs.Quorum.Fetch
import QuorumKv.Proofs.Quorum.Read

/-! Quorum machines that hear of failures only. Each keeps count of the calls that are still open,
so that it ends with the last of them: a read or a write with an error, a fetch with nothing. None
calls more nodes than it was given. -/
namespace QuorumKv.Quorum

/-- Some of the nodes, and no more than so many. -/
structure Spares (nodes : List String) (left : Nat) (addrs : List String) : Prop where
  inside : addrs ⊆ nodes
  room : addrs.length ≤ left

variable {nodes : List String} {opened left : Nat}

theorem Spares.nil : Spares nodes left [] :=
  ⟨List.nil_subset _, Nat.zero_le _⟩

/-- The first ones are called, and the others left for later. -/
theorem Spares.split {first rest : List String} (spares : Spares nodes left (first ++ rest)) :
    Spares nodes left first ∧ Spares nodes (left - first.length) rest := by
  obtain ⟨first_inside, rest_inside⟩ := List.append_subset.mp spares.inside
  have room := spares.room
  rw [List.length_append] at room
  constructor
  · exact ⟨first_inside, by omega⟩
  · exact ⟨rest_inside, by omega⟩

theorem Spares.drop {addrs : List String} (n : Nat) (spares : Spares nodes left addrs) :
    Spares nodes left (addrs.take n) ∧
      Spares nodes (left - (addrs.take n).length) (addrs.drop n) := by
  apply Spares.split
  rwa [List.take_append_drop]

namespace Read

variable {α : Type} {rev : α → Revision} {s : Read α}

/-- A read that heard of failures only, while so many of its calls are open and so many more can be
made. -/
structure Unanswered (nodes : List String) (opened left : Nat) (s : Read α) : Prop where
  needed : 0 < s.needed
  responses : s.responses = []
  untried : Spares nodes left s.untried
  waits : s.stage = .gathering ∧ s.pending = opened ∧ 0 < opened ∨
    ∃ why, s.stage = .done (.error why)

theorem unanswered_shortfall (needed : 0 < s.needed) (responses : s.responses = [])
    (untried : Spares nodes left s.untried) : s.shortfall.Unanswered nodes opened left := by
  constructor
  · exact needed
  · exact responses
  · exact untried
  · exact .inr ⟨_, rfl⟩

theorem unanswered_start {needed : Nat} {ranked : List String} (positive : 0 < needed)
    (spares : Spares nodes left ranked) :
    let (s, calls) := @start α needed ranked
    s.Unanswered nodes calls.length (left - calls.length) ∧ Spares nodes left calls := by
  obtain ⟨first, rest⟩ := spares.drop needed
  simp only [start]
  refine ⟨?_, first⟩
  split
  · exact unanswered_shortfall positive rfl rest
  · rename_i some_call
    refine ⟨positive, rfl, rest, .inl ⟨rfl, rfl, ?_⟩⟩
    rw [List.isEmpty_iff_length_eq_zero] at some_call
    exact Nat.pos_of_ne_zero some_call

/-- A call that failed is replaced, or was the last that could be made. -/
theorem unanswered_absorb (liveBackups : List String) (why : Failure)
    (unanswered : s.Unanswered nodes opened left) :
    let (after, calls) := s.absorb rev liveBackups (.error why)
    after.Unanswered nodes (opened - 1 + calls.length) (left - calls.length) ∧
      Spares nodes left calls := by
  obtain ⟨needed, responses, spares, ⟨gathering, pending, some_call⟩ | ⟨failure, ended⟩⟩ :=
    unanswered
  · cases untried : s.untried with
    | cons addr rest =>
      have step : s.absorb rev liveBackups (.error why) =
          ({ s with untried := rest }, [addr]) := by simp only [absorb, gathering, untried]
      have same : opened - 1 + 1 = opened := Nat.sub_add_cancel some_call
      rw [untried, ← List.singleton_append] at spares
      obtain ⟨next, later⟩ := spares.split
      rw [step]
      simp only [List.length_singleton, same]
      exact ⟨⟨needed, responses, later, .inl ⟨gathering, pending, some_call⟩⟩, next⟩
    | nil =>
      have short : ¬s.needed ≤ s.responses.length := by
        rw [responses]
        exact Nat.not_le_of_lt needed
      have step : s.absorb rev liveBackups (.error why) =
          if s.pending - 1 = 0 then (shortfall { s with pending := s.pending - 1 }, [])
          else ({ s with pending := s.pending - 1 }, []) := by
        simp only [absorb, gathering, untried, advance, if_neg short]
      rw [step, pending]
      by_cases last : opened - 1 = 0
      · rw [if_pos last]
        exact ⟨unanswered_shortfall needed responses spares, .nil⟩
      · rw [if_neg last]
        refine ⟨⟨needed, responses, spares, .inl ⟨gathering, rfl, ?_⟩⟩, .nil⟩
        exact Nat.pos_of_ne_zero last
  · have step : s.absorb rev liveBackups (.error why) = (s, []) := by simp only [absorb, ended]
    rw [step]
    exact ⟨⟨needed, responses, spares, .inr ⟨failure, ended⟩⟩, .nil⟩

theorem unanswered_expire (unanswered : s.Unanswered nodes opened left) :
    s.expire.Unanswered nodes opened left := by
  unfold expire
  split
  · exact unanswered_shortfall unanswered.needed unanswered.responses unanswered.untried
  · exact unanswered

/-- It has failed, or waits for a call. -/
theorem Unanswered.result (unanswered : s.Unanswered nodes opened left) :
    (s.result? = none → 0 < opened) ∧
      ∀ result, s.result? = some result → ∃ why, result = .error why := by
  obtain ⟨gathering, -, some_call⟩ | ⟨why, ended⟩ := unanswered.waits
  · simp only [result?, gathering]
    exact ⟨fun _ => some_call, nofun⟩
  · simp only [result?, ended]
    refine ⟨nofun, ?_⟩
    rintro _ ⟨⟩
    exact ⟨why, rfl⟩

end Read

namespace Write

variable {s : Write}

/-- A write that heard of failures only, while so many of its calls are open and so many more can be
made. -/
structure Unanswered (nodes : List String) (opened left : Nat) (s : Write) : Prop where
  w : 0 < s.w
  acked : s.acked = []
  spare : Spares nodes left s.spare
  waits : s.result = none ∧ s.pending = opened ∧ 0 < opened ∨
    ∃ why, s.result = some (.error why)

theorem unanswered_finish (w : 0 < s.w) (acked : s.acked = []) (spare : Spares nodes left s.spare) :
    s.finish.Unanswered nodes opened left := by
  have short : s.acked.length < s.w := by
    rw [acked]
    exact w
  constructor
  · exact w
  · exact acked
  · exact spare
  · exact .inr ⟨_, congrArg some (verdict_of_short short)⟩

theorem unanswered_start (key : String) {n w bucket : Nat} {mains backups : List String}
    (positive : 0 < w) (spares : Spares nodes left (mains ++ backups)) :
    let (s, calls) := start key n w bucket mains backups
    s.Unanswered nodes calls.length (left - calls.length) ∧ Spares nodes left calls := by
  obtain ⟨called, acked, quota, -⟩ := start_calls key n w bucket mains backups
  have all : Spares nodes left ((start key n w bucket mains backups).2 ++
      (start key n w bucket mains backups).1.spare) :=
    ⟨List.Subset.trans called.subset spares.inside, Nat.le_trans called.length_le spares.room⟩
  obtain ⟨calls, spare⟩ := all.split
  have result : (start key n w bucket mains backups).1.result =
      if (start key n w bucket mains backups).2.isEmpty then some (.error (.noNode bucket))
      else none := rfl
  refine ⟨⟨quota.symm ▸ positive, acked, spare, ?_⟩, calls⟩
  split at result
  · exact .inr ⟨_, result⟩
  · rename_i some_call
    rw [List.isEmpty_iff_length_eq_zero] at some_call
    exact .inl ⟨result, rfl, Nat.pos_of_ne_zero some_call⟩

theorem unanswered_advance (open_ : s.result = none) (w : 0 < s.w) (acked : s.acked = [])
    (spare : Spares nodes left s.spare) :
    let (after, calls) := s.advance
    after.Unanswered nodes (s.pending + calls.length) (left - calls.length) ∧
      Spares nodes left calls := by
  obtain ⟨enough, -⟩ | ⟨-, waiting, still⟩ | ⟨-, -, -, ended⟩ | ⟨-, all, some_call, again⟩ :=
    advance_cases s
  · rw [acked] at enough
    exact absurd enough (Nat.not_le_of_lt w)
  · rw [still]
    exact ⟨⟨w, acked, spare, .inl ⟨open_, rfl, waiting⟩⟩, .nil⟩
  · rw [ended]
    exact ⟨unanswered_finish w acked spare, .nil⟩
  · rw [List.prefix_iff_eq_append.mp (secondCalls_of_spare s) |>.symm] at spare
    obtain ⟨calls, later⟩ := spare.split
    rw [again, all]
    simp only [Nat.zero_add]
    exact ⟨⟨w, acked, later, .inl ⟨open_, rfl, some_call⟩⟩, calls⟩

theorem tally_failure (s : Write) (addr : String) (why : Failure) :
    ∃ conflicts, s.tally addr (.error why) = { s with conflicts := conflicts } := by
  cases why <;> exact ⟨_, rfl⟩

/-- A refusal is a failure too, although a node was there to refuse. -/
theorem unanswered_absorb (addr : String) (why : Failure)
    (unanswered : s.Unanswered nodes opened left) :
    let (after, calls) := s.absorb addr (.error why)
    after.Unanswered nodes (opened - 1 + calls.length) (left - calls.length) ∧
      Spares nodes left calls := by
  obtain ⟨w, acked, spare, ⟨open_, pending, -⟩ | ⟨failure, ended⟩⟩ := unanswered
  · obtain ⟨conflicts, tallied⟩ := tally_failure { s with pending := s.pending - 1 } addr why
    let counted : Write := { s with pending := s.pending - 1, conflicts := conflicts }
    have still : ¬s.result.isSome = true := by simp [open_]
    have step : s.absorb addr (.error why) = counted.advance := by
      rw [absorb, if_neg still, tallied]
    rw [step, ← pending]
    exact @unanswered_advance nodes left counted open_ w acked spare
  · have step : s.absorb addr (.error why) = (s, []) := by
      rw [absorb, ended, Option.isSome_some, if_pos rfl]
    rw [step]
    exact ⟨⟨w, acked, spare, .inr ⟨failure, ended⟩⟩, .nil⟩

theorem unanswered_expire (unanswered : s.Unanswered nodes opened left) :
    s.expire.Unanswered nodes opened left := by
  unfold expire
  split
  · exact unanswered
  · exact unanswered_finish unanswered.w unanswered.acked unanswered.spare

/-- It has failed, or waits for a call. -/
theorem Unanswered.failed (unanswered : s.Unanswered nodes opened left) :
    (s.result = none → 0 < opened) ∧
      ∀ result, s.result = some result → ∃ why, result = .error why := by
  obtain ⟨open_, -, some_call⟩ | ⟨why, ended⟩ := unanswered.waits
  · rw [open_]
    exact ⟨fun _ => some_call, nofun⟩
  · rw [ended]
    refine ⟨nofun, ?_⟩
    rintro _ ⟨⟩
    exact ⟨why, rfl⟩

end Write

namespace Fetch

namespace Group

variable {g : Group}

/-- A group of keys of which nothing was found, while so many calls for it are open and so many more
can be made. -/
structure Unanswered (nodes : List String) (opened left : Nat) (g : Group) : Prop where
  found : g.found = []
  waits : g.stage = .waiting ∧ opened = 0 ∧ left = nodes.length ∨
    (∃ rest, g.stage = .asking rest ∧ Spares nodes left rest ∧ opened = 1) ∨ g.stage = .done

theorem unanswered_askNext {mains : List String} (found : g.found = [])
    (spares : Spares nodes left mains) :
    let (after, calls) := g.askNext mains
    after.Unanswered nodes calls.length (left - calls.length) ∧ Spares nodes left calls := by
  cases mains with
  | nil => exact ⟨⟨found, .inr (.inr rfl)⟩, .nil⟩
  | cons addr rest =>
    rw [← List.singleton_append] at spares
    obtain ⟨next, later⟩ := spares.split
    by_cases settled : g.missing.isEmpty
    · simp only [askNext, if_pos settled]
      exact ⟨⟨found, .inr (.inr rfl)⟩, .nil⟩
    · simp only [askNext, if_neg settled]
      exact ⟨⟨found, .inr (.inl ⟨rest, rfl, later, rfl⟩)⟩, next⟩

theorem unanswered_begin {ranked : List String} (inside : Spares nodes nodes.length ranked)
    (unanswered : g.Unanswered nodes opened left) :
    let (after, calls) := g.begin ranked
    after.Unanswered nodes (opened + calls.length) (left - calls.length) ∧
      Spares nodes left calls := by
  by_cases waiting : g.stage = .waiting
  · have step : g.begin ranked = g.askNext ranked := if_pos waiting
    rw [step]
    obtain ⟨found, ⟨-, rfl, rfl⟩ | ⟨rest, asking, -⟩ | done⟩ := unanswered
    · simp only [Nat.zero_add]
      exact unanswered_askNext found inside
    · rw [waiting] at asking
      cases asking
    · rw [waiting] at done
      cases done
  · have step : g.begin ranked = (g, []) := if_neg waiting
    rw [step]
    exact ⟨unanswered, .nil⟩

theorem unanswered_absorb (why : Failure) (unanswered : g.Unanswered nodes opened left) :
    let (after, calls) := g.absorb (.error why)
    after.Unanswered nodes (opened - 1 + calls.length) (left - calls.length) ∧
      Spares nodes left calls := by
  obtain ⟨found, ⟨waiting, rfl, rfl⟩ | ⟨rest, asking, spares, rfl⟩ | done⟩ := unanswered
  · have step : g.absorb (.error why) = (g, []) := by simp only [absorb, waiting]
    rw [step]
    exact ⟨⟨found, .inl ⟨waiting, rfl, rfl⟩⟩, .nil⟩
  · have step : g.absorb (.error why) = g.askNext rest := by simp only [absorb, asking]
    rw [step]
    simp only [Nat.sub_self, Nat.zero_add]
    exact unanswered_askNext found spares
  · have step : g.absorb (.error why) = (g, []) := by simp only [absorb, done]
    rw [step]
    exact ⟨⟨found, .inr (.inr done)⟩, .nil⟩

end Group

variable {m : Fetch} {bucket : Nat}

/-- A fetch from one bucket that has found nothing. -/
def Unanswered (bucket : Nat) (nodes : List String) (opened left : Nat) (m : Fetch) : Prop :=
  ∃ g, m.groups = [g] ∧ g.bucket = bucket ∧ g.Unanswered nodes opened left

theorem unanswered_start {buckets : Nat} {keys : List String} (filled : keys ≠ [])
    (same : ∀ key ∈ keys, Key.bucket buckets key = bucket) :
    (start buckets keys).Unanswered bucket nodes 0 nodes.length := by
  refine ⟨⟨bucket, keys, [], .waiting⟩, ?_, rfl, rfl, .inl ⟨rfl, rfl, rfl⟩⟩
  rw [start, Key.byBucket_of_same filled same]
  rfl

/-- There is one group, and another can take its place. -/
theorem Unanswered.group (unanswered : m.Unanswered bucket nodes opened left) :
    ∃ g, m.group? bucket = some g ∧ (∀ b, b ≠ bucket → m.group? b = none) ∧
      g.Unanswered nodes opened left ∧ ∀ h opened left, h.bucket = g.bucket →
        h.Unanswered nodes opened left → (m.putGroup h).Unanswered bucket nodes opened left := by
  obtain ⟨g, groups, rfl, waits⟩ := unanswered
  refine ⟨g, ?_, ?_, waits, ?_⟩
  · simp [group?, groups]
  · intro b other
    simpa [group?, groups] using Ne.symm other
  · intro h opened left same unanswered
    refine ⟨h, ?_, same, unanswered⟩
    simp only [putGroup, groups, List.map_cons, List.map_nil, same, if_true]

theorem inOrder_nil (keys : List String) : Assoc.inOrder ([] : Assoc String Item) keys = [] := by
  induction keys with
  | nil => rfl
  | cons key rest ih => exact ih

/-- It has ended with nothing, waits for a call, or has not begun. -/
theorem Unanswered.result (unanswered : m.Unanswered bucket nodes opened left) :
    (m.result? = none → 0 < opened ∨ m.waiting? = some bucket) ∧
      ∀ result, m.result? = some result → result = [] := by
  obtain ⟨g, groups, about, found, waits⟩ := unanswered
  constructor
  · intro open_
    simp only [result?, groups, List.all_cons, List.all_nil, Bool.and_true] at open_
    obtain ⟨waiting, -⟩ | ⟨rest, -, -, rfl⟩ | done := waits
    · right
      simp [waiting?, groups, waiting, about]
    · exact .inl Nat.one_pos
    · simp [done] at open_
  · intro result ended
    simp only [result?, groups, List.flatMap_cons, List.flatMap_nil, found, List.append_nil,
      List.foldl_nil, inOrder_nil] at ended
    split at ended
    · exact (Option.some.inj ended).symm
    · cases ended

end Fetch

end QuorumKv.Quorum
