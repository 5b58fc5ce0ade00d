import Mathlib.Data.List.Basic
import QuorumKv.Proofs.Quorum.Read

/-! A read whose mains all answer, and all alike. As many of them are asked as a quorum needs, and
what they have is the answer; when they have nothing the backups are asked too, of which some may
stay silent. -/
namespace QuorumKv.Quorum.Read

variable {α : Type} {rev : α → Revision} {needed : Nat} {mains backups : List String}
  {shown : String → Option α} {held : Option α}

/-- What a read comes to when its mains show what they hold and the backups that answer show
something of their own. -/
def Verdict (needed : Nat) (mains backups : List String) (shown : String → Option α)
    (held : Option α) (result : Except Failure (Option α)) : Prop :=
  if mains.length < needed then result = .error (.readQuorum mains.length needed)
  else match held with
    | some x => result = .ok (some x)
    | none => ∃ answered : List String, answered.Sublist backups ∧
        result = .ok (answered.findSome? shown)

theorem verdict_of_short (short : mains.length < needed) :
    Verdict needed mains backups shown held (.error (.readQuorum mains.length needed)) :=
  (if_pos short).mpr rfl

theorem verdict_of_held {x : α} (enough : needed ≤ mains.length) :
    Verdict needed mains backups shown (some x) (.ok (some x)) :=
  (if_neg (Nat.not_lt.mpr enough)).mpr rfl

theorem verdict_of_answered {answered : List String} (enough : needed ≤ mains.length)
    (inside : answered.Sublist backups) :
    Verdict needed mains backups shown none (.ok (answered.findSome? shown)) :=
  (if_neg (Nat.not_lt.mpr enough)).mpr ⟨answered, inside, rfl⟩

/-- A read that does not fail has asked a quorum, and returns what the mains hold or, if they hold
nothing, what some backups show. -/
theorem Verdict.of_ok {found : Option α}
    (verdict : Verdict needed mains backups shown held (.ok found)) : needed ≤ mains.length ∧
      (found = held ∨ held = none ∧
        ∃ answered : List String, answered.Sublist backups ∧ found = answered.findSome? shown) := by
  unfold Verdict at verdict
  split at verdict
  · cases verdict
  · rename_i enough
    refine ⟨Nat.not_lt.mp enough, ?_⟩
    cases held with
    | some x => exact .inl (Except.ok.inj verdict)
    | none =>
      obtain ⟨answered, inside, same⟩ := verdict
      exact .inr ⟨rfl, answered, inside, Except.ok.inj same⟩

/-- What such a read lets through does not depend on backups that have nothing of that kind. -/
theorem Verdict.filter_eq {p : α → Bool} {found : Option α}
    (verdict : Verdict needed mains backups shown held (.ok found))
    (alike : held ≠ none ∨ ∀ addr ∈ backups, (shown addr).filter p = none) :
    found.filter p = held.filter p := by
  obtain ⟨-, rfl | ⟨nothing, answered, inside, rfl⟩⟩ := verdict.of_ok
  · rfl
  · have silent := alike.resolve_left (absurd nothing)
    rw [nothing, Option.filter_none]
    cases first : answered.findSome? shown with
    | none => rfl
    | some x =>
      obtain ⟨addr, answers, shows⟩ := List.exists_of_findSome?_eq_some first
      rw [← shows]
      exact silent addr (inside.subset answers)

/-- The backups among some nodes. -/
abbrev beyond (mains : List String) (addrs : List String) : List String :=
  addrs.filter fun addr => addr ∉ mains

/-- Where a read stands while it waits for the answers of some nodes. -/
inductive Stands (needed : Nat) (mains backups : List String) (shown : String → Option α)
    (held : Option α) (s : Read α) (asked : List String) : Prop where
  | gathering (stage : s.stage = .gathering) (quota : s.needed = needed)
      (pending : s.pending = asked.length) (waits : 0 < asked.length)
      (count : s.responses.length + asked.length = min needed mains.length)
      (told : ∀ answer ∈ s.responses, answer = held)
      (inside : asked ⊆ mains) (untried : s.untried ⊆ mains)
  | through {addr : String} {rest : List String} (passed : List String)
      (stage : s.stage = .through rest) (only : asked = [addr]) (enough : needed ≤ mains.length)
      (nothing : held = none) (silent : ∀ a ∈ passed, shown a = none)
      (order : (passed ++ beyond mains (addr :: rest)).Sublist backups)
  | done (result : Except Failure (Option α)) (stage : s.stage = .done result)
      (none_left : asked = []) (verdict : Verdict needed mains backups shown held result)

/-- The nodes that are asked are mains and backups. -/
theorem Stands.inside {s : Read α} {asked : List String}
    (stands : s.Stands needed mains backups shown held asked) : asked ⊆ mains ++ backups := by
  cases stands with
  | gathering stage quota pending waits count told inside untried =>
    exact List.subset_append_of_subset_left backups inside
  | @through addr rest passed stage only enough nothing silent order =>
    subst only
    intro a listed
    obtain rfl := List.mem_singleton.mp listed
    by_cases main : a ∈ mains
    · exact List.mem_append_left backups main
    · have next : a ∈ beyond mains (a :: rest) := by simp [main]
      exact List.mem_append_right mains (order.subset (List.mem_append_right passed next))
  | done result stage none_left =>
    subst none_left
    exact List.nil_subset _

theorem stands_start {ranked : List String} (positive : 0 < needed) (perm : ranked.Perm mains) :
    (start (α := α) needed ranked).1.Stands needed mains backups shown held
      (start (α := α) needed ranked).2 := by
  have size : (ranked.take needed).length = min needed mains.length := by
    rw [List.length_take, perm.length_eq]
  simp only [start]
  split
  · rename_i silent
    have empty : ranked.take needed = [] := List.isEmpty_iff.mp silent
    have alone : mains.length = 0 := by
      rw [empty, List.length_nil] at size
      omega
    apply Stands.done
    · rfl
    · exact empty
    · have verdict : Verdict needed mains backups shown held
          (.error (.readQuorum mains.length needed)) := verdict_of_short (by omega)
      rwa [alone] at verdict
  · rename_i some_call
    apply Stands.gathering
    · rfl
    · rfl
    · rfl
    · rw [List.isEmpty_iff_length_eq_zero] at some_call
      exact Nat.pos_of_ne_zero some_call
    · exact (Nat.zero_add _).trans size
    · intro a listed
      cases listed
    · exact List.Subset.trans (List.take_subset ..) perm.subset
    · exact List.Subset.trans (List.drop_subset ..) perm.subset

/-- A quorum had nothing, and those passed over so far neither. -/
theorem stands_askNext {s : Read α} {addrs passed : List String} (enough : needed ≤ mains.length)
    (nothing : held = none) (silent : ∀ a ∈ passed, shown a = none)
    (order : (passed ++ beyond mains addrs).Sublist backups) :
    (s.askNext addrs).1.Stands needed mains backups shown held (s.askNext addrs).2 := by
  cases addrs with
  | nil =>
    have all_silent : passed.findSome? shown = none := List.findSome?_eq_none_iff.mpr silent
    have verdict : Verdict needed mains backups shown none (.ok (passed.findSome? shown)) :=
      verdict_of_answered enough ((List.sublist_append_left passed _).trans order)
    rw [all_silent] at verdict
    exact .done (.ok none) rfl rfl (nothing ▸ verdict)
  | cons addr rest => exact .through passed rfl rfl enough nothing silent order

/-- The newest of answers that are all alike. -/
theorem latest_of_same {answers : List (Option α)} (filled : answers ≠ [])
    (same : ∀ answer ∈ answers, answer = held) :
    Revision.latest rev (answers.filterMap id) = held := by
  cases held with
  | none =>
    rw [Revision.latest_eq_none, List.filterMap_eq_nil_iff]
    exact same
  | some x =>
    cases won : Revision.latest rev (answers.filterMap id) with
    | none =>
      rw [Revision.latest_eq_none, List.filterMap_eq_nil_iff] at won
      obtain ⟨answer, listed⟩ := List.exists_mem_of_ne_nil answers filled
      have silent := won answer listed
      rw [same answer listed] at silent
      cases silent
    | some y =>
      obtain ⟨answer, listed, rfl⟩ := List.mem_filterMap.mp (Revision.latest_mem won).1
      exact same _ listed

variable {s : Read α} {liveBackups asked others : List String} {addr : String}

/-- One more main of the quorum has answered. -/
theorem stands_gathered (live : liveBackups.Sublist backups) (stage : s.stage = .gathering)
    (quota : s.needed = needed) (pending : s.pending = others.length) (filled : s.responses ≠ [])
    (count : s.responses.length + others.length = min needed mains.length)
    (told : ∀ answer ∈ s.responses, answer = held) (inside : others ⊆ mains)
    (untried : s.untried ⊆ mains) :
    (s.advance rev liveBackups).1.Stands needed mains backups shown held
      (others ++ (s.advance rev liveBackups).2) := by
  have newest : Revision.latest rev (s.responses.filterMap id) = held :=
    latest_of_same filled told
  have some_answer := List.length_pos_iff.mpr filled
  unfold advance
  by_cases full : s.needed ≤ s.responses.length
  · rw [if_pos full, newest]
    have enough : needed ≤ mains.length := by omega
    obtain rfl : others = [] := List.length_eq_zero_iff.mp (by omega)
    rw [List.nil_append]
    cases held with
    | some x =>
      exact .done _ rfl rfl (verdict_of_held enough)
    | none =>
      have spare : beyond mains (s.untried ++ liveBackups) = beyond mains liveBackups := by
        have tried : beyond mains s.untried = [] := by
          rw [List.filter_eq_nil_iff]
          intro a listed
          simpa using untried listed
        rw [beyond, List.filter_append]
        exact congrArg (· ++ beyond mains liveBackups) tried
      have order : ([] ++ beyond mains (s.untried ++ liveBackups)).Sublist backups := by
        rw [spare, List.nil_append]
        exact List.filter_sublist.trans live
      exact stands_askNext enough rfl (List.forall_mem_nil _) order
  · rw [if_neg full]
    by_cases last : s.pending = 0
    · rw [if_pos last]
      obtain rfl : others = [] := List.length_eq_zero_iff.mp (pending ▸ last)
      have all : s.responses.length = mains.length := by
        rw [List.length_nil] at count
        omega
      have verdict : Verdict needed mains backups shown held
          (.error (.readQuorum mains.length needed)) := verdict_of_short (by omega)
      refine .done _ rfl rfl ?_
      rwa [all, quota]
    · rw [if_neg last, List.append_nil]
      exact .gathering stage quota pending (by omega) count told inside untried

/-- A main answers and says what it holds. A backup may fail. -/
theorem stands_absorb {r : Except Failure (Option α)} (live : liveBackups.Sublist backups)
    (perm : asked.Perm (addr :: others)) (holds : ∀ a ∈ mains, shown a = held)
    (answers : addr ∈ mains → ∃ x, r = .ok x) (shows : ∀ x, r = .ok x → x = shown addr)
    (stands : s.Stands needed mains backups shown held asked) :
    (s.absorb rev liveBackups r).1.Stands needed mains backups shown held
      (others ++ (s.absorb rev liveBackups r).2) := by
  have asks : addr ∈ asked := perm.mem_iff.mpr List.mem_cons_self
  have length := perm.length_eq
  rw [List.length_cons] at length
  cases stands with
  | gathering stage quota pending waits count told inside untried =>
    have main : addr ∈ mains := inside asks
    obtain ⟨x, rfl⟩ := answers main
    obtain rfl : x = held := (shows x rfl).trans (holds addr main)
    simp only [absorb, stage]
    apply stands_gathered live
    · rfl
    · exact quota
    · simp only
      omega
    · simp
    · simp only [List.length_append, List.length_singleton]
      omega
    · intro answer listed
      obtain old | new := List.mem_append.mp listed
      · exact told answer old
      · exact List.mem_singleton.mp new
    · exact fun a listed => inside (perm.mem_iff.mpr (.tail _ listed))
    · exact untried
  | @through next rest passed stage only enough nothing silent order =>
    subst only
    obtain ⟨rfl, rfl⟩ : next = addr ∧ others = [] := by
      have same := List.perm_singleton.mp perm.symm
      exact ⟨(List.cons.inj same).1.symm, (List.cons.inj same).2⟩
    rw [List.nil_append]
    have parts : beyond mains (next :: rest) = beyond mains [next] ++ beyond mains rest :=
      List.filter_append [next] rest
    rw [parts, ← List.append_assoc] at order
    cases r with
    | error why =>
      simp only [absorb, stage]
      apply stands_askNext enough nothing silent
      exact (List.Sublist.append_right (List.sublist_append_left ..) _).trans order
    | ok found =>
      obtain rfl : found = shown next := shows found rfl
      cases shown_next : shown next with
      | none =>
        simp only [absorb, stage]
        have still : ∀ a ∈ passed ++ beyond mains [next], shown a = none := by
          intro a listed
          obtain old | new := List.mem_append.mp listed
          · exact silent a old
          · obtain rfl := List.mem_singleton.mp (List.mem_filter.mp new).1
            exact shown_next
        exact stands_askNext enough nothing still order
      | some x =>
        have backup : next ∉ mains := by
          intro main
          rw [holds next main, nothing] at shown_next
          cases shown_next
        have alone : beyond mains [next] = [next] := by simp [backup]
        rw [alone] at order
        simp only [absorb, stage]
        have found : (passed ++ [next]).findSome? shown = some x := by
          rw [List.findSome?_append, List.findSome?_eq_none_iff.mpr silent]
          simp [shown_next]
        have verdict : Verdict needed mains backups shown none
            (.ok ((passed ++ [next]).findSome? shown)) :=
          verdict_of_answered enough ((List.sublist_append_left (passed ++ [next]) _).trans order)
        rw [found] at verdict
        exact .done (.ok (some x)) rfl rfl (nothing ▸ verdict)
  | done result stage none_left =>
    subst none_left
    cases asks

/-- Without a result it waits for a node. -/
theorem Stands.waits (stands : s.Stands needed mains backups shown held asked)
    (open_ : s.result? = none) : asked ≠ [] := by
  cases stands with
  | gathering stage quota pending waits => exact List.ne_nil_of_length_pos waits
  | through passed stage only => exact only ▸ List.cons_ne_nil _ _
  | done result stage => simp only [result?, stage, reduceCtorEq] at open_

theorem Stands.result {result : Except Failure (Option α)}
    (stands : s.Stands needed mains backups shown held asked) (ended : s.result? = some result) :
    Verdict needed mains backups shown held result := by
  cases stands with
  | gathering stage => simp only [result?, stage, reduceCtorEq] at ended
  | through passed stage => simp only [result?, stage, reduceCtorEq] at ended
  | done verdict stage none_left settled =>
    simp only [result?, stage] at ended
    obtain rfl := Option.some.inj ended
    exact settled

/-- The deadline does not concern a read that has its quorum. -/
theorem stands_expire (later : s.stage ≠ .gathering)
    (stands : s.Stands needed mains backups shown held asked) :
    s.expire.Stands needed mains backups shown held asked := by
  unfold expire
  split
  · rename_i stage
    exact absurd stage later
  · exact stands

end QuorumKv.Quorum.Read
