import QuorumKv.Proofs.Health.Streak

/-! What the ring of seconds remembers of a node's history. A second that takes over a slot takes it
from one that is out of every window by then, so that within a window the ring counts what the whole
history holds there. -/
namespace QuorumKv.Health

theorem total_filter {α : Type} (f : α → Nat) (p : α → Bool) (xs : List α) :
    total ((xs.filter p).map f) + total ((xs.filter fun a => !p a).map f) = total (xs.map f) := by
  induction xs with
  | nil => rfl
  | cons a rest ih =>
    cases chosen : p a with
    | true => simp only [List.filter_cons, chosen, if_true, Bool.not_true, Bool.false_eq_true,
        if_false, List.map_cons, total, ← ih, Nat.add_assoc]
    | false =>
      simp only [List.filter_cons, chosen, Bool.false_eq_true, if_false, Bool.not_false, if_true,
        List.map_cons, total, ← ih]
      omega

namespace Samples

variable {s : Samples} {latest second now window : Nat} {f : Slot → Nat} {change : Slot → Slot}

/-- A ring whose slots are of different seconds, none of them after `latest`. -/
structure UpTo (latest : Nat) (s : Samples) : Prop where
  reached : ∀ t ∈ s.slots, t.second ≤ latest
  distinct : (s.slots.map (·.second)).Nodup

/-- The slot of a second, which is empty if there is none. -/
def slotOf (s : Samples) (second : Nat) : Slot :=
  (s.slots.find? fun t => t.second = second).getD ⟨second, 0, 0, 0⟩

theorem second_slotOf (s : Samples) (second : Nat) : (s.slotOf second).second = second := by
  rw [slotOf]
  cases found : s.slots.find? fun t => t.second = second with
  | none => rfl
  | some t => simpa using List.find?_some found

theorem total_slotOf (upTo : s.UpTo latest) (empty : f ⟨second, 0, 0, 0⟩ = 0) :
    total ((s.slots.filter fun t => t.second = second).map f) = f (s.slotOf second) := by
  have distinct := upTo.distinct
  rw [slotOf]
  generalize s.slots = slots at distinct
  induction slots with
  | nil => exact empty.symm
  | cons t rest ih =>
    obtain ⟨new, others⟩ := List.nodup_cons.mp distinct
    by_cases here : t.second = second
    · have alone : rest.filter (fun u => u.second = second) = [] := by
        rw [List.filter_eq_nil_iff]
        intro u listed same
        exact new (List.mem_map.mpr ⟨u, listed, (of_decide_eq_true same).trans here.symm⟩)
      rw [List.filter_cons_of_pos (by simpa using here),
        List.find?_cons_of_pos (by simpa using here), alone]
      simp only [List.map_cons, List.map_nil, total, Nat.add_zero, Option.getD_some]
    · rw [List.filter_cons_of_neg (by simpa using here),
        List.find?_cons_of_neg (by simpa using here)]
      exact ih others

theorem UpTo.mono (upTo : s.UpTo latest) (later : latest ≤ second) : s.UpTo second :=
  ⟨fun t listed => Nat.le_trans (upTo.reached t listed) later, upTo.distinct⟩

theorem second_change (still : ∀ t, (change t).second = t.second) :
    (change (s.slotOf second)).second = second :=
  (still _).trans (s.second_slotOf second)

theorem upTo_update (upTo : s.UpTo latest) (later : latest ≤ second)
    (still : ∀ t, (change t).second = t.second) : (s.update second change).UpTo second := by
  have place : (change (s.slotOf second)).second = second := second_change still
  constructor
  · intro t listed
    obtain rfl | old := List.mem_cons.mp listed
    · exact Nat.le_of_eq place
    · exact Nat.le_trans (upTo.reached t (List.mem_filter.mp old).1) later
  · refine List.nodup_cons.mpr ⟨?_, upTo.distinct.sublist (List.filter_sublist.map _)⟩
    intro listed
    obtain ⟨t, kept, same⟩ := List.mem_map.mp listed
    have other : t.second % s.size ≠ second % s.size := by simpa using (List.mem_filter.mp kept).2
    exact other (congrArg (· % s.size) (same.trans place))

/-- In a window that the ring can hold, two seconds that share a slot are the same. -/
theorem recent_of_place {t : Slot} (reached : t.second ≤ second) (past : second ≤ now)
    (fits : window ≤ s.size) (inside : now - t.second < window)
    (place : t.second % s.size = second % s.size) : t.second = second := by
  have near : second - t.second < s.size := by omega
  have apart : (second - t.second) % s.size = 0 := Nat.sub_mod_eq_zero_of_mod_eq place.symm
  rw [Nat.mod_eq_of_lt near] at apart
  omega

/-- In a window that the ring can hold, whoever is in a second's place is of that second. -/
theorem recent_in_place (upTo : s.UpTo latest) (later : latest ≤ second) (past : second ≤ now)
    (fits : window ≤ s.size) :
    (s.recent now window).filter (fun t => t.second % s.size = second % s.size) =
      if now - second < window then s.slots.filter fun t => t.second = second else [] := by
  simp only [recent, List.filter_filter]
  have same : ∀ t ∈ s.slots, (decide (t.second % s.size = second % s.size) &&
      (decide (t.second ≤ now) && decide (now - t.second < window))) =
        (decide (now - second < window) && decide (t.second = second)) := by
    intro t listed
    have reached := Nat.le_trans (upTo.reached t listed) later
    rw [Bool.eq_iff_iff]
    simp only [Bool.and_eq_true, decide_eq_true_eq]
    constructor
    · rintro ⟨place, -, near⟩
      obtain rfl := recent_of_place reached past fits near place
      exact ⟨near, rfl⟩
    · rintro ⟨near, rfl⟩
      exact ⟨rfl, past, near⟩
  rw [List.filter_congr same]
  by_cases near : now - second < window
  · simp [near]
  · simp [near]

/-- An update of a second replaces what a window shows of its place. -/
theorem recent_update (past : second ≤ now) (still : ∀ t, (change t).second = t.second) :
    (s.update second change).recent now window =
      (if now - second < window then [change (s.slotOf second)] else []) ++
        (s.recent now window).filter fun t => !decide (t.second % s.size = second % s.size) := by
  have updated : (s.update second change).slots = change (s.slotOf second) ::
      s.slots.filter fun t => t.second % s.size ≠ second % s.size := rfl
  have others : (s.slots.filter fun t => t.second % s.size ≠ second % s.size).filter
      (fun t => t.second ≤ now && now - t.second < window) =
        (s.recent now window).filter fun t => !decide (t.second % s.size = second % s.size) := by
    simp only [recent, List.filter_filter]
    refine List.filter_congr fun t _ => ?_
    rw [Bool.and_comm, decide_not]
  rw [recent, updated, List.filter_cons, others, second_change still]
  simp only [past, decide_true, Bool.true_and, decide_eq_true_eq]
  split <;> rfl

/-- A change of the latest second's slot is all that changes within a window. -/
theorem total_update (upTo : s.UpTo latest) (later : latest ≤ second) (past : second ≤ now)
    (fits : window ≤ s.size) (still : ∀ t, (change t).second = t.second)
    (empty : f ⟨second, 0, 0, 0⟩ = 0) {x : Nat} (grows : ∀ t, f (change t) = f t + x) :
    total (((s.update second change).recent now window).map f) =
      total ((s.recent now window).map f) + if now - second < window then x else 0 := by
  have before := total_filter f (fun t => t.second % s.size = second % s.size) (s.recent now window)
  rw [recent_in_place upTo later past fits] at before
  rw [recent_update past still, ← before, List.map_append, total_append]
  by_cases near : now - second < window
  · simp only [if_pos near, List.map_cons, List.map_nil, total, grows, total_slotOf upTo empty]
    omega
  · simp only [if_neg near, List.map_nil, total, Nat.add_zero]

end Samples

namespace Use

/-- Whether a use records an error, of whatever kind. -/
def isError : Use → Bool
  | record (.failure _ _) _ => true
  | _ => false

/-- The microseconds of a success. -/
def latency? : Use → Option Nat
  | record (.success micros) _ => some micros
  | _ => none

/-- Whether a use was in one of the last `window` seconds, which are counted from `born`. -/
def isRecent (born now window : Nat) (u : Use) : Bool :=
  (now - born) / 1000 - (u.time - born) / 1000 < window

end Use

namespace Node

open Samples (UpTo)

variable {born now window : Nat} {history : List Use} {f : Slot → Nat} {adds : Use → Nat}

/-- What a use does to the samples. -/
theorem samples_apply (n : Node) (u : Use) : (u.apply n).samples =
    match u with
    | .ask _ => n.samples
    | .record (.success micros) now => n.samples.addLatency (n.second now) micros
    | .record (.failure _ _) now => n.samples.addError (n.second now) := by
  cases u with
  | ask now => rfl
  | record outcome now =>
    cases outcome with
    | success micros => rfl
    | failure connection reason => cases connection <;> rfl

/-- A number that slots count, `adds` being what a use adds to it. -/
structure Counts (f : Slot → Nat) (adds : Use → Nat) : Prop where
  empty : ∀ second, f ⟨second, 0, 0, 0⟩ = 0
  asked : ∀ now, adds (.ask now) = 0
  succeeded : ∀ t micros now,
    f { t with latencySum := t.latencySum + micros, latencyCount := t.latencyCount + 1 } =
      f t + adds (.record (.success micros) now)
  failed : ∀ t connection reason now,
    f { t with errors := t.errors + 1 } = f t + adds (.record (.failure connection reason) now)

variable {n : Node} {u : Use} {latest : Nat}

theorem size_apply (n : Node) (u : Use) : (u.apply n).samples.size = n.samples.size := by
  rw [samples_apply]
  split <;> rfl

theorem upTo_apply (upTo : n.samples.UpTo latest) (later : latest ≤ n.second u.time) :
    (u.apply n).samples.UpTo (n.second u.time) := by
  rw [samples_apply]
  cases u with
  | ask time => exact upTo.mono later
  | record outcome time =>
    cases outcome with
    | success micros => exact Samples.upTo_update upTo later fun _ => rfl
    | failure connection reason => exact Samples.upTo_update upTo later fun _ => rfl

theorem total_apply (counts : Counts f adds) (upTo : n.samples.UpTo latest)
    (later : latest ≤ n.second u.time) (past : u.time ≤ now) (fits : window ≤ n.samples.size) :
    total (((u.apply n).samples.recent (n.second now) window).map f) =
      total ((n.samples.recent (n.second now) window).map f) +
        if u.isRecent n.born now window then adds u else 0 := by
  have gone : n.second u.time ≤ n.second now :=
    Nat.div_le_div_right (Nat.sub_le_sub_right past n.born)
  simp only [Use.isRecent, decide_eq_true_eq]
  rw [samples_apply]
  cases u with
  | ask time => rw [counts.asked, ite_self, Nat.add_zero]
  | record outcome time =>
    cases outcome with
    | success micros =>
      refine Samples.total_update upTo later gone fits ?_ (counts.empty _) ?_
      · exact fun t => rfl
      · exact fun t => counts.succeeded t micros time
    | failure connection reason =>
      refine Samples.total_update upTo later gone fits ?_ (counts.empty _) ?_
      · exact fun t => rfl
      · exact fun t => counts.failed t connection reason time

theorem size_after (n : Node) (history : List Use) :
    (n.after history).samples.size = n.samples.size := by
  induction history using List.reverseRecOn with
  | nil => rfl
  | append_singleton before u ih => rw [after_snoc, size_apply, ih]

/-- The ring of a node has no slot beyond its last use. -/
theorem upTo_after {time : Nat} (new : n.samples.slots = []) (timely : IsTimely n.born history)
    (past : ∀ u ∈ history, u.time ≤ time) :
    (n.after history).samples.UpTo (n.second time) := by
  induction history using List.reverseRecOn generalizing time with
  | nil => exact ⟨by simp [after, new], by simp [after, new]⟩
  | append_singleton before u ih =>
    obtain ⟨earlier, -, ordered⟩ := isTimely_snoc.mp timely
    have birth := (after_fixed n before).2
    have first : (n.after before).second u.time = n.second u.time := by
      simp only [second, age, birth]
    have last := upTo_apply (ih earlier ordered) (Nat.le_of_eq first.symm)
    rw [after_snoc]
    have gone : u.time ≤ time := past u (List.mem_append_right _ List.mem_cons_self)
    refine last.mono (Nat.le_trans (Nat.le_of_eq first) ?_)
    exact Nat.div_le_div_right (Nat.sub_le_sub_right gone n.born)

/-- Within a window that the ring can hold, the slots have counted what the history adds. -/
theorem total_after (counts : Counts f adds) (new : n.samples.slots = [])
    (timely : IsTimely n.born history) (past : ∀ u ∈ history, u.time ≤ now)
    (fits : window ≤ n.samples.size) :
    total (((n.after history).samples.recent (n.second now) window).map f) =
      total ((history.filter (Use.isRecent n.born now window)).map adds) := by
  induction history using List.reverseRecOn with
  | nil => simp [after, Samples.recent, new]
  | append_singleton before u ih =>
    obtain ⟨earlier, -, ordered⟩ := isTimely_snoc.mp timely
    have birth := (after_fixed n before).2
    have same (time : Nat) : (n.after before).second time = n.second time := by
      simp only [second, age, birth]
    have known := ih earlier fun v listed => past v (List.mem_append_left _ listed)
    have step := total_apply (n := n.after before) (u := u) counts (upTo_after new earlier ordered)
      (Nat.le_of_eq (same u.time).symm) (past u (List.mem_append_right _ List.mem_cons_self))
      ((size_after n before).symm ▸ fits)
    rw [same, birth, known] at step
    rw [after_snoc, step, List.filter_append, List.map_append, total_append, List.filter_cons]
    cases u.isRecent n.born now window <;> simp [total]

theorem counts_errors : Counts Slot.errors fun u => if u.isError then 1 else 0 where
  empty _ := rfl
  asked _ := rfl
  succeeded _ _ _ := rfl
  failed _ _ _ _ := rfl

theorem counts_latencySum : Counts Slot.latencySum fun u => u.latency?.getD 0 where
  empty _ := rfl
  asked _ := rfl
  succeeded _ _ _ := rfl
  failed _ _ _ _ := rfl

theorem counts_latencyCount :
    Counts Slot.latencyCount fun u => if u.latency?.isSome then 1 else 0 where
  empty _ := rfl
  asked _ := rfl
  succeeded _ _ _ := rfl
  failed _ _ _ _ := rfl

theorem total_ite (p : Use → Bool) (uses : List Use) :
    total (uses.map fun u => if p u then 1 else 0) = uses.countP p := by
  induction uses with
  | nil => rfl
  | cons u rest ih => cases chosen : p u <;> simp [total, ih, chosen, Nat.add_comm]

theorem total_latency (uses : List Use) :
    total (uses.map fun u => u.latency?.getD 0) = total (uses.filterMap Use.latency?) := by
  induction uses with
  | nil => rfl
  | cons u rest ih => cases latency : u.latency? <;> simp [total, ih, latency]

/-- At any time after its last use, a node has counted the errors and the latencies of its whole
history that are in their windows, and the average is of these latencies. -/
theorem windows_count_history (c : Config.Replication) (addr : String) (born : Nat)
    (timely : IsTimely born history) (past : ∀ u ∈ history, u.time ≤ now) :
    let s := Settings.ofConfig c
    let n := (fresh addr s born).after history
    let errors := (history.filter (Use.isRecent born now s.errorSeconds)).countP Use.isError
    let latencies :=
      (history.filter (Use.isRecent born now s.responseSeconds)).filterMap Use.latency?
    n.recentErrors now = errors ∧
    n.samples.latencies (n.second now) s.responseSeconds = (total latencies, latencies.length) ∧
    (total latencies < UInt64.size →
      ∃ sum : UInt64, sum.toNat = total latencies ∧
        n.averageLatency now =
          if latencies.length = 0 then 0 else sum.toFloat / Float.ofNat latencies.length) := by
  intro s n errors latencies
  let first := fresh addr s born
  obtain ⟨settings, birth⟩ := after_fixed first history
  have now_second : n.second now = first.second now := by
    have birth' : n.born = first.born := birth
    simp only [second, age, birth']
  have hold : first.samples.size = max (max s.responseSeconds s.errorSeconds) 1 := rfl
  have counted {f : Slot → Nat} {adds : Use → Nat} (counts : Counts f adds) {window : Nat}
      (held : window ≤ first.samples.size) :
      total ((n.samples.recent (n.second now) window).map f) =
        total ((history.filter (Use.isRecent born now window)).map adds) := by
    rw [now_second]
    exact total_after (n := first) counts rfl timely past held
  have known : n.samples.latencies (n.second now) s.responseSeconds =
      (total latencies, latencies.length) := by
    have held : s.responseSeconds ≤ first.samples.size := by omega
    rw [Samples.latencies, counted counts_latencySum held, counted counts_latencyCount held,
      total_latency, total_ite, ← List.length_filterMap_eq_countP]
  refine ⟨?_, known, fun fits => ?_⟩
  · have held : s.errorSeconds ≤ first.samples.size := by omega
    have window : n.settings.errorSeconds = s.errorSeconds := congrArg (·.errorSeconds) settings
    rw [recentErrors, window, Samples.errors, counted counts_errors held, total_ite]
  · have window : n.settings.responseSeconds = s.responseSeconds :=
      congrArg (·.responseSeconds) settings
    refine ⟨UInt64.ofNat (total latencies), UInt64.toNat_ofNat_of_lt fits, ?_⟩
    rw [averageLatency, window, known]

/-- The success at 3500 ms takes over the slot of the one at 500 ms, which is out of the window. -/
theorem windows_count_history_reused :
    let c := { Config.Replication.default with responseSeconds := 2, errorSeconds := 3 }
    let history := [.record (.success 100) 500, .record (.failure true "refused") 1500,
      .record (.success 200) 3500, .record (.failure false "status") 3600]
    let n := (fresh "a" (Settings.ofConfig c) 0).after history
    n.recentErrors 3999 = 2 ∧ n.samples.latencies (n.second 3999) 2 = (200, 1) ∧
      ∃ sum : UInt64, sum.toNat = 200 ∧ n.averageLatency 3999 = sum.toFloat / Float.ofNat 1 := by
  intro c history n
  have timely : IsTimely 0 history := by decide
  have past : ∀ u ∈ history, u.time ≤ 3999 := by decide
  obtain ⟨errors, latencies, average⟩ := windows_count_history c "a" 0 timely past
  exact ⟨errors, latencies, average (by decide)⟩

end Node

end QuorumKv.Health
