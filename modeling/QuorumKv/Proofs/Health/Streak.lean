import Mathlib.Data.List.Induction
import QuorumKv.Proofs.Health.Trial

/-! What the circuit of a node owes to the history of its calls. A closed circuit opens only behind
a full streak of losses, and until it closes again it gives out nothing but trials, each after a
silence. The breaker keeps four numbers; `Breaker.Remembers` says what each of them knows of the
history, and every use keeps it. -/
namespace QuorumKv.Health

namespace Use

def time : Use → Nat
  | ask now | record _ now => now

/-- Whether a use records that the node could not be reached. -/
def isLoss : Use → Bool
  | record (.failure connection _) _ => connection
  | _ => false

def isSuccess : Use → Bool
  | record (.success _) _ => true
  | _ => false

end Use

/-- The times at which the node could not be reached, oldest first. -/
def losses (history : List Use) : List Nat :=
  (history.filter Use.isLoss).map Use.time

/-- Whether a history begins when the node becomes known, and never goes back in time. -/
def IsTimely (born : Nat) (history : List Use) : Prop :=
  (born :: history.map Use.time).Pairwise (· ≤ ·)

instance (born : Nat) (history : List Use) : Decidable (IsTimely born history) :=
  inferInstanceAs (Decidable (List.Pairwise _ _))

/-- Whether the last losses of a history, so many, came at `since` or later with no success among
them. -/
def EndsInStreak (history : List Use) (count since : Nat) : Prop :=
  ∃ earlier streak, history = earlier ++ streak ∧ (∀ u ∈ streak, u.isSuccess = false) ∧
    (losses streak).length = count ∧ ∀ t ∈ losses streak, since ≤ t

theorem losses_append (earlier later : List Use) :
    losses (earlier ++ later) = losses earlier ++ losses later := by
  simp only [losses, List.filter_append, List.map_append]

theorem losses_loss {u : Use} (loss : u.isLoss = true) : losses [u] = [u.time] := by
  simp only [losses, List.filter_cons_of_pos loss, List.filter_nil, List.map_cons, List.map_nil]

theorem losses_other {u : Use} (other : u.isLoss = false) : losses [u] = [] := by
  simp only [losses, List.filter_cons, other, Bool.false_eq_true, if_false, List.filter_nil,
    List.map_nil]

theorem losses_last (history : List Use) {u : Use} (loss : u.isLoss = true) :
    (losses (history ++ [u])).getLast? = some u.time := by
  rw [losses_append, losses_loss loss, List.getLast?_append, List.getLast?_singleton,
    Option.some_or]

theorem losses_snoc_other {history : List Use} {u : Use} (other : u.isLoss = false) :
    losses (history ++ [u]) = losses history := by
  rw [losses_append, losses_other other, List.append_nil]

theorem time_of_mem_losses {history : List Use} {t : Nat} (lost : t ∈ losses history) :
    ∃ u ∈ history, u.time = t := by
  obtain ⟨u, listed, time⟩ := List.mem_map.mp lost
  exact ⟨u, (List.mem_filter.mp listed).1, time⟩

theorem isTimely_snoc {born : Nat} {history : List Use} {u : Use} :
    IsTimely born (history ++ [u]) ↔
      IsTimely born history ∧ born ≤ u.time ∧ ∀ v ∈ history, v.time ≤ u.time := by
  have parts : born :: (history ++ [u]).map Use.time =
      (born :: history.map Use.time) ++ [u.time] := by
    simp only [List.map_append, List.map_cons, List.map_nil, List.cons_append]
  rw [IsTimely, parts, List.pairwise_append]
  constructor
  · rintro ⟨timely, -, later⟩
    refine ⟨timely, later born List.mem_cons_self _ List.mem_cons_self, ?_⟩
    intro v listed
    exact later _ (.tail _ (List.mem_map_of_mem listed)) _ List.mem_cons_self
  · rintro ⟨timely, first, later⟩
    refine ⟨timely, List.pairwise_singleton .., ?_⟩
    intro t before now here
    obtain rfl := List.mem_singleton.mp here
    obtain rfl | listed := List.mem_cons.mp before
    · exact first
    · obtain ⟨v, known, rfl⟩ := List.mem_map.mp listed
      exact later v known

theorem IsTimely.born_le {born : Nat} {history : List Use} (timely : IsTimely born history) :
    ∀ t ∈ losses history, born ≤ t := by
  intro t lost
  obtain ⟨u, listed, rfl⟩ := time_of_mem_losses lost
  exact (List.pairwise_cons.mp timely).1 _ (List.mem_map_of_mem listed)

namespace EndsInStreak

variable {history : List Use} {count since : Nat} {u : Use}

theorem none (history : List Use) (since : Nat) : EndsInStreak history 0 since :=
  ⟨history, [], (List.append_nil _).symm, by simp, rfl, by simp [losses]⟩

/-- What is neither a loss nor a success leaves a streak as it is. -/
theorem keep (streak : EndsInStreak history count since) (loss : u.isLoss = false)
    (success : u.isSuccess = false) : EndsInStreak (history ++ [u]) count since := by
  obtain ⟨earlier, recent, rfl, unbroken, length, all⟩ := streak
  refine ⟨earlier, recent ++ [u], List.append_assoc .., ?_, ?_, ?_⟩
  · intro v listed
    obtain old | new := List.mem_append.mp listed
    · exact unbroken v old
    · exact List.mem_singleton.mp new ▸ success
  · rw [losses_append, losses_other loss, List.append_nil, length]
  · rw [losses_append, losses_other loss, List.append_nil]
    exact all

theorem extend (streak : EndsInStreak history count since) (loss : u.isLoss = true)
    (later : since ≤ u.time) : EndsInStreak (history ++ [u]) (count + 1) since := by
  obtain ⟨earlier, recent, rfl, unbroken, length, all⟩ := streak
  refine ⟨earlier, recent ++ [u], List.append_assoc .., ?_, ?_, ?_⟩
  · intro v listed
    obtain old | new := List.mem_append.mp listed
    · exact unbroken v old
    · obtain rfl := List.mem_singleton.mp new
      cases v with
      | ask now => rfl
      | record outcome now =>
        cases outcome with
        | success micros => cases loss
        | failure connection reason => rfl
  · rw [losses_append, losses_loss loss, List.length_append, length, List.length_singleton]
  · intro t lost
    rw [losses_append, losses_loss loss] at lost
    obtain old | new := List.mem_append.mp lost
    · exact all t old
    · exact List.mem_singleton.mp new ▸ later

/-- A streak that is not empty began at some time in the history. -/
theorem since_le (streak : EndsInStreak history count since) (some_loss : 0 < count) :
    ∃ v ∈ history, since ≤ v.time := by
  obtain ⟨earlier, recent, rfl, -, rfl, all⟩ := streak
  obtain ⟨t, lost⟩ := List.exists_mem_of_length_pos some_loss
  obtain ⟨v, listed, rfl⟩ := time_of_mem_losses lost
  exact ⟨v, List.mem_append_right _ listed, all _ lost⟩

end EndsInStreak

namespace Breaker

/-- What a breaker knows of a history. Its times count from `born`. -/
structure Remembers (s : Settings) (born : Nat) (history : List Use) (b : Breaker) : Prop where
  last : ∀ t ∈ (losses history).getLast?, b.lastFailure = t - born
  tripped : b.circuit ≠ .closed → (losses history).getLast?.isSome
  below : b.circuit = .closed → b.failures < s.maxErrors
  streak : b.circuit = .closed → EndsInStreak history b.failures (born + b.streakStart)

theorem remembers_initial {s : Settings} (born : Nat) (positive : 0 < s.maxErrors) :
    Remembers s born [] initial where
  last := by simp [losses]
  tripped := by simp [initial]
  below _ := positive
  streak _ := EndsInStreak.none ..

/-- Asking opens no circuit and closes none. -/
theorem ask_cases (b : Breaker) (s : Settings) (now : Nat) :
    (b.ask s now).2 = b ∨
      b.circuit = .open ∧ (b.ask s now).2 = { b with circuit := .halfOpen } := by
  unfold ask
  cases state : b.circuit with
  | closed => exact .inl rfl
  | halfOpen => exact .inl rfl
  | «open» =>
    by_cases past : b.silenceOver s now = true
    · exact .inr ⟨rfl, by simp only [past, if_true]⟩
    · exact .inl (by simp only [past, if_false, Bool.false_eq_true])

/-- A circuit that is not closed gives out trials only, after a silence. -/
theorem ask_of_not_closed {b : Breaker} {s : Settings} {now : Nat} (tripped : b.circuit ≠ .closed)
    (allowed : (b.ask s now).1.isAllowed = true) :
    (b.ask s now).1 = .trial ∧ s.silence ≤ now - b.lastFailure := by
  unfold ask at allowed ⊢
  cases state : b.circuit with
  | closed => exact absurd state tripped
  | halfOpen => simp [state, Permission.isAllowed] at allowed
  | «open» =>
    by_cases past : b.silenceOver s now = true
    · exact ⟨by simp only [past, if_true], by simpa [silenceOver] using past⟩
    · simp [state, past, Permission.isAllowed] at allowed

theorem isRoutable_eq (b : Breaker) (s : Settings) (now : Nat) :
    b.isRoutable s now = (b.ask s now).1.isAllowed := by
  unfold isRoutable ask
  cases b.circuit with
  | closed => rfl
  | halfOpen => rfl
  | «open» => cases b.silenceOver s now <;> rfl

/-- A loss begins a streak, or extends one that is not too old. -/
theorem extendStreak_cases (b : Breaker) (s : Settings) (now : Nat) :
    b.extendStreak s now = { b with failures := 1, streakStart := now } ∨
      b.failures ≠ 0 ∧ now ≤ b.streakStart + s.window ∧
        b.extendStreak s now = { b with failures := b.failures + 1 } := by
  unfold extendStreak
  by_cases new : b.failures = 0 ∨ s.window < now - b.streakStart
  · exact .inl (if_pos new)
  · refine .inr ⟨fun none => new (.inl none), ?_, if_neg new⟩
    omega

theorem extendStreak_circuit (b : Breaker) (s : Settings) (now : Nat) :
    (b.extendStreak s now).circuit = b.circuit := by
  obtain begun | ⟨-, -, grown⟩ := b.extendStreak_cases s now
  · rw [begun]
  · rw [grown]

/-- A full streak opens a closed circuit. -/
theorem fail_of_closed {b : Breaker} (s : Settings) (now : Nat) (closed : b.circuit = .closed) :
    (b.fail s now).1 =
      if s.maxErrors ≤ (b.extendStreak s now).failures then
        { b.extendStreak s now with lastFailure := now, circuit := .open }
      else { b.extendStreak s now with lastFailure := now } := by
  by_cases new : b.failures = 0 ∨ s.window < now - b.streakStart
  · simp only [fail, closed, extendStreak, if_pos new]
    split <;> rfl
  · simp only [fail, closed, extendStreak, if_neg new]
    split <;> rfl

theorem fail_of_not_closed {b : Breaker} (s : Settings) (now : Nat)
    (tripped : b.circuit ≠ .closed) :
    (b.fail s now).1 = { b with lastFailure := now, circuit := .open } := by
  cases state : b.circuit with
  | closed => exact absurd state tripped
  | halfOpen => simp only [fail, state]
  | «open» => simp only [fail, state]

variable {s : Settings} {born : Nat} {history : List Use} {b : Breaker}

/-- A loss at a closed circuit extends the streak that the breaker counts, all of which lies within
the window. -/
theorem Remembers.extend (known : Remembers s born history b) (closed : b.circuit = .closed)
    {u : Use} (loss : u.isLoss = true) (timely : IsTimely born (history ++ [u])) :
    let after := b.extendStreak s (u.time - born)
    EndsInStreak (history ++ [u]) after.failures (born + after.streakStart) ∧
      after.failures ≤ b.failures + 1 ∧ u.time ≤ born + after.streakStart + s.window := by
  intro after
  obtain ⟨-, first, later⟩ := isTimely_snoc.mp timely
  obtain begun | ⟨some_loss, recent, grown⟩ := b.extendStreak_cases s (u.time - born)
  · have single : EndsInStreak (history ++ [u]) 1 u.time :=
      (EndsInStreak.none history u.time).extend loss (Nat.le_refl _)
    simp only [after, begun]
    refine ⟨?_, by omega, by omega⟩
    rwa [Nat.add_sub_cancel' first]
  · obtain ⟨v, listed, since⟩ := (known.streak closed).since_le (Nat.pos_of_ne_zero some_loss)
    simp only [after, grown]
    refine ⟨(known.streak closed).extend loss (Nat.le_trans since (later v listed)), by omega, ?_⟩
    omega

/-- A closed circuit that a loss opens has a full streak behind it. -/
theorem Remembers.opens (known : Remembers s born history b) (closed : b.circuit = .closed)
    {u : Use} (loss : u.isLoss = true) (timely : IsTimely born (history ++ [u]))
    (opened : (b.fail s (u.time - born)).1.circuit ≠ .closed) :
    (b.fail s (u.time - born)).1.circuit = .open ∧
      ∃ since, EndsInStreak (history ++ [u]) s.maxErrors since ∧ u.time ≤ since + s.window := by
  obtain ⟨streak, grown, recent⟩ := known.extend closed loss timely
  rw [fail_of_closed s _ closed] at opened ⊢
  by_cases full : s.maxErrors ≤ (b.extendStreak s (u.time - born)).failures
  · rw [if_pos full]
    have exact_count : (b.extendStreak s (u.time - born)).failures = s.maxErrors := by
      have below := known.below closed
      omega
    exact ⟨rfl, _, exact_count ▸ streak, recent⟩
  · rw [if_neg full] at opened
    exact absurd ((extendStreak_circuit b s _).trans closed) opened

theorem Remembers.fail (known : Remembers s born history b) {u : Use} (loss : u.isLoss = true)
    (timely : IsTimely born (history ++ [u])) :
    Remembers s born (history ++ [u]) (b.fail s (u.time - born)).1 := by
  have newest := losses_last history loss
  by_cases closed : b.circuit = .closed
  · obtain ⟨streak, -, -⟩ := known.extend closed loss timely
    rw [fail_of_closed s _ closed]
    split
    · exact ⟨by simp [newest], by simp [newest], by simp, by simp⟩
    · rename_i short
      exact ⟨by simp [newest], by simp [newest], fun _ => Nat.lt_of_not_le short, fun _ => streak⟩
  · rw [fail_of_not_closed s _ closed]
    exact ⟨by simp [newest], by simp [newest], by simp, by simp⟩

theorem Remembers.succeed (known : Remembers s born history b) {u : Use}
    (success : u.isSuccess = true) (positive : 0 < s.maxErrors) :
    Remembers s born (history ++ [u]) b.succeed := by
  have other : u.isLoss = false := by
    cases u with
    | ask now => rfl
    | record outcome now =>
      cases outcome with
      | success micros => rfl
      | failure connection reason => cases success
  refine ⟨?_, ?_, fun _ => positive, fun _ => EndsInStreak.none ..⟩
  · rw [losses_snoc_other other]
    exact known.last
  · intro tripped
    rw [losses_snoc_other other]
    refine known.tripped fun closed => tripped ?_
    simp [Breaker.succeed, closed]

/-- What brings no verdict is nothing to the breaker, apart from a trial that is given out. -/
theorem Remembers.pass (known : Remembers s born history b) {u : Use} (loss : u.isLoss = false)
    (success : u.isSuccess = false) : Remembers s born (history ++ [u]) b where
  last := by
    rw [losses_snoc_other loss]
    exact known.last
  tripped := by
    rw [losses_snoc_other loss]
    exact known.tripped
  below := known.below
  streak closed := (known.streak closed).keep loss success

theorem Remembers.ask (known : Remembers s born history b) (now : Nat) :
    Remembers s born (history ++ [.ask now]) (b.ask s (now - born)).2 := by
  have passed : Remembers s born (history ++ [.ask now]) b := known.pass rfl rfl
  obtain same | ⟨opened, half⟩ := b.ask_cases s (now - born)
  · rwa [same]
  · rw [half]
    exact ⟨passed.last, fun _ => passed.tripped (by simp [opened]), by simp, by simp⟩

/-- What a circuit that is not closed gives out are trials, each of them a silence after the last
loss. -/
theorem Remembers.trial (known : Remembers s born history b) (timely : IsTimely born history)
    (tripped : b.circuit ≠ .closed) {now : Nat} (latest : ∀ v ∈ history, v.time ≤ now)
    (allowed : (b.ask s (now - born)).1.isAllowed = true) :
    (b.ask s (now - born)).1 = .trial ∧
      ∃ last ∈ (losses history).getLast?, last + s.silence ≤ now := by
  obtain ⟨trial, past⟩ := ask_of_not_closed tripped allowed
  obtain ⟨last, newest⟩ := Option.isSome_iff_exists.mp (known.tripped tripped)
  refine ⟨trial, last, newest, ?_⟩
  have lost : last ∈ losses history := List.mem_of_getLast? newest
  have first : born ≤ last := timely.born_le last lost
  obtain ⟨u, listed, rfl⟩ := time_of_mem_losses lost
  have late : u.time ≤ now := latest u listed
  rw [known.last _ newest] at past
  omega

end Breaker

namespace Node

variable {born : Nat} {history : List Use}

theorem after_snoc (n : Node) (history : List Use) (u : Use) :
    n.after (history ++ [u]) = u.apply (n.after history) := by
  rw [after, List.foldl_append, List.foldl_cons, List.foldl_nil, ← after]

/-- What no use changes. -/
theorem apply_fixed (n : Node) (u : Use) :
    (u.apply n).settings = n.settings ∧ (u.apply n).born = n.born := by
  cases u with
  | ask now => exact ⟨rfl, rfl⟩
  | record outcome now =>
    cases outcome with
    | success micros => exact ⟨rfl, rfl⟩
    | failure connection reason => cases connection <;> exact ⟨rfl, rfl⟩

theorem after_fixed (n : Node) (history : List Use) :
    (n.after history).settings = n.settings ∧ (n.after history).born = n.born := by
  induction history using List.reverseRecOn with
  | nil => exact ⟨rfl, rfl⟩
  | append_singleton before u ih =>
    rw [after_snoc]
    obtain ⟨settings, birth⟩ := apply_fixed (n.after before) u
    exact ⟨settings.trans ih.1, birth.trans ih.2⟩

theorem apply_of_loss (n : Node) {u : Use} (loss : u.isLoss = true) :
    (u.apply n).breaker = (n.breaker.fail n.settings.breaker (u.time - n.born)).1 := by
  cases u with
  | ask now => cases loss
  | record outcome now =>
    cases outcome with
    | success micros => cases loss
    | failure connection reason =>
      obtain rfl : connection = true := loss
      exact record_circuit n (.failure true reason) now

/-- Only a loss opens a closed circuit. -/
theorem closed_of_other {n : Node} {u : Use} (other : u.isLoss = false)
    (closed : n.breaker.circuit = .closed) : (u.apply n).breaker.circuit = .closed := by
  cases u with
  | ask now =>
    simp only [Use.apply, Node.ask, Breaker.ask, closed]
  | record outcome now =>
    rw [Use.apply, record_circuit]
    cases outcome with
    | success micros => simp [Breaker.succeed, closed]
    | failure connection reason =>
      obtain rfl : connection = false := other
      exact closed

theorem remembers_after {n : Node} (new : n.breaker = .initial)
    (positive : 0 < n.settings.breaker.maxErrors) (timely : IsTimely n.born history) :
    (n.after history).breaker.Remembers n.settings.breaker n.born history := by
  induction history using List.reverseRecOn with
  | nil => exact new ▸ Breaker.remembers_initial n.born positive
  | append_singleton before u ih =>
    have known := ih (isTimely_snoc.mp timely).1
    obtain ⟨settings, birth⟩ := after_fixed n before
    rw [after_snoc]
    cases u with
    | ask now =>
      have asked := known.ask now
      rw [← settings, ← birth] at asked ⊢
      exact asked
    | record outcome now =>
      have read := record_circuit (n.after before) outcome now
      cases outcome with
      | success micros =>
        rw [Use.apply, read]
        exact known.succeed rfl positive
      | failure connection reason =>
        cases connection with
        | true =>
          rw [apply_of_loss _ rfl, settings, birth]
          exact known.fail rfl timely
        | false =>
          rw [Use.apply, read]
          exact known.pass rfl rfl

/-- A closed circuit counts fewer losses than open it. It opens at a loss only, which ends a full
streak within the window. While it is not closed, what it gives out are trials, each of them a
silence after the last loss. At every moment, a node is routable just when it would be given a
call. -/
theorem circuit_follows_losses (c : Config.Replication) (addr : String) (born : Nat)
    (history : List Use) (timely : IsTimely born history) :
    let s := (Settings.ofConfig c).breaker
    let n := (fresh addr (.ofConfig c) born).after history
    (n.breaker.circuit = .closed → n.breaker.failures < s.maxErrors) ∧
    (∀ before u, history = before ++ [u] →
      ((fresh addr (.ofConfig c) born).after before).breaker.circuit = .closed →
      n.breaker.circuit ≠ .closed →
        n.breaker.circuit = .open ∧ u.isLoss = true ∧
        ∃ earlier streak, history = earlier ++ streak ∧ (∀ v ∈ streak, v.isSuccess = false) ∧
          (losses streak).length = s.maxErrors ∧ ∀ t ∈ losses streak, u.time ≤ t + s.window) ∧
    (n.breaker.circuit ≠ .closed → ∀ now, (∀ v ∈ history, v.time ≤ now) →
      (n.ask now).1.isAllowed = true →
        (n.ask now).1 = .trial ∧ ∃ last ∈ (losses history).getLast?, last + s.silence ≤ now) ∧
    ∀ now, n.isRoutable now = (n.ask now).1.isAllowed := by
  intro s n
  have positive : 0 < s.maxErrors := Nat.lt_of_lt_of_le Nat.zero_lt_one (Nat.le_max_right ..)
  have known : n.breaker.Remembers s born history :=
    remembers_after (n := fresh addr (.ofConfig c) born) rfl positive timely
  obtain ⟨settings, birth⟩ := after_fixed (fresh addr (.ofConfig c) born) history
  refine ⟨known.below, ?opens, ?retries, fun now => n.breaker.isRoutable_eq _ _⟩
  case opens =>
    rintro before u rfl closed opened
    have earlier := remembers_after (n := fresh addr (.ofConfig c) born) rfl positive
      (isTimely_snoc.mp timely).1
    obtain ⟨settings, birth⟩ := after_fixed (fresh addr (.ofConfig c) born) before
    simp only [n, after_snoc] at opened ⊢
    cases loss : u.isLoss with
    | false => exact absurd (closed_of_other loss closed) opened
    | true =>
      rw [apply_of_loss _ loss, settings, birth] at opened ⊢
      obtain ⟨now_open, since, ⟨rest, streak, split, unbroken, length, all⟩, recent⟩ :=
        earlier.opens closed loss timely opened
      refine ⟨now_open, rfl, rest, streak, split, unbroken, length, ?_⟩
      intro t lost
      exact Nat.le_trans recent (Nat.add_le_add_right (all t lost) _)
  case retries =>
    intro tripped now latest allowed
    have asked : (n.ask now).1 = (n.breaker.ask s (now - born)).1 := by
      simp only [Node.ask, age, n, settings, birth]
      rfl
    rw [asked] at allowed ⊢
    exact known.trial timely tripped latest allowed

/-- Opens at the second loss in a row. -/
def nervous : Config.Replication :=
  { Config.Replication.default with maxConnectErrors := 2 }

/-- Two refused connections, the second at the very end of the window, open the circuit of a node
that had answered before; 5 s later it is given its trial. -/
theorem circuit_follows_two_losses :
    let refused (now : Nat) : Use := .record (.failure true "connection refused") now
    let earlier := [.record (.success 300) 90, .ask 95, refused 100]
    let n := (fresh "n1" (.ofConfig nervous) 50).after (earlier ++ [refused 10100])
    (IsTimely 50 (earlier ++ [refused 10100]) ∧
      ((fresh "n1" (.ofConfig nervous) 50).after earlier).breaker.circuit = .closed ∧
      n.breaker.circuit ≠ .closed ∧ (n.ask 15100).1.isAllowed = true) ∧
    (∃ rest streak, earlier ++ [refused 10100] = rest ++ streak ∧
      (∀ v ∈ streak, v.isSuccess = false) ∧ (losses streak).length = 2 ∧
      ∀ t ∈ losses streak, 10100 ≤ t + 10000) ∧
    (n.ask 15100).1 = .trial ∧
      ∃ last ∈ (losses (earlier ++ [refused 10100])).getLast?, last + 5000 ≤ 15100 := by
  intro refused earlier n
  have timely : IsTimely 50 (earlier ++ [refused 10100]) := by decide
  have closed : ((fresh "n1" (.ofConfig nervous) 50).after earlier).breaker.circuit = .closed := by
    decide
  have opened : n.breaker.circuit ≠ .closed := by decide
  have allowed : (n.ask 15100).1.isAllowed = true := by decide
  obtain ⟨-, opens, retries, -⟩ := circuit_follows_losses nervous "n1" 50 _ timely
  obtain ⟨-, -, behind⟩ := opens earlier (refused 10100) rfl closed opened
  have again := retries opened 15100 (by decide) allowed
  exact ⟨⟨timely, closed, opened, allowed⟩, behind, again⟩

end Node

end QuorumKv.Health
