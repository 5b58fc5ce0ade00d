import QuorumKv.Proofs.Health.Streak

/-! The calls that a node has given out. Each reports its outcome once, whenever it ends, and the
breaker is not told whose outcome it is. So a half-open circuit is left by the first outcome that is
read, and a call from before the circuit opened can bring it while the trial is under way. -/
namespace QuorumKv.Health

/-- A call that was given out and has not reported yet. -/
structure Call where
  number : Nat
  isTrial : Bool
  since : Nat
  deriving DecidableEq

/-- A node and the calls that it gave out. -/
structure Calls where
  node : Node
  ongoing : List Call
  /-- How many calls were given out so far, which is the number of the next one. -/
  given : Nat

inductive Turn where
  | ask (now : Nat)
  /-- The call of this number ended. -/
  | report (number : Nat) (outcome : Outcome) (now : Nat)

def Turn.time : Turn → Nat
  | ask now | report _ _ now => now

namespace Node

theorem ask_cases (n : Node) (now : Nat) :
    n.ask now = (.rejected, n) ∨
      n.breaker.circuit = .closed ∧ n.ask now = (.allowed, n) ∨
      n.breaker.circuit = .open ∧
        n.settings.breaker.silence ≤ n.age now - n.breaker.lastFailure ∧
        n.ask now = (.trial, { n with breaker := { n.breaker with circuit := .halfOpen } }) := by
  unfold ask Breaker.ask
  cases state : n.breaker.circuit with
  | closed => exact .inr (.inl ⟨rfl, rfl⟩)
  | halfOpen => exact .inl rfl
  | «open» =>
    by_cases past : n.breaker.silenceOver n.settings.breaker (n.age now) = true
    · simp only [past, if_true]
      exact .inr (.inr ⟨trivial, of_decide_eq_true past, trivial⟩)
    · simp only [past]
      exact .inl rfl

/-- A circuit is open after an outcome because the node was not reached just now, or because it was
open and a loss is not what the outcome brought. -/
theorem record_open (n : Node) (outcome : Outcome) (now : Nat)
    (opened : (n.record outcome now).1.breaker.circuit = .open) :
    (n.record outcome now).1.breaker.lastFailure = n.age now ∨
      n.breaker.circuit = .open ∧
        (n.record outcome now).1.breaker.lastFailure = n.breaker.lastFailure := by
  rw [record_circuit] at opened ⊢
  cases outcome with
  | success micros =>
    right
    refine ⟨?_, rfl⟩
    cases state : n.breaker.circuit <;> simp [Breaker.succeed, state] at opened ⊢
  | failure connection reason =>
    cases connection with
    | false => exact .inr ⟨opened, rfl⟩
    | true =>
      left
      by_cases closed : n.breaker.circuit = .closed
      · simp only [Breaker.fail_of_closed _ _ closed]
        split <;> rfl
      · simp only [Breaker.fail_of_not_closed _ _ closed]

end Node

namespace Calls

def start (n : Node) : Calls := ⟨n, [], 0⟩

def circuit (c : Calls) : Circuit :=
  c.node.breaker.circuit

/-- How many trials have not reported yet. -/
def trials (c : Calls) : Nat :=
  c.ongoing.countP (·.isTrial)

/-- Only a call that is under way can report. -/
def step (c : Calls) : Turn → Calls
  | .ask now =>
    match c.node.ask now with
    | (.rejected, node) => { c with node := node }
    | (.allowed, node) => ⟨node, c.ongoing ++ [⟨c.given, false, now⟩], c.given + 1⟩
    | (.trial, node) => ⟨node, c.ongoing ++ [⟨c.given, true, now⟩], c.given + 1⟩
  | .report number outcome now =>
    if c.ongoing.any (·.number == number) then
      { c with
        node := (c.node.record outcome now).1
        ongoing := c.ongoing.filter (·.number != number) }
    else c

def after (c : Calls) (history : List Turn) : Calls :=
  history.foldl step c

/-- What a turn can do. -/
inductive Move (c : Calls) : Turn → Calls → Prop where
  | nothing (turn : Turn) : Move c turn c
  | allow (now : Nat) (closed : c.circuit = .closed) :
      Move c (.ask now) ⟨c.node, c.ongoing ++ [⟨c.given, false, now⟩], c.given + 1⟩
  | trial (now : Nat) (opened : c.circuit = .open)
      (past : c.node.settings.breaker.silence ≤ c.node.age now - c.node.breaker.lastFailure) :
      Move c (.ask now)
        ⟨{ c.node with breaker := { c.node.breaker with circuit := .halfOpen } },
          c.ongoing ++ [⟨c.given, true, now⟩], c.given + 1⟩
  | settle (call : Call) (outcome : Outcome) (now : Nat) (listed : call ∈ c.ongoing) :
      Move c (.report call.number outcome now)
        { c with
          node := (c.node.record outcome now).1
          ongoing := c.ongoing.filter (·.number != call.number) }

theorem step_moves (c : Calls) (turn : Turn) : Move c turn (c.step turn) := by
  cases turn with
  | ask now =>
    unfold step
    obtain refused | ⟨closed, allowed⟩ | ⟨opened, past, trial⟩ := c.node.ask_cases now
    · simp only [refused]
      exact .nothing _
    · simp only [allowed]
      exact .allow now closed
    · simp only [trial]
      exact .trial now opened past
  | report number outcome now =>
    by_cases known : c.ongoing.any (·.number == number) = true
    · obtain ⟨call, listed, same⟩ := List.any_eq_true.mp known
      obtain rfl := eq_of_beq same
      simp only [step, known, if_true]
      exact .settle call outcome now listed
    · simp only [step, known]
      exact .nothing _

/-- A half-open circuit is left when any call reports an outcome that is read. -/
theorem leaves_half_open_iff (c : Calls) (half : c.circuit = .halfOpen) (turn : Turn) :
    (c.step turn).circuit ≠ .halfOpen ↔ ∃ call ∈ c.ongoing, ∃ outcome now,
      turn = .report call.number outcome now ∧ outcome.isRead = true := by
  constructor
  · intro left
    have moved := c.step_moves turn
    generalize c.step turn = next at moved left
    cases moved with
    | nothing => exact absurd half left
    | allow now closed => cases closed.symm.trans half
    | trial now opened past => exact absurd rfl left
    | settle call outcome now listed =>
      refine ⟨call, listed, outcome, now, rfl, ?_⟩
      apply Bool.of_not_eq_false
      intro unread
      exact left ((c.node.record_half_open_iff outcome now).mpr ⟨half, unread⟩)
  · rintro ⟨call, listed, outcome, now, rfl, read⟩ stays
    have known : c.ongoing.any (·.number == call.number) = true :=
      List.any_eq_true.mpr ⟨call, listed, beq_self_eq_true _⟩
    simp only [step, known, if_true, circuit] at stays
    rw [Node.record_half_open_iff, read] at stays
    exact absurd stays.2 (by simp)

/-- Whether a turn is the report of a trial. -/
def isOfTrial (c : Calls) : Turn → Bool
  | .ask _ => false
  | .report number _ _ => c.ongoing.any fun call => call.number == number && call.isTrial

/-- Whether a turn leaves the half-open state although it is not a trial that reports. -/
def isStray (c : Calls) (turn : Turn) : Bool :=
  c.circuit = .halfOpen && (c.step turn).circuit ≠ .halfOpen && !c.isOfTrial turn

def strays : Calls → List Turn → Nat
  | _, [] => 0
  | c, turn :: rest => (c.isStray turn).toNat + (c.step turn).strays rest

/-- One for the trial of a half-open circuit. -/
def expected (c : Calls) : Nat :=
  if c.circuit = .halfOpen then 1 else 0

theorem expected_of_half {c : Calls} (half : c.circuit = .halfOpen) : c.expected = 1 :=
  if_pos half

theorem expected_of_full {c : Calls} (full : c.circuit ≠ .halfOpen) : c.expected = 0 :=
  if_neg full

/-- The report of a trial takes it off the calls under way. -/
theorem countP_settled {ongoing : List Call} {number : Nat}
    (known : (ongoing.any fun call => call.number == number && call.isTrial) = true) :
    (ongoing.filter (·.number != number)).countP (·.isTrial) < ongoing.countP (·.isTrial) := by
  obtain ⟨call, listed, holds⟩ := List.any_eq_true.mp known
  obtain ⟨same, trial⟩ := Bool.and_eq_true_iff.mp holds
  rw [List.countP_eq_countP_filter_add ongoing _ (·.number != number)]
  apply Nat.lt_add_of_pos_right
  apply List.countP_pos_iff.mpr
  exact ⟨call, List.mem_filter.mpr ⟨listed, by simp [eq_of_beq same]⟩, trial⟩

/-- Only a turn that ends half-open gives out a trial. -/
theorem trials_given (c : Calls) (turn : Turn) :
    (c.step turn).trials ≤ c.trials + (c.step turn).expected := by
  have moved := c.step_moves turn
  generalize c.step turn = next at moved
  cases moved with
  | nothing => exact Nat.le_add_right ..
  | allow now closed => simp [trials]
  | trial now opened past => simp [trials, expected, circuit]
  | settle call outcome now listed =>
    exact Nat.le_trans List.filter_sublist.countP_le (Nat.le_add_right ..)

/-- In the half-open state nothing is given out. -/
theorem ongoing_of_half {c : Calls} (half : c.circuit = .halfOpen) (turn : Turn) :
    (c.step turn).ongoing.Sublist c.ongoing := by
  have moved := c.step_moves turn
  generalize c.step turn = next at moved
  cases moved with
  | nothing => exact List.Sublist.refl _
  | allow now closed => cases closed.symm.trans half
  | trial now opened past => cases opened.symm.trans half
  | settle call outcome now listed => exact List.filter_sublist

theorem trials_of_report {c : Calls} {turn : Turn} (known : c.isOfTrial turn = true) :
    (c.step turn).trials < c.trials := by
  cases turn with
  | ask now => cases known
  | report number outcome now =>
    have ongoing : c.ongoing.any (·.number == number) = true := by
      obtain ⟨call, listed, holds⟩ := List.any_eq_true.mp known
      exact List.any_eq_true.mpr ⟨call, listed, (Bool.and_eq_true_iff.mp holds).1⟩
    simp only [trials, step, ongoing, if_true]
    exact countP_settled known

/-- What a turn does to the number of trials under way. -/
theorem trials_step (c : Calls) (turn : Turn) :
    (c.step turn).trials + c.expected ≤
      c.trials + (c.isStray turn).toNat + (c.step turn).expected := by
  by_cases half : c.circuit = .halfOpen
  · have fewer : (c.step turn).trials ≤ c.trials := (ongoing_of_half half turn).countP_le
    rw [expected_of_half half]
    by_cases stays : (c.step turn).circuit = .halfOpen
    · rw [expected_of_half stays]
      omega
    · cases known : c.isOfTrial turn with
      | true =>
        have one_less := trials_of_report known
        omega
      | false =>
        have stray : c.isStray turn = true := by simp [isStray, half, stays, known]
        rw [stray, Bool.toNat_true]
        omega
  · have given := c.trials_given turn
    rw [expected_of_full half]
    omega

theorem trials_after (c : Calls) (history : List Turn) :
    (c.after history).trials + c.expected ≤
      c.trials + c.strays history + (c.after history).expected := by
  induction history generalizing c with
  | nil => exact Nat.le_refl _
  | cons turn rest ih =>
    have one := c.trials_step turn
    have others := ih (c.step turn)
    simp only [strays, after, List.foldl_cons] at others ⊢
    omega

/-- Whether a history never goes back in time, and no call is under way for as long as `silence` at
any of its turns. -/
def IsPunctual (silence : Nat) : Calls → Nat → List Turn → Prop
  | _, _, [] => True
  | c, last, turn :: rest =>
    (last ≤ turn.time ∧ ∀ call ∈ c.ongoing, turn.time < call.since + silence) ∧
      IsPunctual silence (c.step turn) turn.time rest

instance decidablePunctual (silence : Nat) :
    ∀ c last history, Decidable (IsPunctual silence c last history)
  | _, _, [] => inferInstanceAs (Decidable True)
  | c, _, turn :: rest =>
    have := decidablePunctual silence (c.step turn) turn.time rest
    inferInstanceAs (Decidable (_ ∧ _))

/-- What holds at `last` when calls report in time. The calls under way at an open circuit are from
before its last loss. -/
structure Orderly (silence : Nat) (c : Calls) (last : Nat) : Prop where
  settings : c.node.settings.breaker.silence = silence
  born : c.node.born ≤ last
  since : ∀ call ∈ c.ongoing, call.since ≤ last
  opened : c.circuit = .open →
    ∀ call ∈ c.ongoing, call.since ≤ c.node.born + c.node.breaker.lastFailure
  halfOpen : c.circuit = .halfOpen → ∀ call ∈ c.ongoing, call.isTrial = true

namespace Orderly

variable {silence last now : Nat} {c : Calls}

theorem wait (orderly : Orderly silence c last) (later : last ≤ now) : Orderly silence c now where
  settings := orderly.settings
  born := Nat.le_trans orderly.born later
  since call listed := Nat.le_trans (orderly.since call listed) later
  opened := orderly.opened
  halfOpen := orderly.halfOpen

theorem allow (orderly : Orderly silence c now) (closed : c.circuit = .closed) :
    Orderly silence ⟨c.node, c.ongoing ++ [⟨c.given, false, now⟩], c.given + 1⟩ now := by
  refine ⟨orderly.settings, orderly.born, ?since, ?opened, ?halfOpen⟩
  case since =>
    intro call listed
    obtain old | new := List.mem_append.mp listed
    · exact orderly.since call old
    · exact List.mem_singleton.mp new ▸ Nat.le_refl _
  case opened =>
    intro opened
    cases closed.symm.trans opened
  case halfOpen =>
    intro half
    cases closed.symm.trans half

/-- When a trial is due, no call is under way: one from before the last loss would be older than the
silence. -/
theorem alone (orderly : Orderly silence c now) (opened : c.circuit = .open)
    (past : silence ≤ c.node.age now - c.node.breaker.lastFailure)
    (young : ∀ call ∈ c.ongoing, now < call.since + silence) : c.ongoing = [] := by
  apply List.eq_nil_iff_forall_not_mem.mpr
  intro call listed
  have old := orderly.opened opened call listed
  have recent := young call listed
  have known := orderly.since call listed
  simp only [Node.age] at past
  omega

theorem trial (orderly : Orderly silence c now) (alone : c.ongoing = []) :
    Orderly silence
      ⟨{ c.node with breaker := { c.node.breaker with circuit := .halfOpen } },
        c.ongoing ++ [⟨c.given, true, now⟩], c.given + 1⟩ now := by
  rw [alone, List.nil_append]
  refine ⟨orderly.settings, orderly.born, ?since, ?opened, ?halfOpen⟩
  case since =>
    intro call listed
    exact List.mem_singleton.mp listed ▸ Nat.le_refl _
  case opened =>
    intro opened
    cases opened
  case halfOpen =>
    intro _ call listed
    exact List.mem_singleton.mp listed ▸ rfl

theorem settle (orderly : Orderly silence c now) (number : Nat) (outcome : Outcome) :
    Orderly silence
      { c with
        node := (c.node.record outcome now).1
        ongoing := c.ongoing.filter (·.number != number) } now := by
  obtain ⟨settings, birth⟩ := c.node.apply_fixed (.record outcome now)
  simp only [Use.apply] at settings birth
  refine ⟨?settings, ?born, ?since, ?opened, ?halfOpen⟩
  case settings => exact (congrArg (·.breaker.silence) settings).trans orderly.settings
  case born => exact birth ▸ orderly.born
  case since =>
    intro other kept
    exact orderly.since other (List.mem_filter.mp kept).1
  case opened =>
    intro opened other kept
    have known := (List.mem_filter.mp kept).1
    obtain lost | ⟨before, same⟩ := c.node.record_open outcome now opened
    · simp only [birth, lost, Node.age]
      have recent := orderly.since other known
      have born := orderly.born
      omega
    · simp only [birth, same]
      exact orderly.opened before other known
  case halfOpen =>
    intro half other kept
    have before := ((c.node.record_half_open_iff outcome now).mp half).1
    exact orderly.halfOpen before other (List.mem_filter.mp kept).1

theorem step {turn : Turn} (orderly : Orderly silence c last) (later : last ≤ turn.time)
    (young : ∀ call ∈ c.ongoing, turn.time < call.since + silence) :
    Orderly silence (c.step turn) turn.time := by
  have orderly := orderly.wait later
  have moved := c.step_moves turn
  generalize c.step turn = next at moved
  cases moved with
  | nothing => exact orderly
  | allow now closed => exact orderly.allow closed
  | trial now opened past =>
    rw [orderly.settings] at past
    exact orderly.trial (orderly.alone opened past young)
  | settle call outcome now listed => exact orderly.settle call.number outcome

theorem not_stray (orderly : Orderly silence c last) (turn : Turn) : c.isStray turn = false := by
  apply Bool.eq_false_iff.mpr
  intro stray
  simp only [isStray, Bool.and_eq_true, decide_eq_true_eq, Bool.not_eq_true'] at stray
  obtain ⟨⟨half, left⟩, other⟩ := stray
  obtain ⟨call, listed, outcome, now, rfl, -⟩ := (c.leaves_half_open_iff half turn).mp left
  have trial := orderly.halfOpen half call listed
  have known : c.isOfTrial (.report call.number outcome now) = true :=
    List.any_eq_true.mpr ⟨call, listed, by simp [trial]⟩
  rw [known] at other
  cases other

theorem after {history : List Turn} (orderly : Orderly silence c last)
    (punctual : IsPunctual silence c last history) :
    c.strays history = 0 ∧ ∃ later, Orderly silence (c.after history) later := by
  induction history generalizing c last with
  | nil => exact ⟨rfl, last, orderly⟩
  | cons turn rest ih =>
    obtain ⟨⟨later, young⟩, others⟩ := punctual
    obtain ⟨none, still⟩ := ih (orderly.step later young) others
    refine ⟨?_, still⟩
    rw [strays, orderly.not_stray turn, none]
    rfl

end Orderly

/-- A half-open circuit is left by the next outcome that is read, whichever call brings it. Each time
that it is not the trial's, one more trial may be under way at once. If no call takes as long as the
silence, it is always the trial's, and no trial is under way but that of a half-open circuit. -/
theorem half_open_left (config : Config.Replication) (addr : String) (born : Nat)
    (history : List Turn) :
    let start := Calls.start (.fresh addr (.ofConfig config) born)
    let c := start.after history
    (c.circuit = .halfOpen → ∀ turn, (c.step turn).circuit ≠ .halfOpen ↔
      ∃ call ∈ c.ongoing, ∃ outcome now,
        turn = .report call.number outcome now ∧ outcome.isRead = true) ∧
    c.trials ≤ start.strays history + c.expected ∧
    (IsPunctual config.silence start born history → start.strays history = 0 ∧
      (c.circuit = .halfOpen → ∀ call ∈ c.ongoing, call.isTrial = true)) := by
  intro start c
  have bound : c.trials ≤ start.strays history + c.expected := by
    have counted := start.trials_after history
    have none : start.trials = 0 := rfl
    simp only [c]
    omega
  refine ⟨c.leaves_half_open_iff, bound, ?_⟩
  intro punctual
  have begun : Orderly config.silence start born :=
    ⟨rfl, Nat.le_refl _, by simp [start, Calls.start], by simp [start, Calls.start],
      by simp [start, Calls.start]⟩
  obtain ⟨none, later, orderly⟩ := begun.after punctual
  exact ⟨none, orderly.halfOpen⟩

/-- Opens at the first loss, for a tenth of a second. -/
def hasty : Config.Replication :=
  { Config.Replication.default with maxConnectErrors := 1, silence := 100 }

/-- Two calls are given out, one is refused, and the other reports when a trial is under way. Its
success closes the circuit, and its failure makes way for a second trial. -/
theorem half_open_left_late :
    let start := Calls.start (.fresh "n1" (.ofConfig hasty) 0)
    let refused : Outcome := .failure true "connection refused"
    let c := start.after [.ask 0, .ask 0, .report 0 refused 0, .ask 200]
    c.circuit = .halfOpen ∧ c.ongoing = [⟨1, false, 0⟩, ⟨2, true, 200⟩] ∧
      (c.step (.report 1 (.success 300) 250)).circuit ≠ .halfOpen ∧
      ((c.step (.report 1 refused 250)).step (.ask 400)).trials = 2 := by
  intro start refused c
  have half : c.circuit = .halfOpen := by decide
  have ongoing : c.ongoing = [⟨1, false, 0⟩, ⟨2, true, 200⟩] := by decide
  obtain ⟨leaves, -, -⟩ := half_open_left hasty "n1" 0 [.ask 0, .ask 0, .report 0 refused 0, .ask 200]
  refine ⟨half, ongoing, ?late, by decide⟩
  case late =>
    apply (leaves half _).mpr
    exact ⟨⟨1, false, 0⟩, ongoing ▸ List.mem_cons_self, .success 300, 250, rfl, rfl⟩

/-- Calls that report in time. -/
example :
    let start := Calls.start (.fresh "n1" (.ofConfig hasty) 0)
    let history := [.ask 0, .ask 0, .report 0 (.failure true "connection refused") 0,
      .report 1 (.success 300) 99, .ask 100, .report 2 (.success 300) 150]
    IsPunctual hasty.silence start 0 history ∧ (start.after history).circuit = .closed := by
  decide

end Calls

end QuorumKv.Health
