import QuorumKv.Health.Node

/-! What becomes of a trial call. Until an outcome that the breaker reads is recorded, a half-open
circuit stays as it is; an error of the node that is no connection failure is not read. -/
namespace QuorumKv.Health

/-- Whether the breaker reads an outcome. It reads successes and connection failures. -/
def Outcome.isRead : Outcome → Bool
  | success _ => true
  | failure connection _ => connection

/-- What is done with the health of a node, and when. -/
inductive Use where
  | ask (now : Nat)
  | record (outcome : Outcome) (now : Nat)

namespace Use

def apply (n : Node) : Use → Node
  | ask now => (n.ask now).2
  | record outcome now => (n.record outcome now).1

/-- Whether a use brings an outcome that the breaker reads. -/
def isVerdict : Use → Bool
  | ask _ => false
  | record outcome _ => outcome.isRead

end Use

namespace Node

def after (n : Node) (uses : List Use) : Node :=
  uses.foldl Use.apply n

theorem trial_opens_half (n : Node) (now : Nat) (trial : (n.ask now).1 = .trial) :
    (n.ask now).2.breaker.circuit = .halfOpen := by
  simp only [ask, Breaker.ask] at trial ⊢
  cases state : n.breaker.circuit with
  | closed => simp [state] at trial
  | halfOpen => simp [state] at trial
  | «open» =>
    by_cases past : n.breaker.silenceOver n.settings.breaker (n.age now) = true
    · simp [past]
    · simp [state, past] at trial

/-- A half-open circuit gives out nothing. -/
theorem ask_of_half_open (n : Node) (now : Nat) (half : n.breaker.circuit = .halfOpen) :
    n.ask now = (.rejected, n) ∧ n.isRoutable now = false := by
  simp only [ask, Breaker.ask, isRoutable, Breaker.isRoutable, half, and_self]

/-- An open circuit past its silence gives out a trial, a closed one gives out calls. -/
theorem ask_of_not_half_open (n : Node) (now : Nat) (full : n.breaker.circuit ≠ .halfOpen)
    (past : n.breaker.silenceOver n.settings.breaker (n.age now) = true) :
    (n.ask now).1.isAllowed = true ∧ n.isRoutable now = true := by
  simp only [ask, Breaker.ask, isRoutable, Breaker.isRoutable]
  cases state : n.breaker.circuit with
  | closed => exact ⟨rfl, rfl⟩
  | halfOpen => exact absurd state full
  | «open» => simp only [past, if_true, Permission.isAllowed, and_self]

/-- What recording does to the circuit. -/
theorem record_circuit (n : Node) (outcome : Outcome) (now : Nat) :
    (n.record outcome now).1.breaker =
      match outcome with
      | .success _ => n.breaker.succeed
      | .failure true _ => (n.breaker.fail n.settings.breaker (n.age now)).1
      | .failure false _ => n.breaker := by
  cases outcome with
  | success _ => rfl
  | failure connection reason => cases connection <;> rfl

theorem succeed_of_half_open (b : Breaker) (half : b.circuit = .halfOpen) :
    b.succeed.circuit = .closed := by
  simp [Breaker.succeed, half]

theorem fail_of_half_open (b : Breaker) (s : Breaker.Settings) (now : Nat)
    (half : b.circuit = .halfOpen) :
    (b.fail s now).1.circuit = .open ∧ (b.fail s now).1.lastFailure = now := by
  simp only [Breaker.fail, half, and_self]

/-- No outcome makes a circuit half-open. -/
theorem record_half_open_iff (n : Node) (outcome : Outcome) (now : Nat) :
    (n.record outcome now).1.breaker.circuit = .halfOpen ↔
      n.breaker.circuit = .halfOpen ∧ outcome.isRead = false := by
  rw [record_circuit]
  cases outcome with
  | success _ => cases state : n.breaker.circuit <;> simp [Breaker.succeed, Outcome.isRead, state]
  | failure connection reason =>
    cases connection with
    | false => simp [Outcome.isRead]
    | true =>
      have never : (n.breaker.fail n.settings.breaker (n.age now)).1.circuit ≠ .halfOpen := by
        simp only [Breaker.fail]
        cases state : n.breaker.circuit with
        | closed =>
          simp only
          split <;> simp [Breaker.extendStreak, apply_ite Breaker.circuit]
        | halfOpen => simp
        | «open» => simp
      simp [never, Outcome.isRead]

/-- One use that brings no verdict leaves a half-open circuit half-open. -/
theorem half_open_kept (n : Node) (u : Use) (half : n.breaker.circuit = .halfOpen)
    (silent : u.isVerdict = false) : (u.apply n).breaker.circuit = .halfOpen := by
  cases u with
  | ask now =>
    simp only [Use.apply, (ask_of_half_open n now half).1]
    exact half
  | record outcome now => exact (record_half_open_iff n outcome now).mpr ⟨half, silent⟩

theorem half_open_stays (n : Node) (uses : List Use) (half : n.breaker.circuit = .halfOpen)
    (silent : ∀ u ∈ uses, u.isVerdict = false) :
    (n.after uses).breaker.circuit = .halfOpen := by
  induction uses generalizing n with
  | nil => exact half
  | cons u rest ih =>
    have kept := half_open_kept n u half (silent u List.mem_cons_self)
    exact ih (u.apply n) kept fun v later => silent v (List.mem_cons_of_mem u later)

/-- A trial call leaves the circuit half-open exactly when the circuit still is when its result is
recorded, and the result is an error that is neither a stale write nor a connection failure. After
any other result the node can be asked again once its silence is over. After such an error it is
neither routable nor given a call until a success or a connection failure is recorded. -/
theorem trial_unresolved_iff {α : Type} (n : Node) (before between : List Use) (asked : Nat)
    (result : Except Failure α) (micros ended : Nat)
    (trial : ((n.after before).ask asked).1 = .trial) :
    let pending := ((n.after before).ask asked).2.after between
    let recorded := (pending.record (.of result micros) ended).1
    (recorded.breaker.circuit = .halfOpen ↔
      pending.breaker.circuit = .halfOpen ∧ (Outcome.of result micros).isRead = false) ∧
    ((∀ u ∈ between, u.isVerdict = false) → recorded.breaker.circuit =
      match result with
      | .ok _ | .error (.stale _) => .closed
      | .error e => if e.isConnection then .open else .halfOpen) ∧
    (recorded.breaker.circuit ≠ .halfOpen → ∀ now,
      recorded.breaker.silenceOver recorded.settings.breaker (recorded.age now) = true →
        (recorded.ask now).1.isAllowed = true ∧ recorded.isRoutable now = true) ∧
    (recorded.breaker.circuit = .halfOpen →
      ∀ later : List Use, (∀ u ∈ later, u.isVerdict = false) → ∀ now,
        ((recorded.after later).ask now).1 = .rejected ∧
          (recorded.after later).isRoutable now = false) := by
  intro pending recorded
  have opened := trial_opens_half _ asked trial
  refine ⟨record_half_open_iff pending _ ended, ?verdict, ?again, ?stuck⟩
  case verdict =>
    intro silent
    have half : pending.breaker.circuit = .halfOpen := half_open_stays _ between opened silent
    have read := record_circuit pending (.of result micros) ended
    cases result with
    | ok _ => exact (congrArg Breaker.circuit read).trans (succeed_of_half_open _ half)
    | error e =>
      cases e <;>
        first
        | exact (congrArg Breaker.circuit read).trans (succeed_of_half_open _ half)
        | exact (congrArg Breaker.circuit read).trans (fail_of_half_open _ _ _ half).1
        | exact (congrArg Breaker.circuit read).trans half
  case again =>
    intro full now past
    exact ask_of_not_half_open recorded now full past
  case stuck =>
    intro half later silent now
    have kept := half_open_stays recorded later half silent
    obtain ⟨refused, unroutable⟩ := ask_of_half_open _ now kept
    exact ⟨congrArg Prod.fst refused, unroutable⟩

/-- A node behind the default settings whose circuit ten refused connections open. -/
def refusing : Node :=
  (fresh "n1" (.ofConfig .default) 0).after
    (List.replicate 10 (.record (.failure true "connection refused") 0))

theorem trial_unresolved_after_node_error :
    ((refusing.after []).ask 5000).1 = .trial ∧
    ∀ now, ((((refusing.after []).ask 5000).2.after []).record
      (.of (α := Unit) (.error (.node "n1" "SERVER_ERROR")) 0) 5001).1.isRoutable now = false := by
  have trial : ((refusing.after []).ask 5000).1 = .trial := by decide
  obtain ⟨half, -, -, stuck⟩ := trial_unresolved_iff (α := Unit) refusing [] [] 5000
    (.error (.node "n1" "SERVER_ERROR")) 0 5001 trial
  have unresolved := half.mpr ⟨by decide, by decide⟩
  exact ⟨trial, fun now => (stuck unresolved [] (by simp) now).2⟩

end Node

end QuorumKv.Health
