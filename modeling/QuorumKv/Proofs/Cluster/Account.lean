import QuorumKv.Proofs.Buffer
import QuorumKv.Proofs.Cluster.History

/-! What the calls of a cluster hold in memory. A call holds its value from its beginning until it
ends, however it ends and whether its operation is still there or not; the account of the cluster
reads what its calls hold, beside what requests hold on their own. -/
namespace QuorumKv.Cluster

open Buffer (Guard)

/-- Whether the proxy knows how the call ended. -/
def Call.Stage.IsOver {q : Ask} : Call.Stage q → Prop
  | .ended _ _ | .delivered _ => True
  | .waiting | .running _ _ | .served _ _ => False

def Call.IsOver (call : Call) : Prop :=
  call.stage.IsOver

instance (call : Call) : Decidable call.IsOver :=
  match finished : call.stage with
  | .ended _ _ | .delivered _ => .isTrue (by rw [Call.IsOver, finished]; trivial)
  | .waiting | .running _ _ | .served _ _ => .isFalse (by rw [Call.IsOver, finished]; exact id)

/-- What is written down about calls: the calls themselves, the next free number, the account. -/
structure Books where
  calls : Assoc Nat Call
  next : Nat
  buffers : Buffers

def books (c : Cluster) : Books :=
  ⟨c.calls, c.next, c.buffers⟩

/-- What some calls hold. -/
def holdings (calls : Assoc Nat Call) : List Guard :=
  calls.filterMap fun entry => entry.2.guard

/-- Each call is there once, calls that are over hold nothing, and the account reads what the
calls hold and what others do. -/
structure Books.Balance (b : Books) (others : List Guard) : Prop where
  once : b.calls.keys.Nodup
  used : ∀ k ∈ b.calls.keys, k < b.next
  light : b.calls.All fun _ call => call.IsOver → call.guard = none
  accounts : b.buffers.Accounts (holdings b.calls ++ others)

variable {c : Cluster} {k : Nat} {call : Call} {calls : Assoc Nat Call} {guards others : List Guard}

theorem holdings_put (once : calls.keys.Nodup) (k : Nat) (call : Call) :
    (holdings (calls.put k call)).Perm (call.guard.toList ++ holdings (calls.erase k)) := by
  have perm := (Assoc.perm_put once k call).filterMap fun entry => entry.2.guard
  rw [List.filterMap_cons] at perm
  unfold holdings
  cases guard : call.guard with
  | none => simpa [guard] using perm
  | some g => simpa [guard] using perm

theorem holdings_known (once : calls.keys.Nodup) (known : calls.get? k = some call) :
    (holdings calls).Perm (call.guard.toList ++ holdings (calls.erase k)) := by
  have perm := holdings_put once k call
  rwa [Assoc.put_same known] at perm

namespace Books.Balance

variable {b : Books} {buffers : Buffers}

/-- A new call comes with what it holds. -/
theorem add (balance : b.Balance others) (open_ : ¬call.IsOver)
    (more : ∀ guards, b.buffers.Accounts guards → buffers.Accounts (call.guard.toList ++ guards)) :
    Balance ⟨b.calls.put b.next call, b.next + 1, buffers⟩ others := by
  obtain ⟨once, used, light, accounts⟩ := balance
  have absent : b.next ∉ b.calls.keys := fun listed => Nat.lt_irrefl _ (used _ listed)
  have keys := Assoc.keys_put b.calls b.next call
  rw [if_neg absent] at keys
  refine ⟨Assoc.nodup_put once .., ?used, light.put (absurd · open_), ?accounts⟩
  case used =>
    intro k listed
    obtain old | new := List.mem_append.mp (keys ▸ listed)
    · exact Nat.lt_succ_of_lt (used k old)
    · exact Nat.lt_succ_of_le (Nat.le_of_eq (List.mem_singleton.mp new))
  case accounts =>
    have perm := holdings_put once b.next call
    rw [Assoc.erase_of_absent absent] at perm
    apply (more _ accounts).perm
    rw [← List.append_assoc]
    exact (perm.append_right others).symm

/-- A call goes on, and what it holds with it. -/
theorem replace {old : Call} (balance : b.Balance others) (known : b.calls.get? k = some old)
    (empty : call.IsOver → call.guard = none)
    (moved : ∀ guards, b.buffers.Accounts (old.guard.toList ++ guards) →
      buffers.Accounts (call.guard.toList ++ guards)) :
    Balance ⟨b.calls.put k call, b.next, buffers⟩ others := by
  obtain ⟨once, used, light, accounts⟩ := balance
  have listed : k ∈ b.calls.keys := (Assoc.get?_isSome_iff ..).mp (Option.isSome_of_eq_some known)
  have keys := Assoc.keys_put b.calls k call
  rw [if_pos listed] at keys
  refine ⟨Assoc.nodup_put once .., fun k listed => used k (keys ▸ listed), light.put empty, ?_⟩
  have before := accounts.perm ((holdings_known once known).append_right others)
  rw [List.append_assoc] at before
  apply (moved _ before).perm
  rw [← List.append_assoc]
  exact ((holdings_put once k call).append_right others).symm

/-- A call that is over goes. -/
theorem erase (balance : b.Balance others) (known : b.calls.get? k = some call)
    (finished : call.IsOver) : Balance ⟨b.calls.erase k, b.next, b.buffers⟩ others := by
  obtain ⟨once, used, light, accounts⟩ := balance
  have fewer : (b.calls.erase k).keys.Sublist b.calls.keys := List.filter_sublist.map _
  refine ⟨Assoc.nodup_erase once k, fun k listed => used k (fewer.mem listed), light.erase, ?_⟩
  have perm := holdings_known once known
  rw [light k call known finished] at perm
  exact accounts.perm (perm.append_right others)

theorem perm (balance : b.Balance guards) (same : guards.Perm others) : b.Balance others :=
  ⟨balance.once, balance.used, balance.light, balance.accounts.perm (same.append_left _)⟩

end Books.Balance

theorem balance_hold (g : Guard) (balance : c.books.Balance others) :
    (c.hold (some g)).books.Balance (g :: others) := by
  refine ⟨balance.once, balance.used, balance.light, ?_⟩
  exact balance.accounts.hold.perm List.perm_middle.symm

theorem balance_release {g : Guard} (balance : c.books.Balance (g :: others)) :
    (c.release (some g)).books.Balance others := by
  refine ⟨balance.once, balance.used, balance.light, ?_⟩
  exact (balance.accounts.perm List.perm_middle).release

theorem books_hold (c : Cluster) (guard : Option Guard) :
    (c.hold guard).books = ⟨c.calls, c.next, (c.hold guard).buffers⟩ := by
  cases guard <;> rfl

theorem books_release (c : Cluster) (guard : Option Guard) :
    (c.release guard).books = ⟨c.calls, c.next, (c.release guard).buffers⟩ := by
  cases guard <;> rfl

theorem accounts_hold (guard : Option Guard) (guards : List Guard)
    (accounts : c.buffers.Accounts guards) :
    (c.hold guard).buffers.Accounts (guard.toList ++ guards) := by
  cases guard with
  | none => exact accounts
  | some g => exact accounts.hold

theorem accounts_release (guard : Option Guard) (guards : List Guard)
    (accounts : c.buffers.Accounts (guard.toList ++ guards)) :
    (c.release guard).buffers.Accounts guards := by
  cases guard with
  | none => exact accounts
  | some g => exact accounts.release

theorem balance_spawn (number bucket : Nat) (op : Operation) (addr : String)
    (balance : c.books.Balance others) : (spawn number bucket op c addr).books.Balance others := by
  unfold spawn
  split
  · exact balance
  · simp only [books_hold]
    exact balance.add id fun _ accounts => accounts_hold _ _ accounts

theorem balance_place (number bucket : Nat) (op : Operation) (addrs : List String)
    (balance : c.books.Balance others) : (c.place number bucket op addrs).books.Balance others := by
  unfold place
  apply List.foldlRecOn (motive := fun d : Cluster => d.books.Balance others)
  · exact balance
  · exact fun _ kept addr _ => balance_spawn number bucket op addr kept

theorem balance_setStage (known : c.calls.get? k = some call) {stage : Call.Stage call.q}
    (empty : stage.IsOver → call.guard = none) (balance : c.books.Balance others) :
    (c.setStage k call stage).books.Balance others :=
  balance.replace known empty fun _ => id

theorem balance_endCall (known : c.calls.get? k = some call) (result : call.q.Outcome)
    (outcome : Option Health.Outcome) (balance : c.books.Balance others) :
    (c.endCall k call result outcome).books.Balance others := by
  rw [endCall, books_release]
  exact balance.replace known (fun _ => rfl) fun _ accounts => accounts_release _ _ accounts

theorem balance_recordOutcome (member : Nat) (outcome : Option Health.Outcome)
    (balance : c.books.Balance others) : (c.recordOutcome member outcome).books.Balance others := by
  unfold recordOutcome
  split
  · exact balance
  · split <;> exact balance

theorem balance_beginBucket (number bucket : Nat) (balance : c.books.Balance others) :
    (c.beginBucket number bucket).books.Balance others := by
  unfold beginBucket
  split
  · exact balance
  · split
    · split
      · exact balance
      · exact balance_place _ _ _ _ balance
    · exact balance

theorem balance_ask (k : Nat) (balance : c.books.Balance others) :
    (c.ask k).books.Balance others := by
  unfold ask
  split
  · exact balance
  · rename_i call known
    split
    · rename_i m waiting there
      simp only
      split
      · exact balance_setStage (c := c.updateMember call.member _) known False.elim balance
      · exact balance_endCall (c := c.updateMember call.member _) known _ _ balance
    · exact balance

theorem balance_serve (k : Nat) (balance : c.books.Balance others) :
    (c.serve k).books.Balance others := by
  unfold serve
  split
  · exact balance
  · rename_i call known
    split
    · exact balance_setStage (c := c.putStore _ _) known False.elim balance
    · exact balance

theorem balance_finish (k : Nat) (balance : c.books.Balance others) :
    (c.finish k).books.Balance others := by
  unfold finish
  split
  · exact balance
  · rename_i call known
    split
    · simp only
      split
      · exact balance_endCall (c := recordSizes (updateMember c _ _) _ _) known _ _ balance
      · exact balance_endCall (c := c.recordSizes _ _) known _ _ balance
    · exact balance

theorem balance_fail (k : Nat) (why : Failure) (balance : c.books.Balance others) :
    (c.fail k why).books.Balance others := by
  unfold fail
  split
  · exact balance
  · rename_i call known
    simp only
    split
    · exact balance_endCall known _ _ balance
    · exact balance_endCall known _ _ balance
    · exact balance

theorem balance_hand (call : Call) (result : call.q.Outcome) (balance : c.books.Balance others) :
    (c.hand call result).books.Balance others := by
  unfold hand
  split
  · exact balance
  · exact balance_place _ _ _ _ balance

theorem balance_deliver (k : Nat) (balance : c.books.Balance others) :
    (c.deliver k).books.Balance others := by
  unfold deliver
  split
  · exact balance
  · rename_i call known
    split
    · rename_i result outcome ended
      have finished : call.IsOver := by
        rw [Call.IsOver, ended]
        trivial
      split
      · have calls := congrArg Traffic.calls (traffic_recordOutcome c call.member outcome)
        have still : (c.recordOutcome call.member outcome).calls.get? k = some call :=
          (congrArg (Assoc.get? · k) calls).trans known
        apply balance_hand
        exact (balance_recordOutcome call.member outcome balance).erase still finished
      · apply balance_hand
        exact balance_setStage known (fun _ => balance.light k call known finished) balance
    · exact balance

theorem balance_record (k : Nat) (balance : c.books.Balance others) :
    (c.record k).books.Balance others := by
  unfold record
  split
  · exact balance
  · rename_i call known
    split
    · rename_i outcome delivered
      have finished : call.IsOver := by
        rw [Call.IsOver, delivered]
        trivial
      exact balance_recordOutcome _ _ (balance.erase known finished)
    · exact balance

/-- New routes change nothing of what is held. -/
theorem balance_reload {d : Cluster} {plan : Route.Plan} (reloaded : c.reload plan = .ok d)
    (balance : c.books.Balance others) : d.books.Balance others := by
  obtain ⟨router, -, reloaded⟩ := ok_of_bind reloaded
  obtain rfl := Except.ok.inj reloaded
  exact balance

theorem balance_step (s : Step) (balance : c.books.Balance others) :
    (c.step s).books.Balance others := by
  cases s with
  | begin q =>
    have next : ∀ k ∈ c.calls.keys, k < c.next + 1 :=
      fun k listed => Nat.lt_succ_of_lt (balance.used k listed)
    apply balance_place
    exact ⟨balance.once, next, balance.light, balance.accounts⟩
  | beginBucket number bucket => exact balance_beginBucket number bucket balance
  | ask k => exact balance_ask k balance
  | serve k => exact balance_serve k balance
  | finish k => exact balance_finish k balance
  | fail k why => exact balance_fail k why balance
  | deliver k => exact balance_deliver k balance
  | record k => exact balance_record k balance
  | expire number =>
    simp only [step, expire]
    split
    · exact balance
    · split <;> exact balance
  | forget number => exact balance
  | tick milliseconds => exact balance
  | reload plan =>
    simp only [step]
    split
    · rename_i d reloaded
      exact balance_reload reloaded balance
    · exact balance

theorem balance_happen (e : Event) (balance : c.books.Balance others) :
    (c.happen e).books.Balance others := by
  cases e with
  | step s => exact balance_step s balance
  | arrive addr bytes => exact balance

/-- In a new cluster nobody holds anything. -/
theorem balance_build {replication : Config.Replication} {limits nodeLimits : Config.Limits}
    {plan : Route.Plan} {epoch : Nat}
    (built : build replication limits plan nodeLimits epoch = .ok c) : c.books.Balance [] := by
  obtain ⟨router, -, built⟩ := ok_of_bind built
  obtain rfl := Except.ok.inj built
  exact ⟨List.nodup_nil, by rintro k ⟨⟩, by rintro k call ⟨⟩, Buffers.accounts_empty⟩

/-- What calls that are all over hold together. -/
theorem holdings_of_over {b : Books} (balance : b.Balance others)
    (finished : b.calls.All fun _ call => call.IsOver) : holdings b.calls = [] := by
  rw [holdings, List.filterMap_eq_nil_iff]
  rintro ⟨k, call⟩ listed
  have known := Assoc.get?_of_mem balance.once listed
  exact balance.light k call known (finished k call known)

end QuorumKv.Cluster
