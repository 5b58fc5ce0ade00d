import QuorumKv.Cluster.Settle
import QuorumKv.Proofs.Cluster.Turns

/-! What an operation on the replicas can fail with. The errors of single nodes end with their
calls: an operation reports what its quorum came to, so its errors are those of the quorum, whatever
the nodes and the network do. -/
namespace QuorumKv

/-- Failures of a quorum, as opposed to those of a single node. -/
def Failure.isVerdict : Failure → Bool
  | noNode _ | stale _ | partialWrite _ _ | readQuorum _ _ => true
  | _ => false

namespace Quorum

namespace Read

variable {α : Type} {m : Read α}

def Judges (m : Read α) : Prop :=
  ∀ e, m.result? = some (.error e) → e.isVerdict = true

theorem judges_shortfall (m : Read α) : m.shortfall.Judges := by
  intro e failed
  obtain rfl := Except.error.inj (Option.some.inj failed)
  rfl

theorem judges_askNext (m : Read α) (nodes : List String) : (m.askNext nodes).1.Judges := by
  cases nodes with
  | nil => exact nofun
  | cons addr rest => exact nofun

theorem judges_start (needed : Nat) (ranked : List String) :
    (start needed ranked : Read α × List String).1.Judges := by
  unfold start
  simp only
  split
  · exact judges_shortfall _
  · exact nofun

theorem judges_advance (rev : α → Revision) (liveBackups : List String) (judges : m.Judges) :
    (m.advance rev liveBackups).1.Judges := by
  unfold advance
  split
  · split
    · exact nofun
    · exact judges_askNext m _
  · split
    · exact judges_shortfall m
    · exact judges

theorem judges_of_gathering (gathering : m.stage = .gathering) : m.Judges := by
  intro e failed
  simp only [result?, gathering] at failed
  cases failed

theorem judges_absorb (rev : α → Revision) (liveBackups : List String)
    (r : Except Failure (Option α)) (judges : m.Judges) :
    (m.absorb rev liveBackups r).1.Judges := by
  cases stage : m.stage with
  | done result =>
    simp only [absorb, stage]
    exact judges
  | through rest =>
    simp only [absorb, stage]
    obtain e | (none | found) := r
    · exact judges_askNext m rest
    · exact judges_askNext m rest
    · intro e failed
      cases failed
  | gathering =>
    cases r with
    | ok found =>
      simp only [absorb, stage]
      exact judges_advance rev liveBackups (judges_of_gathering rfl)
    | error e =>
      simp only [absorb, stage]
      split
      · exact judges_of_gathering rfl
      · exact judges_advance rev liveBackups (judges_of_gathering rfl)

theorem judges_expire (judges : m.Judges) : m.expire.Judges := by
  unfold expire
  split
  · exact judges_shortfall m
  · exact judges

end Read

namespace Write

variable {m : Write}

def Judges (m : Write) : Prop :=
  ∀ e, m.result = some (.error e) → e.isVerdict = true

theorem judges_finish (m : Write) : m.finish.Judges := by
  intro e failed
  have failed : m.verdict = .error e := Option.some.inj failed
  unfold verdict at failed
  split at failed
  · cases failed
  · split at failed
    · obtain rfl := Except.error.inj failed
      rfl
    · obtain rfl := Except.error.inj failed
      rfl

theorem judges_start (key : String) (n w bucket : Nat) (liveMains liveBackups : List String) :
    (start key n w bucket liveMains liveBackups).1.Judges := by
  have begun : (start key n w bucket liveMains liveBackups).1.result =
      if (start key n w bucket liveMains liveBackups).2.isEmpty then some (.error (.noNode bucket))
      else none := rfl
  intro e failed
  rw [begun] at failed
  split at failed
  · obtain rfl := Except.error.inj (Option.some.inj failed)
    rfl
  · cases failed

theorem judges_advance (judges : m.Judges) : m.advance.1.Judges := by
  unfold advance
  split
  · exact judges_finish m
  · split
    · exact judges
    · split
      · exact judges_finish m
      · exact judges

theorem tally_result (m : Write) (addr : String) (r : Except Failure Bool) :
    (m.tally addr r).result = m.result := by
  unfold tally
  split <;> rfl

theorem judges_absorb (addr : String) (r : Except Failure Bool) (judges : m.Judges) :
    (m.absorb addr r).1.Judges := by
  unfold absorb
  split
  · exact judges
  · apply judges_advance
    intro e failed
    rw [tally_result] at failed
    exact judges e failed

theorem judges_expire (judges : m.Judges) : m.expire.Judges := by
  unfold expire
  split
  · exact judges
  · exact judges_finish m

end Write

end Quorum

namespace Cluster

open Operation (State)

/-- Whether the machine of an operation fails with verdicts only. -/
def Operation.State.Judges : State → Prop
  | .read m => m.Judges
  | .readMeta m => m.Judges
  | .write m => m.Judges
  | .fetch _ => True

section States

variable {s : State}

theorem isVerdict_of_judges (judges : s.Judges) {q : Ask} {e : Failure}
    (failed : s.result? q = some (.error e)) : e.isVerdict = true := by
  have through {α β : Type} {f : α → β} {r : Option (Except Failure α)}
      (failed : (r.map fun r => r.map f) = some (.error e)) : r = some (.error e) := by
    obtain ⟨r, rfl, mapped⟩ := Option.map_eq_some_iff.mp failed
    cases r with
    | ok a => cases mapped
    | error why => exact congrArg some (congrArg Except.error (Except.error.inj mapped))
  cases s with
  | read m =>
    cases q with
    | get key => exact judges e (through failed)
    | _ => cases failed
  | readMeta m =>
    cases q with
    | getMeta key => exact judges e failed
    | _ => cases failed
  | write m =>
    cases q with
    | set key item => exact judges e (through failed)
    | delete key => exact judges e failed
    | _ => cases failed
  | fetch m =>
    cases q with
    | getMulti keys =>
      obtain ⟨found, -, answered⟩ := Option.map_eq_some_iff.mp failed
      cases answered
    | _ => cases failed

theorem judges_absorb (liveBackups : List String) (addr : String) (bucket : Nat) (q : Ask)
    (r : q.Outcome) (judges : s.Judges) :
    (s.absorb liveBackups addr bucket q r).state.Judges := by
  cases s with
  | read m =>
    cases q with
    | get key => exact Quorum.Read.judges_absorb _ liveBackups r judges
    | _ => exact judges
  | readMeta m =>
    cases q with
    | getMeta key => exact Quorum.Read.judges_absorb _ liveBackups r judges
    | _ => exact judges
  | write m =>
    cases q with
    | set key item => exact Quorum.Write.judges_absorb addr _ judges
    | delete key => exact Quorum.Write.judges_absorb addr r judges
    | _ => exact judges
  | fetch m =>
    cases q with
    | getMulti keys =>
      simp only [State.absorb]
      cases m.group? bucket <;> trivial
    | _ => trivial

theorem judges_expire (judges : s.Judges) : s.expire.Judges := by
  cases s with
  | read m => exact Quorum.Read.judges_expire judges
  | readMeta m => exact Quorum.Read.judges_expire judges
  | write m => exact Quorum.Write.judges_expire judges
  | fetch m => trivial

end States

theorem judges_opening (c : Cluster) (bucket : Nat) (q : Ask) : (c.opening bucket q).1.Judges := by
  cases q with
  | get key => exact Quorum.Read.judges_start _ _
  | getMeta key => exact Quorum.Read.judges_start _ _
  | getMulti keys => trivial
  | set key item => exact Quorum.Write.judges_start _ _ _ _ _ _
  | delete key => exact Quorum.Write.judges_start _ _ _ _ _ _

/-- Whether the operation of a number, if there is one, fails with verdicts only. -/
def Judges (c : Cluster) (number : Nat) : Prop :=
  c.operations.All fun k op => k = number → op.state.Judges

variable {number : Nat}

theorem judges_of_operations {c d : Cluster} (same : d.operations = c.operations)
    (judges : c.Judges number) : d.Judges number := by
  rwa [Judges, same]

theorem judges_proceed {c : Cluster} {k bucket : Nat} {op : Operation} {state : State}
    (calls : List String) (judges : c.Judges number) (next : k = number → state.Judges) :
    (c.proceed k bucket op state calls).Judges number := by
  rw [Judges, proceed, operations_place]
  exact judges.put next

theorem judges_begin (c : Cluster) (q : Ask) (judges : c.Judges number) :
    (c.begin q).Judges number := by
  simp only [Judges, begin, operations_place]
  exact judges.put fun _ => judges_opening ..

theorem judges_beginBucket (c : Cluster) (k bucket : Nat) (judges : c.Judges number) :
    (c.beginBucket k bucket).Judges number := by
  unfold beginBucket
  split
  · exact judges
  · split
    · split
      · exact judges
      · exact judges_proceed _ judges fun _ => trivial
    · exact judges

theorem judges_hand {c : Cluster} (call : Call) (result : call.q.Outcome)
    (judges : c.Judges number) : (c.hand call result).Judges number := by
  unfold hand
  split
  · exact judges
  · rename_i op known
    apply judges_proceed
    · exact judges
    · intro mine
      exact judges_absorb _ _ _ _ _ (judges _ op known mine)

theorem judges_deliver (c : Cluster) (k : Nat) (judges : c.Judges number) :
    (c.deliver k).Judges number := by
  unfold deliver
  split
  · exact judges
  · rename_i call known
    split
    · rename_i result outcome ended
      split
      · have recorded := congrArg Traffic.operations (traffic_recordOutcome c call.member outcome)
        apply judges_hand
        exact judges_of_operations recorded judges
      · exact judges_hand _ _ judges
    · exact judges

/-- New routes leave every operation as it is. -/
theorem operations_reload {c d : Cluster} {plan : Route.Plan} (reloaded : c.reload plan = .ok d) :
    d.operations = c.operations := by
  obtain ⟨router, -, reloaded⟩ := ok_of_bind reloaded
  obtain rfl := Except.ok.inj reloaded
  rfl

theorem judges_step (c : Cluster) (s : Step) (judges : c.Judges number) :
    (c.step s).Judges number := by
  cases s with
  | begin q => exact judges_begin c q judges
  | beginBucket k bucket => exact judges_beginBucket c k bucket judges
  | ask k => exact judges_of_operations (operations_ask c k) judges
  | serve k => exact judges_of_operations (operations_serve c k) judges
  | finish k => exact judges_of_operations (operations_finish c k) judges
  | fail k why => exact judges_of_operations (operations_fail c k why) judges
  | deliver k => exact judges_deliver c k judges
  | record k => exact judges_of_operations (operations_record c k) judges
  | expire k =>
    simp only [step, expire]
    split
    · exact judges
    · rename_i op known
      split
      · exact judges.put fun mine => judges_expire (judges _ op known mine)
      · exact judges
  | forget k => exact judges.erase
  | tick milliseconds => exact judges
  | reload plan =>
    simp only [step]
    split
    · rename_i d reloaded
      exact judges_of_operations (operations_reload reloaded) judges
    · exact judges

theorem judges_settleWithin (reachable : String → Bool) (fuel : Nat) {c : Cluster}
    (judges : c.Judges number) : (settleWithin reachable fuel c).Judges number := by
  induction fuel generalizing c with
  | zero => exact judges
  | succ fuel ih =>
    unfold settleWithin
    split
    · exact ih (judges_step c _ judges)
    · exact judges

/-- An operation fails with a verdict of its quorum, or because nothing came of it. -/
theorem perform_error {reachable : String → Bool} {q : Ask} {c : Cluster} {e : Failure}
    (failed : (c.perform reachable q).1 = .error e) :
    e.isVerdict = true ∨ e = .timeout "no answer" := by
  have begun : (c.begin q).Judges c.next := by
    have mine : (c.begin q).operations.get? c.next =
        some ⟨q, c.topology, c.now + c.timeout q, (c.opening (bucketOf c.topology q) q).1⟩ := by
      simp only [begin, operations_place]
      exact Assoc.get?_put_self ..
    rintro k op known rfl
    obtain rfl := Option.some.inj (mine.symm.trans known)
    exact judges_opening ..
  have settled := judges_settleWithin reachable (c.begin q).budget begun
  unfold perform at failed
  simp only at failed
  cases result : ((c.begin q).settle reachable).result? c.next q with
  | none =>
    rw [result] at failed
    exact .inr (Except.error.inj failed).symm
  | some r =>
    rw [result] at failed
    obtain rfl : r = .error e := failed
    obtain ⟨op, known, answered⟩ := Option.bind_eq_some_iff.mp result
    exact .inl (isVerdict_of_judges (settled _ op known rfl) answered)

end Cluster

end QuorumKv
