import QuorumKv.Proofs.Dispatch.Served

/-! What a request meets on its way. A script comes to a result by what it is told; the trace says
what that was, so that two runs of one script can be compared wherever the answers came from. -/
namespace QuorumKv.Dispatch

open Migration (Side Stage Table)

/-- A moment of a run that the script depends on or that is seen from outside. -/
inductive Mark where
  | saw (table : Table)
  | told (side : Side) (q : Ask) (r : q.Outcome)
  | noted (event : Event)

namespace Script

variable {α β σ : Type}

/-- A script may come to a result along a trace, whoever gives the answers. -/
inductive ComesTo : Script α → List Mark → α → Prop
  | done (a : α) : ComesTo (done a) [] a
  | table {next : Table → Script α} (t : Table) {trace : List Mark} {a : α}
      (rest : ComesTo (next t) trace a) : ComesTo (table next) (.saw t :: trace) a
  | ask {side : Side} {q : Ask} {next : q.Outcome → Script α} (r : q.Outcome)
      {trace : List Mark} {a : α} (rest : ComesTo (next r) trace a) :
      ComesTo (ask side q next) (.told side q r :: trace) a
  | hold {guard : Buffer.Guard} {next : Script α} {trace : List Mark} {a : α}
      (rest : ComesTo next trace a) : ComesTo (hold guard next) trace a
  | release {guard : Buffer.Guard} {next : Script α} {trace : List Mark} {a : α}
      (rest : ComesTo next trace a) : ComesTo (release guard next) trace a
  | note {event : Event} {next : Script α} {trace : List Mark} {a : α}
      (rest : ComesTo next trace a) : ComesTo (note event next) (.noted event :: trace) a

/-- The trace of a run on a host. -/
def trace (host : Host σ) : Script α → σ → List Mark
  | done _, _ => []
  | table next, s => .saw (host.table s) :: (next (host.table s)).trace host s
  | ask side q next, s =>
    .told side q (host.answer side q s).1 ::
      (next (host.answer side q s).1).trace host (host.answer side q s).2
  | hold g next, s => next.trace host (host.hold g s)
  | release g next, s => next.trace host (host.release g s)
  | note e next, s => .noted e :: next.trace host (host.note e s)

/-- A run on a host comes to its result along its trace. -/
theorem comesTo_run (host : Host σ) (p : Script α) (s : σ) :
    p.ComesTo (p.trace host s) (p.run host s).1 := by
  induction p generalizing s with
  | done a => exact .done a
  | table next ih => exact .table _ (ih _ s)
  | ask side q next ih => exact .ask _ (ih _ _)
  | hold g next ih => exact .hold (ih _)
  | release g next ih => exact .release (ih _)
  | note e next ih => exact .note (ih _)

/-- What follows a script goes on from its result. -/
theorem comesTo_bind {p : Script α} {f : α → Script β} {trace : List Mark} {b : β}
    (ran : (p >>= f).ComesTo trace b) :
    ∃ first a rest, trace = first ++ rest ∧ p.ComesTo first a ∧ (f a).ComesTo rest b := by
  induction p generalizing trace with
  | done a => exact ⟨[], a, trace, rfl, .done a, ran⟩
  | table next ih =>
    cases ran with
    | table t ran =>
      obtain ⟨first, a, rest, rfl, one, other⟩ := ih t ran
      exact ⟨_, a, rest, rfl, .table t one, other⟩
  | ask side q next ih =>
    cases ran with
    | ask r ran =>
      obtain ⟨first, a, rest, rfl, one, other⟩ := ih r ran
      exact ⟨_, a, rest, rfl, .ask r one, other⟩
  | hold g next ih =>
    cases ran with
    | hold ran =>
      obtain ⟨first, a, rest, rfl, one, other⟩ := ih ran
      exact ⟨_, a, rest, rfl, .hold one, other⟩
  | release g next ih =>
    cases ran with
    | release ran =>
      obtain ⟨first, a, rest, rfl, one, other⟩ := ih ran
      exact ⟨_, a, rest, rfl, .release one, other⟩
  | note e next ih =>
    cases ran with
    | note ran =>
      obtain ⟨first, a, rest, rfl, one, other⟩ := ih ran
      exact ⟨_, a, rest, rfl, .note one, other⟩

theorem comesTo_pure {a b : α} {trace : List Mark} (ran : (pure a : Script α).ComesTo trace b) :
    trace = [] ∧ b = a := by
  cases ran with
  | done => exact ⟨rfl, rfl⟩

theorem comesTo_snapshot {f : Table → Script β} {trace : List Mark} {b : β}
    (ran : (snapshot >>= f).ComesTo trace b) :
    ∃ t rest, trace = .saw t :: rest ∧ (f t).ComesTo rest b := by
  cases ran with
  | table t ran => exact ⟨t, _, rfl, ran⟩

/-- Holding a value leaves no trace. -/
theorem comesTo_holding {guard : Buffer.Guard} {p : Script α} {trace : List Mark} {a : α}
    (ran : (holding guard p).ComesTo trace a) : p.ComesTo trace a := by
  cases ran with
  | hold ran =>
    obtain ⟨first, a, rest, rfl, one, other⟩ := comesTo_bind ran
    cases other with
    | release other =>
      obtain ⟨rfl, rfl⟩ := comesTo_pure other
      rwa [List.append_nil]

end Script

open Script

section Requests

variable {hasNew : Bool} {cmd key : String} {side : Side} {q : Ask} {trace : List Mark}

/-- A store is asked once, if it is there. -/
theorem comesTo_askStore {r : q.Outcome} (ran : (askStore hasNew cmd side q).ComesTo trace r) :
    (IsThere hasNew side ∧ trace = [.told side q r, .noted (.asked cmd side r.isOk)]) ∨
      (¬IsThere hasNew side ∧ trace = [] ∧ r = .error missing) := by
  by_cases there : IsThere hasNew side
  · rw [askStore_of_there there] at ran
    cases ran with
    | ask told ran =>
      cases ran with
      | note ran =>
        obtain ⟨rfl, rfl⟩ := comesTo_pure ran
        exact .inl ⟨there, rfl⟩
  · have absent : side = .new ∧ hasNew = false := by
      simpa [IsThere] using there
    rw [askStore, if_pos absent] at ran
    obtain ⟨rfl, rfl⟩ := comesTo_pure ran
    exact .inr ⟨there, rfl, rfl⟩

/-- A lookup ends at the primary store, unless that has nothing and there is a fallback. -/
theorem comesTo_lookup {r : q.Outcome} (ran : (lookup hasNew cmd key q).ComesTo trace r) :
    ∃ t asked first rest, trace = .saw t :: (asked ++ rest) ∧
      (askStore hasNew cmd (t.route key).primary q).ComesTo asked first ∧
      (rest = [] ∧ r = first ∧ (∀ found, first = .ok found → q.isMiss found = true →
          (t.route key).fallback = none) ∨
        ∃ found side, first = .ok found ∧ (t.route key).fallback = some side ∧
          q.isMiss found = true ∧ (askStore hasNew cmd side q).ComesTo rest r) := by
  obtain ⟨t, others, rfl, went⟩ := comesTo_snapshot ran
  obtain ⟨asked, first, rest, rfl, one, other⟩ := comesTo_bind went
  refine ⟨t, asked, first, rest, rfl, one, ?_⟩
  cases first with
  | error e =>
    obtain ⟨rfl, rfl⟩ := comesTo_pure other
    exact .inl ⟨rfl, rfl, nofun⟩
  | ok found =>
    cases next : (t.route key).fallback with
    | none =>
      simp only [next] at other
      obtain ⟨rfl, rfl⟩ := comesTo_pure other
      exact .inl ⟨rfl, rfl, fun _ _ _ => rfl⟩
    | some side =>
      simp only [next] at other
      cases miss : q.isMiss found with
      | true =>
        rw [miss] at other
        exact .inr ⟨found, side, rfl, rfl, miss, other⟩
      | false =>
        rw [miss] at other
        obtain ⟨rfl, rfl⟩ := comesTo_pure other
        refine .inl ⟨rfl, rfl, fun again same missed => ?_⟩
        obtain rfl := Except.ok.inj same
        rw [miss] at missed
        cases missed

/-- What a change meets under a table: its primary store, and the mirror once that has
succeeded. -/
inductive Changes (hasNew : Bool) (cmd key : String) (q : Ask) (t : Table) :
    List Mark → q.Outcome → Option q.Answer → Prop
  | refused {asked : List Mark} {e : Failure}
      (first : (askStore hasNew cmd (t.route key).primary q).ComesTo asked (.error e)) :
      Changes hasNew cmd key q t (.saw t :: asked) (.error e) none
  | alone {asked : List Mark} {a : q.Answer}
      (first : (askStore hasNew cmd (t.route key).primary q).ComesTo asked (.ok a))
      (only : (t.route key).mirror = none) :
      Changes hasNew cmd key q t (.saw t :: asked) (.ok a) none
  | copied {asked rest : List Mark} {a : q.Answer} {side : Side} {copy : Option q.Answer}
      (first : (askStore hasNew cmd (t.route key).primary q).ComesTo asked (.ok a))
      (other : (t.route key).mirror = some side)
      (second : (mirror hasNew cmd key (t.route key) side q).ComesTo rest copy) :
      Changes hasNew cmd key q t (.saw t :: (asked ++ rest)) (.ok a) copy

theorem comesTo_set {item : Item} {r : Except Failure Unit}
    (ran : (set hasNew key item).ComesTo trace r) :
    ∃ t copy, Changes hasNew "set" key (.set key item) t trace r copy := by
  obtain ⟨t, others, rfl, went⟩ := comesTo_snapshot (comesTo_holding ran)
  obtain ⟨asked, first, rest, rfl, one, other⟩ := comesTo_bind went
  refine ⟨t, ?_⟩
  cases first with
  | error e =>
    obtain ⟨rfl, rfl⟩ := comesTo_pure other
    rw [List.append_nil]
    exact ⟨none, .refused one⟩
  | ok a =>
    cases copied : (t.route key).mirror with
    | none =>
      simp only [copied] at other
      obtain ⟨rfl, rfl⟩ := comesTo_pure other
      rw [List.append_nil]
      exact ⟨none, .alone one copied⟩
    | some side =>
      simp only [copied] at other
      obtain ⟨copying, copy, after, rfl, two, ended⟩ := comesTo_bind other
      obtain ⟨rfl, rfl⟩ := comesTo_pure ended
      rw [List.append_nil]
      exact ⟨copy, .copied one copied (comesTo_holding two)⟩

/-- A delete finds the key where its primary store does, or in the mirror where that is the
fallback as well. -/
theorem comesTo_delete {r : Except Failure Bool} (ran : (delete hasNew key).ComesTo trace r) :
    ∃ t first copy, Changes hasNew "delete" key (.delete key) t trace first copy ∧
      r = first.map fun found => found || ((t.route key).fallback.isSome && copy == some true) := by
  obtain ⟨t, others, rfl, went⟩ := comesTo_snapshot ran
  obtain ⟨asked, first, rest, rfl, one, other⟩ := comesTo_bind went
  refine ⟨t, first, ?_⟩
  cases first with
  | error e =>
    obtain ⟨rfl, rfl⟩ := comesTo_pure other
    rw [List.append_nil]
    exact ⟨none, .refused one, rfl⟩
  | ok found =>
    cases copied : (t.route key).mirror with
    | none =>
      simp only [copied] at other
      obtain ⟨rfl, rfl⟩ := comesTo_pure other
      rw [List.append_nil]
      exact ⟨none, .alone one copied, by simp [Except.map]⟩
    | some side =>
      simp only [copied] at other
      obtain ⟨copying, copy, after, rfl, two, ended⟩ := comesTo_bind other
      obtain ⟨rfl, rfl⟩ := comesTo_pure ended
      rw [List.append_nil]
      refine ⟨copy, .copied one copied two, ?_⟩
      -- the store that takes copies is the fallback wherever there is one
      have same : ((t.route key).fallback == some side) = (t.route key).fallback.isSome := by
        cases stage : t.route key <;> simp_all [Stage.mirror, Stage.fallback]
      rw [same]
      rfl

/-- A copy is asked for once, and a failure is noted. -/
theorem comesTo_mirror {stage : Stage} {copy : Option q.Answer}
    (ran : (mirror hasNew cmd key stage side q).ComesTo trace copy) :
    ∃ asked r, (askStore hasNew cmd side q).ComesTo asked r ∧
      ((∃ a, r = .ok a ∧ trace = asked ∧ copy = some a) ∨
        ∃ e, r = .error e ∧ copy = none ∧
          trace = asked ++ [.noted (.mirrorFailed ⟨cmd, key, stage, side, e⟩)]) := by
  obtain ⟨asked, r, rest, rfl, one, other⟩ := comesTo_bind ran
  refine ⟨asked, r, one, ?_⟩
  cases r with
  | ok a =>
    obtain ⟨rfl, rfl⟩ := comesTo_pure other
    exact .inl ⟨a, rfl, List.append_nil asked, rfl⟩
  | error e =>
    cases other with
    | note other =>
      obtain ⟨rfl, rfl⟩ := comesTo_pure other
      exact .inr ⟨e, rfl, rfl, rfl⟩

end Requests

end QuorumKv.Dispatch
