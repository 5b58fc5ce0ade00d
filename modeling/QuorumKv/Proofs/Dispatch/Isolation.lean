import QuorumKv.Dispatch.Count
import QuorumKv.Proofs.Dispatch.Memory
import QuorumKv.Proofs.Dispatch.Trace

/-! What the store that is not a key's primary can do to a client. A request asks the primary store
and tells what it told, up to what the fallback adds. So two runs that differ only in what the other
store tells have the same result, except where the primary has nothing and the other store is the
fallback. A change reaches the other store only after the primary has taken it, and a copy that
fails is counted and nothing else. -/
namespace QuorumKv

/-- The key of a question about a single one. -/
def Ask.key? : Ask → Option String
  | .get key | .getMeta key | .set key _ | .delete key => some key
  | .getMulti _ => none

/-- Whether a question is to change what is stored. -/
def Ask.isChange : Ask → Bool
  | .set _ _ | .delete _ => true
  | .get _ | .getMeta _ | .getMulti _ => false

namespace Dispatch

open Migration (Side Stage Table)

def other : Side → Side
  | .legacy => .new
  | .new => .legacy

theorem other_other (side : Side) : other (other side) = side := by
  cases side <;> rfl

theorem mirror_eq_other {stage : Stage} {side : Side} (copied : stage.mirror = some side) :
    side = other stage.primary := by
  cases stage <;> simp_all [Stage.mirror, Stage.primary, other]

/-- The fallback is the other store, and always there. -/
theorem fallback_eq_other (hasNew : Bool) {stage : Stage} {side : Side}
    (next : stage.fallback = some side) : side = other stage.primary ∧ IsThere hasNew side := by
  cases stage with
  | bwCrw =>
    obtain rfl := Option.some.inj next
    exact ⟨rfl, nofun⟩
  | brw | brwCw | crw => cases next

theorem fallback_isSome_iff {stage : Stage} : stage.fallback.isSome = true ↔ stage = .bwCrw := by
  cases stage <;> simp [Stage.fallback]

/-- What a store was asked on the way and what it told, in order. -/
def answers (side : Side) (trace : List Mark) : List ((q : Ask) × q.Outcome) :=
  trace.filterMap fun
    | .told from_ q r => if from_ = side then some ⟨q, r⟩ else none
    | _ => none

theorem mem_answers {side : Side} {q : Ask} {x : q.Outcome} {trace : List Mark} :
    ⟨q, x⟩ ∈ answers side trace ↔ .told side q x ∈ trace := by
  rw [answers, List.mem_filterMap]
  constructor
  · rintro ⟨mark, listed, shown⟩
    cases mark with
    | told side' q' x' =>
      dsimp only at shown
      split at shown
      · rename_i same
        subst same
        cases shown
        exact listed
      · cases shown
    | saw _ | noted _ => cases shown
  · intro listed
    exact ⟨_, listed, if_pos rfl⟩

/-- The counters after a run whose calls took so many microseconds. -/
def counted (micros : Event → Nat) (trace : List Mark) (r : Metrics.Registry) : Metrics.Registry :=
  trace.foldl (fun r mark => match mark with
    | .noted e => e.count (micros e) r
    | _ => r) r

/-- Whether a run adds so much to the counter of failed copies. -/
def CountsFailures (trace : List Mark) (n : UInt64) : Prop :=
  ∀ micros r, (counted micros trace r).dualWriteErrors = r.dualWriteErrors + n

/-- Whether every table that a run saw is this one. -/
def Under (t : Table) (trace : List Mark) : Prop :=
  ∀ t', .saw t' ∈ trace → t' = t

section Counting

variable {one other : List Mark} {m n : UInt64}

theorem answers_append (side : Side) (one other : List Mark) :
    answers side (one ++ other) = answers side one ++ answers side other :=
  List.filterMap_append

/-- A store that told nothing at first told what it told later. -/
theorem answers_later {side : Side} (t : Table) (silent : answers side one = [])
    (rest : List Mark) : answers side (.saw t :: (one ++ rest)) = answers side rest := by
  change answers side (one ++ rest) = _
  rw [answers_append, silent, List.nil_append]

theorem answers_first {side : Side} (t : Table) (silent : answers side other = []) :
    answers side (.saw t :: (one ++ other)) = answers side one := by
  change answers side (one ++ other) = _
  rw [answers_append, silent, List.append_nil]

theorem CountsFailures.append (first : CountsFailures one m) (second : CountsFailures other n) :
    CountsFailures (one ++ other) (m + n) := by
  intro micros r
  have parts : counted micros (one ++ other) r = counted micros other (counted micros one r) :=
    List.foldl_append
  rw [parts, second micros, first micros, UInt64.add_assoc]

end Counting

variable {hasNew : Bool} {cmd key : String} {side : Side} {q : Ask} {t : Table}
  {trace trace' : List Mark}

section Asked

variable {x : q.Outcome}

/-- A call to a store counts no failed copy, and no other store is asked. -/
theorem askStore_counts (ran : (askStore hasNew cmd side q).ComesTo trace x) :
    CountsFailures trace 0 ∧ answers (other side) trace = [] := by
  have apart : side ≠ other side := by cases side <;> simp [other]
  obtain ⟨-, rfl⟩ | ⟨-, rfl, -⟩ := comesTo_askStore ran
  · refine ⟨fun micros r => (UInt64.add_zero _).symm, ?_⟩
    simp [answers, apart]
  · exact ⟨fun micros r => (UInt64.add_zero _).symm, rfl⟩

/-- A store that tells something was asked, once. -/
theorem askStore_answers (ran : (askStore hasNew cmd side q).ComesTo trace x) :
    (IsThere hasNew side → answers side trace = [⟨q, x⟩]) ∧
      (¬IsThere hasNew side → answers side trace = [] ∧ x = .error missing) := by
  obtain ⟨there, rfl⟩ | ⟨absent, rfl, rfl⟩ := comesTo_askStore ran
  · exact ⟨fun _ => by simp [answers], fun absent => absurd there absent⟩
  · exact ⟨fun there => absurd there absent, fun _ => ⟨rfl, rfl⟩⟩

/-- What is told on the way is what comes of it. -/
theorem askStore_told (ran : (askStore hasNew cmd side q).ComesTo trace x) {side' : Side}
    {y : q.Outcome} (told : .told side' q y ∈ trace) : side' = side ∧ y = x := by
  obtain ⟨-, rfl⟩ | ⟨-, rfl, -⟩ := comesTo_askStore ran
  · obtain same | later := List.mem_cons.mp told
    · obtain ⟨rfl, -, same⟩ := Mark.told.inj same
      exact ⟨rfl, eq_of_heq same⟩
    · simp at later
  · cases told

theorem told_of_ok {a : q.Answer} (ran : (askStore hasNew cmd side q).ComesTo trace (.ok a)) :
    .told side q (.ok a) ∈ trace := by
  obtain ⟨-, rfl⟩ | ⟨-, -, same⟩ := comesTo_askStore ran
  · exact List.mem_cons_self
  · cases same

end Asked

/-- What a client is told when the fallback tells `y` after the primary store told `x`. A lookup
goes on where the primary has nothing, and a key that only the fallback had was there to delete. -/
def filled : (q : Ask) → (x y : q.Outcome) → q.Outcome
  | .get _, .ok none, y => y
  | .getMeta _, .ok none, y => y
  | .delete _, .ok false, .ok found => .ok found
  | _, x, _ => x

/-- What a client is told when the key's primary store told `x` and the other one, if it was asked,
`y`. -/
def outcomeOf (stage : Stage) (q : Ask) (x : q.Outcome) (y : Option q.Outcome) : q.Outcome :=
  if stage.fallback.isSome then (y.map (filled q x)).getD x else x

/-- Whether a request for one key has asked the key's primary store, if it is there, exactly once,
the other store at most once, and told the client what these two make of it. A lookup asks the other
store just where the primary has nothing and there is a fallback. -/
structure FollowsPrimary (hasNew : Bool) (stage : Stage) (q : Ask) (trace : List Mark)
    (r : q.Outcome) : Prop where
  asked : IsThere hasNew stage.primary → ∃ (x : q.Outcome) (y : Option q.Outcome),
    answers stage.primary trace = [⟨q, x⟩] ∧
      answers (other stage.primary) trace = (y.map (Sigma.mk q)).toList ∧
      (q.isChange = false → (y.isSome = true ↔
        stage.fallback.isSome = true ∧ ∃ a, x = .ok a ∧ q.isMiss a = true)) ∧
      r = outcomeOf stage q x y
  absent : ¬IsThere hasNew stage.primary →
    answers stage.primary trace = [] ∧ answers (other stage.primary) trace = [] ∧
      r = .error missing

theorem filled_of_miss {a : q.Answer} (lookup : q.isChange = false) (miss : q.isMiss a = true)
    (y : q.Outcome) : filled q (.ok a) y = y := by
  cases q with
  | get _ =>
    obtain rfl := Option.isNone_iff_eq_none.mp miss
    rfl
  | getMeta _ =>
    obtain rfl := Option.isNone_iff_eq_none.mp miss
    rfl
  | getMulti _ => cases miss
  | set _ _ | delete _ => cases lookup

/-- The client is told what the primary store told, except where that has nothing and the other
store is the fallback. -/
theorem outcomeOf_cases (stage : Stage) (q : Ask) (x : q.Outcome) (y : Option q.Outcome) :
    outcomeOf stage q x y = x ∨ stage = .bwCrw ∧ ∃ a, x = .ok a ∧ q.isMiss a = true := by
  unfold outcomeOf
  split
  · rename_i next
    cases y with
    | none => exact .inl rfl
    | some y =>
      have stage := fallback_isSome_iff.mp next
      simp only [Option.map_some, Option.getD_some]
      unfold filled
      split
      · exact .inr ⟨stage, none, rfl, rfl⟩
      · exact .inr ⟨stage, none, rfl, rfl⟩
      · exact .inr ⟨stage, false, rfl, rfl⟩
      · exact .inl rfl
  · exact .inl rfl

theorem outcomeOf_set (stage : Stage) (item : Item) (x : Except Failure Unit)
    (y : Option (Except Failure Unit)) : outcomeOf stage (.set key item) x y = x := by
  cases y <;> simp [outcomeOf, filled]

theorem outcomeOf_delete (stage : Stage) (x : Except Failure Bool)
    (y : Option (Except Failure Bool)) :
    outcomeOf stage (.delete key) x y = x.map fun found =>
      found || (stage.fallback.isSome && y.bind Except.toOption == some true) := by
  unfold outcomeOf
  cases stage.fallback.isSome with
  | false => rcases x with _ | _ | _ <;> rfl
  | true => rcases x with _ | _ | _ <;> rcases y with _ | _ | _ | _ <;> rfl

theorem lookup_follows {r : q.Outcome} (reads : q.isChange = false)
    (ran : (lookup hasNew cmd key q).ComesTo trace r) (seen : Under t trace) :
    FollowsPrimary hasNew (t.route key) q trace r := by
  obtain ⟨u, asked, first, rest, rfl, one, ended⟩ := comesTo_lookup ran
  obtain rfl : t = u := (seen u List.mem_cons_self).symm
  obtain ⟨there, absent⟩ := askStore_answers one
  have silent := (askStore_counts one).2
  obtain ⟨rfl, rfl, final⟩ | ⟨found, side, rfl, next, miss, two⟩ := ended
  · rw [List.append_nil]
    refine ⟨fun is_there => ⟨_, none, there is_there, silent, fun _ => ?_, ?_⟩, fun is_absent => ?_⟩
    · constructor
      · exact nofun
      · rintro ⟨next, a, ok, miss⟩
        rw [final a ok miss] at next
        cases next
    · simp [outcomeOf]
    · exact ⟨(absent is_absent).1, silent, (absent is_absent).2⟩
  · obtain ⟨rfl, side_there⟩ := fallback_eq_other hasNew next
    have told := (askStore_answers two).1 side_there
    have silent' := (askStore_counts two).2
    rw [other_other] at silent'
    refine ⟨fun is_there => ⟨.ok found, some r, ?_, ?_, fun _ => ?_, ?_⟩, fun is_absent => ?_⟩
    · exact (answers_first t silent').trans (there is_there)
    · exact (answers_later t silent rest).trans told
    · exact ⟨fun _ => ⟨by rw [next]; rfl, found, rfl, miss⟩, fun _ => rfl⟩
    · rw [outcomeOf, next]
      exact (filled_of_miss reads miss r).symm
    · cases (absent is_absent).2

/-- Whether a store told the same in two runs when it was asked this. -/
def Alike (side : Side) (q : Ask) (trace trace' : List Mark) : Prop :=
  ∀ r r', .told side q r ∈ trace → .told side q r' ∈ trace' → r = r'

/-- Whether a store that was asked this had nothing only if it failed. -/
def Finds (side : Side) (q : Ask) (trace : List Mark) : Prop :=
  ∀ a, .told side q (.ok a) ∈ trace → q.isMiss a = false

/-- Two requests that follow a primary store which told the same are told the same, where it has
something or there is no fallback. -/
theorem eq_of_follows {stage : Stage} {r r' : q.Outcome}
    (one : FollowsPrimary hasNew stage q trace r) (two : FollowsPrimary hasNew stage q trace' r')
    (alike : Alike stage.primary q trace trace')
    (finds : stage = .bwCrw → Finds stage.primary q trace) : r = r' := by
  by_cases there : IsThere hasNew stage.primary
  · obtain ⟨x, y, asked, -, -, rfl⟩ := one.asked there
    obtain ⟨x', y', asked', -, -, rfl⟩ := two.asked there
    have told : .told stage.primary q x ∈ trace := mem_answers.mp (by simp [asked])
    have told' : .told stage.primary q x' ∈ trace' := mem_answers.mp (by simp [asked'])
    obtain rfl := alike x x' told told'
    have primary (y : Option q.Outcome) : outcomeOf stage q x y = x := by
      obtain same | ⟨fallback, a, rfl, miss⟩ := outcomeOf_cases stage q x y
      · exact same
      · rw [finds fallback a told] at miss
        cases miss
    rw [primary, primary]
  · rw [(one.absent there).2.2, (two.absent there).2.2]

section Changed

variable {x : q.Outcome} {copy : Option q.Answer}

/-- A change begins with what the primary store tells. -/
theorem Changes.begins (changes : Changes hasNew cmd key q t trace x copy) :
    ∃ asked rest, trace = .saw t :: (asked ++ rest) ∧
      (askStore hasNew cmd (t.route key).primary q).ComesTo asked x := by
  cases changes with
  | refused first => exact ⟨_, [], by rw [List.append_nil], first⟩
  | alone first only => exact ⟨_, [], by rw [List.append_nil], first⟩
  | copied first other second => exact ⟨_, _, rfl, first⟩

theorem Changes.saw (changes : Changes hasNew cmd key q t trace x copy) : .saw t ∈ trace := by
  obtain ⟨asked, rest, rfl, -⟩ := changes.begins
  exact List.mem_cons_self

/-- What becomes of the other store in a change that the primary has taken. -/
structure IsMirrored (hasNew : Bool) (stage : Stage) (q : Ask) (trace : List Mark) : Prop where
  alone : stage.mirror = none → answers (other stage.primary) trace = [] ∧ CountsFailures trace 0
  copied : ∀ side, stage.mirror = some side → IsThere hasNew side →
    side = other stage.primary ∧ ∃ r : q.Outcome, answers side trace = [⟨q, r⟩] ∧
      CountsFailures trace (if r.isOk then 0 else 1)
  missing : ∀ side, stage.mirror = some side → ¬IsThere hasNew side →
    side = other stage.primary ∧ answers side trace = [] ∧ CountsFailures trace 1

/-- A copy asks its store once, if it is there, and no other one; a failure is counted. -/
theorem mirror_counts {stage : Stage}
    (ran : (mirror hasNew cmd key stage side q).ComesTo trace copy) :
    ∃ r : q.Outcome, copy = r.toOption ∧ CountsFailures trace (if r.isOk then 0 else 1) ∧
      answers (other side) trace = [] ∧ (IsThere hasNew side → answers side trace = [⟨q, r⟩]) ∧
      (¬IsThere hasNew side → answers side trace = [] ∧ r = .error missing) := by
  obtain ⟨asked, r, one, ended⟩ := comesTo_mirror ran
  obtain ⟨counts, silent⟩ := askStore_counts one
  refine ⟨r, ?_⟩
  obtain ⟨a, rfl, rfl, rfl⟩ | ⟨e, rfl, rfl, rfl⟩ := ended
  · exact ⟨rfl, counts, silent, askStore_answers one⟩
  · have noted : CountsFailures [.noted (.mirrorFailed ⟨cmd, key, stage, side, e⟩)] 1 :=
      fun _ _ => rfl
    have grown := counts.append noted
    rw [UInt64.zero_add] at grown
    have unasked (s : Side) (event : Event) :
        answers s (asked ++ [.noted event]) = answers s asked := by
      rw [answers_append]
      exact List.append_nil _
    rw [unasked, unasked]
    exact ⟨rfl, grown, silent, askStore_answers one⟩

/-- A change asks each store once at most, and the primary first. -/
theorem Changes.asks (changes : Changes hasNew cmd key q t trace x copy) :
    (IsThere hasNew (t.route key).primary → ∃ y : Option q.Outcome,
      answers (t.route key).primary trace = [⟨q, x⟩] ∧
        answers (other (t.route key).primary) trace = (y.map (Sigma.mk q)).toList ∧
        copy = y.bind Except.toOption) ∧
    (¬IsThere hasNew (t.route key).primary → answers (t.route key).primary trace = [] ∧
      answers (other (t.route key).primary) trace = [] ∧ x = .error missing ∧ copy = none) := by
  cases changes with
  | refused first | alone first only =>
    obtain ⟨there, absent⟩ := askStore_answers first
    have silent := (askStore_counts first).2
    exact ⟨fun is_there => ⟨none, there is_there, silent, rfl⟩,
      fun is_absent => ⟨(absent is_absent).1, silent, (absent is_absent).2, rfl⟩⟩
  | @copied asked rest a side copy first copied second =>
    obtain rfl := mirror_eq_other copied
    obtain ⟨there, absent⟩ := askStore_answers first
    have silent := (askStore_counts first).2
    obtain ⟨r, same, -, silent', told, untold⟩ := mirror_counts second
    rw [other_other] at silent'
    refine ⟨fun is_there => ?_, fun is_absent => nomatch (absent is_absent).2⟩
    have primary := (answers_first t silent').trans (there is_there)
    have secondary := answers_later t silent rest
    by_cases copies : IsThere hasNew (other (t.route key).primary)
    · exact ⟨some r, primary, secondary.trans (told copies), same⟩
    · obtain ⟨nothing, rfl⟩ := untold copies
      exact ⟨none, primary, secondary.trans nothing, same⟩

theorem Changes.told (changes : Changes hasNew cmd key q t trace x copy) {a : q.Answer}
    (ok : x = .ok a) : .told (t.route key).primary q (.ok a) ∈ trace := by
  subst ok
  obtain ⟨asked, rest, rfl, ran⟩ := changes.begins
  exact .tail _ (List.mem_append_left _ (told_of_ok ran))

/-- Where the primary has not taken a change, it goes no further. -/
theorem Changes.refused_alone (changes : Changes hasNew cmd key q t trace x copy)
    (refuses : ∀ a, .told (t.route key).primary q (.ok a) ∉ trace) :
    answers (other (t.route key).primary) trace = [] ∧ CountsFailures trace 0 := by
  cases changes with
  | refused first => exact (askStore_counts first).symm
  | alone first only => exact absurd ((Changes.alone first only).told rfl) (refuses _)
  | copied first other second =>
    exact absurd ((Changes.copied first other second).told rfl) (refuses _)

theorem Changes.mirrored (changes : Changes hasNew cmd key q t trace x copy) {a : q.Answer}
    (takes : .told (t.route key).primary q (.ok a) ∈ trace) :
    IsMirrored hasNew (t.route key) q trace := by
  cases changes with
  | refused first =>
    obtain same | told := List.mem_cons.mp takes
    · cases same
    · exact nomatch (askStore_told first told).2
  | alone first only =>
    refine ⟨fun _ => (askStore_counts first).symm, ?_, ?_⟩
    · intro side copied
      rw [only] at copied
      cases copied
    · intro side copied
      rw [only] at copied
      cases copied
  | @copied asked rest _ side _ first copied second =>
    obtain rfl := mirror_eq_other copied
    obtain ⟨counts, silent⟩ := askStore_counts first
    obtain ⟨r, -, grown, -, there, absent⟩ := mirror_counts second
    have both : CountsFailures (.saw t :: (asked ++ rest)) (if r.isOk then 0 else 1) := by
      have both := counts.append grown
      rwa [UInt64.zero_add] at both
    have told := answers_later t silent rest
    refine ⟨fun none => ?_, ?_, ?_⟩
    · rw [copied] at none
      cases none
    · intro side copied' is_there
      obtain rfl := mirror_eq_other copied'
      exact ⟨rfl, r, told.trans (there is_there), both⟩
    · intro side copied' is_absent
      obtain rfl := mirror_eq_other copied'
      obtain ⟨silent', rfl⟩ := absent is_absent
      exact ⟨rfl, told.trans silent', both⟩

end Changed

section Requests

variable {r : q.Outcome}

/-- A change is a change whichever of the two commands makes it. -/
theorem comesTo_change (single : q.key? = some key) (change : q.isChange = true)
    (ran : (request hasNew q).ComesTo trace r) :
    ∃ cmd t first copy, Changes hasNew cmd key q t trace first copy ∧
      ∀ y, copy = y.bind Except.toOption → r = outcomeOf (t.route key) q first y := by
  cases q with
  | get _ | getMeta _ | getMulti _ => cases change
  | set key' item =>
    obtain rfl := Option.some.inj single
    obtain ⟨t, copy, changes⟩ := comesTo_set ran
    exact ⟨"set", t, _, copy, changes, fun y _ => (outcomeOf_set _ item r y).symm⟩
  | delete key' =>
    obtain rfl := Option.some.inj single
    obtain ⟨t, first, copy, changes, rfl⟩ := comesTo_delete ran
    refine ⟨"delete", t, first, copy, changes, ?_⟩
    rintro y rfl
    exact (outcomeOf_delete _ first y).symm

theorem change_follows (single : q.key? = some key) (change : q.isChange = true)
    (ran : (request hasNew q).ComesTo trace r) (seen : Under t trace) :
    FollowsPrimary hasNew (t.route key) q trace r := by
  obtain ⟨cmd, u, first, copy, changes, made⟩ := comesTo_change single change ran
  obtain rfl : t = u := (seen u changes.saw).symm
  obtain ⟨there, absent⟩ := changes.asks
  refine ⟨fun is_there => ?_, fun is_absent => ?_⟩
  · obtain ⟨y, primary, secondary, copied⟩ := there is_there
    refine ⟨first, y, primary, secondary, fun reads => ?_, made y copied⟩
    rw [change] at reads
    cases reads
  · obtain ⟨primary, secondary, rfl, copied⟩ := absent is_absent
    refine ⟨primary, secondary, (made none copied).trans ?_⟩
    simp [outcomeOf]

end Requests

/-- A client is told what the key's primary store tells, up to what the fallback adds. So the store
that is not the primary cannot be told apart by a client, whatever it answers and whether it answers
at all, except where the primary has nothing and it is the fallback. It is asked to copy a change
exactly once, after the primary has taken it, and a failure of that is counted and nothing else. -/
theorem other_store_isolated (hasNew : Bool) (t : Table) (q : Ask) (key : String)
    (single : q.key? = some key) :
    (∀ trace r, (request hasNew q).ComesTo trace r → Under t trace →
      FollowsPrimary hasNew (t.route key) q trace r) ∧
    (∀ trace trace' r r', (request hasNew q).ComesTo trace r →
      (request hasNew q).ComesTo trace' r' → Under t trace → Under t trace' →
      Alike (t.route key).primary q trace trace' →
      (t.route key = .bwCrw → Finds (t.route key).primary q trace) → r = r') ∧
    (q.isChange = true → ∀ trace r, (request hasNew q).ComesTo trace r → Under t trace →
      ((∀ a, .told (t.route key).primary q (.ok a) ∉ trace) →
        answers (other (t.route key).primary) trace = [] ∧ CountsFailures trace 0) ∧
      ∀ a, .told (t.route key).primary q (.ok a) ∈ trace →
        IsMirrored hasNew (t.route key) q trace) := by
  have follows : ∀ trace r, (request hasNew q).ComesTo trace r → Under t trace →
      FollowsPrimary hasNew (t.route key) q trace r := by
    intro trace r ran seen
    cases q with
    | getMulti _ => cases single
    | get key' | getMeta key' =>
      obtain rfl := Option.some.inj single
      exact lookup_follows rfl ran seen
    | set _ _ | delete _ => exact change_follows single rfl ran seen
  refine ⟨follows, ?isolated, ?mirrored⟩
  case isolated =>
    intro trace trace' r r' one two seen seen' alike finds
    exact eq_of_follows (follows trace r one seen) (follows trace' r' two seen') alike finds
  case mirrored =>
    intro change trace r ran seen
    obtain ⟨cmd, u, first, copy, changes, -⟩ := comesTo_change single change ran
    obtain rfl : t = u := (seen u changes.saw).symm
    exact ⟨changes.refused_alone, fun a takes => changes.mirrored takes⟩

/-- Both stores hold the key, but the legacy store may refuse every call. -/
def replicated (legacyFails : Bool) : Memory :=
  let stocked := (request true (.set "k" ⟨7, [97], .auto⟩)).run Memory.host
    (Memory.start ⟨.bwCrw, []⟩ 0)
  stocked.2.setFails .legacy legacyFails

/-- A client that sets or deletes the key is told the same, whether the legacy store takes the copy
or not; if it does not, that is counted. -/
theorem other_store_isolated_failing :
    let run (q : Ask) (legacyFails : Bool) :=
      (request true q).run Memory.host (replicated legacyFails)
    let trace (q : Ask) (legacyFails : Bool) :=
      (request true q).trace Memory.host (replicated legacyFails)
    let hidden (q : Ask) : Prop :=
      (run q true).1 = (run q false).1 ∧ CountsFailures (trace q true) 1 ∧
        answers .new (trace q true) = [⟨q, (run q true).1⟩] ∧
        answers .legacy (trace q true) = [⟨q, .error (.node "legacy" "down")⟩]
    hidden (.set "k" ⟨7, [98], .auto⟩) ∧ hidden (.delete "k") := by
  intro run trace hidden
  have shown (q : Ask) (cmd : String) (a b : q.Answer) (single : q.key? = some "k")
      (change : q.isChange = true) (found : q.isMiss a = false)
      (failing : trace q true =
        [.saw ⟨.bwCrw, []⟩, .told .new q (.ok a), .noted (.asked cmd .new true),
          .told .legacy q (.error (.node "legacy" "down")), .noted (.asked cmd .legacy false),
          .noted (.mirrorFailed ⟨cmd, "k", .bwCrw, .legacy, .node "legacy" "down"⟩)])
      (fine : trace q false =
        [.saw ⟨.bwCrw, []⟩, .told .new q (.ok a), .noted (.asked cmd .new true),
          .told .legacy q (.ok b), .noted (.asked cmd .legacy true)]) : hidden q := by
    obtain ⟨follows, isolated, mirrored⟩ := other_store_isolated true ⟨.bwCrw, []⟩ q "k" single
    have one : (request true q).ComesTo (trace q true) (run q true).1 := Script.comesTo_run ..
    have two : (request true q).ComesTo (trace q false) (run q false).1 := Script.comesTo_run ..
    have seen : Under ⟨.bwCrw, []⟩ (trace q true) := by
      rw [failing]
      simp [Under]
    have seen' : Under ⟨.bwCrw, []⟩ (trace q false) := by
      rw [fine]
      simp [Under]
    have told {x : q.Outcome} (listed : .told .new q x ∈ trace q true) : x = .ok a := by
      rw [failing] at listed
      simpa using listed
    have told' {x : q.Outcome} (listed : .told .new q x ∈ trace q false) : x = .ok a := by
      rw [fine] at listed
      simpa using listed
    have takes : .told .new q (.ok a) ∈ trace q true := by simp [failing]
    obtain ⟨-, refusal, asked_legacy, counts⟩ :=
      ((mirrored change _ _ one seen).2 a takes).copied .legacy rfl nofun
    obtain rfl : refusal = .error (.node "legacy" "down") := by
      rw [failing] at asked_legacy
      have same := (List.cons.inj asked_legacy).1
      exact (eq_of_heq (Sigma.mk.inj same).2).symm
    refine ⟨?same, counts, ?asked_new, asked_legacy⟩
    case same =>
      apply isolated _ _ _ _ one two seen seen'
      · intro x x' listed listed'
        rw [told listed, told' listed']
      · intro _ b listed
        obtain rfl := Except.ok.inj (told listed)
        exact found
    case asked_new =>
      obtain ⟨x, y, asked, -, -, result⟩ := (follows _ _ one seen).asked fun _ => rfl
      obtain rfl : x = .ok a := by
        rw [failing] at asked
        have same := (List.cons.inj asked).1
        exact (eq_of_heq (Sigma.mk.inj same).2).symm
      obtain same | ⟨-, b, ok, miss⟩ := outcomeOf_cases .bwCrw q (.ok a) y
      · rw [result.trans same]
        exact asked
      · obtain rfl := Except.ok.inj ok
        rw [found] at miss
        cases miss
  exact ⟨shown _ "set" () () rfl rfl rfl rfl rfl, shown _ "delete" true true rfl rfl rfl rfl rfl⟩

end Dispatch

end QuorumKv
