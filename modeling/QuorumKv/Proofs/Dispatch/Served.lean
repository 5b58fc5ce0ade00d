import QuorumKv.Dispatch
import QuorumKv.Proofs.Migration.Table

/-! No request asks a store that is not there. A table is only installed if every store that it
needs is there, and each request goes by the stage that such a table gives its key; so whatever the
stores answer, and whichever tables are installed meanwhile, it never finds a store missing. -/
namespace QuorumKv.Dispatch

open Migration (Side Stage Table)

/-- What a request would be told that needs the new store where there is none. -/
def missing : Failure := .disabled "new backend not configured"

def NotMissing {α : Type} (r : Except Failure α) : Prop :=
  r ≠ .error missing

/-- A store that can be asked. -/
def IsThere (hasNew : Bool) (side : Side) : Prop :=
  side = .new → hasNew = true

theorem askStore_of_there {hasNew : Bool} {side : Side} (there : IsThere hasNew side) (cmd : String)
    (q : Ask) : askStore hasNew cmd side q = .call cmd side q := by
  apply if_neg
  rintro ⟨new, none⟩
  rw [there new] at none
  cases none

/-- The stores that a request for a key in this stage may ask. -/
def sides (stage : Stage) : List Side :=
  stage.primary :: (stage.mirror.toList ++ stage.fallback.toList)

/-- Only the legacy store is fallen back on. -/
theorem uses_of_listed {stage : Stage} {side : Side} (listed : side ∈ sides stage) :
    side = .legacy ∨ stage.uses side = true := by
  cases stage <;> cases side <;> simp [sides, Stage.primary, Stage.mirror, Stage.fallback,
    Stage.uses] at listed ⊢

theorem uses_of_check {hasNew : Bool} {t : Table} (allowed : checkTable hasNew t = .ok ())
    (used : t.uses .new = true) : hasNew = true := by
  unfold checkTable at allowed
  split at allowed
  · cases allowed
  · rename_i fine
    rw [used, Bool.and_true] at fine
    simpa using fine

section Sides

variable {hasNew : Bool} {t : Table} {key : String} {side : Side}

theorem there_of_listed (allowed : checkTable hasNew t = .ok ()) (key : String)
    (listed : side ∈ sides (t.route key)) : IsThere hasNew side := by
  rintro rfl
  obtain legacy | used := uses_of_listed listed
  · cases legacy
  · exact uses_of_check allowed (Table.uses_route used)

theorem primary_there (allowed : checkTable hasNew t = .ok ()) (key : String) :
    IsThere hasNew (t.route key).primary :=
  there_of_listed allowed key List.mem_cons_self

theorem mirror_there (allowed : checkTable hasNew t = .ok ())
    (copied : (t.route key).mirror = some side) : IsThere hasNew side :=
  there_of_listed allowed key (by simp [sides, copied])

theorem fallback_there (allowed : checkTable hasNew t = .ok ())
    (next : (t.route key).fallback = some side) : IsThere hasNew side :=
  there_of_listed allowed key (by simp [sides, next])

end Sides

/-- Whether a script asks only stores that are there, and neither returns nor notes that one is
missing unless a store says so itself. Its snapshot of the table may be any that may be
installed. -/
def Script.IsServed {α : Type} (hasNew : Bool) (good : α → Prop) : Script α → Prop
  | done a => good a
  | table next => ∀ t, checkTable hasNew t = .ok () → (next t).IsServed hasNew good
  | ask side _ next =>
    IsThere hasNew side ∧ ∀ r, NotMissing r → (next r).IsServed hasNew good
  | hold _ next | release _ next => next.IsServed hasNew good
  | note e next =>
    (∀ failure, e = .mirrorFailed failure → failure.reason ≠ missing) ∧ next.IsServed hasNew good

namespace Script

variable {α β : Type} {hasNew : Bool} {good : α → Prop} {fine : β → Prop}

theorem isServed_bind {p : Script α} {f : α → Script β} (first : p.IsServed hasNew good)
    (second : ∀ a, good a → (f a).IsServed hasNew fine) : (p >>= f).IsServed hasNew fine := by
  induction p with
  | done a => exact second a first
  | table next ih => exact fun t allowed => ih t (first t allowed)
  | ask side q next ih => exact ⟨first.1, fun r said => ih r (first.2 r said)⟩
  | hold guard next ih => exact ih first
  | release guard next ih => exact ih first
  | note e next ih => exact ⟨first.1, ih first.2⟩

theorem isServed_holding {p : Script α} (guard : Buffer.Guard) (served : p.IsServed hasNew good) :
    (holding guard p).IsServed hasNew good :=
  isServed_bind served fun _ done => done

theorem isServed_snapshot {f : Table → Script α}
    (rest : ∀ t, checkTable hasNew t = .ok () → (f t).IsServed hasNew good) :
    (snapshot >>= f).IsServed hasNew good :=
  rest

end Script

section Requests

variable {hasNew : Bool} {side : Side}

theorem askStore_isServed (there : IsThere hasNew side) (cmd : String) (q : Ask) :
    (askStore hasNew cmd side q).IsServed hasNew NotMissing := by
  rw [askStore_of_there there]
  exact ⟨there, fun r said => ⟨nofun, said⟩⟩

theorem lookup_isServed (hasNew : Bool) (cmd key : String) (q : Ask) :
    (lookup hasNew cmd key q).IsServed hasNew NotMissing := by
  apply Script.isServed_snapshot
  intro t allowed
  apply Script.isServed_bind (askStore_isServed (primary_there allowed key) cmd q)
  intro r said
  cases r with
  | error e => exact said
  | ok found =>
    cases next : (t.route key).fallback with
    | none => exact nofun
    | some side =>
      simp only
      split
      · exact askStore_isServed (fallback_there allowed next) cmd q
      · exact nofun

theorem mirror_isServed (there : IsThere hasNew side) (cmd key : String) (stage : Stage) (q : Ask) :
    (mirror hasNew cmd key stage side q).IsServed hasNew fun _ => True := by
  apply Script.isServed_bind (askStore_isServed there cmd q)
  intro r said
  cases r with
  | ok a => trivial
  | error e =>
    refine ⟨?_, trivial⟩
    intro failure same refused
    obtain rfl := Event.mirrorFailed.inj same
    exact said (congrArg Except.error refused)

theorem set_isServed (hasNew : Bool) (key : String) (item : Item) :
    (set hasNew key item).IsServed hasNew NotMissing := by
  apply Script.isServed_holding
  apply Script.isServed_snapshot
  intro t allowed
  have primary := primary_there allowed key
  apply Script.isServed_bind (askStore_isServed primary "set" (.set key item))
  intro r said
  cases r with
  | error e => exact said
  | ok done =>
    cases copied : (t.route key).mirror with
    | none => exact nofun
    | some side =>
      have there := mirror_there allowed copied
      apply Script.isServed_bind (Script.isServed_holding _ (mirror_isServed there ..))
      intro _ _
      exact nofun

theorem delete_isServed (hasNew : Bool) (key : String) :
    (delete hasNew key).IsServed hasNew NotMissing := by
  apply Script.isServed_snapshot
  intro t allowed
  have primary := primary_there allowed key
  apply Script.isServed_bind (askStore_isServed primary "delete" (.delete key))
  intro r said
  cases r with
  | error e => exact said
  | ok found =>
    cases copied : (t.route key).mirror with
    | none => exact nofun
    | some side =>
      have there := mirror_there allowed copied
      apply Script.isServed_bind (mirror_isServed there ..)
      intro _ _
      exact nofun

/-- No keys are asked for nowhere. -/
theorem askGroup_isServed {keys : List String} (found : Assoc String Item)
    (there : keys ≠ [] → IsThere hasNew side) :
    (askGroup hasNew side keys found).IsServed hasNew NotMissing := by
  unfold askGroup
  by_cases none : keys.isEmpty = true
  · rw [if_pos none]
    exact nofun
  · rw [if_neg none]
    apply Script.isServed_bind (askStore_isServed (there (by simpa using none)) "gets" (.getMulti keys))
    intro r said
    cases r with
    | error e => exact said
    | ok values => exact nofun

theorem askGroups_isServed {keysOf : Side → List String} (found : Assoc String Item)
    (there : ∀ side, keysOf side ≠ [] → IsThere hasNew side) :
    (askGroups hasNew keysOf found).IsServed hasNew NotMissing := by
  apply Script.isServed_bind (askGroup_isServed found (there .legacy))
  intro r said
  cases r with
  | error e => exact said
  | ok found => exact askGroup_isServed found (there .new)

theorem getMulti_isServed (hasNew : Bool) (keys : List String) :
    (getMulti hasNew keys).IsServed hasNew NotMissing := by
  apply Script.isServed_snapshot
  intro t allowed
  have primaries : ∀ side, (keys.filter fun key => (t.route key).primary = side) ≠ [] →
      IsThere hasNew side := by
    intro side some_key
    obtain ⟨key, listed⟩ := List.exists_mem_of_ne_nil _ some_key
    have same := of_decide_eq_true (List.mem_filter.mp listed).2
    exact same ▸ primary_there allowed key
  apply Script.isServed_bind (askGroups_isServed [] primaries)
  intro r said
  cases r with
  | error e => exact said
  | ok found =>
    have fallbacks : ∀ side, ((keys.filter fun key => !found.contains key).filter
        fun key => (t.route key).fallback = some side) ≠ [] → IsThere hasNew side := by
      intro side some_key
      obtain ⟨key, listed⟩ := List.exists_mem_of_ne_nil _ some_key
      have next := of_decide_eq_true (List.mem_filter.mp listed).2
      exact fallback_there allowed next
    apply Script.isServed_bind (askGroups_isServed found fallbacks)
    intro r said
    cases r with
    | error e => exact said
    | ok found => exact nofun

/-- Whatever is asked for, no store is found missing. -/
theorem request_isServed (hasNew : Bool) (q : Ask) :
    (request hasNew q).IsServed hasNew NotMissing := by
  cases q with
  | get key => exact lookup_isServed hasNew "get" key (.get key)
  | getMeta key => exact lookup_isServed hasNew "getm" key (.getMeta key)
  | getMulti keys => exact getMulti_isServed hasNew keys
  | set key item => exact set_isServed hasNew key item
  | delete key => exact delete_isServed hasNew key

end Requests

/-- On a host in good order, which keeps it whatever is done there, a script runs to a good end. -/
theorem good_of_run {σ α : Type} {host : Host σ} {hasNew : Bool} {good : α → Prop}
    {orderly : σ → Prop} (allowed : ∀ s, orderly s → checkTable hasNew (host.table s) = .ok ())
    (answers : ∀ side q s, orderly s → IsThere hasNew side →
      NotMissing (host.answer side q s).1 ∧ orderly (host.answer side q s).2)
    (holds : ∀ guard s, orderly s → orderly (host.hold guard s))
    (releases : ∀ guard s, orderly s → orderly (host.release guard s))
    (notes : ∀ event s, orderly s → orderly (host.note event s))
    {p : Script α} (served : p.IsServed hasNew good) {s : σ} (start : orderly s) :
    good (p.run host s).1 ∧ orderly (p.run host s).2 := by
  induction p generalizing s with
  | done a => exact ⟨served, start⟩
  | table next ih => exact ih _ (served _ (allowed s start)) start
  | ask side q next ih =>
    obtain ⟨there, rest⟩ := served
    obtain ⟨said, kept⟩ := answers side q s start there
    exact ih _ (rest _ said) kept
  | hold guard next ih => exact ih served (holds guard s start)
  | release guard next ih => exact ih served (releases guard s start)
  | note e next ih => exact ih served.2 (notes e s start)

end QuorumKv.Dispatch
