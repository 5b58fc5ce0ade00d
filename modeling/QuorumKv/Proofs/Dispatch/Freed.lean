import QuorumKv.Dispatch

/-! Requests let go of what they hold. Whatever a request is told on its way, each value that it
takes into memory it lets go of once, the last one taken first, before it returns. -/
namespace QuorumKv.Dispatch

open Buffer (Guard)
open Migration (Side Stage Table)

/-- Whether a script lets go of these guards in turn, and of all that it takes on its way, whatever
it is told. -/
def Script.Frees {α : Type} : Script α → List Guard → Prop
  | done _, guards => guards = []
  | table next, guards => ∀ t, (next t).Frees guards
  | ask _ _ next, guards => ∀ r, (next r).Frees guards
  | hold g next, guards => next.Frees (g :: guards)
  | release g next, guards => ∃ rest, guards = g :: rest ∧ next.Frees rest
  | note _ next, guards => next.Frees guards

namespace Script

variable {α β : Type} {p : Script α} {f : α → Script β} {guards others : List Guard}

theorem frees_bind (first : p.Frees guards) (second : ∀ a, (f a).Frees others) :
    (p >>= f).Frees (guards ++ others) := by
  induction p generalizing guards with
  | done a =>
    obtain rfl : guards = [] := first
    exact second a
  | table next ih => exact fun t => ih t (first t)
  | ask side q next ih => exact fun r => ih r (first r)
  | hold g next ih => exact ih first
  | release g next ih =>
    obtain ⟨rest, rfl, first⟩ := first
    exact ⟨rest ++ others, rfl, ih first⟩
  | note e next ih => exact ih first

/-- What takes nothing with it may come first. -/
theorem frees_then (first : p.Frees []) (second : ∀ a, (f a).Frees guards) :
    (p >>= f).Frees guards :=
  frees_bind first second

theorem frees_holding (guard : Guard) (frees : p.Frees []) : (holding guard p).Frees [] := by
  have last : ∀ a : α, (release guard (done a)).Frees [guard] := fun _ => ⟨[], rfl, rfl⟩
  exact frees_bind frees last

theorem frees_pure (a : α) : (pure a : Script α).Frees [] :=
  rfl

theorem frees_snapshot : snapshot.Frees [] :=
  fun _ => rfl

end Script

open Script

theorem frees_askStore (hasNew : Bool) (cmd : String) (side : Side) (q : Ask) :
    (askStore hasNew cmd side q).Frees [] := by
  unfold askStore
  split
  · exact rfl
  · exact fun _ => rfl

theorem frees_lookup (hasNew : Bool) (cmd key : String) (q : Ask) :
    (lookup hasNew cmd key q).Frees [] := by
  refine frees_then frees_snapshot fun t => frees_then (frees_askStore ..) fun r => ?_
  cases r with
  | error e => exact frees_pure _
  | ok found =>
    simp only
    split
    · split
      · exact frees_askStore ..
      · exact frees_pure _
    · exact frees_pure _

theorem frees_mirror (hasNew : Bool) (cmd key : String) (stage : Stage) (side : Side) (q : Ask) :
    (mirror hasNew cmd key stage side q).Frees [] := by
  refine frees_then (frees_askStore ..) fun r => ?_
  cases r <;> exact rfl

theorem frees_set (hasNew : Bool) (key : String) (item : Item) : (set hasNew key item).Frees [] := by
  apply frees_holding
  refine frees_then frees_snapshot fun t => frees_then (frees_askStore ..) fun r => ?_
  cases r with
  | error e => exact frees_pure _
  | ok done =>
    simp only
    split
    · exact frees_pure _
    · exact frees_then (frees_holding _ (frees_mirror ..)) fun _ => frees_pure _

theorem frees_delete (hasNew : Bool) (key : String) : (delete hasNew key).Frees [] := by
  refine frees_then frees_snapshot fun t => frees_then (frees_askStore ..) fun r => ?_
  cases r with
  | error e => exact frees_pure _
  | ok found =>
    simp only
    split
    · exact frees_pure _
    · exact frees_then (frees_mirror ..) fun _ => frees_pure _

theorem frees_askGroup (hasNew : Bool) (side : Side) (keys : List String)
    (found : Assoc String Item) : (askGroup hasNew side keys found).Frees [] := by
  unfold askGroup
  split
  · exact frees_pure _
  · refine frees_then (frees_askStore ..) fun r => ?_
    cases r <;> exact frees_pure _

theorem frees_askGroups (hasNew : Bool) (keysOf : Side → List String)
    (found : Assoc String Item) : (askGroups hasNew keysOf found).Frees [] := by
  refine frees_then (frees_askGroup ..) fun r => ?_
  cases r with
  | error e => exact frees_pure _
  | ok found => exact frees_askGroup ..

theorem frees_getMulti (hasNew : Bool) (keys : List String) : (getMulti hasNew keys).Frees [] := by
  refine frees_then frees_snapshot fun t => frees_then (frees_askGroups ..) fun r => ?_
  cases r with
  | error e => exact frees_pure _
  | ok found =>
    refine frees_then (frees_askGroups ..) fun r => ?_
    cases r <;> exact frees_pure _

/-- A request lets go of all that it holds. -/
theorem frees_request (hasNew : Bool) (q : Ask) : (request hasNew q).Frees [] := by
  cases q with
  | get key => exact frees_lookup hasNew "get" key (.get key)
  | getMeta key => exact frees_lookup hasNew "getm" key (.getMeta key)
  | getMulti keys => exact frees_getMulti hasNew keys
  | set key item => exact frees_set hasNew key item
  | delete key => exact frees_delete hasNew key

end QuorumKv.Dispatch
