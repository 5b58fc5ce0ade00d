import QuorumKv.Proofs.Dispatch.Migration

/-! Requests over two record stores. Each store numbers the versions of a key on its own: a call
that reaches it moves its number on, and nothing tells it the number that the other store has. -/
namespace QuorumKv

namespace Revision

/-- What a delete leaves of a number. -/
def buried (number : Option Revision) : Option Revision :=
  number.map fun r => if r.isTombstone then r else r.tombstone

/-- How far the numbers of a key have gone. -/
def level (number : Option Revision) : Nat :=
  number.elim 0 magnitude

/-- Whether a store that has come to a number takes an item under a revision. -/
def isTaken (requested : Revision) (number : Option Revision) : Bool :=
  !requested.isTombstone && decide (requested = auto ∨ level number ≤ requested.magnitude)

/-- The number that a reader is shown. -/
def shown (number : Option Revision) : Option Revision :=
  number.filter fun r => !r.isTombstone

end Revision

namespace Ask

/-- Whether a call may change what is stored under a key. -/
def changes (key : String) : Ask → Bool
  | set k _ | delete k => k == key
  | get _ | getMeta _ | getMulti _ => false

/-- What a call makes of the number of a key. -/
def renumber (key : String) (q : Ask) (number : Option Revision) : Option Revision :=
  match q with
  | set k item =>
    if k = key ∧ item.rev.isTombstone = false then
      match Revision.resolve number item.rev with
      | .store rev => some rev
      | .duplicate | .stale _ => number
    else number
  | delete k => if k = key then Revision.buried number else number
  | get _ | getMeta _ | getMulti _ => number

theorem renumber_of_unchanged {key : String} {q : Ask} (unchanged : q.changes key = false)
    (number : Option Revision) : q.renumber key number = number := by
  cases q with
  | get | getMeta | getMulti => rfl
  | set k item =>
    have other : k ≠ key := ne_of_beq_false unchanged
    simp only [renumber, other, false_and, if_false]
  | delete k =>
    have other : k ≠ key := ne_of_beq_false unchanged
    simp only [renumber, other, if_false]

theorem renumber_set_auto (key : String) {item : Item} (auto : item.rev = .auto)
    (number : Option Revision) :
    (Ask.set key item).renumber key number = some (Revision.next number) := by
  have live : item.rev.isTombstone = false := by rw [auto]; rfl
  simp only [renumber, live, and_self, if_true, Revision.resolve, if_pos auto]

theorem renumber_delete (key : String) (number : Option Revision) :
    (Ask.delete key).renumber key number = Revision.buried number :=
  if_pos rfl

end Ask

namespace Store

/-- The number of a key, which a delete leaves behind as well. -/
def number? (s : Store) (key : String) : Option Revision :=
  (s.record? key).map Record.rev

theorem get?_rev (s : Store) (key : String) :
    (s.get? key).map Item.rev = Revision.shown (s.number? key) := by
  rw [get?, number?, Revision.shown, Option.filter_map, Option.map_map]
  rfl

theorem number?_set (s : Store) (k key : String) (item : Item) (now : Nat) :
    (s.set k item now).2.number? key = (Ask.set k item).renumber key (s.number? key) := by
  by_cases same : k = key
  · subst same
    by_cases negative : item.rev.isTombstone = true
    · rw [set_refused k now negative]
      simp only [Ask.renumber, negative, Bool.true_eq_false, and_false, if_false]
    · rw [Bool.not_eq_true] at negative
      simp only [set, Ask.renumber, negative, Bool.false_eq_true, if_false, and_self, if_true]
      rw [← number?]
      cases Revision.resolve (s.number? k) item.rev with
      | store rev =>
        obtain ⟨r, there, revision, -⟩ := record?_write_self s k item rev now
        simp only
        rw [number?, there, Option.map_some, revision]
      | duplicate | stale => rfl
  · have unchanged : (Ask.set k item).changes key = false := beq_false_of_ne same
    rw [Ask.renumber_of_unchanged unchanged, number?, record?_set_ne item now same, number?]

theorem number?_delete (s : Store) (k key : String) (now : Nat) :
    (s.delete k now).2.number? key = (Ask.delete k).renumber key (s.number? key) := by
  by_cases same : k = key
  · subst same
    have gone := record?_delete_self s k now
    simp only [Ask.renumber, if_true, number?, Revision.buried]
    cases held : s.record? k with
    | none =>
      rw [held] at gone
      rw [gone, held]
      rfl
    | some r =>
      rw [held] at gone
      by_cases live : r.isLive = true
      · simp only [live, if_true] at gone
        obtain ⟨-, t, there, revision⟩ := gone
        simp only [Record.isLive, Bool.not_eq_true'] at live
        simp [there, revision, live]
      · simp only [live, Bool.false_eq_true, if_false] at gone
        simp only [Record.isLive, Bool.not_eq_true', Bool.not_eq_false] at live
        simp [gone, held, live]
  · have unchanged : (Ask.delete k).changes key = false := beq_false_of_ne same
    rw [Ask.renumber_of_unchanged unchanged, number?, record?_delete_ne now same, number?]

/-- What a call makes of a number depends on nothing else that the store holds. -/
theorem number?_answer (s : Store) (now : Nat) (key : String) (q : Ask) :
    (s.answer now q).2.number? key = q.renumber key (s.number? key) := by
  cases q with
  | get | getMeta | getMulti => rfl
  | set k item => exact number?_set s k key item now
  | delete k => exact number?_delete s k key now

/-- Whether a set is taken can be told from the number of its key. -/
theorem isOk_set (s : Store) (key : String) (item : Item) (now : Nat) :
    (s.set key item now).1.isOk = item.rev.isTaken (s.number? key) := by
  by_cases negative : item.rev.isTombstone = true
  · rw [set_refused key now negative, Revision.isTaken, negative]
    rfl
  · rw [Revision.isTaken, Bool.eq_false_iff.mpr negative, Bool.not_false, Bool.true_and]
    by_cases auto : item.rev = .auto
    · rw [set_auto key now auto, decide_eq_true (.inl auto)]
      rfl
    · rw [set_explicit key now negative auto, number?]
      simp only [auto, false_or]
      cases s.record? key with
      | none => exact (decide_eq_true (Nat.zero_le _)).symm
      | some r =>
        simp only [Option.map_some]
        obtain newer | equal | older := Nat.lt_trichotomy r.rev.magnitude item.rev.magnitude
        · rw [if_pos newer]
          exact (decide_eq_true (Nat.le_of_lt newer)).symm
        · rw [if_neg (by omega), if_pos equal]
          exact (decide_eq_true (Nat.le_of_eq equal)).symm
        · rw [if_neg (by omega), if_neg (by omega)]
          exact (decide_eq_false (Nat.not_le_of_lt older)).symm

end Store

namespace Dispatch

open Migration (Side Stage Table)

/-! ## The calls of a script -/

/-- A call to a store, and whether it was answered without an error. -/
structure Answered where
  side : Side
  ask : Ask
  ok : Bool
  deriving DecidableEq

/-- The calls that a script makes, in turn. -/
def Script.calls {σ α : Type} (host : Host σ) : Script α → σ → List Answered
  | done _, _ => []
  | table next, s => (next (host.table s)).calls host s
  | ask side q next, s =>
    let (r, s) := host.answer side q s
    ⟨side, q, r.isOk⟩ :: (next r).calls host s
  | hold g next, s => next.calls host (host.hold g s)
  | release g next, s => next.calls host (host.release g s)
  | note e next, s => next.calls host (host.note e s)

/-- Whether all that a script asks is of a kind, whatever it is told. -/
def Script.Asks {α : Type} (kind : Ask → Prop) : Script α → Prop
  | done _ => True
  | table next => ∀ t, (next t).Asks kind
  | ask _ q next => kind q ∧ ∀ r, (next r).Asks kind
  | hold _ next | release _ next | note _ next => next.Asks kind

section Calls

variable {σ α β : Type} {host : Host σ} {s : σ} {kind : Ask → Prop}

theorem calls_bind (p : Script α) (f : α → Script β) :
    (p >>= f).calls host s = p.calls host s ++ (f (p.run host s).1).calls host (p.run host s).2 := by
  change (p.bind f).calls host s = _
  induction p generalizing s with
  | done a => rfl
  | table next ih => exact ih ..
  | ask side q next ih => exact congrArg (List.cons _) (ih ..)
  | hold guard next ih => exact ih
  | release guard next ih => exact ih
  | note event next ih => exact ih

theorem calls_pure (a : α) : (pure a : Script α).calls host s = [] :=
  rfl

theorem calls_snapshot : Script.snapshot.calls host s = [] :=
  rfl

theorem calls_holding (guard : Buffer.Guard) (p : Script α) :
    (Script.holding guard p).calls host s = p.calls host (host.hold guard s) := by
  refine (calls_bind (s := host.hold guard s) p fun a => .release guard (.done a)).trans ?_
  exact List.append_nil _

theorem calls_askStore (cmd : String) (side : Side) (q : Ask) :
    (askStore true cmd side q).calls host s = [⟨side, q, (host.answer side q s).1.isOk⟩] := by
  rw [askStore, if_neg (by simp)]
  rfl

/-- A copy is nothing more than the call, also when it does not arrive. -/
theorem calls_mirror (cmd key : String) (stage : Stage) (side : Side) (q : Ask) :
    (mirror true cmd key stage side q).calls host s = (askStore true cmd side q).calls host s := by
  rw [mirror, calls_bind]
  cases ((askStore true cmd side q).run host s).1 <;> exact List.append_nil _

theorem asks_calls {p : Script α} (asks : p.Asks kind) : ∀ call ∈ p.calls host s, kind call.ask := by
  induction p generalizing s with
  | done a => exact fun call listed => absurd listed List.not_mem_nil
  | table next ih => exact ih _ (asks _)
  | ask side q next ih => exact List.forall_mem_cons.mpr ⟨asks.1, ih _ (asks.2 _)⟩
  | hold guard next ih => exact ih asks
  | release guard next ih => exact ih asks
  | note event next ih => exact ih asks

theorem asks_bind {p : Script α} {f : α → Script β} (first : p.Asks kind)
    (second : ∀ a, (f a).Asks kind) : (p >>= f).Asks kind := by
  induction p with
  | done a => exact second a
  | table next ih => exact fun t => ih t (first t)
  | ask side q next ih => exact ⟨first.1, fun r => ih r (first.2 r)⟩
  | hold guard next ih => exact ih first
  | release guard next ih => exact ih first
  | note event next ih => exact ih first

theorem asks_holding {p : Script α} (guard : Buffer.Guard) (asks : p.Asks kind) :
    (Script.holding guard p).Asks kind :=
  asks_bind asks fun _ => True.intro

theorem asks_askStore (hasNew : Bool) (cmd : String) (side : Side) {q : Ask} (right : kind q) :
    (askStore hasNew cmd side q).Asks kind := by
  unfold askStore
  split
  · exact True.intro
  · exact ⟨right, fun _ => True.intro⟩

theorem asks_lookup (hasNew : Bool) (cmd key : String) {q : Ask} (right : kind q) :
    (lookup hasNew cmd key q).Asks kind := by
  refine asks_bind (fun t => True.intro) fun t => asks_bind (asks_askStore _ _ _ right) fun r => ?_
  cases r with
  | error e => exact True.intro
  | ok found =>
    simp only
    split
    · split
      · exact asks_askStore _ _ _ right
      · exact True.intro
    · exact True.intro

theorem asks_mirror (hasNew : Bool) (cmd key : String) (stage : Stage) (side : Side) {q : Ask}
    (right : kind q) : (mirror hasNew cmd key stage side q).Asks kind := by
  refine asks_bind (asks_askStore _ _ _ right) fun r => ?_
  cases r <;> exact True.intro

theorem asks_askGroups (hasNew : Bool) (keysOf : Side → List String) (found : Assoc String Item)
    (right : ∀ keys, kind (.getMulti keys)) : (askGroups hasNew keysOf found).Asks kind := by
  have group (side : Side) (found : Assoc String Item) :
      (askGroup hasNew side (keysOf side) found).Asks kind := by
    unfold askGroup
    split
    · exact True.intro
    · refine asks_bind (asks_askStore _ _ _ (right _)) fun r => ?_
      cases r <;> exact True.intro
  refine asks_bind (group .legacy found) fun r => ?_
  cases r with
  | error e => exact True.intro
  | ok found => exact group .new found

/-- A request asks the stores nothing but what it was asked; of several keys it asks again for
several. -/
theorem asks_request (hasNew : Bool) {q : Ask} (right : kind q)
    (parts : ∀ keys, q = .getMulti keys → ∀ some_keys, kind (.getMulti some_keys)) :
    (request hasNew q).Asks kind := by
  cases q with
  | get key | getMeta key => exact asks_lookup hasNew _ key right
  | getMulti keys =>
    refine asks_bind (fun t => True.intro) fun t =>
      asks_bind (asks_askGroups _ _ _ (parts keys rfl)) fun r => ?_
    cases r with
    | error e => exact True.intro
    | ok found =>
      refine asks_bind (asks_askGroups _ _ _ (parts keys rfl)) fun r => ?_
      cases r <;> exact True.intro
  | set key item =>
    refine asks_holding _ (asks_bind (fun t => True.intro) fun t =>
      asks_bind (asks_askStore _ _ _ right) fun r => ?_)
    cases r with
    | error e => exact True.intro
    | ok done =>
      simp only
      split
      · exact True.intro
      · exact asks_bind (asks_holding _ (asks_mirror _ _ _ _ _ right)) fun _ => True.intro
  | delete key =>
    refine asks_bind (fun t => True.intro) fun t =>
      asks_bind (asks_askStore _ _ _ right) fun r => ?_
    cases r with
    | error e => exact True.intro
    | ok found =>
      simp only
      split
      · exact True.intro
      · exact asks_bind (asks_mirror _ _ _ _ _ right) fun _ => True.intro

end Calls

/-! ## Record stores -/

/-- The numbers of a key in the two stores. -/
abbrev Numbers := Side → Option Revision

namespace Numbers

/-- What a request makes of the numbers of a key in a stage. -/
def step (key : String) (stage : Stage) (q : Ask) (n : Numbers) : Numbers :=
  fun side => if stage.uses side then q.renumber key (n side) else n side

/-- What a reader sees in a stage: a store that has the key, and its number there. -/
def sees (stage : Stage) (n : Numbers) : Option (Side × Revision) :=
  reads stage fun side => (Revision.shown (n side)).map (side, ·)

theorem step_of_unchanged {key : String} {q : Ask} (unchanged : q.changes key = false)
    (stage : Stage) (n : Numbers) : n.step key stage q = n := by
  funext side
  simp only [step, Ask.renumber_of_unchanged unchanged, ite_self]

end Numbers

/-- What a call makes of the numbers of a key. -/
def Answered.renumber (key : String) (n : Numbers) (call : Answered) : Numbers :=
  Function.update n call.side (call.ask.renumber key (n call.side))

/-- The calls of a write, where every store that it goes to is called. -/
theorem foldl_writes (key : String) (stage : Stage) (q : Ask) (ok : Side → Bool) (n : Numbers) :
    ((stage.primary :: stage.mirror.toList).map fun side => ⟨side, q, ok side⟩).foldl
      (Answered.renumber key) n = n.step key stage q := by
  funext side
  cases stage <;> cases side <;> rfl

theorem foldl_unchanged {key : String} {calls : List Answered}
    (unchanged : ∀ call ∈ calls, call.ask.changes key = false) (n : Numbers) :
    calls.foldl (Answered.renumber key) n = n := by
  induction calls generalizing n with
  | nil => rfl
  | cons call rest ih =>
    obtain ⟨first, others⟩ := List.forall_mem_cons.mp unchanged
    rw [List.foldl_cons, ih others, Answered.renumber, Ask.renumber_of_unchanged first]
    exact Function.update_eq_self ..

/-- The two stores of a host are record stores. `Answers s` says that in the state `s` calls get
through to both. -/
structure RecordStores {σ : Type} (host : Host σ) where
  stores : σ → Side → Store
  Answers : σ → Prop
  asked {s} (side : Side) (q : Ask) : Answers s → ∃ now,
    (host.answer side q s).1 = ((stores s side).answer now q).1 ∧
    stores (host.answer side q s).2 =
      Function.update (stores s) side ((stores s side).answer now q).2 ∧
    Answers (host.answer side q s).2
  held {s} (guard : Buffer.Guard) : Answers s →
    stores (host.hold guard s) = stores s ∧ Answers (host.hold guard s)
  released {s} (guard : Buffer.Guard) : Answers s →
    stores (host.release guard s) = stores s ∧ Answers (host.release guard s)
  noted {s} (event : Event) : Answers s →
    stores (host.note event s) = stores s ∧ Answers (host.note event s)

/-- What a get finds: the store that was asked last, and the revision of the item that it has. -/
def Host.sees {σ : Type} (host : Host σ) (key : String) (s : σ) : Option (Side × Revision) :=
  match ((get true key).run host s).1 with
  | .ok (some item) => ((get true key).calls host s).getLast?.map fun call => (call.side, item.rev)
  | _ => none

namespace RecordStores

variable {σ α : Type} {host : Host σ} {key : String} {s : σ} {stage : Stage}

def numbers (R : RecordStores host) (key : String) (s : σ) : Numbers :=
  fun side => (R.stores s side).number? key

theorem numbers_congr (R : RecordStores host) (key : String) {t : σ}
    (same : R.stores t = R.stores s) : R.numbers key t = R.numbers key s := by
  funext side
  simp only [numbers, same]

/-- A script changes the numbers of a key as its calls do. -/
theorem numbers_run (R : RecordStores host) (key : String) (p : Script α) (answers : R.Answers s) :
    R.numbers key (p.run host s).2 = (p.calls host s).foldl (Answered.renumber key)
      (R.numbers key s) ∧ R.Answers (p.run host s).2 := by
  induction p generalizing s with
  | done a => exact ⟨rfl, answers⟩
  | table next ih => exact ih _ answers
  | ask side q next ih =>
    obtain ⟨now, -, stores, still⟩ := R.asked side q answers
    -- the other store is not called, and the one that is decides by its own number
    have reached : R.numbers key (host.answer side q s).2 =
        Answered.renumber key (R.numbers key s) ⟨side, q, (host.answer side q s).1.isOk⟩ := by
      funext other
      rw [numbers, stores, Answered.renumber]
      by_cases same : other = side
      · subst same
        rw [Function.update_self, Function.update_self, Store.number?_answer]
        rfl
      · rw [Function.update_of_ne same, Function.update_of_ne same]
        rfl
    have rest := ih (host.answer side q s).1 still
    rwa [reached] at rest
  | hold guard next ih =>
    obtain ⟨stores, still⟩ := R.held guard answers
    have rest := ih still
    rwa [R.numbers_congr key stores] at rest
  | release guard next ih =>
    obtain ⟨stores, still⟩ := R.released guard answers
    have rest := ih still
    rwa [R.numbers_congr key stores] at rest
  | note event next ih =>
    obtain ⟨stores, still⟩ := R.noted event answers
    have rest := ih still
    rwa [R.numbers_congr key stores] at rest

/-- Asking a store, as part of a request. -/
theorem askStore_asks (R : RecordStores host) (cmd : String) (side : Side) (q : Ask)
    (answers : R.Answers s) : ∃ now,
      ((askStore true cmd side q).run host s).1 = ((R.stores s side).answer now q).1 ∧
      (askStore true cmd side q).calls host s =
        [⟨side, q, ((R.stores s side).answer now q).1.isOk⟩] ∧
      R.stores ((askStore true cmd side q).run host s).2 =
        Function.update (R.stores s) side ((R.stores s side).answer now q).2 ∧
      R.Answers ((askStore true cmd side q).run host s).2 := by
  obtain ⟨now, answer, stores, still⟩ := R.asked side q answers
  obtain ⟨noted, still⟩ := R.noted (.asked cmd side (host.answer side q s).1.isOk) still
  rw [run_askStore, calls_askStore, answer]
  rw [answer] at noted still
  exact ⟨now, rfl, rfl, noted.trans stores, still⟩

theorem askStore_get (R : RecordStores host) (cmd key : String) (side : Side)
    (answers : R.Answers s) : ∃ found, ((askStore true cmd side (.get key)).run host s).1 = .ok found ∧
      found.map Item.rev = Revision.shown (R.numbers key s side) ∧
      (askStore true cmd side (.get key)).calls host s = [⟨side, .get key, true⟩] ∧
      R.numbers key ((askStore true cmd side (.get key)).run host s).2 = R.numbers key s ∧
      R.Answers ((askStore true cmd side (.get key)).run host s).2 := by
  obtain ⟨now, answer, calls, stores, still⟩ := R.askStore_asks cmd side (.get key) answers
  refine ⟨_, answer, Store.get?_rev .., calls, R.numbers_congr key (stores.trans ?_), still⟩
  exact Function.update_eq_self ..

/-- A get sees what the stage reads. -/
theorem sees_eq (R : RecordStores host) (routed : ∀ s, (host.table s).route key = stage)
    (answers : R.Answers s) : host.sees key s = (R.numbers key s).sees stage := by
  obtain ⟨found, answer, shown, calls, same, still⟩ := R.askStore_get "get" key stage.primary answers
  unfold Host.sees get lookup Numbers.sees reads
  simp only [run_bind, calls_bind, run_snapshot, calls_snapshot, routed, answer, calls]
  cases fallback : stage.fallback with
  | none => cases found <;> simp [← shown, run_pure, calls_pure]
  | some side =>
    cases found with
    | some item => simp [← shown, run_pure, calls_pure, Ask.isMiss]
    | none =>
      obtain ⟨second, answer, shown', calls, -⟩ := R.askStore_get "get" key side still
      rw [same] at shown'
      simp only [Ask.isMiss, Option.isNone_none, if_true, answer, calls]
      cases second <;> simp [← shown, ← shown']

theorem askStore_set (R : RecordStores host) (cmd key : String) (side : Side) (item : Item)
    (answers : R.Answers s) :
    ((askStore true cmd side (.set key item)).run host s).1.isOk =
      item.rev.isTaken (R.numbers key s side) ∧
    (askStore true cmd side (.set key item)).calls host s =
      [⟨side, .set key item, item.rev.isTaken (R.numbers key s side)⟩] := by
  obtain ⟨now, answer, calls, -⟩ := R.askStore_asks cmd side (.set key item) answers
  have taken : ((R.stores s side).answer now (.set key item)).1.isOk =
      item.rev.isTaken (R.numbers key s side) := by
    rw [numbers, ← Store.isOk_set _ key item now]
    simp only [Store.answer]
    cases ((R.stores s side).set key item now).1 <;> rfl
  rw [answer, calls, taken]
  exact ⟨rfl, rfl⟩

/-- The primary does not tell the mirror anything. -/
theorem numbers_mirror (R : RecordStores host) (cmd key : String) {q : Ask} {other : Side}
    (copied : stage.mirror = some other) (answers : R.Answers s) :
    R.numbers key ((askStore true cmd stage.primary q).run host s).2 other =
      R.numbers key s other := by
  have apart : other ≠ stage.primary := by
    cases stage with
    | brw | crw => cases copied
    | brwCw | bwCrw =>
      cases copied
      decide
  obtain ⟨now, -, -, stores, -⟩ := R.askStore_asks cmd stage.primary q answers
  rw [numbers, stores, Function.update_of_ne apart, numbers]

/-- What a set calls: the primary, and the mirror once that has taken the item. -/
theorem calls_set (R : RecordStores host) (routed : ∀ s, (host.table s).route key = stage)
    (answers : R.Answers s) (item : Item) :
    let taken (side : Side) := item.rev.isTaken (R.numbers key s side)
    ((set true key item).run host s).1.isOk = taken stage.primary ∧
    (set true key item).calls host s =
      (if taken stage.primary then stage.primary :: stage.mirror.toList else [stage.primary]).map
        fun side => ⟨side, .set key item, taken side⟩ := by
  intro taken
  unfold set
  obtain ⟨held, answers⟩ := R.held ⟨.setData, item.value.length⟩ answers
  obtain ⟨ok, calls⟩ := R.askStore_set "set" key stage.primary item answers
  obtain ⟨now, -, -, -, still⟩ :=
    R.askStore_asks "set" stage.primary (.set key item) answers
  rw [R.numbers_congr key held] at ok calls
  rw [run_holding, calls_holding, run_bind, calls_bind, run_snapshot, calls_snapshot]
  simp only [routed, run_bind, calls_bind, calls]
  cases told : ((askStore true "set" stage.primary (.set key item)).run host
      (host.hold ⟨.setData, item.value.length⟩ s)).1 with
  | error e =>
    rw [told] at ok
    have refused : taken stage.primary = false := ok.symm
    rw [refused]
    refine ⟨rfl, ?_⟩
    simp [calls_pure, taken]
  | ok done =>
    rw [told] at ok
    have took : taken stage.primary = true := ok.symm
    rw [took, if_pos rfl]
    cases copied : stage.mirror with
    | none => exact ⟨rfl, rfl⟩
    | some side =>
      obtain ⟨kept, again⟩ := R.held ⟨.mirrorData, item.value.length⟩ still
      obtain ⟨-, copy⟩ := R.askStore_set "set" key side item again
      -- the mirror decides by the number that it had when the set began
      rw [R.numbers_congr key kept, R.numbers_mirror "set" key copied answers,
        R.numbers_congr key held] at copy
      have mirrored := (calls_mirror "set" key stage side (.set key item)).trans copy
      simp only [run_bind, calls_bind, calls_holding, mirrored]
      exact ⟨rfl, rfl⟩

theorem askStore_delete (R : RecordStores host) (cmd key : String) (side : Side)
    (answers : R.Answers s) :
    (∃ found, ((askStore true cmd side (.delete key)).run host s).1 = .ok found) ∧
      (askStore true cmd side (.delete key)).calls host s = [⟨side, .delete key, true⟩] ∧
      R.Answers ((askStore true cmd side (.delete key)).run host s).2 := by
  obtain ⟨now, answer, calls, -, still⟩ := R.askStore_asks cmd side (.delete key) answers
  exact ⟨⟨_, answer⟩, calls, still⟩

theorem calls_delete (R : RecordStores host) (routed : ∀ s, (host.table s).route key = stage)
    (answers : R.Answers s) :
    (delete true key).calls host s =
      (stage.primary :: stage.mirror.toList).map fun side => ⟨side, .delete key, true⟩ := by
  unfold delete
  obtain ⟨⟨found, answer⟩, calls, still⟩ := R.askStore_delete "delete" key stage.primary answers
  rw [calls_bind, run_snapshot, calls_snapshot]
  simp only [routed, calls_bind, calls, answer]
  cases copied : stage.mirror with
  | none => rfl
  | some side =>
    obtain ⟨-, copy, -⟩ := R.askStore_delete "delete" key side still
    have mirrored := (calls_mirror "delete" key stage side (.delete key)).trans copy
    simp only [calls_bind, mirrored]
    rfl

/-- A request changes the numbers of a key as the stage says, as long as sets of the key leave the
revision to the stores. -/
theorem numbers_request (R : RecordStores host) (routed : ∀ s, (host.table s).route key = stage)
    (answers : R.Answers s) (q : Ask) (auto : ∀ item, q = .set key item → item.rev = .auto) :
    R.numbers key ((request true q).run host s).2 = (R.numbers key s).step key stage q ∧
      R.Answers ((request true q).run host s).2 := by
  obtain ⟨after, still⟩ := R.numbers_run key (request true q) answers
  refine ⟨after.trans ?_, still⟩
  by_cases changed : q.changes key = true
  · cases q with
    | get | getMeta | getMulti => cases changed
    | set k item =>
      obtain rfl : k = key := eq_of_beq changed
      have taken (number : Option Revision) : item.rev.isTaken number = true := by
        rw [auto item rfl]
        rfl
      obtain ⟨-, calls⟩ := R.calls_set routed answers item
      rw [request, calls, if_pos (taken _)]
      exact foldl_writes ..
    | delete k =>
      obtain rfl : k = key := eq_of_beq changed
      rw [request, R.calls_delete routed answers]
      exact foldl_writes _ _ _ (fun _ => true) _
  · have unchanged : q.changes key = false := Bool.not_eq_true _ ▸ changed
    have asks : (request true q).Asks fun asked => asked.changes key = false :=
      asks_request true unchanged fun _ _ _ => rfl
    rw [Numbers.step_of_unchanged unchanged, foldl_unchanged (asks_calls asks)]

end RecordStores

/-- The same stores, when another table is live. -/
def RecordStores.under {σ : Type} {host : Host σ} (R : RecordStores host) (table : Table) :
    RecordStores (host.under table) where
  stores := R.stores
  Answers := R.Answers
  asked := R.asked
  held := R.held
  released := R.released
  noted := R.noted

namespace Memory

theorem store_putStore (m : Memory) (side : Side) (s : Store) :
    (m.putStore side s).store = Function.update m.store side s := by
  funext other
  cases side <;> cases other <;> rfl

/-- The stores in memory, as long as neither refuses calls. -/
def records : RecordStores host where
  stores := store
  Answers := IsUp
  asked {m} side q up := by
    simp only [host, answer_of_isUp up]
    exact ⟨m.now, rfl, store_putStore .., isUp_putStore up side _⟩
  held _ up := ⟨rfl, up⟩
  released _ up := ⟨rfl, up⟩
  noted _ up := ⟨rfl, up⟩

end Memory

end Dispatch

end QuorumKv
