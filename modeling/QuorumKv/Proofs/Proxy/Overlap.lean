import QuorumKv.Proofs.Proxy.Reload

/-! Reloads of the switch table that overlap. Each reads the table that the files say when it begins
and puts it in place when its turn comes. Turns are taken one at a time, but not always in the order
in which the reloads began, and the files may change in between: the table that stays is that of the
last turn, not that of the last file. -/
namespace QuorumKv.Proxy

open Migration (Table)

/-- A reload that has begun: what it has read, and how it ended once it has. -/
structure Reading where
  read : Except Failure Table
  result? : Option (Except Failure Unit)

/-- Files, a proxy, the reloads in the order in which they began, and their turns so far. -/
structure Overlap where
  files : Config.Directory
  proxy : Proxy
  calls : List Reading
  turns : List Nat

namespace Overlap

inductive Act where
  | write (files : Config.Directory)
  /-- A reload begins and reads the files. -/
  | start
  /-- A reload has its turn to put in place what it has read. -/
  | turn (call : Nat)

def begin (files : Config.Directory) (p : Proxy) : Overlap :=
  ⟨files, p, [], []⟩

def act (o : Overlap) : Act → Overlap
  | .write files => { o with files := files }
  | .start => { o with calls := o.calls ++ [⟨readTable (some o.files), none⟩] }
  | .turn i =>
    match o.calls[i]? with
    | some ⟨read, none⟩ =>
      let done := Reload.orOld o.proxy (read >>= o.proxy.install)
      ⟨o.files, done.2, o.calls.set i ⟨read, some done.1⟩, o.turns ++ [i]⟩
    | _ => o

def after (o : Overlap) (acts : List Act) : Overlap :=
  acts.foldl act o

/-- A reload with nothing between its beginning and its turn does what a reload does. -/
theorem turn_of_start (o : Overlap) :
    let reload : Reload := .readSwitch (some o.files)
    let later := o.after [.start, .turn o.calls.length]
    later.proxy = (reload.perform o.proxy).2 ∧
      later.calls.getLast?.bind Reading.result? = some (reload.perform o.proxy).1 := by
  intro reload later
  have there : (o.calls ++ [⟨readTable (some o.files), none⟩])[o.calls.length]? =
      some ⟨readTable (some o.files), none⟩ := List.getElem?_concat_length ..
  rw [Reload.perform_eq]
  simp only [later, after, List.foldl_cons, List.foldl_nil, act, there]
  refine ⟨rfl, ?_⟩
  simp [List.set_append_right]
  rfl

end Overlap

/-- Whether a reload from these files succeeds. -/
def Usable (p : Proxy) (files : Config.Directory) : Prop :=
  ∃ table, readTable (some files) = .ok table ∧ Dispatch.checkTable p.hasNew table = .ok ()

namespace Overlap

variable {p : Proxy} {o : Overlap} {files : Config.Directory}

/-- What holds of overlapping reloads while all files are usable: those that had their turn have
succeeded, and the live table is what the last of them had read. -/
structure Sound (p : Proxy) (o : Overlap) : Prop where
  usable : p.Usable o.files
  config : o.proxy.config = p.config
  reads : ∀ call ∈ o.calls, ∃ table, call.read = .ok table ∧
    Dispatch.checkTable p.hasNew table = .ok ()
  results : ∀ call ∈ o.calls, ∀ result, call.result? = some result → result = .ok ()
  turned : ∀ i, i ∈ o.turns ↔ ∃ call, o.calls[i]? = some call ∧ call.result?.isSome = true
  live : ∀ i, o.turns.getLast? = some i → ∃ call, o.calls[i]? = some call ∧
    call.read = .ok o.proxy.table

theorem sound_begin (usable : p.Usable files) : (begin files p).Sound p where
  usable := usable
  config := rfl
  reads := by simp [begin]
  results := by simp [begin]
  turned := by simp [begin]
  live := by simp [begin]

theorem getElem?_snoc {α : Type} {xs : List α} {x y : α} {i : Nat} :
    (xs ++ [x])[i]? = some y ↔ xs[i]? = some y ∨ i = xs.length ∧ x = y := by
  rcases Nat.lt_trichotomy i xs.length with before | rfl | beyond
  · rw [List.getElem?_append_left before]
    exact (or_iff_left fun last => Nat.ne_of_lt before last.1).symm
  · simp
  · have outside : (xs ++ [x])[i]? = none := by
      rw [List.getElem?_eq_none_iff, List.length_append]
      exact beyond
    have outside' : xs[i]? = none := List.getElem?_eq_none_iff.mpr (Nat.le_of_lt beyond)
    rw [outside, outside']
    exact iff_of_false nofun (not_or.mpr ⟨nofun, fun last => Nat.ne_of_gt beyond last.1⟩)

theorem sound_start (sound : o.Sound p) : (o.act .start).Sound p := by
  obtain ⟨usable, config, reads, results, turned, live⟩ := sound
  refine ⟨usable, config, ?reads, ?results, ?turned, ?live⟩
  case reads =>
    intro call listed
    obtain old | new := List.mem_append.mp listed
    · exact reads call old
    · obtain rfl := List.mem_singleton.mp new
      exact usable
  case results =>
    intro call listed
    obtain old | new := List.mem_append.mp listed
    · exact results call old
    · obtain rfl := List.mem_singleton.mp new
      exact nofun
  case turned =>
    intro i
    refine (turned i).trans ?_
    simp only [act, getElem?_snoc]
    constructor
    · rintro ⟨call, there, done⟩
      exact ⟨call, .inl there, done⟩
    · rintro ⟨call, there | ⟨-, rfl⟩, done⟩
      · exact ⟨call, there, done⟩
      · cases done
  case live =>
    intro i last
    obtain ⟨call, there, read⟩ := live i last
    exact ⟨call, getElem?_snoc.mpr (.inl there), read⟩

theorem sound_turn (i : Nat) (sound : o.Sound p) : (o.act (.turn i)).Sound p := by
  unfold act
  simp only
  split
  · rename_i read there
    obtain ⟨usable, config, reads, results, turned, live⟩ := sound
    obtain ⟨table, rfl, allowed⟩ := reads _ (List.mem_of_getElem? there)
    have installed : (Except.ok table >>= o.proxy.install) = .ok { o.proxy with
        table := table
        warned := o.proxy.warned ++ Migration.warnings o.proxy.table table } := by
      have same : o.proxy.hasNew = p.hasNew := congrArg (fun c => c.remote.isSome) config
      change o.proxy.install table = _
      rw [install, same, allowed]
      rfl
    simp only [installed, Reload.orOld]
    obtain ⟨inside, -⟩ := List.getElem?_eq_some_iff.mp there
    have each {call : Reading} (listed : call ∈ o.calls.set i ⟨.ok table, some (.ok ())⟩) :
        call ∈ o.calls ∨ call = ⟨.ok table, some (.ok ())⟩ := List.mem_or_eq_of_mem_set listed
    refine ⟨usable, config, ?reads, ?results, ?turned, ?live⟩
    case reads =>
      intro call listed
      obtain old | rfl := each listed
      · exact reads call old
      · exact ⟨table, rfl, allowed⟩
    case results =>
      intro call listed
      obtain old | rfl := each listed
      · exact results call old
      · intro result same
        exact (Option.some.inj same).symm
    case turned =>
      intro j
      simp only [List.mem_append, List.mem_singleton]
      by_cases here : j = i
      · subst here
        rw [List.getElem?_set_self inside]
        exact iff_of_true (.inr rfl) ⟨_, rfl, rfl⟩
      · rw [List.getElem?_set_ne (Ne.symm here), or_iff_left here]
        exact turned j
    case live =>
      intro j last
      rw [List.getLast?_concat] at last
      obtain rfl := Option.some.inj last
      exact ⟨_, List.getElem?_set_self inside, rfl⟩
  · exact sound

theorem sound_act (a : Act) (written : ∀ files, a = .write files → p.Usable files)
    (sound : o.Sound p) : (o.act a).Sound p := by
  cases a with
  | write files =>
    obtain ⟨-, config, reads, results, turned, live⟩ := sound
    exact ⟨written files rfl, config, reads, results, turned, live⟩
  | start => exact sound_start sound
  | turn i => exact sound_turn i sound

theorem sound_after {acts : List Act} (written : ∀ files, .write files ∈ acts → p.Usable files)
    (sound : o.Sound p) : (o.after acts).Sound p := by
  induction acts generalizing o with
  | nil => exact sound
  | cons a rest ih =>
    apply ih fun files listed => written files (.tail _ listed)
    exact sound_act a (fun files same => written files (same ▸ List.mem_cons_self)) sound

/-- The reloads from number `m` on have read what the files say now. -/
def FreshFrom (m : Nat) (o : Overlap) : Prop :=
  ∀ i call, m ≤ i → o.calls[i]? = some call → call.read = readTable (some o.files)

theorem freshFrom_act {m : Nat} {a : Act} (unwritten : ∀ files, a ≠ .write files)
    (fresh : o.FreshFrom m) : (o.act a).FreshFrom m ∧ (o.act a).files = o.files := by
  cases a with
  | write files => exact absurd rfl (unwritten files)
  | start =>
    refine ⟨?_, rfl⟩
    intro i call late there
    obtain old | ⟨-, rfl⟩ := getElem?_snoc.mp there
    · exact fresh i call late old
    · rfl
  | turn i =>
    simp only [act]
    split
    · rename_i read known
      refine ⟨?_, rfl⟩
      intro j call late there
      by_cases here : j = i
      · subst here
        obtain ⟨inside, -⟩ := List.getElem?_eq_some_iff.mp known
        rw [List.getElem?_set_self inside] at there
        obtain rfl := Option.some.inj there
        have same := fresh j _ late known
        exact same
      · rw [List.getElem?_set_ne (Ne.symm here)] at there
        exact fresh j call late there
    · exact ⟨fresh, rfl⟩

theorem freshFrom_after {m : Nat} {acts : List Act} (unwritten : ∀ files, .write files ∉ acts)
    (fresh : o.FreshFrom m) : (o.after acts).FreshFrom m := by
  induction acts generalizing o with
  | nil => exact fresh
  | cons a rest ih =>
    apply ih fun files listed => unwritten files (.tail _ listed)
    exact (freshFrom_act (fun files same => unwritten files (same ▸ List.mem_cons_self)) fresh).1

/-- The reloads that have begun so far are the earlier ones. -/
theorem freshFrom_now (o : Overlap) : o.FreshFrom o.calls.length := by
  intro i call late there
  rw [List.getElem?_eq_none_iff.mpr late] at there
  cases there

/-- Of rising numbers, the last is the greatest. -/
theorem le_getLast {xs : List Nat} {last x : Nat} (rising : xs.Pairwise (· < ·))
    (ends : xs.getLast? = some last) (listed : x ∈ xs) : x ≤ last := by
  obtain ⟨init, rfl⟩ := List.getLast?_eq_some_iff.mp ends
  obtain before | same := List.mem_append.mp listed
  · exact Nat.le_of_lt ((List.pairwise_append.mp rising).2.2 x before last (List.mem_singleton_self _))
  · exact Nat.le_of_eq (List.mem_singleton.mp same)

/-- Reloads that have had their turn have succeeded. -/
theorem Sound.succeeded (sound : o.Sound p)
    (returned : ∀ call ∈ o.calls, call.result?.isSome = true) :
    ∀ call ∈ o.calls, call.result? = some (.ok ()) := by
  intro call listed
  obtain ⟨result, ended⟩ := Option.isSome_iff_exists.mp (returned call listed)
  rw [ended, sound.results call listed result ended]

/-- When all reloads have ended, the last that began has had its turn. -/
theorem Sound.last_turned (sound : o.Sound p)
    (returned : ∀ call ∈ o.calls, call.result?.isSome = true) (some_call : 0 < o.calls.length) :
    o.calls.length - 1 ∈ o.turns := by
  have inside : o.calls.length - 1 < o.calls.length := Nat.sub_one_lt_of_lt some_call
  have there := List.getElem?_eq_getElem inside
  exact (sound.turned _).mpr ⟨_, there, returned _ (List.getElem_mem inside)⟩

/-- A reload begins, the files change, another begins, and the later one has its turn first. -/
def overtaking (files : Config.Directory) : List Act :=
  [.start, .write files, .start, .turn 1, .turn 0]

theorem overtaking_shape (p : Proxy) (files newer : Config.Directory) :
    let o := (begin files p).after (overtaking newer)
    (∀ call ∈ o.calls, call.result?.isSome = true) ∧
      (∀ call, o.calls[0]? = some call → call.read = readTable (some files)) ∧
      o.turns = [1, 0] := by
  simp [overtaking, after, act, begin]

/-- The same reloads in their order. -/
def inOrder (files : Config.Directory) : List Act × List Act :=
  ([.start, .turn 0, .write files], [.start, .turn 1])

theorem inOrder_shape (p : Proxy) (files newer : Config.Directory) :
    let before := (begin files p).after (inOrder newer).1
    let o := before.after (inOrder newer).2
    (∀ call ∈ o.calls, call.result?.isSome = true) ∧ before.calls.length < o.calls.length ∧
      o.turns.Pairwise (· < ·) := by
  simp [inOrder, after, act, begin]

end Overlap

open Overlap

/-- Reloads may overlap in any way while the files change from one usable text to another. When all
have ended, all have succeeded, and the live table is what the one with the last turn had read. That
is what the files say now if that one began after the last change, and so whenever the turns were
taken in the order of the beginnings; where a reload was overtaken, it is the table from before the
change. -/
theorem last_turn_stays {p : Proxy} {files : Config.Directory} {early late : List Act}
    (usable : p.Usable files) (written : ∀ files, .write files ∈ early ++ late → p.Usable files)
    (unwritten : ∀ files, .write files ∉ late) :
    let before := (begin files p).after early
    let o := before.after late
    ((∀ call ∈ o.calls, call.result?.isSome = true) → before.calls.length < o.calls.length →
      (∀ call ∈ o.calls, call.result? = some (.ok ())) ∧
      ∃ i call, o.turns.getLast? = some i ∧ o.calls[i]? = some call ∧
        call.read = .ok o.proxy.table ∧
        (before.calls.length ≤ i → readTable (some o.files) = .ok o.proxy.table) ∧
        (o.turns.Pairwise (· < ·) → readTable (some o.files) = .ok o.proxy.table)) ∧
    ∀ newer, p.Usable newer →
      let o := (begin files p).after (overtaking newer)
      (∀ call ∈ o.calls, call.result? = some (.ok ())) ∧ o.files = newer ∧
        readTable (some files) = .ok o.proxy.table := by
  intro before o
  refine ⟨?ended, ?overtaken⟩
  case ended =>
    intro returned more
    have early_written : ∀ files, .write files ∈ early → p.Usable files :=
      fun files listed => written files (List.mem_append_left _ listed)
    have sound : o.Sound p := by
      refine sound_after ?_ (sound_after early_written (sound_begin usable))
      exact fun files listed => written files (List.mem_append_right _ listed)
    have fresh : o.FreshFrom before.calls.length := freshFrom_after unwritten (freshFrom_now before)
    have some_call : 0 < o.calls.length := Nat.zero_lt_of_lt more
    have turned := sound.last_turned returned some_call
    obtain ⟨i, last⟩ : ∃ i, o.turns.getLast? = some i :=
      ⟨_, List.getLast?_eq_getLast_of_ne_nil (List.ne_nil_of_mem turned)⟩
    obtain ⟨call, there, read⟩ := sound.live i last
    have newest (began : before.calls.length ≤ i) : readTable (some o.files) = .ok o.proxy.table :=
      (fresh i call began there).symm.trans read
    refine ⟨sound.succeeded returned, i, call, last, there, read, newest, fun rising => ?_⟩
    have latest : o.calls.length - 1 ≤ i := le_getLast rising last turned
    exact newest (by omega)
  case overtaken =>
    intro newer usable_newer o
    have sound : o.Sound p := by
      refine sound_after ?_ (sound_begin usable)
      intro files listed
      obtain rfl : files = newer := by simpa [overtaking] using listed
      exact usable_newer
    obtain ⟨returned, first, turns⟩ := overtaking_shape p files newer
    obtain ⟨call, there, read⟩ := sound.live 0 (by rw [turns]; rfl)
    refine ⟨sound.succeeded returned, rfl, (first call there).symm.trans read⟩

/-- A proxy with a new store. -/
def served : Proxy where
  config := { plainConfig with remote := some ⟨"http://new/", 1000⟩ }
  table := ⟨.brw, []⟩
  cluster := Cluster.ofReplicas (Cluster.quorums 1 1 1) ⟨250, 100⟩ ⟨["a"], []⟩
  warned := []

def filesOf (text : String) : Config.Directory :=
  ⟨[("proxy.toml", Text.Utf8.encode text)], []⟩

/-- The second reload reads that both stores take writes and succeeds, and yet the table stays at
that of the first; in their order, the same reloads end on the table of the second. -/
theorem last_turn_stays_overtaken :
    let older := filesOf "switch.default_storage = 'BRW'\n"
    let newer := filesOf "switch.default_storage = 'BRW_CW'\n"
    let o := (begin older served).after (overtaking newer)
    let calm := ((begin older served).after (inOrder newer).1).after (inOrder newer).2
    served.Usable older ∧ served.Usable newer ∧
      (∀ call ∈ o.calls, call.result? = some (.ok ())) ∧
      readTable (some o.files) = .ok ⟨.brwCw, []⟩ ∧ o.proxy.table = ⟨.brw, []⟩ ∧
      calm.proxy.table = ⟨.brwCw, []⟩ := by
  intro older newer o calm
  have read_older : readTable (some older) = .ok ⟨.brw, []⟩ := by decide +kernel
  have read_newer : readTable (some newer) = .ok ⟨.brwCw, []⟩ := by decide +kernel
  have usable_older : served.Usable older := ⟨_, read_older, by decide +kernel⟩
  have usable_newer : served.Usable newer := ⟨_, read_newer, by decide +kernel⟩
  have written : ∀ files, .write files ∈ (inOrder newer).1 ++ (inOrder newer).2 →
      served.Usable files := by
    intro files listed
    obtain rfl : files = newer := by simpa [inOrder] using listed
    exact usable_newer
  have unwritten : ∀ files, .write files ∉ (inOrder newer).2 := by simp [inOrder]
  obtain ⟨ended, overtaken⟩ := last_turn_stays usable_older written unwritten
  obtain ⟨succeeded, files, live⟩ := overtaken newer usable_newer
  obtain ⟨returned, more, rising⟩ := inOrder_shape served older newer
  obtain ⟨-, i, call, -, -, -, -, newest⟩ := ended returned more
  have files_calm : calm.files = newer := rfl
  refine ⟨usable_older, usable_newer, succeeded, ?_, ?_, ?_⟩
  · rw [files, read_newer]
  · exact (Except.ok.inj (read_older.symm.trans live)).symm
  · have live := newest rising
    rw [files_calm, read_newer] at live
    exact (Except.ok.inj live).symm

end QuorumKv.Proxy
