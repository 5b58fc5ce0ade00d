import QuorumKv.Proofs.Quorum.Discipline

/-! Backups make up for mains. Where no more acknowledgements are asked for than mains are needed to
make backups unnecessary, a write that is short of acknowledgements is also short of mains; so it
gives up only when it has called every backup, or as many as it could use. -/
namespace QuorumKv.Quorum.Write

/-- How many of some nodes acknowledge, when each has its own answer. -/
def countAcks (tells : String → Except Failure Bool) (addrs : List String) : Nat :=
  addrs.countP fun addr => (tells addr).isOk

variable {tells : String → Except Failure Bool}

theorem countAcks_append (earlier later : List String) :
    countAcks tells (earlier ++ later) = countAcks tells earlier + countAcks tells later :=
  List.countP_append

theorem countAcks_of_willing {addrs : List String}
    (willing : ∀ addr ∈ addrs, (tells addr).isOk = true) : countAcks tells addrs = addrs.length :=
  List.countP_eq_length.mpr willing

theorem length_acks {answers : Answers} (told : ∀ a ∈ answers, a.2 = tells a.1) :
    (acks answers).length = countAcks tells (answers.map (·.1)) := by
  rw [acks, List.length_map, ← List.countP_eq_length_filter, countAcks, List.countP_map]
  refine List.countP_congr fun a listed => ?_
  rw [told a listed]
  rfl

theorem not_stale_of_ok {r : Except Failure Bool} (ok : r.isOk = true) : isStale r = false := by
  cases r with
  | ok found => rfl
  | error why => cases ok

/-- A write that is short of acknowledgements goes on with all the backups that it could use. -/
theorem secondCalls_of_short {s : Write} (small : s.w ≤ threshold s.n s.w)
    (short : s.acked.length < s.w) (single : s.retried = false) (unrefused : s.conflicts = 0) :
    s.secondCalls = s.spare.take (s.n - s.acked.length) := by
  have few : s.ackedMains ≤ s.acked.length := List.length_filter_le ..
  have gate : s.ackedMains < threshold s.n s.w := by omega
  rw [secondCalls, if_pos (by simp [single, unrefused, gate])]

namespace Course

/-- Whether backups can do no more: all of them were called, or as many nodes acknowledge as there
should be replicas. -/
def IsSpent (tells : String → Except Failure Bool) (c : Course) : Prop :=
  c.write.spare = [] ∨ c.write.n ≤ countAcks tells c.called

/-- Whether some call had no answer by the deadline. -/
def IsLate (c : Course) : Prop :=
  c.expired = true ∧ ∃ addr ∈ c.called, addr ∉ c.early.map (·.1)

/-- The nodes give their own answers, and backups can do no more once they were brought in for a
second attempt. -/
structure Backed (tells : String → Except Failure Bool) (c : Course) : Prop where
  told : ∀ a ∈ c.early, a.2 = tells a.1
  retried : c.write.retried = true → c.IsSpent tells
  failed : ∀ why, c.write.result = some (.error why) → c.IsSpent tells ∨ c.IsLate

/-- What is asked of the nodes of a write that has begun: different backups are left, all of which
acknowledge, and nobody has anything newer. -/
structure Backing (tells : String → Except Failure Bool) (c₀ : Course) : Prop where
  within : c₀.write.w ≤ c₀.write.n
  small : c₀.write.w ≤ threshold c₀.write.n c₀.write.w
  distinct : (c₀.called ++ c₀.write.spare).Nodup
  willing : ∀ addr ∈ c₀.write.spare, (tells addr).isOk = true
  mild : ∀ addr ∈ c₀.called ++ c₀.write.spare, isStale (tells addr) = false

variable {c₀ c : Course} {addr : String}

theorem Backing.distinct_called (backing : Backing tells c₀) (follows : Follows c₀ c) :
    c.called.Nodup :=
  (follows.order ▸ backing.distinct).sublist (List.sublist_append_left ..)

theorem Backing.refusals_eq (backing : Backing tells c₀) (follows : Follows c₀ c)
    (told : ∀ a ∈ c.early, a.2 = tells a.1) : refusals c.early = 0 := by
  by_contra some_refusal
  obtain ⟨a, listed, stale⟩ := refusals_pos.mp (Nat.pos_of_ne_zero some_refusal)
  have called : a.1 ∈ c.called :=
    follows.due a.1 (List.mem_append_left _ (List.mem_map_of_mem listed))
  have mild := backing.mild a.1 (follows.order ▸ List.mem_append_left _ called)
  rw [← told a listed, stale] at mild
  cases mild

/-- When every node that was called has answered, the acknowledgements are those of all of them. -/
theorem Backing.length_acks (backing : Backing tells c₀) (follows : Follows c₀ c)
    (told : ∀ a ∈ c.early, a.2 = tells a.1)
    (complete : ∀ addr ∈ c.called, addr ∈ c.early.map (·.1)) :
    (acks c.early).length = countAcks tells c.called := by
  rw [Write.length_acks told]
  have once : (c.early.map (·.1)).Nodup := follows.nodup.sublist (List.sublist_append_left ..)
  have same : (c.early.map (·.1)).Perm c.called := by
    rw [List.perm_ext_iff_of_nodup once (backing.distinct_called follows)]
    intro addr
    exact ⟨fun heard => follows.due addr (List.mem_append_left _ heard), complete addr⟩
  exact same.countP_eq _

theorem isSpent_finish : (c.proceed c.write.finish []).IsSpent tells ↔ c.IsSpent tells := by
  simp only [IsSpent, Course.proceed, finish, List.append_nil]

/-- A second attempt calls all the backups that are left, or brings the acknowledgements up to the
number of replicas. -/
theorem isSpent_again (backing : Backing tells c₀) (follows : Follows c₀ c)
    (counts : c.Counts c₀.called) (told : ∀ a ∈ c.early, a.2 = tells a.1)
    (none_left : c.write.pending = 0) (single : c.write.retried = false)
    (calls : c.write.secondCalls = c.write.spare.take (c.write.n - c.write.acked.length))
    {write : Write} (n : write.n = c.write.n)
    (spare : write.spare = c.write.spare.drop c.write.secondCalls.length) :
    (c.proceed write c.write.secondCalls).IsSpent tells := by
  have complete := follows.complete_of_counts counts none_left
  rw [answered_of_in_time follows counts.in_time] at complete
  have acked : c.write.acked.length = countAcks tells c.called := by
    rw [counts.acked, backing.length_acks follows told complete]
  have left : c.write.spare = c₀.write.spare := by
    have order := follows.order
    rwa [counts.single single, List.append_cancel_left_eq] at order
  have willing : countAcks tells c.write.secondCalls = c.write.secondCalls.length := by
    refine countAcks_of_willing fun addr listed => backing.willing addr ?_
    exact left ▸ (secondCalls_of_spare c.write).subset listed
  have size : c.write.secondCalls.length =
      min (c.write.n - c.write.acked.length) c.write.spare.length := by
    rw [calls, List.length_take]
  simp only [IsSpent, Course.proceed, n, spare, countAcks_append, willing, List.drop_eq_nil_iff]
  omega

theorem backed_advance (backing : Backing tells c₀) (follows : Follows c₀ c)
    (counts : c.Counts c₀.called) (open_ : c.write.result = none) (backed : c.Backed tells) :
    (c.proceed c.write.advance.1 c.write.advance.2).Backed tells := by
  obtain ⟨-, n, w, -⟩ := follows.terms
  have small : c.write.w ≤ threshold c.write.n c.write.w := n ▸ w ▸ backing.small
  have within : c.write.w ≤ c.write.n := n ▸ w ▸ backing.within
  have unrefused : c.write.conflicts = 0 :=
    counts.conflicts.trans (backing.refusals_eq follows backed.told)
  obtain ⟨enough, ended⟩ | ⟨-, -, still⟩ | ⟨short, -, no_call, ended⟩ |
      ⟨short, all, some_call, again⟩ := advance_cases c.write
  · rw [ended]
    refine ⟨backed.told, fun retried => isSpent_finish.mpr (backed.retried retried), ?_⟩
    intro why failed
    have succeeded : c.write.verdict = .ok c.write.found := if_pos enough
    cases succeeded.symm.trans (Option.some.inj failed)
  · rw [still]
    have same : c.proceed c.write [] = c := by simp only [Course.proceed, List.append_nil]
    rw [same]
    exact backed
  · rw [ended]
    refine ⟨backed.told, fun retried => isSpent_finish.mpr (backed.retried retried), ?_⟩
    refine fun _ _ => .inl (isSpent_finish.mpr ?_)
    cases retried : c.write.retried with
    | true => exact backed.retried retried
    | false =>
      rw [secondCalls_of_short small short retried unrefused, List.take_eq_nil_iff] at no_call
      exact .inl (no_call.resolve_left (by omega))
  · -- the gate is open, because a write that is short of acknowledgements is short of mains
    obtain ⟨single, -, -⟩ := secondCalls_reason some_call
    have calls := secondCalls_of_short small short single unrefused
    rw [again]
    refine ⟨backed.told, fun _ => ?_, ?_⟩
    · exact isSpent_again backing follows counts backed.told all single calls rfl rfl
    · intro why failed
      cases open_.symm.trans failed

theorem told_note (told : ∀ a ∈ c.early, a.2 = tells a.1) (addr : String) :
    ∀ a ∈ (c.note addr (tells addr)).early, a.2 = tells a.1 := by
  unfold note
  split
  · exact told
  · intro a listed
    obtain old | last := List.mem_append.mp listed
    · exact told a old
    · rw [List.mem_singleton.mp last]

theorem backed_deadline (backing : Backing tells c₀) (follows : Follows c₀ c)
    (stands : c.Stands c₀.called) (backed : c.Backed tells) :
    (c.next .deadline).Backed tells := by
  cases result : c.write.result with
  | some ended =>
    have idle : c.write.expire = c.write := by
      simp only [expire, result, Option.isSome_some, if_true]
    simp only [Course.next, idle]
    refine ⟨backed.told, backed.retried, fun why failed => ?_⟩
    obtain spent | ⟨-, silent⟩ := backed.failed why failed
    · exact .inl spent
    · exact .inr ⟨rfl, silent⟩
  | none =>
    have ended : c.write.expire = c.write.finish := by
      simp only [expire, result, Option.isSome_none, Bool.false_eq_true, if_false]
    obtain ⟨in_time, -, addr, due, silent⟩ :=
      (follows.open_iff stands (backing.distinct_called follows)).mp result
    rw [answered_of_in_time follows in_time] at silent
    simp only [Course.next, ended]
    exact ⟨backed.told, backed.retried, fun _ _ => .inr ⟨rfl, addr, due, silent⟩⟩

/-- An answer that comes after the result. -/
theorem backed_late (backed : c.Backed tells) (due : addr ∈ c.called) (new : addr ∉ c.answered)
    {result : Except Failure Bool} (ended : c.write.result = some result) :
    (c.next (.answer addr (tells addr))).Backed tells := by
  rw [next_of_ended (tells addr) due new ended]
  obtain ⟨-, called, expired⟩ := note_fixed c addr (tells addr)
  have spent : ((c.note addr (tells addr)).proceed c.write []).IsSpent tells ↔
      c.IsSpent tells := by
    simp only [IsSpent, Course.proceed, called, List.append_nil]
  refine ⟨told_note backed.told addr, fun retried => spent.mpr (backed.retried retried), ?_⟩
  intro why failed
  obtain done | ⟨late, silent⟩ := backed.failed why failed
  · exact .inl (spent.mpr done)
  · refine .inr ⟨expired.trans late, ?_⟩
    simpa only [Course.proceed, note, late, if_true, List.append_nil] using silent

/-- An answer to an open write. -/
theorem backed_answer (backing : Backing tells c₀) (follows : Follows c₀ c)
    (stands : c.Stands c₀.called) (backed : c.Backed tells) (due : addr ∈ c.called)
    (new : addr ∉ c.answered) (result : c.write.result = none) :
    (c.next (.answer addr (tells addr))).Backed tells := by
  simp only [Stands, result] at stands
  obtain ⟨counts, -, some_open⟩ := stands
  rw [next_of_open (tells addr) due new result]
  obtain ⟨followed, counted, still_open⟩ :=
    follows.counted counts some_open result (tells addr) due new
  obtain ⟨-, called, -⟩ := note_fixed c addr (tells addr)
  obtain ⟨found, tallied⟩ :=
    tally_eq { c.write with pending := c.write.pending - 1 } addr (tells addr)
  have up_to_date := backed_advance backing followed counted still_open
    ⟨told_note backed.told addr, ?_, ?_⟩
  · simpa only [Course.proceed, List.append_nil] using up_to_date
  · intro retried
    simp only [Course.proceed, tallied] at retried
    have spent := backed.retried retried
    simpa only [IsSpent, Course.proceed, tallied, called, List.append_nil] using spent
  · intro why failed
    cases still_open.symm.trans failed

/-- What happens next is that a node gives its own answer, or that the deadline passes. -/
theorem backed_next (backing : Backing tells c₀) (follows : Follows c₀ c)
    (stands : c.Stands c₀.called) (backed : c.Backed tells) {h : Happening}
    (told : ∀ addr r, h = .answer addr r → r = tells addr) : (c.next h).Backed tells := by
  cases h with
  | deadline => exact backed_deadline backing follows stands backed
  | answer addr r =>
    obtain rfl := told addr r rfl
    by_cases possible : addr ∈ c.called ∧ addr ∉ c.answered
    · obtain ⟨due, new⟩ := possible
      cases result : c.write.result with
      | some ended => exact backed_late backed due new result
      | none => exact backed_answer backing follows stands backed due new result
    · simp only [Course.next, if_neg possible]
      exact backed

theorem backed_after (backing : Backing tells c₀) (follows : Follows c₀ c)
    (stands : c.Stands c₀.called) (backed : c.Backed tells) {happenings : List Happening}
    (told : ∀ addr r, .answer addr r ∈ happenings → r = tells addr) :
    (c.after happenings).Backed tells := by
  induction happenings generalizing c with
  | nil => exact backed
  | cons h rest ih =>
    obtain ⟨followed, stood⟩ := follows.next stands h
    have now := backed_next backing follows stands backed (h := h) fun addr r here =>
      told addr r (here ▸ List.mem_cons_self)
    exact ih followed stood now fun addr r later => told addr r (.tail _ later)

/-- A write that fails although nobody is late has called every backup, to no avail. -/
theorem Backed.not_failed (backing : Backing tells c₀) (follows : Follows c₀ c)
    (stands : c.Stands c₀.called) (backed : c.Backed tells)
    (in_time : c.expired = true → ∀ addr ∈ c.called, addr ∈ c.early.map (·.1))
    (enough : c₀.write.w ≤ countAcks tells (c₀.called ++ c₀.write.spare)) (why : Failure) :
    c.write.result ≠ some (.error why) := by
  intro failed
  obtain ⟨-, n, w, -⟩ := follows.terms
  have within := backing.within
  have spent : c.IsSpent tells := by
    refine (backed.failed why failed).resolve_right ?_
    rintro ⟨late, addr, due, silent⟩
    exact silent (in_time late addr due)
  simp only [Stands, failed] at stands
  obtain ⟨short, complete, -⟩ := stands
  have all : ∀ addr ∈ c.called, addr ∈ c.early.map (·.1) := by
    cases expired : c.expired with
    | true => exact in_time expired
    | false =>
      rw [answered_of_in_time follows expired] at complete
      exact complete expired
  rw [backing.length_acks follows backed.told all, w] at short
  obtain none_left | full := spent
  · have order := follows.order
    rw [none_left, List.append_nil] at order
    rw [order] at short
    omega
  · omega

variable {key : String} {n w bucket : Nat} {mains backups : List String}

/-- Together with the backups that are left, a write calls its mains and all backups. -/
theorem called_spare_begin : (begin key n w bucket mains backups).called ++
    (begin key n w bucket mains backups).write.spare = mains.take n ++ backups := by
  simp only [begin, start, List.append_assoc]
  split
  · have rest := List.prefix_iff_eq_append.mp
      (List.take_prefix (n - (mains.take n).length) backups)
    rw [rest]
  · rfl

theorem backed_begin (first_call : (begin key n w bucket mains backups).called ≠ []) :
    (begin key n w bucket mains backups).Backed tells := by
  refine ⟨List.forall_mem_nil _, nofun, fun why failed => ?_⟩
  rw [result_begin, if_neg (by simpa using first_call)] at failed
  cases failed

end Course

open Course in
/-- Backups make up for mains. All of the first `n` routable mains are called; if none of them has
anything newer, all routable backups acknowledge, and the mains that acknowledge and the backups are
enough together, then a write whose calls are answered in time succeeds: it never fails, and is open
only while some call is. -/
theorem succeeds_with_backups {config : Config} (valid : config.check = .ok ())
    (small : 2 * config.replication.w ≤ config.replication.n + 1) {plan : Route.Plan}
    {router : Router} (built : Router.ofPlan plan = .ok router) (key : String) (bucket : Nat)
    (isRoutable : String → Bool) (tells : String → Except Failure Bool)
    (happenings : List Happening)
    (told : ∀ addr r, .answer addr r ∈ happenings → r = tells addr) :
    let n := config.replication.n
    let w := config.replication.w
    let mains := (router.resolve bucket).mains.filter isRoutable
    let backups := (router.resolve bucket).backups.filter isRoutable
    let c := (begin key n w bucket mains backups).after happenings
    (c.expired = true → ∀ addr ∈ c.called, addr ∈ c.early.map (·.1)) →
    (∀ addr ∈ mains.take n, isStale (tells addr) = false) →
    (∀ addr ∈ backups, (tells addr).isOk = true) →
    w ≤ countAcks tells (mains.take n) + backups.length →
    (∀ result, c.write.result = some result → result.isOk = true) ∧
      (c.write.result = none → ∃ addr ∈ c.called, addr ∉ c.answered) := by
  intro n w mains backups c in_time mild willing enough
  obtain ⟨⟨positive, within⟩, -⟩ := Config.quorums_of_check valid
  have live : (mains ++ backups).Nodup := (Router.nodup_resolve built bucket).sublist
    (List.filter_sublist.append List.filter_sublist)
  let first := begin key n w bucket mains backups
  have nodes : first.called ++ first.write.spare = mains.take n ++ backups := called_spare_begin
  have first_call : first.called ≠ [] := by
    intro silent
    obtain ⟨no_main, no_backup⟩ := (called_begin_nil positive within).mp silent
    rw [no_main, no_backup, List.take_nil] at enough
    exact Nat.not_le_of_lt positive enough
  have backing : Backing tells first := by
    refine ⟨within, ?_, ?_, ?_, ?_⟩
    · change w ≤ n - w + 1
      omega
    · rw [nodes]
      exact live.sublist ((List.take_sublist ..).append (.refl _))
    · exact fun addr spare => willing addr (List.mem_of_mem_drop spare)
    · rw [nodes]
      intro addr listed
      obtain main | backup := List.mem_append.mp listed
      · exact mild addr main
      · exact not_stale_of_ok (willing addr backup)
  obtain ⟨follows, stands⟩ := begin_follows first_call positive
  obtain ⟨went, stood⟩ : Follows first c ∧ c.Stands first.called :=
    follows.after stands happenings
  have backed : c.Backed tells :=
    backed_after backing follows stands (backed_begin first_call) told
  have all : first.write.w ≤ countAcks tells (first.called ++ first.write.spare) := by
    rw [nodes, countAcks_append, countAcks_of_willing willing]
    exact enough
  constructor
  · intro result ended
    cases result with
    | ok found => rfl
    | error why => exact absurd ended (backed.not_failed backing went stood in_time all why)
  · exact fun open_ => ((went.open_iff stood (backing.distinct_called went)).mp open_).2.2

/-- What nodes answer in `failedMains`. -/
def failedTells : String → Except Failure Bool
  | "a" => .ok true
  | "d" => .ok false
  | _ => .error (.connection "refused")

theorem succeeds_with_backups_backedUp :
    let config : Config := ⟨.default, .default, .default, Config.defaultSwitch, none⟩
    let plan : Route.Plan := ⟨1, [⟨"a", ["0"]⟩, ⟨"b", ["0"]⟩, ⟨"c", ["0"]⟩], ["d"]⟩
    (config.check = .ok () ∧ 2 * config.replication.w ≤ config.replication.n + 1 ∧
      Router.ofPlan plan = .ok ⟨[⟨["a", "b", "c"], ["d"]⟩]⟩ ∧ backedUp.early.length = 4 ∧
      countAcks failedTells ["a", "b", "c"] = 1) ∧
    ∃ found, backedUp.write.result = some (.ok found) := by
  intro config plan
  have valid : config.check = .ok () := by decide +kernel
  have built : Router.ofPlan plan = .ok ⟨[⟨["a", "b", "c"], ["d"]⟩]⟩ := rfl
  have told : ∀ addr r, .answer addr r ∈ failedMains → r = failedTells addr := by
    simp only [failedMains, List.mem_cons, Happening.answer.injEq, List.not_mem_nil, or_false]
    rintro addr r (⟨rfl, rfl⟩ | ⟨rfl, rfl⟩ | ⟨rfl, rfl⟩ | ⟨rfl, rfl⟩) <;> rfl
  have succeeds := succeeds_with_backups valid (by decide) built "k" 0 (fun _ => true) failedTells
    failedMains told
  have same : (Course.begin "k" 3 2 0 ["a", "b", "c"] ["d"]).after failedMains = backedUp := rfl
  have nodes : Router.resolve ⟨[⟨["a", "b", "c"], ["d"]⟩]⟩ 0 = ⟨["a", "b", "c"], ["d"]⟩ := rfl
  have quorum : config.replication.n = 3 ∧ config.replication.w = 2 := ⟨rfl, rfl⟩
  simp only [nodes, quorum, List.filter_cons, List.filter_nil, if_true, same] at succeeds
  have complete : ∀ addr ∈ backedUp.called, addr ∈ backedUp.early.map (·.1) := by decide +kernel
  obtain ⟨succeeded, waits⟩ :=
    succeeds (fun _ => complete) (by decide) (by decide) (by decide)
  refine ⟨⟨valid, by decide, built, by decide +kernel, by decide⟩, ?_⟩
  cases result : backedUp.write.result with
  | none =>
    obtain ⟨addr, due, silent⟩ := waits result
    exact absurd (List.mem_append_left _ (complete addr due)) silent
  | some r =>
    have ok := succeeded r result
    cases r with
    | ok found => exact ⟨found, rfl⟩
    | error why => cases ok

end QuorumKv.Quorum.Write
