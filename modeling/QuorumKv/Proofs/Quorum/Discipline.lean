import QuorumKv.Proofs.Config
import QuorumKv.Proofs.Quorum.Course
import QuorumKv.Proofs.Route

/-! The discipline of a write on the routable nodes of a bucket: whom it calls, what it makes of the
answers, and when it ends. -/
namespace QuorumKv.Quorum.Write

namespace Course

variable {c : Course}

variable {key : String} {n w bucket : Nat} {mains backups : List String}

theorem called_begin : (begin key n w bucket mains backups).called = mains.take n ++
    if (mains.take n).length < threshold n w then backups.take (n - (mains.take n).length)
    else [] :=
  rfl

/-- Without a node that could be called there is nothing to wait for. -/
theorem called_begin_nil (enough : 0 < w) (within : w ≤ n) :
    (begin key n w bucket mains backups).called = [] ↔ mains = [] ∧ backups = [] := by
  have some_node : n ≠ 0 := by omega
  have positive : 0 < threshold n w := Nat.succ_pos _
  rw [called_begin]
  constructor
  · intro empty
    obtain ⟨no_main, no_backup⟩ := List.append_eq_nil_iff.mp empty
    obtain rfl : mains = [] := by simpa [some_node] using no_main
    refine ⟨rfl, ?_⟩
    simpa [positive, some_node] using no_backup
  · rintro ⟨rfl, rfl⟩
    simp

theorem result_begin : (begin key n w bucket mains backups).write.result =
    if (begin key n w bucket mains backups).called.isEmpty then some (.error (.noNode bucket))
    else none :=
  rfl

theorem begin_follows (first_call : (begin key n w bucket mains backups).called ≠ [])
    (enough : 0 < w) :
    Follows (begin key n w bucket mains backups) (begin key n w bucket mains backups) ∧
      (begin key n w bucket mains backups).Stands
        (begin key n w bucket mains backups).called := by
  refine ⟨⟨⟨rfl, rfl, rfl, rfl⟩, rfl, .nil, nofun, fun _ => rfl, ?_⟩, ?_⟩
  · exact fun addr listed other => absurd listed other
  · have open_ : (begin key n w bucket mains backups).write.result = none := by
      rw [result_begin, if_neg (by simpa using first_call)]
    simp only [Stands, open_]
    exact ⟨⟨rfl, rfl, rfl, rfl, fun _ => rfl⟩, enough, List.length_pos_iff.mpr first_call⟩

/-- A backup is called at once only for want of mains. -/
theorem few_mains_of_called {addr : String}
    (listed : addr ∈ (begin key n w bucket mains backups).called) (other : addr ∉ mains) :
    (mains.take n).length < threshold n w := by
  by_contra many
  rw [called_begin, if_neg many, List.append_nil] at listed
  exact other (List.mem_of_mem_take listed)

/-- Every call takes a node of its own. -/
theorem Follows.nodup_called (follows : Follows (begin key n w bucket mains backups) c)
    (live : (mains ++ backups).Nodup) : c.called.Nodup := by
  have order : (c.called ++ c.write.spare).Sublist (mains ++ backups) :=
    follows.order ▸ (start_calls key n w bucket mains backups).1
  exact live.sublist ((List.sublist_append_left ..).trans order)

/-- A write that called nobody hears nothing. -/
theorem after_silent (silent : c.called = []) (ended : c.write.result.isSome)
    (happenings : List Happening) :
    (c.after happenings).write = c.write ∧ (c.after happenings).called = [] ∧
      (c.after happenings).early = c.early := by
  induction happenings generalizing c with
  | nil => exact ⟨rfl, silent, rfl⟩
  | cons h rest ih =>
    cases h with
    | answer addr r =>
      have nothing : c.next (.answer addr r) = c := by
        simp only [Course.next, silent, List.not_mem_nil, false_and, if_false]
      rw [after, List.foldl_cons, nothing]
      exact ih silent ended
    | deadline =>
      have idle : c.write.expire = c.write := if_pos ended
      have still : c.next .deadline = { c with expired := true } := by
        simp only [Course.next, idle]
      rw [after, List.foldl_cons, still]
      exact @ih { c with expired := true } silent ended

end Course

open Course in
/-- A write on the routable nodes of a bucket calls no node twice, ends with the verdict that the
answers before its deadline justify, and brings in a backup only for want of mains. -/
theorem follows_discipline {config : Config} (valid : config.check = .ok ()) {plan : Route.Plan}
    {router : Router} (built : Router.ofPlan plan = .ok router) (key : String) (bucket : Nat)
    (isRoutable : String → Bool) (happenings : List Happening) :
    let n := config.replication.n
    let w := config.replication.w
    let mains := (router.resolve bucket).mains.filter isRoutable
    let backups := (router.resolve bucket).backups.filter isRoutable
    let first := begin key n w bucket mains backups
    let c := first.after happenings
    let acked := acks c.early
    c.called.Nodup ∧ acked.Nodup ∧
      (c.write.result = none ↔
        c.expired = false ∧ acked.length < w ∧ ∃ addr ∈ c.called, addr ∉ c.answered) ∧
      (∀ result, c.write.result = some result →
        (result.isOk = true ↔ w ≤ acked.length) ∧
        ∀ why, result = .error why → why =
          if mains = [] ∧ backups = [] then .noNode bucket
          else if ∃ a ∈ c.early, isStale a.2 = true then .stale key
          else .partialWrite acked.length w) ∧
      ∀ addr ∈ c.called, addr ∈ (router.resolve bucket).backups →
        (mains.take n).length < threshold n w ∨
          FellShort n w (mains.take n) first.called c.early := by
  intro n w mains backups first c acked
  obtain ⟨⟨enough, within⟩, -⟩ := Config.quorums_of_check valid
  have live : (mains ++ backups).Nodup := (Router.nodup_resolve built bucket).sublist
    (List.filter_sublist.append List.filter_sublist)
  by_cases silent : first.called = []
  · obtain ⟨no_main, no_backup⟩ := (called_begin_nil enough within).mp silent
    have refused : first.write.result = some (.error (.noNode bucket)) := by
      rw [result_begin, if_pos (List.isEmpty_iff.mpr silent)]
    obtain ⟨write, called, early⟩ := after_silent silent (by simp [refused]) happenings
    have unheard : acked = [] := congrArg acks early
    have result : c.write.result = some (.error (.noNode bucket)) :=
      (congrArg (·.result) write).trans refused
    rw [called, unheard, result]
    refine ⟨.nil, .nil, iff_of_false nofun (by simp), ?_, nofun⟩
    rintro _ ⟨⟩
    refine ⟨iff_of_false nofun (Nat.not_le_of_lt enough), ?_⟩
    rintro _ ⟨⟩
    rw [if_pos ⟨no_main, no_backup⟩]
  · obtain ⟨follows, stands⟩ := begin_follows silent enough
    obtain ⟨went, stood⟩ : Follows first c ∧ c.Stands first.called :=
      follows.after stands happenings
    have same_key : c.write.key = key := went.terms.1
    have same_w : c.write.w = w := went.terms.2.2.1
    have calls : c.called.Nodup := went.nodup_called live
    have waits := went.open_iff stood calls
    rw [same_w] at waits
    refine ⟨calls, ?_, waits, ?_, ?_⟩
    · exact went.nodup.sublist ((acks_sublist _).trans (List.sublist_append_left ..))
    · intro result ended
      obtain ⟨succeeds, fails⟩ := stood.verdict ended
      rw [same_w] at succeeds
      refine ⟨succeeds, fun why failed => (fails why failed).trans ?_⟩
      rw [if_neg fun none_live => silent ((called_begin_nil enough within).mpr none_live), same_key,
        same_w]
      simp only [refusals_pos]
      rfl
    · intro addr listed backup
      by_cases first_call : addr ∈ first.called
      · refine .inl (few_mains_of_called first_call fun live_main => ?_)
        have main := (List.mem_filter.mp live_main).1
        exact (List.nodup_append.mp (Router.nodup_resolve built bucket)).2.2 _ main _ backup rfl
      · exact .inr (went.engaged addr listed first_call)

/-- Two of three mains fail. -/
def failedMains : List Happening :=
  [.answer "b" (.error (.connection "refused")), .answer "a" (.ok true),
    .answer "c" (.error (.connection "refused")), .answer "d" (.ok false)]

/-- The backup makes the second acknowledgement. -/
def backedUp : Course :=
  (Course.begin "k" 3 2 0 ["a", "b", "c"] ["d"]).after failedMains

theorem follows_discipline_backedUp :
    let config : Config := ⟨.default, .default, .default, Config.defaultSwitch, none⟩
    let plan : Route.Plan := ⟨1, [⟨"a", ["0"]⟩, ⟨"b", ["0"]⟩, ⟨"c", ["0"]⟩], ["d"]⟩
    (config.check = .ok () ∧ Router.ofPlan plan = .ok ⟨[⟨["a", "b", "c"], ["d"]⟩]⟩ ∧
      backedUp.called = ["a", "b", "c", "d"] ∧ backedUp.write.result = some (.ok true)) ∧
    backedUp.called.Nodup ∧ (acks backedUp.early).Nodup ∧ 2 ≤ (acks backedUp.early).length ∧
      FellShort 3 2 ["a", "b", "c"] ["a", "b", "c"] backedUp.early := by
  intro config plan
  have valid : config.check = .ok () := by decide +kernel
  have built : Router.ofPlan plan = .ok ⟨[⟨["a", "b", "c"], ["d"]⟩]⟩ := rfl
  have called : backedUp.called = ["a", "b", "c", "d"] := by decide +kernel
  have result : backedUp.write.result = some (.ok true) := by decide +kernel
  have kept := follows_discipline valid built "k" 0 (fun _ => true) failedMains
  have same : (Course.begin "k" 3 2 0 ["a", "b", "c"] ["d"]).after failedMains = backedUp := rfl
  have nodes : Router.resolve ⟨[⟨["a", "b", "c"], ["d"]⟩]⟩ 0 = ⟨["a", "b", "c"], ["d"]⟩ := rfl
  have quorum : config.replication.n = 3 ∧ config.replication.w = 2 := ⟨rfl, rfl⟩
  simp only [nodes, quorum, List.filter_cons, List.filter_nil, if_true, same] at kept
  obtain ⟨calls, counted, -, verdict, sparing⟩ := kept
  have enough : 2 ≤ (acks backedUp.early).length := (verdict _ result).1.mp rfl
  have fell := (sparing "d" (called ▸ by decide) (by decide)).resolve_left (by decide)
  exact ⟨⟨valid, built, called, result⟩, calls, counted, enough, fell⟩

end QuorumKv.Quorum.Write
