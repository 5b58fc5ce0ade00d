import QuorumKv.Proofs.Health.Rank
import QuorumKv.Proofs.Quorum.Gathering
import QuorumKv.Proofs.Route

/-! The selection of a read on the ranked nodes of a bucket: whom it hears, whom it calls in vain,
and which of the records is its result. -/
namespace QuorumKv.Quorum.Read

variable {α : Type} {rev : α → Revision} {tells : String → Except Failure (Option α)}

namespace Course

variable {needed : Nat} {ranked : List String} {c : Course α}

theorem Stands.in_rank (stands : c.Stands tells needed ranked rev) :
    c.quorum <+: ranked ∧ c.quorum.dropLast.countP (answers tells) < needed := by
  cases stands with
  | gathering counts => exact ⟨counts.in_rank, counts.sparing⟩
  | fell_short all _ _ _ sparing => exact ⟨all ▸ List.prefix_refl _, sparing⟩
  | found complete | through _ complete | ended complete =>
    exact ⟨complete.order, complete.sparing⟩

/-- The calls go to candidates and then to backups, in order. -/
theorem Stands.called_prefix (stands : c.Stands tells needed ranked rev) :
    c.called <+: ranked ++ c.backups := by
  have behind (order : c.quorum <+: ranked) (further : c.further <+: c.spare ranked) :
      c.called <+: ranked ++ c.backups := by
    have split := List.prefix_iff_eq_append.mp order
    have whole := (List.prefix_append_right_inj c.quorum).mpr further
    rwa [spare, ← List.append_assoc, split] at whole
  have alone (order : c.quorum <+: ranked) (none_further : c.further = []) :
      c.called <+: ranked ++ c.backups :=
    behind order (none_further ▸ List.nil_prefix)
  have order := stands.in_rank.1
  cases stands with
  | gathering counts => exact alone order counts.alone
  | fell_short _ none_further | found _ none_further => exact alone order none_further
  | @through addr rest passed _ further _ _ _ spare =>
    refine behind order ⟨rest, ?_⟩
    rw [further, spare, List.append_assoc, List.singleton_append]
  | ended _ further => exact behind order further

/-- A read without a result waits for some node, and for none with one. -/
theorem Stands.open_iff (stands : c.Stands tells needed ranked rev) (nodup : c.called.Nodup) :
    c.read.result? = none ↔ ∃ addr ∈ c.called, addr ∉ c.heard := by
  have settled {result : Except Failure (Option α)} (stage : c.read.stage = .done result)
      (heard : c.heard.Perm c.called) :
      c.read.result? = none ↔ ∃ addr ∈ c.called, addr ∉ c.heard := by
    refine iff_of_false (by simp [result?, stage]) ?_
    rintro ⟨addr, due, silent⟩
    exact silent (heard.mem_iff.mpr due)
  cases stands with
  | gathering counts short waits =>
    refine iff_of_true (by simp [result?, counts.stage]) ?_
    by_contra none_open
    push Not at none_open
    have length := nodup.length_le_of_subset none_open
    have pending := counts.pending
    rw [called, counts.alone, List.append_nil] at length
    omega
  | fell_short all alone heard _ _ stage =>
    exact settled stage (by rw [called, all, alone, List.append_nil]; exact heard)
  | found _ alone heard _ stage =>
    exact settled stage (by rw [called, alone, List.append_nil]; exact heard)
  | through passed _ further heard _ _ _ stage =>
    refine iff_of_true (by simp [result?, stage]) ?_
    rw [called, further, ← List.append_assoc] at nodup ⊢
    refine ⟨_, List.mem_append_right _ List.mem_cons_self, fun known => ?_⟩
    exact (List.nodup_append.mp nodup).2.2 _ (heard.mem_iff.mp known) _ List.mem_cons_self rfl
  | ended _ _ heard _ stage => exact settled stage heard

/-- What a course on some candidates comes to, in terms of those that answer. -/
theorem Stands.verdict (stands : c.Stands tells needed ranked rev)
    {result : Except Failure (Option α)} (ended : c.read.result? = some result) :
    let answering := ranked.filter (answers tells)
    let records := (answering.take needed).filterMap (shows tells)
    if answering.length < needed then
      c.quorum = ranked ∧ result = .error (.readQuorum answering.length needed)
    else if records = [] then result = .ok ((c.spare ranked).findSome? (shows tells))
    else ∃ x ∈ records, result = .ok (some x) ∧
      ∀ y ∈ records, (rev y).magnitude ≤ (rev x).magnitude := by
  intro answering records
  have stage := stage_of_result ended
  have count : answering.length = ranked.countP (answers tells) :=
    List.countP_eq_length_filter.symm
  have shown (complete : Complete tells needed ranked c.quorum c.read.responses) (x : α) :
      some x ∈ c.read.responses ↔ x ∈ records := by
    rw [complete.responses.mem_iff, List.mem_map, List.mem_filterMap]
  cases stands with
  | gathering counts => cases counts.stage.symm.trans stage
  | through passed _ _ _ _ _ _ through => cases through.symm.trans stage
  | fell_short all _ _ short _ fell =>
    obtain rfl := Stage.done.inj (fell.symm.trans stage)
    rw [if_pos (count ▸ short), count]
    exact ⟨all, rfl⟩
  | found complete _ _ newest found =>
    obtain rfl := Stage.done.inj (found.symm.trans stage)
    obtain ⟨heard, covers⟩ := newest_eq_some newest
    have here := (shown complete _).mp heard
    rw [if_neg (count ▸ Nat.not_lt.mpr complete.enough), if_neg (List.ne_nil_of_mem here)]
    exact ⟨_, here, rfl, fun y there => covers y ((shown complete y).mpr there)⟩
  | ended complete _ _ none_newest found =>
    obtain rfl := Stage.done.inj (found.symm.trans stage)
    have silent : records = [] := by
      refine List.eq_nil_iff_forall_not_mem.mpr fun x here => ?_
      exact newest_eq_none.mp none_newest x ((shown complete x).mpr here)
    rw [if_neg (count ▸ Nat.not_lt.mpr complete.enough), if_pos silent]

/-- Beyond gathering, the quorum is that of the first candidates that answer. -/
theorem Stands.gathered (stands : c.Stands tells needed ranked rev)
    (enough : needed ≤ (ranked.filter (answers tells)).length)
    (past : c.read.isGathering = false) :
    c.quorum.filter (answers tells) = (ranked.filter (answers tells)).take needed ∧
      c.read.responses.Perm
        (((ranked.filter (answers tells)).take needed).map (shows tells)) := by
  cases stands with
  | gathering counts => simp only [isGathering, counts.stage, Bool.true_eq_false] at past
  | fell_short _ _ _ short =>
    rw [List.countP_eq_length_filter] at short
    exact absurd enough (Nat.not_le_of_lt short)
  | found complete | through _ complete | ended complete =>
    exact ⟨complete.first, complete.responses⟩

/-- Who ends without a failure has had a quorum. -/
theorem IsEarly.not_ended {found : Option α} (early : c.IsEarly) :
    c.read.result? ≠ some (.ok found) := by
  intro ended
  have stage := stage_of_result ended
  obtain gathering | ⟨why, failed⟩ := early
  · simp only [isGathering, stage, Bool.false_eq_true] at gathering
  · cases stage.symm.trans failed

end Course

open Course in
/-- A read of a bucket hears the first candidates in rank that answer, in whatever order the answers
come. It calls no node twice, and none of which enough earlier candidates answer. It is open only
while some call is. With enough of them that answer, the newest of their records wins, and when they
have none, the first that the other candidates and then the backups show; without, every candidate
has been called, and their number is reported. -/
theorem selects_first_answering {needed : Nat} (positive : 0 < needed) {plan : Route.Plan}
    {router : Router} (built : Router.ofPlan plan = .ok router) (bucket : Nat)
    (m : Health.Monitor) (now : Nat) (rev : α → Revision)
    (tells : String → Except Failure (Option α)) (happenings : List Happening) :
    let replicas := router.resolve bucket
    let ranked := m.rank replicas.mains now
    let c := (begin needed ranked).after rev tells replicas.backups happenings
    let answering := ranked.filter (answers tells)
    let records := (answering.take needed).filterMap (shows tells)
    c.cutOff = false →
    c.called.Nodup ∧
    (c.quorum <+: ranked ∧ c.quorum.dropLast.countP (answers tells) < needed) ∧
    (c.read.result? = none ↔ ∃ addr ∈ c.called, addr ∉ c.heard) ∧
    (needed ≤ answering.length → c.read.isGathering = false →
      c.quorum.filter (answers tells) = answering.take needed ∧
        c.read.responses.Perm ((answering.take needed).map (shows tells))) ∧
    ∀ result, c.read.result? = some result →
      if answering.length < needed then
        c.quorum = ranked ∧ result = .error (.readQuorum answering.length needed)
      else if records = [] then
        result = .ok ((ranked.drop c.quorum.length ++ c.backups).findSome? (shows tells)) ∧
          ∃ addr isRoutable, .answer addr isRoutable ∈ happenings ∧
            c.backups = replicas.backups.filter isRoutable
      else ∃ x ∈ records, result = .ok (some x) ∧
        ∀ y ∈ records, (rev y).magnitude ≤ (rev x).magnitude := by
  intro replicas ranked c answering records in_time
  have stands : c.Stands tells needed ranked rev :=
    stands_after positive rev replicas.backups happenings in_time
  have backups : (∃ addr isRoutable, .answer addr isRoutable ∈ happenings ∧
      c.backups = replicas.backups.filter isRoutable) ∨ c.backups = [] ∧ c.IsEarly :=
    backups_after rev tells replicas.backups happenings
  have spare : c.backups.Sublist replicas.backups := by
    obtain ⟨addr, isRoutable, -, known⟩ | ⟨none_yet, -⟩ := backups
    · exact known ▸ List.filter_sublist
    · exact none_yet ▸ List.nil_sublist _
  have nodup : c.called.Nodup := by
    have live : (m.live replicas.mains now ++ c.backups).Nodup :=
      (Router.nodup_resolve built bucket).sublist (List.filter_sublist.append spare)
    have nodes : (ranked ++ c.backups).Nodup :=
      ((m.rank_sorted replicas.mains now).1.append_right _).nodup_iff.mpr live
    exact nodes.sublist stands.called_prefix.sublist
  refine ⟨nodup, stands.in_rank, stands.open_iff nodup, stands.gathered, fun result ended => ?_⟩
  have verdict := stands.verdict ended
  by_cases few : answering.length < needed
  · rw [if_pos few] at verdict ⊢
    exact verdict
  · by_cases silent : records = []
    · rw [if_neg few, if_pos silent] at verdict ⊢
      subst verdict
      exact ⟨rfl, backups.resolve_right fun early => early.2.not_ended ended⟩
    · rw [if_neg few, if_neg silent] at verdict ⊢
      exact verdict

/-- The best candidate fails after the second has answered, and the third takes its place. -/
def replacedFirst : List Happening :=
  [.answer "b" fun _ => true, .answer "a" fun _ => true, .answer "c" fun _ => true]

/-- Two candidates have a record, of which the later one is newer. -/
def replacedTells : String → Except Failure (Option Revision)
  | "b" => .ok (some (.clamp 5))
  | "c" => .ok (some (.clamp 7))
  | _ => .error (.connection "refused")

/-- The quorum is that of the other two. -/
def replaced : Course Revision :=
  (Course.begin 2 ["a", "b", "c"]).after id replacedTells ["d"] replacedFirst

/-- Three nodes of which nothing is known yet. -/
def freshNodes (s : Health.Settings) : Health.Monitor :=
  ⟨s, ["a", "b", "c"].map fun addr => (addr, .fresh addr s 0)⟩

theorem rank_freshNodes (s : Health.Settings) :
    (freshNodes s).rank ["a", "b", "c"] 0 = ["a", "b", "c"] := by
  have even : ∀ a ∈ ["a", "b", "c"],
      (freshNodes s).score a 0 = Health.Monitor.orderKey ((Health.Node.fresh "" s 0).score 0) := by
    intro a listed
    simp only [List.mem_cons, List.not_mem_nil, or_false] at listed
    obtain rfl | rfl | rfl := listed <;> rfl
  exact Health.Monitor.rank_of_even (fun a here b there => (even a here).trans (even b there).symm)
    (by decide)

theorem selects_first_answering_replaced :
    let plan : Route.Plan := ⟨1, [⟨"a", ["0"]⟩, ⟨"b", ["0"]⟩, ⟨"c", ["0"]⟩], ["d"]⟩
    let m := freshNodes (.ofConfig .default)
    (Router.ofPlan plan = .ok ⟨[⟨["a", "b", "c"], ["d"]⟩]⟩ ∧
      m.rank ["a", "b", "c"] 0 = ["a", "b", "c"] ∧ replaced.cutOff = false ∧
      replaced.quorum = ["a", "b", "c"]) ∧
    replaced.called.Nodup ∧ replaced.read.responses.Perm [some (.clamp 5), some (.clamp 7)] ∧
      replaced.read.result? = some (.ok (some (.clamp 7))) := by
  intro plan m
  have built : Router.ofPlan plan = .ok ⟨[⟨["a", "b", "c"], ["d"]⟩]⟩ := rfl
  have ranked : m.rank ["a", "b", "c"] 0 = ["a", "b", "c"] := rank_freshNodes _
  have past : replaced.cutOff = false ∧ replaced.quorum = ["a", "b", "c"] ∧
      replaced.read.isGathering = false ∧ ∀ addr ∈ replaced.called, addr ∈ replaced.heard := by
    decide +kernel
  obtain ⟨in_time, quorum, gathered, complete⟩ := past
  have selects := selects_first_answering Nat.two_pos built 0 m 0 id replacedTells replacedFirst
  have nodes : Router.resolve ⟨[⟨["a", "b", "c"], ["d"]⟩]⟩ 0 = ⟨["a", "b", "c"], ["d"]⟩ := rfl
  have same : (Course.begin 2 ["a", "b", "c"]).after id replacedTells ["d"] replacedFirst =
      replaced := rfl
  have answering : ["a", "b", "c"].filter (answers replacedTells) = ["b", "c"] := by decide
  simp only [nodes, ranked, same, answering] at selects
  obtain ⟨nodup, -, waits, heard, verdict⟩ := selects in_time
  have records : (["b", "c"].take 2).filterMap (shows replacedTells) = [.clamp 5, .clamp 7] := by
    decide
  refine ⟨⟨built, ranked, in_time, quorum⟩, nodup, (heard (by decide) gathered).2, ?_⟩
  cases ended : replaced.read.result? with
  | none =>
    obtain ⟨addr, due, silent⟩ := waits.mp ended
    exact absurd (complete addr due) silent
  | some result =>
    have newest := verdict result ended
    rw [if_neg (by decide), records, if_neg (List.cons_ne_nil _ _)] at newest
    obtain ⟨x, listed, rfl, covers⟩ := newest
    have last := covers (.clamp 7) (by decide)
    simp only [List.mem_cons, List.not_mem_nil, or_false] at listed
    obtain rfl | rfl := listed
    · exact absurd last (by decide)
    · rfl

end QuorumKv.Quorum.Read
