import QuorumKv.Proofs.Quorum.Selection

/-! One read under all the orders in which its nodes can answer in time. The order decides between
the newest records where several are equally new, since the one that came first is kept, and it
decides nothing else: not whose answers count, nor what is found behind a quorum without a
record. -/
namespace QuorumKv.Quorum.Read

variable {α : Type}

/-- What a caller is shown of what a read found: nothing of a tombstone. -/
def visible (rev : α → Revision) (found : Option α) : Option α :=
  found.filter fun x => !(rev x).isTombstone

/-- Whether a record is one of some records and none of them is newer. -/
def IsNewest (rev : α → Revision) (records : List α) (x : α) : Prop :=
  x ∈ records ∧ ∀ y ∈ records, (rev y).magnitude ≤ (rev x).magnitude

/-- A read to which nodes answer in some order before the deadline, while the same nodes stay
routable. -/
def arrivals (rev : α → Revision) (tells : String → Except Failure (Option α))
    (backups : List String) (isRoutable : String → Bool) (needed : Nat) (ranked : List String)
    (order : List String) : Course α :=
  (Course.begin needed ranked).after rev tells backups
    (order.map fun addr => .answer addr isRoutable)

section Responses

variable {rev : α → Revision}

theorem responses_askNext (s : Read α) (addrs : List String) :
    (s.askNext addrs).1.responses = s.responses := by
  cases addrs <;> rfl

theorem responses_advance (liveBackups : List String) (s : Read α) :
    (s.advance rev liveBackups).1.responses = s.responses := by
  unfold advance
  split
  · split
    · rfl
    · exact responses_askNext ..
  · split <;> rfl

theorem responses_absorb (liveBackups : List String) (s : Read α)
    (r : Except Failure (Option α)) :
    s.responses <+: (s.absorb rev liveBackups r).1.responses := by
  have kept {t : Read α} (same : t.responses = s.responses) : s.responses <+: t.responses :=
    same ▸ List.prefix_refl _
  unfold absorb
  split
  · exact kept rfl
  · exact kept rfl
  · exact kept (responses_askNext ..)
  · rw [responses_advance]
    exact List.prefix_append ..
  · split
    · exact kept rfl
    · exact kept (responses_advance ..)

end Responses

section Orders

open Course

variable {rev : α → Revision} {tells : String → Except Failure (Option α)}
  {backups : List String} {isRoutable : String → Bool} {needed : Nat} {ranked : List String}

theorem arrivals_snoc (order : List String) (addr : String) :
    arrivals rev tells backups isRoutable needed ranked (order ++ [addr]) =
      (arrivals rev tells backups isRoutable needed ranked order).next rev tells backups
        (.answer addr isRoutable) := by
  rw [arrivals, List.map_append, List.map_singleton, after_snoc, ← arrivals]

theorem arrivals_snoc_cases (order : List String) (addr : String) :
    let c := arrivals rev tells backups isRoutable needed ranked order
    let d := arrivals rev tells backups isRoutable needed ranked (order ++ [addr])
    (addr ∈ c.called ∧ addr ∉ c.heard) ∧ d.heard = c.heard ++ [addr] ∧ d.cutOff = c.cutOff ∧
        d.read = (c.read.absorb rev (backups.filter isRoutable) (tells addr)).1 ∨
      ¬(addr ∈ c.called ∧ addr ∉ c.heard) ∧ d = c := by
  intro c d
  have step : d = c.next rev tells backups (.answer addr isRoutable) := arrivals_snoc order addr
  by_cases possible : addr ∈ c.called ∧ addr ∉ c.heard
  · refine .inl ⟨possible, ?_⟩
    rw [step, next_answer possible.1 possible.2]
    exact ⟨heard_proceed .., cutOff_proceed .., read_proceed ..⟩
  · refine .inr ⟨possible, ?_⟩
    rw [step]
    exact if_neg possible

theorem cutOff_arrivals (order : List String) :
    (arrivals rev tells backups isRoutable needed ranked order).cutOff = false := by
  induction order using List.reverseRecOn with
  | nil => rfl
  | append_singleton earlier addr ih =>
    obtain ⟨-, -, same, -⟩ | ⟨-, same⟩ := arrivals_snoc_cases earlier addr
    · exact same.trans ih
    · exact same ▸ ih

theorem stands_arrivals (positive : 0 < needed) (order : List String) :
    (arrivals rev tells backups isRoutable needed ranked order).Stands tells needed ranked rev :=
  stands_after positive rev backups _ (cutOff_arrivals order)

theorem heard_arrivals (order : List String) :
    (arrivals rev tells backups isRoutable needed ranked order).heard ⊆ order := by
  induction order using List.reverseRecOn with
  | nil => exact List.nil_subset _
  | append_singleton earlier addr ih =>
    obtain ⟨-, heard, -⟩ | ⟨-, same⟩ := arrivals_snoc_cases earlier addr
    · rw [heard]
      exact List.append_subset.mpr ⟨List.Subset.trans ih (List.subset_append_left ..),
        List.subset_append_right ..⟩
    · rw [same]
      exact List.Subset.trans ih (List.subset_append_left ..)

theorem responses_arrivals (order later : List String) :
    (arrivals rev tells backups isRoutable needed ranked order).read.responses <+:
      (arrivals rev tells backups isRoutable needed ranked (order ++ later)).read.responses := by
  induction later using List.reverseRecOn with
  | nil => exact (List.append_nil order).symm ▸ List.prefix_refl _
  | append_singleton earlier addr ih =>
    rw [← List.append_assoc]
    obtain ⟨-, -, -, read⟩ | ⟨-, same⟩ := arrivals_snoc_cases (order ++ earlier) addr
    · rw [read]
      exact ih.trans (responses_absorb ..)
    · rwa [same]

/-- Nodes are heard once, and only after they were called. -/
theorem heard_of_stands {c : Course α} (stands : c.Stands tells needed ranked rev)
    (nodup : c.called.Nodup) : c.heard.Nodup ∧ c.heard ⊆ c.called := by
  have of_perm {part rest : List String} (heard : c.heard.Perm part)
      (split : c.called = part ++ rest) : c.heard.Nodup ∧ c.heard ⊆ c.called := by
    rw [split] at nodup ⊢
    exact ⟨heard.nodup_iff.mpr (List.nodup_append.mp nodup).1,
      List.Subset.trans heard.subset (List.subset_append_left ..)⟩
  cases stands with
  | gathering counts =>
    exact ⟨counts.once, List.Subset.trans counts.due (List.subset_append_left ..)⟩
  | fell_short all _ heard => exact of_perm heard (congrArg (· ++ c.further) all)
  | found _ _ heard => exact of_perm heard rfl
  | through passed _ further heard =>
    exact of_perm heard (by rw [called, further, List.append_assoc])
  | ended _ _ heard => exact of_perm heard (List.append_nil _).symm

section Runs

variable (rev tells isRoutable)

/-- The backups of a course are known once it has got past its quorum. -/
theorem backups_arrivals (order : List String) :
    let c := arrivals rev tells backups isRoutable needed ranked order
    c.backups = backups.filter isRoutable ∨ c.backups = [] ∧ c.IsEarly := by
  obtain ⟨addr, routable, listed, known⟩ | early :=
    backups_after rev tells backups
      (order.map fun addr => .answer addr isRoutable)
  · obtain ⟨_, -, same⟩ := List.mem_map.mp listed
    obtain ⟨-, rfl⟩ := Happening.answer.inj same
    exact .inl known
  · exact .inr early

/-- A read calls candidates and routable backups, each at most once. -/
theorem called_arrivals (positive : 0 < needed) (nodes : (ranked ++ backups).Nodup)
    (order : List String) :
    let c := arrivals rev tells backups isRoutable needed ranked order
    c.called.Nodup ∧ c.called.length ≤ (ranked ++ backups).length := by
  intro c
  have spare : c.backups.Sublist backups := by
    obtain known | ⟨none_yet, -⟩ := backups_arrivals rev tells isRoutable order
    · exact known ▸ List.filter_sublist
    · exact none_yet ▸ List.nil_sublist _
  have calls : c.called.Sublist (ranked ++ backups) := by
    have stands : c.Stands tells needed ranked rev := stands_arrivals positive order
    have inside := stands.called_prefix
    exact inside.sublist.trans (spare.append_left ranked)
  exact ⟨calls.nodup nodes, calls.length_le⟩

/-- Any order can be continued by nodes of a kind until all of the kind that are called are heard.
Each of them that is still silent can be next, and a read calls a limited number of nodes. -/
theorem exists_heard (positive : 0 < needed) (nodes : (ranked ++ backups).Nodup)
    (kind : String → Prop) (order : List String) :
    ∃ later, (∀ addr ∈ later, kind addr) ∧
      let c := arrivals rev tells backups isRoutable needed ranked (order ++ later)
      ∀ addr ∈ c.called, kind addr → addr ∈ c.heard := by
  let run := arrivals rev tells backups isRoutable needed ranked
  generalize room : (ranked ++ backups).length - (run order).heard.length = left
  induction left using Nat.strongRecOn generalizing order with
  | ind left ih =>
    by_cases waits : ∃ addr ∈ (run order).called, kind addr ∧ addr ∉ (run order).heard
    · obtain ⟨addr, due, of_kind, silent⟩ := waits
      obtain ⟨nodup, limit⟩ : (run order).called.Nodup ∧ (run order).called.length ≤ _ :=
        called_arrivals rev tells isRoutable positive nodes order
      obtain ⟨once, inside⟩ := heard_of_stands (stands_arrivals positive order) nodup
      have fewer : (addr :: (run order).heard).length ≤ (run order).called.length :=
        (List.nodup_cons.mpr ⟨silent, once⟩).length_le_of_subset
          (List.cons_subset.mpr ⟨due, inside⟩)
      rw [List.length_cons] at fewer
      have heard : (run (order ++ [addr])).heard = (run order).heard ++ [addr] :=
        ((arrivals_snoc_cases order addr).resolve_right fun idle => idle.1 ⟨due, silent⟩).2.1
      have length := congrArg List.length heard
      rw [List.length_append, List.length_singleton] at length
      obtain ⟨later, kept, complete⟩ := ih _ (by omega) (order ++ [addr]) rfl
      rw [List.append_assoc] at complete
      exact ⟨addr :: later, List.forall_mem_cons.mpr ⟨of_kind, kept⟩, complete⟩
    · push Not at waits
      exact ⟨[], List.forall_mem_nil _, by rwa [List.append_nil]⟩

end Runs

/-- A read that has heard nobody answer is still gathering, if enough candidates answer. -/
theorem gathers_of_failures {c : Course α} (stands : c.Stands tells needed ranked rev)
    (positive : 0 < needed) (enough : needed ≤ (ranked.filter (answers tells)).length)
    (failures : ∀ addr ∈ c.heard, answers tells addr = false) : c.Counts tells needed ranked := by
  have impossible (complete : Complete tells needed ranked c.quorum c.read.responses)
      (heard : c.quorum ⊆ c.heard) : c.Counts tells needed ranked := by
    have some_answer : 0 < (c.quorum.filter (answers tells)).length := by
      rw [complete.first, List.length_take]
      omega
    obtain ⟨addr, listed⟩ := List.exists_mem_of_length_pos some_answer
    obtain ⟨called, answer⟩ := List.mem_filter.mp listed
    cases answer.symm.trans (failures addr (heard called))
  cases stands with
  | gathering counts => exact counts
  | fell_short _ _ _ short =>
    rw [List.countP_eq_length_filter] at short
    exact absurd enough (Nat.not_le_of_lt short)
  | found complete _ heard => exact impossible complete heard.symm.subset
  | through passed complete _ heard | ended complete _ heard =>
    exact impossible complete (List.Subset.trans (List.subset_append_left ..) heard.symm.subset)

/-- Once all candidates that were called and fail are heard, and nobody else, a read waits for the
first that answer. -/
theorem waits_for_first {c : Course α} (counts : c.Counts tells needed ranked)
    (distinct : ranked.Nodup) (enough : needed ≤ (ranked.filter (answers tells)).length)
    (failures : ∀ addr ∈ c.heard, answers tells addr = false)
    (all : ∀ addr ∈ c.quorum, answers tells addr = false → addr ∈ c.heard) :
    c.read.responses = [] ∧
      c.quorum.filter (answers tells) = (ranked.filter (answers tells)).take needed := by
  have only : (c.heard.countP fun addr => !answers tells addr) = c.heard.length :=
    List.countP_eq_length.mpr fun addr known => by rw [failures addr known, Bool.not_false]
  -- the failures that are heard are those of the quorum
  have heard : c.heard.length = c.quorum.countP fun addr => !answers tells addr := by
    apply Nat.le_antisymm
    · rw [← only]
      exact (List.subperm_of_subset counts.once counts.due).countP_le _
    · rw [List.countP_eq_length_filter]
      have called := distinct.sublist counts.in_rank.sublist
      refine (called.filter _).length_le_of_subset fun addr listed => ?_
      obtain ⟨due, failed⟩ := List.mem_filter.mp listed
      exact all addr due (by simpa only [Bool.not_eq_true'] using failed)
  have fewer := counts.in_rank.sublist.countP_le (p := fun addr => !answers tells addr)
  have parts := countP_add tells c.quorum
  have whole := countP_add tells ranked
  have size := counts.size
  rw [← List.countP_eq_length_filter] at enough
  constructor
  · rw [counts.responses, said, List.map_eq_nil_iff, List.filter_eq_nil_iff]
    exact fun addr known => by rw [failures addr known]; decide
  · exact filter_of_count counts.in_rank (by omega)

/-- A read whose first answer is one of the newest records of the quorum returns this record. -/
theorem result_of_first {c : Course α} (stands : c.Stands tells needed ranked rev) {x : α}
    {rest : List (Option α)} {result : Except Failure (Option α)}
    (enough : needed ≤ (ranked.filter (answers tells)).length)
    (newest : IsNewest rev (((ranked.filter (answers tells)).take needed).filterMap (shows tells))
      x)
    (first : c.read.responses = some x :: rest) (ended : c.read.result? = some result) :
    result = .ok (some x) := by
  have stage := stage_of_result ended
  have wins (complete : Complete tells needed ranked c.quorum c.read.responses) :
      c.read.newest rev = some x := by
    rw [Read.newest, first]
    refine Revision.latest_cons fun y listed => newest.2 y ?_
    obtain ⟨found, there, rfl⟩ := List.mem_filterMap.mp listed
    have told : some y ∈ c.read.responses := first ▸ .tail _ there
    rw [complete.responses.mem_iff, List.mem_map] at told
    exact List.mem_filterMap.mpr told
  cases stands with
  | gathering counts => cases counts.stage.symm.trans stage
  | through passed _ _ _ _ _ _ through => cases through.symm.trans stage
  | fell_short _ _ _ short =>
    rw [List.countP_eq_length_filter] at short
    exact absurd enough (Nat.not_le_of_lt short)
  | found complete _ _ won found =>
    obtain rfl := Option.some.inj (won.symm.trans (wins complete))
    exact (Stage.done.inj (found.symm.trans stage)).symm
  | ended complete _ _ none_newest =>
    cases none_newest.symm.trans (wins complete)

/-- Of several records that are the newest, each is what a read returns in some order: in one in
which all that fail come first, and then a node that has this record. -/
theorem exists_order_of_newest (positive : 0 < needed) (nodes : (ranked ++ backups).Nodup)
    (enough : needed ≤ (ranked.filter (answers tells)).length) {x : α}
    (newest : IsNewest rev (((ranked.filter (answers tells)).take needed).filterMap (shows tells))
      x) :
    ∃ order, (arrivals rev tells backups isRoutable needed ranked order).read.result? =
      some (.ok (some x)) := by
  let run := arrivals rev tells backups isRoutable needed ranked
  obtain ⟨failed, of_kind, all⟩ := exists_heard rev tells isRoutable positive nodes
    (fun addr => answers tells addr = false) []
  rw [List.nil_append] at all
  have failures : ∀ addr ∈ (run failed).heard, answers tells addr = false :=
    fun addr known => of_kind addr (heard_arrivals failed known)
  have counts := gathers_of_failures (stands_arrivals positive failed) positive enough failures
  obtain ⟨silent, quorum⟩ := waits_for_first counts (List.nodup_append.mp nodes).1 enough failures
    fun addr due => all addr (List.mem_append_left _ due)
  obtain ⟨addr, first, told⟩ := List.mem_filterMap.mp newest.1
  obtain ⟨due, answer⟩ := List.mem_filter.mp (quorum ▸ first)
  have waits : addr ∉ (run failed).heard :=
    fun known => by cases answer.symm.trans (failures addr known)
  obtain ⟨-, -, -, read⟩ := (arrivals_snoc_cases failed addr).resolve_right
    fun idle => idle.1 ⟨List.mem_append_left _ due, waits⟩
  have one : (run (failed ++ [addr])).read.responses = [some x] := by
    simp only [run, read, shows_eq_some.mp told, absorb, counts.stage, responses_advance, silent,
      List.nil_append]
  obtain ⟨others, -, complete⟩ := exists_heard rev tells isRoutable positive nodes
    (fun _ => True) (failed ++ [addr])
  refine ⟨failed ++ [addr] ++ others, ?_⟩
  have stands : (run (failed ++ [addr] ++ others)).Stands tells needed ranked rev :=
    stands_arrivals positive _
  obtain ⟨rest, kept⟩ := one ▸ responses_arrivals (failed ++ [addr]) others
  cases ended : (run (failed ++ [addr] ++ others)).read.result? with
  | none =>
    have nodup : (run (failed ++ [addr] ++ others)).called.Nodup :=
      (called_arrivals rev tells isRoutable positive nodes _).1
    obtain ⟨a, called, unheard⟩ := (stands.open_iff nodup).mp ended
    exact absurd (complete a called trivial) unheard
  | some result => rw [result_of_first stands enough newest kept.symm ended]

/-- There is one way to end candidates with the last of a number that answer. -/
theorem eq_of_sparing {first second : List String} (order : first <+: ranked)
    (order' : second <+: ranked) (count : first.countP (answers tells) = needed)
    (count' : second.countP (answers tells) = needed)
    (sparing : first.dropLast.countP (answers tells) < needed)
    (sparing' : second.dropLast.countP (answers tells) < needed) : first = second := by
  have shorter {a b : List String} (a_order : a <+: ranked) (b_order : b <+: ranked)
      (enough : a.countP (answers tells) = needed)
      (few : b.dropLast.countP (answers tells) < needed) (le : a.length ≤ b.length) : a = b := by
    have inside := List.prefix_of_prefix_length_le a_order b_order le
    by_contra other
    have before : a.length ≤ b.dropLast.length := by
      have less := Nat.lt_of_le_of_ne le fun same => other (inside.eq_of_length same)
      rw [List.length_dropLast]
      omega
    have part := List.prefix_of_prefix_length_le inside (List.dropLast_prefix b) before
    have fewer := part.sublist.countP_le (p := answers tells)
    omega
  obtain le | le := Nat.le_total first.length second.length
  · exact shorter order order' count sparing' le
  · exact (shorter order' order count' sparing le).symm

/-- What is behind a quorum without a record is the same in every order. -/
theorem spare_arrivals (positive : 0 < needed)
    (enough : needed ≤ (ranked.filter (answers tells)).length) {order : List String}
    {found : Option α}
    (ended : (arrivals rev tells backups isRoutable needed ranked order).read.result? =
      some (.ok found)) :
    let c := arrivals rev tells backups isRoutable needed ranked order
    c.backups = backups.filter isRoutable ∧ c.quorum <+: ranked ∧
      c.quorum.countP (answers tells) = needed ∧
      c.quorum.dropLast.countP (answers tells) < needed := by
  intro c
  have stands : c.Stands tells needed ranked rev := stands_arrivals positive order
  have stage : c.read.stage = .done (.ok found) := stage_of_result ended
  have past : c.read.isGathering = false := by simp only [isGathering, stage]
  have known := (backups_arrivals rev tells isRoutable order).resolve_right fun early => early.2.not_ended ended
  refine ⟨known, stands.in_rank.1, ?_, stands.in_rank.2⟩
  rw [List.countP_eq_length_filter, (stands.gathered enough past).1, List.length_take,
    Nat.min_eq_left enough]

/-- The order decides between newest records, and between nothing else. -/
theorem same_result (positive : 0 < needed)
    (ties : needed ≤ (ranked.filter (answers tells)).length → ∀ x y,
      IsNewest rev (((ranked.filter (answers tells)).take needed).filterMap (shows tells)) x →
      IsNewest rev (((ranked.filter (answers tells)).take needed).filterMap (shows tells)) y →
      visible rev (some x) = visible rev (some y))
    {order order' : List String} {result result' : Except Failure (Option α)}
    (ended : (arrivals rev tells backups isRoutable needed ranked order).read.result? =
      some result)
    (ended' : (arrivals rev tells backups isRoutable needed ranked order').read.result? =
      some result') : result.map (visible rev) = result'.map (visible rev) := by
  have verdict := (stands_arrivals positive order).verdict ended
  have verdict' := (stands_arrivals positive order').verdict ended'
  by_cases few : (ranked.filter (answers tells)).length < needed
  · simp only [if_pos few] at verdict verdict'
    rw [verdict.2, verdict'.2]
  · have enough := Nat.le_of_not_lt few
    by_cases silent :
        ((ranked.filter (answers tells)).take needed).filterMap (shows tells) = []
    · simp only [if_neg few, if_pos silent] at verdict verdict'
      subst verdict verdict'
      obtain ⟨known, rank, count, sparing⟩ := spare_arrivals positive enough ended
      obtain ⟨known', rank', count', sparing'⟩ := spare_arrivals positive enough ended'
      have quorum := eq_of_sparing rank rank' count count' sparing sparing'
      rw [spare, spare, known, known', quorum]
    · simp only [if_neg few, if_neg silent] at verdict verdict'
      obtain ⟨x, listed, rfl, covers⟩ := verdict
      obtain ⟨y, listed', rfl, covers'⟩ := verdict'
      exact congrArg Except.ok (ties enough x y ⟨listed, covers⟩ ⟨listed', covers'⟩)

/-- A read that needs no answer has failed before any comes. -/
theorem arrivals_zero (order : List String) :
    arrivals rev tells backups isRoutable 0 ranked order = Course.begin 0 ranked := by
  induction order using List.reverseRecOn with
  | nil => rfl
  | append_singleton earlier addr ih =>
    obtain ⟨⟨due, -⟩, -⟩ | ⟨-, same⟩ := arrivals_snoc_cases earlier addr
    · rw [ih] at due
      exact absurd due List.not_mem_nil
    · exact same.trans ih

end Orders

open Course in
/-- While the same nodes stay routable, a read gives the same in whatever order its nodes answer in
time if and only if the newest records of the nodes that are heard read alike: all of them are
tombstones, or they are one record. It is open only while some node that was called is silent. -/
theorem same_in_every_order_iff {plan : Route.Plan} {router : Router}
    (built : Router.ofPlan plan = .ok router) (bucket needed : Nat) (m : Health.Monitor)
    (now : Nat) (rev : α → Revision) (tells : String → Except Failure (Option α))
    (isRoutable : String → Bool) :
    let replicas := router.resolve bucket
    let ranked := m.rank replicas.mains now
    let run := arrivals rev tells replicas.backups isRoutable needed ranked
    let answering := ranked.filter (answers tells)
    let records := (answering.take needed).filterMap (shows tells)
    (∀ order, (run order).read.result? = none ↔
      ∃ addr ∈ (run order).called, addr ∉ (run order).heard) ∧
    ((∀ order order' result result', (run order).read.result? = some result →
        (run order').read.result? = some result' →
        result.map (visible rev) = result'.map (visible rev)) ↔
      (needed ≤ answering.length → ∀ x y, IsNewest rev records x → IsNewest rev records y →
        visible rev (some x) = visible rev (some y))) := by
  intro replicas ranked run answering records
  have nodes : (ranked ++ replicas.backups).Nodup := by
    have live : (m.live replicas.mains now ++ replicas.backups).Nodup :=
      (Router.nodup_resolve built bucket).sublist (List.filter_sublist.append_right _)
    exact ((m.rank_sorted replicas.mains now).1.append_right _).nodup_iff.mpr live
  obtain rfl | positive := Nat.eq_zero_or_pos needed
  · have failed (order : List String) : run order = Course.begin 0 ranked := arrivals_zero order
    refine ⟨fun order => ?_, iff_of_true ?_ ?_⟩
    · rw [failed]
      exact iff_of_false (nomatch ·) fun ⟨_, due, _⟩ => absurd due List.not_mem_nil
    · intro order order' result result' ended ended'
      rw [failed] at ended ended'
      rw [Option.some.inj (ended.symm.trans ended')]
    · intro _ x y newest
      exact absurd newest.1 List.not_mem_nil
  · refine ⟨fun order => ?_, fun same enough x y newest newest' => ?_, fun ties => ?_⟩
    · exact (stands_arrivals positive order).open_iff
        (called_arrivals rev tells isRoutable positive nodes order).1
    · obtain ⟨order, ended⟩ := exists_order_of_newest positive nodes enough newest
      obtain ⟨order', ended'⟩ := exists_order_of_newest positive nodes enough newest'
      exact Except.ok.inj (same order order' _ _ ended ended')
    · exact fun _ _ _ _ => same_result positive ties

/-- Of three candidates one fails; the others have something equally new, one of them a
tombstone. -/
def tiedTells : String → Except Failure (Option Revision)
  | "b" => .ok (some (.clamp 5))
  | "c" => .ok (some (.clamp (-5)))
  | _ => .error (.connection "refused")

theorem same_in_every_order_fresh :
    let plan : Route.Plan := ⟨1, [⟨"a", ["0"]⟩, ⟨"b", ["0"]⟩, ⟨"c", ["0"]⟩], ["d"]⟩
    let m := freshNodes (.ofConfig .default)
    let same (tells : String → Except Failure (Option Revision)) : Prop :=
      ∀ order order' result result',
        (arrivals id tells ["d"] (fun _ => true) 2 ["a", "b", "c"] order).read.result? =
          some result →
        (arrivals id tells ["d"] (fun _ => true) 2 ["a", "b", "c"] order').read.result? =
          some result' →
        result.map (visible id) = result'.map (visible id)
    Router.ofPlan plan = .ok ⟨[⟨["a", "b", "c"], ["d"]⟩]⟩ ∧
      m.rank ["a", "b", "c"] 0 = ["a", "b", "c"] ∧ same replacedTells ∧ ¬same tiedTells := by
  intro plan m same
  have built : Router.ofPlan plan = .ok ⟨[⟨["a", "b", "c"], ["d"]⟩]⟩ := rfl
  have ranked : m.rank ["a", "b", "c"] 0 = ["a", "b", "c"] := rank_freshNodes _
  have nodes : Router.resolve ⟨[⟨["a", "b", "c"], ["d"]⟩]⟩ 0 = ⟨["a", "b", "c"], ["d"]⟩ := rfl
  have decided (tells : String → Except Failure (Option Revision)) :=
    (same_in_every_order_iff built 0 2 m 0 id tells fun _ => true).2
  simp only [nodes, ranked] at decided
  refine ⟨built, ranked, (decided _).mpr fun _ x y newest newest' => ?_, fun all => ?_⟩
  · have records : ((["a", "b", "c"].filter (answers replacedTells)).take 2).filterMap
        (shows replacedTells) = [.clamp 5, .clamp 7] := by decide
    rw [records] at newest newest'
    have last {z : Revision} (wins : IsNewest id [.clamp 5, .clamp 7] z) : z = .clamp 7 := by
      obtain ⟨listed, covers⟩ := wins
      simp only [List.mem_cons, List.not_mem_nil, or_false] at listed
      obtain rfl | rfl := listed
      · exact absurd (covers (.clamp 7) (by decide)) (by decide)
      · rfl
    rw [last newest, last newest']
  · have live : IsNewest id [Revision.clamp 5, .clamp (-5)] (.clamp 5) := ⟨by decide, by decide⟩
    have dead : IsNewest id [Revision.clamp 5, .clamp (-5)] (.clamp (-5)) :=
      ⟨by decide, by decide⟩
    exact absurd ((decided tiedTells).mp all (by decide) _ _ live dead) (by decide)

end QuorumKv.Quorum.Read
