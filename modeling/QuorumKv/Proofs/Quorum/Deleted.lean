import QuorumKv.Proofs.Quorum.Backed
import QuorumKv.Store

/-! What a delete says of its key: whether one of the nodes had it live whose acknowledgements were
counted, which are the first `w`. The other nodes that were called delete the key all the same, but
are heard too late, so that it may depend on the order of the answers what the delete says. -/
namespace QuorumKv.Quorum.Write

variable {tells : String → Except Failure Bool}

theorem mem_acks {answers : Answers} {addr : String} (told : ∀ a ∈ answers, a.2 = tells a.1) :
    addr ∈ acks answers ↔ addr ∈ answers.map (·.1) ∧ (tells addr).isOk = true := by
  simp only [acks, List.mem_map, List.mem_filter]
  constructor
  · rintro ⟨a, ⟨listed, ok⟩, rfl⟩
    exact ⟨⟨a, listed, rfl⟩, told a listed ▸ ok⟩
  · rintro ⟨⟨a, listed, rfl⟩, ok⟩
    exact ⟨a, ⟨listed, (told a listed).symm ▸ ok⟩, rfl⟩

/-- An answer tells that the key was there, or nothing new. -/
theorem found_tally (s : Write) (addr : String) (r : Except Failure Bool) :
    (s.tally addr r).found = true ↔ s.found = true ∨ r = .ok true := by
  cases r with
  | ok had => cases had <;> simp [tally]
  | error why => cases why <;> simp [tally]

namespace Course

variable {c₀ c : Course} {first : List String} {addr : String}

/-- The nodes give their own answers, of which a write counts the first `w` acknowledgements: it
says whether one of these nodes had the key. Before it calls more nodes it has heard the first
ones. -/
structure Hears (tells : String → Except Failure Bool) (first : List String) (c : Course) :
    Prop where
  told : ∀ a ∈ c.early, a.2 = tells a.1
  acked : c.write.acked = (acks c.early).take c.write.w
  found : c.write.found = true ↔ ∃ addr ∈ c.write.acked, tells addr = .ok true
  result : ∀ found, c.write.result = some (.ok found) → found = c.write.found
  engaged : ∀ addr ∈ c.called, addr ∉ first →
    ∀ a ∈ first, (tells a).isOk = true → a ∈ c.write.acked

/-- Without a node to call, a write fails at once. -/
theorem not_succeeded_of_silent {key : String} {n w bucket : Nat} {mains backups : List String}
    (silent : (begin key n w bucket mains backups).called = []) (happenings : List Happening)
    (found : Bool) :
    ((begin key n w bucket mains backups).after happenings).write.result ≠ some (.ok found) := by
  have refused : (begin key n w bucket mains backups).write.result =
      some (.error (.noNode bucket)) := by
    rw [result_begin, if_pos (List.isEmpty_iff.mpr silent)]
  rw [(after_silent silent (by simp [refused]) happenings).1, refused]
  exact nofun

theorem hears_begin {key : String} {n w bucket : Nat} {mains backups : List String}
    (some_call : (begin key n w bucket mains backups).called ≠ []) :
    (begin key n w bucket mains backups).Hears tells
      (begin key n w bucket mains backups).called := by
  refine ⟨nofun, (List.take_nil ..).symm, by simp [Course.begin, start], ?_, ?_⟩
  · intro found succeeded
    rw [result_begin, if_neg (by simpa using some_call)] at succeeded
    cases succeeded
  · exact fun addr listed other => absurd listed other

theorem hears_advance (follows : Follows c₀ c) (counts : c.Counts c₀.called)
    (open_ : c.write.result = none) (hears : c.Hears tells c₀.called) :
    (c.proceed c.write.advance.1 c.write.advance.2).Hears tells c₀.called := by
  obtain ⟨told, acked, found, -, engaged⟩ := hears
  rw [← List.append_nil c.called] at engaged
  obtain ⟨enough, ended⟩ | ⟨-, -, still⟩ | ⟨short, -, -, ended⟩ | ⟨-, all, some_call, again⟩ :=
    advance_cases c.write
  · rw [ended]
    refine ⟨told, acked, found, ?_, engaged⟩
    intro had said
    have succeeded : c.write.verdict = .ok c.write.found := if_pos enough
    exact Except.ok.inj ((Option.some.inj said).symm.trans succeeded)
  · rw [still]
    refine ⟨told, acked, found, ?_, engaged⟩
    intro had said
    cases open_.symm.trans said
  · rw [ended]
    refine ⟨told, acked, found, ?_, engaged⟩
    intro had said
    cases (verdict_of_short short).symm.trans (Option.some.inj said)
  · rw [again]
    refine ⟨told, acked, found, ?_, ?_⟩
    · intro had said
      cases open_.symm.trans said
    · -- A second attempt is made when all calls of the first one have ended.
      intro _ _ _ a one willing
      have complete := follows.complete_of_counts counts all
      rw [answered_of_in_time follows counts.in_time,
        counts.single (secondCalls_reason some_call).1] at complete
      simp only [Course.proceed, counts.acked]
      exact (mem_acks told).mpr ⟨complete a one, willing⟩

theorem mem_acks_singleton {a : String} :
    a ∈ acks [(addr, tells addr)] ↔ a = addr ∧ (tells addr).isOk = true := by
  have told : ∀ a ∈ [(addr, tells addr)], a.2 = tells a.1 := by simp
  rw [mem_acks told]
  constructor
  · rintro ⟨here, ok⟩
    obtain rfl := List.mem_singleton.mp here
    exact ⟨rfl, ok⟩
  · rintro ⟨rfl, ok⟩
    exact ⟨List.mem_singleton_self _, ok⟩

/-- An answer is counted before anything follows from it. -/
theorem hears_counted (counts : c.Counts first) (short : (acks c.early).length < c.write.w)
    (open_ : c.write.result = none) (hears : c.Hears tells first) :
    ((c.note addr (tells addr)).proceed
      ({ c.write with pending := c.write.pending - 1 }.tally addr (tells addr)) []).Hears
        tells first := by
  obtain ⟨told, -, found, -, engaged⟩ := hears
  obtain ⟨-, called, -⟩ := note_fixed c addr (tells addr)
  have early := early_note addr (tells addr) counts.in_time
  have whole : (acks (c.early ++ [(addr, tells addr)])).take c.write.w =
      c.write.acked ++ acks [(addr, tells addr)] := by
    have one : (acks [(addr, tells addr)]).length ≤ 1 := (acks_sublist _).length_le
    rw [acks_append, ← counts.acked, List.take_of_length_le]
    rw [List.length_append, counts.acked]
    omega
  have now_found := found_tally { c.write with pending := c.write.pending - 1 } addr (tells addr)
  obtain ⟨had, tallied⟩ :=
    tally_eq { c.write with pending := c.write.pending - 1 } addr (tells addr)
  simp only [tallied] at now_found
  rw [tallied]
  refine ⟨told_note told addr, ?_, ?_, ?_, ?_⟩
  · simp only [Course.proceed, early, whole]
  · simp only [Course.proceed, now_found, found, List.mem_append, mem_acks_singleton]
    constructor
    · rintro (⟨a, old, yes⟩ | yes)
      · exact ⟨a, .inl old, yes⟩
      · exact ⟨addr, .inr ⟨rfl, by rw [yes]; rfl⟩, yes⟩
    · rintro ⟨a, old | ⟨rfl, -⟩, yes⟩
      · exact .inl ⟨a, old, yes⟩
      · exact .inr yes
  · intro had' said
    cases open_.symm.trans said
  · intro a listed other b one willing
    simp only [Course.proceed, List.append_nil, called] at listed
    exact List.mem_append_left _ (engaged a listed other b one willing)

/-- An answer that comes after the end is not counted: there are enough acknowledgements already, or
nobody is heard any more. -/
theorem hears_late (stands : c.Stands first) {r : Except Failure Bool}
    (ended : c.write.result = some r) (due : addr ∈ c.called) (new : addr ∉ c.answered)
    (hears : c.Hears tells first) :
    ((c.note addr (tells addr)).proceed c.write []).Hears tells first := by
  obtain ⟨told, acked, found, result, engaged⟩ := hears
  obtain ⟨-, called, -⟩ := note_fixed c addr (tells addr)
  refine ⟨told_note told addr, ?_, found, result, ?_⟩
  · simp only [Course.proceed]
    rw [acked]
    cases in_time : c.expired with
    | true => simp only [Course.note, in_time, if_true]
    | false =>
      simp only [Stands, ended] at stands
      rw [early_note addr (tells addr) in_time, acks_append]
      cases r with
      | ok had => rw [List.take_append_of_le_length stands]
      | error why => exact absurd (stands.2.1 in_time addr due) new
  · intro a listed
    simp only [Course.proceed, List.append_nil, called] at listed
    exact engaged a listed

theorem hears_deadline (stands : c.Stands first) (hears : c.Hears tells first) :
    (c.next .deadline).Hears tells first := by
  cases ended : c.write.result with
  | some r =>
    have idle : c.write.expire = c.write := if_pos (by simp [ended])
    simp only [Course.next, idle]
    exact ⟨hears.told, hears.acked, hears.found, hears.result, hears.engaged⟩
  | none =>
    have finished : c.write.expire = c.write.finish := if_neg (by simp [ended])
    simp only [Stands, ended] at stands
    obtain ⟨counts, short, -⟩ := stands
    simp only [Course.next, finished]
    refine ⟨hears.told, hears.acked, hears.found, ?_, hears.engaged⟩
    intro had said
    have failed := verdict_of_short (counts.acked ▸ short)
    cases failed.symm.trans (Option.some.inj said)

theorem hears_next (follows : Follows c₀ c) (stands : c.Stands c₀.called)
    (hears : c.Hears tells c₀.called) {h : Happening}
    (told : ∀ addr r, h = .answer addr r → r = tells addr) :
    (c.next h).Hears tells c₀.called := by
  cases h with
  | deadline => exact hears_deadline stands hears
  | answer addr r =>
    obtain rfl := told addr r rfl
    by_cases possible : addr ∈ c.called ∧ addr ∉ c.answered
    · obtain ⟨due, new⟩ := possible
      cases result : c.write.result with
      | some ended =>
        rw [next_of_ended (tells addr) due new result]
        exact hears_late stands result due new hears
      | none =>
        simp only [Stands, result] at stands
        obtain ⟨counts, short, some_open⟩ := stands
        rw [next_of_open (tells addr) due new result]
        obtain ⟨followed, counted, still_open⟩ :=
          follows.counted counts some_open result (tells addr) due new
        have went_on := hears_advance followed counted still_open
          (hears_counted counts short result hears)
        simpa only [Course.proceed, List.append_nil] using went_on
    · simp only [Course.next, if_neg possible]
      exact hears

theorem hears_after (follows : Follows c₀ c) (stands : c.Stands c₀.called)
    (hears : c.Hears tells c₀.called) {happenings : List Happening}
    (told : ∀ addr r, .answer addr r ∈ happenings → r = tells addr) :
    (c.after happenings).Hears tells c₀.called := by
  induction happenings generalizing c with
  | nil => exact hears
  | cons h rest ih =>
    obtain ⟨followed, stood⟩ := follows.next stands h
    have now := hears_next follows stands hears (h := h) fun addr r here =>
      told addr r (here ▸ List.mem_cons_self)
    exact ih followed stood now fun addr r later => told addr r (.tail _ later)

/-- Nodes that were called may answer one after the other in any order. -/
theorem early_after_answers {order : List String} (in_time : c.expired = false)
    (due : ∀ addr ∈ order, addr ∈ c.called) (new : ∀ addr ∈ order, addr ∉ c.answered)
    (once : order.Nodup) :
    (c.after (order.map fun addr => .answer addr (tells addr))).early =
      c.early ++ order.map fun addr => (addr, tells addr) := by
  induction order generalizing c with
  | nil => exact (List.append_nil _).symm
  | cons addr rest ih =>
    obtain ⟨other, distinct⟩ := List.nodup_cons.mp once
    have possible := And.intro (due addr List.mem_cons_self) (new addr List.mem_cons_self)
    obtain ⟨-, called, expired⟩ := note_fixed c addr (tells addr)
    have early := early_note addr (tells addr) in_time
    let d := (c.note addr (tells addr)).proceed (c.write.absorb addr (tells addr)).1
      (c.write.absorb addr (tells addr)).2
    have next : c.next (.answer addr (tells addr)) = d := if_pos possible
    have step : c.after ((addr :: rest).map fun addr => .answer addr (tells addr)) =
        d.after (rest.map fun addr => .answer addr (tells addr)) := by
      rw [List.map_cons, after, List.foldl_cons, next, after]
    rw [step]
    refine (ih (c := d) (expired.trans in_time) ?_ ?_ distinct).trans ?_
    · intro a later
      exact List.mem_append_left _ (called.symm ▸ due a (.tail _ later))
    · intro a later known
      simp only [d, answered, Course.proceed, Course.note, in_time, Bool.false_eq_true,
        if_false, List.map_append, List.map_cons, List.map_nil, List.mem_append,
        List.mem_singleton] at known
      obtain (old | rfl) | late := known
      · exact new a (.tail _ later) (List.mem_append_left _ old)
      · exact other later
      · exact new a (.tail _ later) (List.mem_append_right _ late)
    · simp only [d, Course.proceed, early, List.append_assoc, List.singleton_append,
        List.map_cons]

/-- A success counts as many acknowledgements as it needs, the first ones, and says whether one of
these nodes had the key. -/
theorem Hears.reports (hears : c.Hears tells first) (stands : c.Stands first) {had : Bool}
    (succeeded : c.write.result = some (.ok had)) : c.write.acked.length = c.write.w ∧
      (had = true ↔ ∃ addr ∈ c.write.acked, tells addr = .ok true) := by
  simp only [Stands, succeeded] at stands
  refine ⟨?_, ?_⟩
  · rw [hears.acked, List.length_take, Nat.min_eq_left stands]
  · rw [hears.result had succeeded]
    exact hears.found

theorem Hears.ok_of_acked (hears : c.Hears tells first) {a : String} (counted : a ∈ c.write.acked) :
    a ∈ c.answered ∧ (tells a).isOk = true := by
  rw [hears.acked] at counted
  obtain ⟨answered, ok⟩ := (mem_acks hears.told).mp (List.mem_of_mem_take counted)
  exact ⟨List.mem_append_left _ answered, ok⟩

/-- The nodes that have nothing are too few: then one that has the key is heard among them, or
before others are called. -/
theorem Hears.found_of_few (hears : c.Hears tells c₀.called) (follows : Follows c₀ c)
    (stands : c.Stands c₀.called) {p : String → Bool} (empty : ∀ a, tells a = .ok false → p a)
    (few : c₀.called.countP p < c.write.w) {a : String} (one : a ∈ c₀.called)
    (yes : tells a = .ok true) {had : Bool} (succeeded : c.write.result = some (.ok had)) :
    had = true := by
  obtain ⟨enough, found⟩ := hears.reports stands succeeded
  rw [found]
  by_cases single : ∀ addr ∈ c.called, addr ∈ c₀.called
  · by_contra none
    have inside : c.write.acked ⊆ c₀.called.filter p := by
      intro b counted
      obtain ⟨answered, ok⟩ := hears.ok_of_acked counted
      refine List.mem_filter.mpr ⟨single b (follows.due b answered), empty b ?_⟩
      cases said : tells b with
      | ok had =>
        cases had with
        | true => exact absurd ⟨b, counted, said⟩ none
        | false => rfl
      | error why =>
        rw [said] at ok
        cases ok
    have once : c.write.acked.Nodup := by
      rw [hears.acked]
      exact follows.nodup.sublist
        ((List.take_sublist ..).trans ((acks_sublist _).trans (List.sublist_append_left ..)))
    have fits := once.length_le_of_subset inside
    rw [← List.countP_eq_length_filter] at fits
    omega
  · push Not at single
    obtain ⟨addr, called, other⟩ := single
    exact ⟨a, hears.engaged addr called other a one (by rw [yes]; rfl), yes⟩

theorem acks_of_willing {order : List String}
    (willing : ∀ addr ∈ order, (tells addr).isOk = true) :
    acks (order.map fun addr => (addr, tells addr)) = order := by
  have all : ∀ a ∈ order.map fun addr => (addr, tells addr), a.2.isOk = true := by
    intro a listed
    obtain ⟨addr, known, rfl⟩ := List.mem_map.mp listed
    exact willing addr known
  rw [acks, List.filter_eq_self.mpr all, List.map_map]
  exact List.map_id _

/-- A write that has its acknowledgements has ended with a success. -/
theorem Stands.succeeded (stands : c.Stands first) (enough : c.write.w ≤ (acks c.early).length) :
    ∃ had, c.write.result = some (.ok had) := by
  cases result : c.write.result with
  | none =>
    simp only [Stands, result] at stands
    exact absurd enough (Nat.not_le_of_lt stands.2.1)
  | some r =>
    cases r with
    | ok had => exact ⟨had, rfl⟩
    | error why =>
      simp only [Stands, result] at stands
      exact absurd enough (Nat.not_le_of_lt stands.1)

/-- The nodes that have nothing are enough to make a success, if they are heard first. -/
theorem missed_of_many (follows : Follows c₀ c₀) (stands : c₀.Stands c₀.called)
    (hears : c₀.Hears tells c₀.called) (unheard : c₀.early = [] ∧ c₀.late = [])
    (in_time : c₀.expired = false) (once : c₀.called.Nodup) {p : String → Bool}
    (empty : ∀ a, p a → tells a = .ok false) (many : c₀.write.w ≤ c₀.called.countP p) :
    ∃ happenings, (∀ addr r, .answer addr r ∈ happenings → r = tells addr) ∧
      (c₀.after happenings).write.result = some (.ok false) := by
  let order := (c₀.called.filter p).take c₀.write.w
  have part : order.Sublist c₀.called := (List.take_sublist ..).trans List.filter_sublist
  have nothing : ∀ addr ∈ order, tells addr = .ok false := fun addr listed =>
    empty addr (List.mem_filter.mp (List.mem_of_mem_take listed)).2
  let happenings : List Happening := order.map fun addr => .answer addr (tells addr)
  have told : ∀ addr r, .answer addr r ∈ happenings → r = tells addr := by
    intro addr r listed
    obtain ⟨_, -, same⟩ := List.mem_map.mp listed
    obtain ⟨rfl, rfl⟩ := Happening.answer.inj same
    rfl
  obtain ⟨went, stood⟩ := follows.after stands happenings
  have heard := hears_after follows stands hears told
  have acked : acks (c₀.after happenings).early = order := by
    have early : (c₀.after happenings).early = _ :=
      early_after_answers in_time (fun _ known => part.subset known)
        (fun a _ => by simp [answered, unheard]) (part.nodup once)
    rw [early, unheard.1, List.nil_append]
    exact acks_of_willing fun addr known => nothing addr known ▸ rfl
  have length : order.length = (c₀.after happenings).write.w := by
    rw [went.terms.2.2.1, List.length_take, ← List.countP_eq_length_filter, Nat.min_eq_left many]
  refine ⟨happenings, told, ?_⟩
  obtain ⟨had, result⟩ := stood.succeeded (Nat.le_of_eq (acked ▸ length.symm))
  cases had with
  | false => exact result
  | true =>
    obtain ⟨a, counted, yes⟩ := (heard.reports stood result).2.mp rfl
    rw [heard.acked, acked] at counted
    cases (nothing a (List.mem_of_mem_take counted)).symm.trans yes

end Course

/-- What a node answers to a delete, unless the call fails. -/
def deletes (stores : String → Store) (failing : String → Option Failure) (key : String)
    (now : Nat) (addr : String) : Except Failure Bool :=
  match failing addr with
  | some why => .error why
  | none => .ok ((stores addr).delete key now).1

variable {stores : String → Store} {failing : String → Option Failure} {key : String} {now : Nat}
  {addr : String}

theorem deletes_ok_iff {had : Bool} : deletes stores failing key now addr = .ok had ↔
    failing addr = none ∧ ((stores addr).get? key).isSome = had := by
  have same : ((stores addr).delete key now).1 = ((stores addr).get? key).isSome := by
    unfold Store.delete Store.get?
    cases (stores addr).record? key with
    | none => rfl
    | some r => cases live : r.isLive <;> simp [Option.filter, live]
  unfold deletes
  cases failing addr with
  | none => simp [same]
  | some why => simp

theorem isOk_deletes : (deletes stores failing key now addr).isOk = true ↔ failing addr = none := by
  unfold deletes
  cases failing addr with
  | none => exact iff_of_true rfl rfl
  | some why => exact iff_of_false nofun nofun

/-- Whether a call of a delete reaches a node and finds nothing there. -/
def findsNothing (stores : String → Store) (failing : String → Option Failure) (key addr : String) :
    Bool :=
  (failing addr).isNone && ((stores addr).get? key).isNone

theorem findsNothing_iff : findsNothing stores failing key addr = true ↔
    deletes stores failing key now addr = .ok false := by
  rw [deletes_ok_iff, findsNothing, Bool.and_eq_true, Option.isNone_iff_eq_none]
  cases (stores addr).get? key <;> simp

open Course in
/-- A delete that succeeds reports the key as found exactly when one of the nodes had it live whose
acknowledgements came first, as many as it needs. So when one of the nodes that it calls at first
has the key live, whether it is reported depends on the order of the answers, unless too few of
them find nothing to make a quorum alone. -/
theorem delete_reports_counted {config : Config} (valid : config.check = .ok ())
    {plan : Route.Plan} {router : Router} (built : Router.ofPlan plan = .ok router) (key : String)
    (bucket : Nat) (isRoutable : String → Bool) (stores : String → Store)
    (failing : String → Option Failure) (now : Nat) :
    let n := config.replication.n
    let w := config.replication.w
    let mains := (router.resolve bucket).mains.filter isRoutable
    let backups := (router.resolve bucket).backups.filter isRoutable
    let first := begin key n w bucket mains backups
    let Told := fun happenings : List Happening => ∀ addr r, .answer addr r ∈ happenings →
      r = deletes stores failing key now addr
    (∀ happenings, Told happenings → ∀ found,
      (first.after happenings).write.result = some (.ok found) →
      (found = true ↔ ∃ addr ∈ (acks (first.after happenings).early).take w,
        (stores addr).get? key ≠ none)) ∧
    ∀ addr ∈ first.called, failing addr = none → (stores addr).get? key ≠ none →
      ((∀ happenings, Told happenings → ∀ found,
          (first.after happenings).write.result = some (.ok found) → found = true) ↔
        first.called.countP (findsNothing stores failing key) < w) := by
  intro n w mains backups first Told
  obtain ⟨⟨enough, within⟩, -⟩ := Config.quorums_of_check valid
  have live : (mains ++ backups).Nodup := (Router.nodup_resolve built bucket).sublist
    (List.filter_sublist.append List.filter_sublist)
  by_cases silent : first.called = []
  · constructor
    · intro happenings _ found succeeded
      exact absurd succeeded (not_succeeded_of_silent silent happenings found)
    · intro addr listed
      rw [silent] at listed
      cases listed
  obtain ⟨follows, stands⟩ := begin_follows silent enough
  have begun : first.Hears (deletes stores failing key now) first.called := hears_begin silent
  have empty (a : String) : findsNothing stores failing key a = true ↔
      deletes stores failing key now a = .ok false := findsNothing_iff
  refine ⟨?_, ?_⟩
  · intro happenings told found succeeded
    obtain ⟨went, stood⟩ := follows.after stands happenings
    have hears := hears_after follows stands begun told
    have same_w : (first.after happenings).write.w = w := went.terms.2.2.1
    rw [(hears.reports stood succeeded).2, hears.acked, same_w]
    refine exists_congr fun a => and_congr_right fun counted => ?_
    have reached : failing a = none :=
      isOk_deletes.mp ((mem_acks hears.told).mp (List.mem_of_mem_take counted)).2
    rw [deletes_ok_iff, ← Option.isSome_iff_ne_none]
    exact and_iff_right reached
  · intro addr called reached held
    constructor
    · intro always
      by_contra many
      obtain ⟨happenings, told, missed⟩ := missed_of_many follows stands begun ⟨rfl, rfl⟩ rfl
        (follows.nodup_called live) (fun a => (empty a).mp) (Nat.le_of_not_lt many)
      cases always happenings told false missed
    · intro few happenings told found succeeded
      obtain ⟨went, stood⟩ := follows.after stands happenings
      have hears := hears_after follows stands begun told
      have same_w : (first.after happenings).write.w = w := went.terms.2.2.1
      have yes : deletes stores failing key now addr = .ok true :=
        deletes_ok_iff.mpr ⟨reached, Option.isSome_iff_ne_none.mpr held⟩
      exact hears.found_of_few went stood (fun a => (empty a).mpr) (same_w.symm ▸ few) called yes
        succeeded

/-- Of three mains one has the key. -/
def oneHolds (addr : String) : Store :=
  if addr = "a" then (Store.empty.set "k" ⟨0, [97], .auto⟩ 0).2 else .empty

/-- Two of three acknowledgements are enough, and the two nodes without the key can be the first: it
is deleted where it was, and reported as not found. -/
theorem delete_reports_counted_missed :
    let config : Config := ⟨.default, .default, .default, Config.defaultSwitch, none⟩
    let plan : Route.Plan := ⟨1, [⟨"a", ["0"]⟩, ⟨"b", ["0"]⟩, ⟨"c", ["0"]⟩], []⟩
    let first := Course.begin "k" 3 2 0 ["a", "b", "c"] []
    let tells := deletes oneHolds (fun _ => none) "k" 1
    (config.check = .ok () ∧ Router.ofPlan plan = .ok ⟨[⟨["a", "b", "c"], []⟩]⟩ ∧
      "a" ∈ first.called ∧ ((oneHolds "a").get? "k").isSome = true ∧
      (((oneHolds "a").delete "k" 1).2.getVersioned? "k").map (·.rev.val) = some (-2)) ∧
    ∃ happenings, (∀ addr r, .answer addr r ∈ happenings → r = tells addr) ∧
      (first.after happenings).write.result = some (.ok false) := by
  intro config plan first tells
  have valid : config.check = .ok () := by decide +kernel
  have built : Router.ofPlan plan = .ok ⟨[⟨["a", "b", "c"], []⟩]⟩ := rfl
  have held : (oneHolds "a").get? "k" ≠ none := by decide +kernel
  have reports :=
    delete_reports_counted valid built "k" 0 (fun _ => true) oneHolds (fun _ => none) 1
  have nodes : Router.resolve ⟨[⟨["a", "b", "c"], []⟩]⟩ 0 = ⟨["a", "b", "c"], []⟩ := rfl
  have quorum : config.replication.n = 3 ∧ config.replication.w = 2 := ⟨rfl, rfl⟩
  simp only [nodes, quorum, List.filter_cons, List.filter_nil, if_true] at reports
  have some_order := (reports.2 "a" (by decide +kernel) trivial held).not.mpr (by decide +kernel)
  push Not at some_order
  obtain ⟨happenings, told, found, succeeded, missed⟩ := some_order
  refine ⟨⟨valid, built, by decide +kernel, by decide +kernel, by decide +kernel⟩, happenings, told,
    ?_⟩
  rw [Bool.eq_false_iff.mpr missed] at succeeded
  exact succeeded

end QuorumKv.Quorum.Write
