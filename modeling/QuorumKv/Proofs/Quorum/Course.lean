import Mathlib.Data.List.Basic
import QuorumKv.Proofs.Quorum.Write

/-! A write together with its environment: whom it called, and what they answered before the
deadline. The machine in `Quorum.Write` only counts; here its counters are tied to the answers that
came, in whatever order, and its result and its calls are read off them. -/
namespace QuorumKv.Quorum.Write

abbrev Answers := List (String × Except Failure Bool)

/-- The nodes that acknowledged. -/
def acks (answers : Answers) : List String :=
  (answers.filter fun a => a.2.isOk).map (·.1)

def isStale : Except Failure Bool → Bool
  | .error (.stale _) => true
  | _ => false

/-- How many nodes refused the write as stale. -/
def refusals (answers : Answers) : Nat :=
  (answers.filter fun a => isStale a.2).length

theorem acks_append (earlier later : Answers) :
    acks (earlier ++ later) = acks earlier ++ acks later := by
  simp only [acks, List.filter_append, List.map_append]

theorem refusals_append (earlier later : Answers) :
    refusals (earlier ++ later) = refusals earlier + refusals later := by
  simp only [refusals, List.filter_append, List.length_append]

theorem acks_sublist (answers : Answers) : (acks answers).Sublist (answers.map (·.1)) :=
  List.filter_sublist.map _

theorem refusals_pos {answers : Answers} :
    0 < refusals answers ↔ ∃ a ∈ answers, isStale a.2 = true := by
  simp only [refusals, List.length_pos_iff_exists_mem, List.mem_filter]

/-- Whether every node of a first phase answered, and too few acknowledged for any reason but that
one of them had something newer. -/
structure FellShort (n w : Nat) (mains first : List String) (answers : Answers) : Prop where
  complete : ∀ addr ∈ first, addr ∈ answers.map (·.1)
  short : (acks (answers.filter fun a => a.1 ∈ first)).length < w
  unrefused : ∀ a ∈ answers, a.1 ∈ first → isStale a.2 = false
  mains_short : ((acks (answers.filter fun a => a.1 ∈ first)).filter fun addr =>
    addr ∈ mains).length < threshold n w

inductive Happening where
  | answer (addr : String) (r : Except Failure Bool)
  | deadline

structure Course where
  write : Write
  /-- The nodes that were called, in order. -/
  called : List String
  /-- What nodes answered before the deadline, in order. -/
  early : Answers
  /-- The nodes that answered after the deadline. -/
  late : List String
  expired : Bool

namespace Course

def begin (key : String) (n w bucket : Nat) (mains backups : List String) : Course :=
  let (write, calls) := start key n w bucket mains backups
  ⟨write, calls, [], [], false⟩

def answered (c : Course) : List String :=
  c.early.map (·.1) ++ c.late

/-- Takes down an answer. -/
def note (c : Course) (addr : String) (r : Except Failure Bool) : Course :=
  if c.expired then { c with late := c.late ++ [addr] }
  else { c with early := c.early ++ [(addr, r)] }

/-- The write goes on and makes some calls. -/
def proceed (c : Course) (write : Write) (calls : List String) : Course :=
  { c with write := write, called := c.called ++ calls }

/-- One more thing happens. Each call ends once, so that no answer comes from a node that has no
call open. -/
def next (c : Course) : Happening → Course
  | .answer addr r =>
    if addr ∈ c.called ∧ addr ∉ c.answered then
      let (write, calls) := c.write.absorb addr r
      (c.note addr r).proceed write calls
    else c
  | .deadline => { c with write := c.write.expire, expired := true }

def after (c : Course) (happenings : List Happening) : Course :=
  happenings.foldl next c

end Course

theorem tally_eq (s : Write) (addr : String) (r : Except Failure Bool) :
    ∃ found, s.tally addr r =
      { s with
        acked := s.acked ++ acks [(addr, r)]
        found := found
        conflicts := s.conflicts + refusals [(addr, r)] } := by
  cases r with
  | ok found => exact ⟨s.found || found, rfl⟩
  | error why =>
    refine ⟨s.found, ?_⟩
    cases why <;> simp [tally, acks, refusals, isStale, Except.isOk, Except.toBool]

/-- What an open write does after an answer. -/
theorem advance_cases (s : Write) :
    s.w ≤ s.acked.length ∧ s.advance = (s.finish, []) ∨
    s.acked.length < s.w ∧ 0 < s.pending ∧ s.advance = (s, []) ∨
    s.acked.length < s.w ∧ s.pending = 0 ∧ s.secondCalls = [] ∧ s.advance = (s.finish, []) ∨
    s.acked.length < s.w ∧ s.pending = 0 ∧ 0 < s.secondCalls.length ∧ s.advance =
      ({ s with
        spare := s.spare.drop s.secondCalls.length
        pending := s.secondCalls.length
        engaged := s.engaged + 1
        retried := true }, s.secondCalls) := by
  unfold advance
  by_cases enough : s.w ≤ s.acked.length
  · exact .inl ⟨enough, if_pos enough⟩
  · have short := Nat.lt_of_not_le enough
    rw [if_neg enough]
    by_cases waiting : 0 < s.pending
    · exact .inr (.inl ⟨short, waiting, if_pos waiting⟩)
    · rw [if_neg waiting]
      have all : s.pending = 0 := Nat.eq_zero_of_not_pos waiting
      cases second : s.secondCalls with
      | nil => exact .inr (.inr (.inl ⟨short, all, rfl, rfl⟩))
      | cons addr rest => exact .inr (.inr (.inr ⟨short, all, Nat.succ_pos _, rfl⟩))

/-- A second attempt is made once, when no node refused and too few mains acknowledged. -/
theorem secondCalls_reason {s : Write} (some_call : 0 < s.secondCalls.length) :
    s.retried = false ∧ s.conflicts = 0 ∧ s.ackedMains < threshold s.n s.w := by
  unfold secondCalls at some_call
  split at some_call
  · rename_i reason
    simpa [and_assoc] using reason
  · cases some_call

theorem verdict_of_short {s : Write} (short : s.acked.length < s.w) :
    s.verdict = .error (if 0 < s.conflicts then .stale s.key
      else .partialWrite s.acked.length s.w) := by
  unfold verdict
  rw [if_neg (Nat.not_le_of_lt short)]
  split <;> rfl

namespace FellShort

variable {n w : Nat} {mains first : List String} {answers : Answers}

/-- A first phase that has ended stays as it was. -/
theorem append {addr : String} (r : Except Failure Bool)
    (fell : FellShort n w mains first answers) (new : addr ∉ answers.map (·.1)) :
    FellShort n w mains first (answers ++ [(addr, r)]) := by
  have other : addr ∉ first := fun listed => new (fell.complete addr listed)
  have same : (answers ++ [(addr, r)]).filter (fun a => a.1 ∈ first) =
      answers.filter fun a => a.1 ∈ first := by
    simp [List.filter_append, other]
  refine ⟨?_, same ▸ fell.short, ?_, same ▸ fell.mains_short⟩
  · intro a listed
    rw [List.map_append]
    exact List.mem_append_left _ (fell.complete a listed)
  · intro a listed here
    obtain old | last := List.mem_append.mp listed
    · exact fell.unrefused a old here
    · obtain rfl := List.mem_singleton.mp last
      exact absurd here other

/-- A first phase falls short when all of its nodes have answered and nobody else. -/
theorem of_complete (complete : ∀ addr ∈ first, addr ∈ answers.map (·.1))
    (inside : ∀ a ∈ answers, a.1 ∈ first) (short : (acks answers).length < w)
    (unrefused : refusals answers = 0)
    (mains_short : ((acks answers).filter fun addr => addr ∈ mains).length < threshold n w) :
    FellShort n w mains first answers := by
  have whole : answers.filter (fun a => a.1 ∈ first) = answers :=
    List.filter_eq_self.mpr fun a listed => by simpa using inside a listed
  refine ⟨complete, whole.symm ▸ short, ?_, whole.symm ▸ mains_short⟩
  intro a listed _
  by_contra stale
  have some_refusal : 0 < refusals answers :=
    refusals_pos.mpr ⟨a, listed, by simpa using stale⟩
  omega

end FellShort

namespace Course

/-- What a course keeps of its beginning, whatever the write makes of the answers. -/
structure Follows (c₀ c : Course) : Prop where
  terms : c.write.key = c₀.write.key ∧ c.write.n = c₀.write.n ∧ c.write.w = c₀.write.w ∧
    c.write.mains = c₀.write.mains
  order : c.called ++ c.write.spare = c₀.called ++ c₀.write.spare
  nodup : c.answered.Nodup
  due : ∀ addr ∈ c.answered, addr ∈ c.called
  punctual : c.expired = false → c.late = []
  engaged : ∀ addr ∈ c.called, addr ∉ c₀.called →
    FellShort c₀.write.n c₀.write.w c₀.write.mains c₀.called c.early

/-- An open write has counted what the answers say. -/
structure Counts (first : List String) (c : Course) : Prop where
  in_time : c.expired = false
  acked : c.write.acked = acks c.early
  conflicts : c.write.conflicts = refusals c.early
  pending : c.write.pending + c.early.length = c.called.length
  single : c.write.retried = false → c.called = first

/-- Where a write stands. One that failed waits for nobody. -/
def Stands (first : List String) (c : Course) : Prop :=
  match c.write.result with
  | none => c.Counts first ∧ (acks c.early).length < c.write.w ∧ 0 < c.write.pending
  | some (.ok _) => c.write.w ≤ (acks c.early).length
  | some (.error why) => (acks c.early).length < c.write.w ∧
      (c.expired = false → ∀ addr ∈ c.called, addr ∈ c.answered) ∧
      why = if 0 < refusals c.early then .stale c.write.key
        else .partialWrite (acks c.early).length c.write.w

variable {c₀ c : Course} {first : List String} {addr : String}

/-- As many answers as calls come from all nodes that were called. -/
theorem complete_of_length {called answered : List String} (nodup : answered.Nodup)
    (inside : ∀ addr ∈ answered, addr ∈ called) (length : called.length ≤ answered.length) :
    ∀ addr ∈ called, addr ∈ answered := by
  intro addr listed
  by_contra silent
  have more : (addr :: answered).Nodup := List.nodup_cons.mpr ⟨silent, nodup⟩
  have fit := more.length_le_of_subset (List.cons_subset.mpr ⟨listed, inside⟩)
  rw [List.length_cons] at fit
  omega

theorem answered_of_in_time (follows : Follows c₀ c) (in_time : c.expired = false) :
    c.answered = c.early.map (·.1) := by
  rw [answered, follows.punctual in_time, List.append_nil]

theorem answered_note (addr : String) (r : Except Failure Bool)
    (punctual : c.expired = false → c.late = []) :
    (c.note addr r).answered = c.answered ++ [addr] := by
  unfold note answered
  cases expired : c.expired with
  | true => simp only [if_true, List.append_assoc]
  | false =>
    simp only [punctual expired, Bool.false_eq_true, if_false, List.map_append, List.map_cons,
      List.map_nil, List.append_nil]

theorem early_note (addr : String) (r : Except Failure Bool) (in_time : c.expired = false) :
    (c.note addr r).early = c.early ++ [(addr, r)] := by
  simp only [note, in_time, Bool.false_eq_true, if_false]

theorem note_fixed (c : Course) (addr : String) (r : Except Failure Bool) :
    (c.note addr r).write = c.write ∧ (c.note addr r).called = c.called ∧
      (c.note addr r).expired = c.expired := by
  unfold note
  split <;> exact ⟨rfl, rfl, rfl⟩

theorem punctual_note (addr : String) (r : Except Failure Bool)
    (punctual : c.expired = false → c.late = []) :
    (c.note addr r).expired = false → (c.note addr r).late = [] := by
  rw [(note_fixed c addr r).2.2]
  intro in_time
  simp only [note, in_time, Bool.false_eq_true, if_false]
  exact punctual in_time

theorem Follows.note (follows : Follows c₀ c) (r : Except Failure Bool) (due : addr ∈ c.called)
    (new : addr ∉ c.answered) : Follows c₀ (c.note addr r) := by
  obtain ⟨write, called, -⟩ := note_fixed c addr r
  have answered := answered_note addr r follows.punctual
  refine ⟨write ▸ follows.terms, ?_, ?_, ?_, punctual_note addr r follows.punctual, ?_⟩
  · rw [write, called]
    exact follows.order
  · rw [answered]
    refine List.nodup_append.mpr ⟨follows.nodup, List.nodup_cons.mpr ⟨List.not_mem_nil, .nil⟩, ?_⟩
    rintro a known b one rfl
    exact new (List.mem_singleton.mp one ▸ known)
  · intro a listed
    rw [answered] at listed
    rw [called]
    obtain old | last := List.mem_append.mp listed
    · exact follows.due a old
    · exact List.mem_singleton.mp last ▸ due
  · intro a listed other
    rw [called] at listed
    have fell := follows.engaged a listed other
    cases in_time : c.expired with
    | true =>
      simp only [Course.note, in_time, if_true]
      exact fell
    | false =>
      rw [early_note addr r in_time]
      exact fell.append r fun known => new (List.mem_append_left _ known)

theorem Follows.proceed (follows : Follows c₀ c) {write : Write} {calls : List String}
    (terms : write.key = c.write.key ∧ write.n = c.write.n ∧ write.w = c.write.w ∧
      write.mains = c.write.mains)
    (spare : c.write.spare = calls ++ write.spare)
    (reason : calls ≠ [] →
      FellShort c₀.write.n c₀.write.w c₀.write.mains c₀.called c.early) :
    Follows c₀ (c.proceed write calls) := by
  obtain ⟨key, n, w, mains⟩ := follows.terms
  refine ⟨⟨terms.1.trans key, terms.2.1.trans n, terms.2.2.1.trans w, terms.2.2.2.trans mains⟩, ?_,
    follows.nodup, ?_, follows.punctual, ?_⟩
  · simp only [Course.proceed]
    rw [List.append_assoc, ← spare]
    exact follows.order
  · intro a listed
    exact List.mem_append_left _ (follows.due a listed)
  · intro a listed other
    obtain old | new := List.mem_append.mp listed
    · exact follows.engaged a old other
    · exact reason (List.ne_nil_of_mem new)

theorem Follows.complete_of_counts (follows : Follows c₀ c) (counts : c.Counts first)
    (none_left : c.write.pending = 0) : ∀ addr ∈ c.called, addr ∈ c.answered := by
  apply complete_of_length follows.nodup follows.due
  have length := counts.pending
  rw [answered_of_in_time follows counts.in_time, List.length_map]
  omega

/-- What an open write does once its counters are up to date. -/
theorem Follows.advance (follows : Follows c₀ c) (counts : c.Counts c₀.called)
    (open_ : c.write.result = none) :
    Follows c₀ (c.proceed c.write.advance.1 c.write.advance.2) ∧
      (c.proceed c.write.advance.1 c.write.advance.2).Stands c₀.called := by
  have heard := answered_of_in_time follows counts.in_time
  have complete := follows.complete_of_counts counts
  have same := List.append_nil c.called
  obtain ⟨enough, ended⟩ | ⟨short, waiting, still⟩ | ⟨short, all, -, ended⟩ |
      ⟨short, all, some_call, again⟩ := advance_cases c.write
  · rw [ended]
    refine ⟨follows.proceed ⟨rfl, rfl, rfl, rfl⟩ rfl (absurd rfl), ?_⟩
    simp only [Stands, Course.proceed, finish, verdict, if_pos enough]
    rwa [← counts.acked]
  · rw [still]
    refine ⟨follows.proceed ⟨rfl, rfl, rfl, rfl⟩ rfl (absurd rfl), ?_⟩
    simp only [Stands, Course.proceed, open_, same]
    exact ⟨counts, counts.acked ▸ short, waiting⟩
  · rw [ended]
    refine ⟨follows.proceed ⟨rfl, rfl, rfl, rfl⟩ rfl (absurd rfl), ?_⟩
    simp only [Stands, Course.proceed, finish, verdict_of_short short, same]
    rw [counts.acked] at short ⊢
    exact ⟨short, fun _ => complete all, by rw [counts.conflicts]⟩
  · obtain ⟨first_try, unrefused, mains_short⟩ := secondCalls_reason some_call
    have fell : FellShort c₀.write.n c₀.write.w c₀.write.mains c₀.called c.early := by
      obtain ⟨-, n, w, mains⟩ := follows.terms
      rw [← counts.single first_try, ← n, ← w, ← mains]
      apply FellShort.of_complete
      · rw [← heard]
        exact complete all
      · intro a listed
        exact follows.due a.1 (heard ▸ List.mem_map_of_mem listed)
      · rwa [← counts.acked]
      · rwa [← counts.conflicts]
      · rwa [← counts.acked]
    rw [again]
    refine ⟨follows.proceed ⟨rfl, rfl, rfl, rfl⟩ ?_ fun _ => fell, ?_⟩
    · exact (List.prefix_iff_eq_append.mp (secondCalls_of_spare c.write)).symm
    · simp only [Stands, Course.proceed, open_]
      refine ⟨⟨counts.in_time, counts.acked, counts.conflicts, ?_, by simp⟩, counts.acked ▸ short,
        some_call⟩
      have length := counts.pending
      simp only [List.length_append]
      omega

/-- An answer to a write that has ended is taken down and nothing else. -/
theorem Follows.answer_ended (follows : Follows c₀ c) (stands : c.Stands first)
    {result : Except Failure Bool} (ended : c.write.result = some result)
    (r : Except Failure Bool) (due : addr ∈ c.called) (new : addr ∉ c.answered) :
    Follows c₀ ((c.note addr r).proceed c.write []) ∧
      ((c.note addr r).proceed c.write []).Stands first := by
  obtain ⟨write, called, expired⟩ := note_fixed c addr r
  have noted := follows.note r due new
  refine ⟨noted.proceed (write ▸ ⟨rfl, rfl, rfl, rfl⟩) (write ▸ rfl) (absurd rfl), ?_⟩
  simp only [Stands, ended, Course.proceed, called, expired] at stands ⊢
  cases in_time : c.expired with
  | true =>
    have early : (c.note addr r).early = c.early := by simp only [Course.note, in_time, if_true]
    rw [early]
    cases result with
    | ok found => exact stands
    | error why => exact ⟨stands.1, nofun, stands.2.2⟩
  | false =>
    rw [early_note addr r in_time]
    cases result with
    | ok found =>
      rw [acks_append, List.length_append]
      exact Nat.le_trans stands (Nat.le_add_right ..)
    | error why => exact absurd (stands.2.1 in_time addr due) new

/-- An answer to an open write is counted. -/
theorem Follows.counted (follows : Follows c₀ c) (counts : c.Counts c₀.called)
    (some_open : 0 < c.write.pending) (open_ : c.write.result = none)
    (r : Except Failure Bool) (due : addr ∈ c.called) (new : addr ∉ c.answered) :
    let write := { c.write with pending := c.write.pending - 1 }.tally addr r
    let counted := (c.note addr r).proceed write []
    Follows c₀ counted ∧ counted.Counts c₀.called ∧ counted.write.result = none := by
  intro write counted
  obtain ⟨same, called, expired⟩ := note_fixed c addr r
  obtain ⟨found, tallied⟩ := tally_eq { c.write with pending := c.write.pending - 1 } addr r
  refine ⟨?_, ?_, ?_⟩
  · refine (follows.note r due new).proceed ?_ ?_ (absurd rfl)
    · rw [same]
      simp only [write, tallied, and_self]
    · rw [same]
      simp only [write, tallied, List.nil_append]
  · have early := early_note addr r counts.in_time
    refine ⟨expired.trans counts.in_time, ?_, ?_, ?_, ?_⟩
    · simp only [counted, Course.proceed, early, acks_append, ← counts.acked, write, tallied]
    · simp only [counted, Course.proceed, early, refusals_append, ← counts.conflicts, write,
        tallied]
    · have length := counts.pending
      simp only [counted, Course.proceed, early, called, write, tallied, List.append_nil,
        List.length_append, List.length_singleton]
      omega
    · simp only [counted, Course.proceed, called, List.append_nil, write, tallied]
      exact counts.single
  · simp only [counted, Course.proceed, write, tallied, open_]

/-- An answer to an open write is counted, and then the write goes on. -/
theorem Follows.answer_open (follows : Follows c₀ c) (counts : c.Counts c₀.called)
    (some_open : 0 < c.write.pending) (open_ : c.write.result = none)
    (r : Except Failure Bool) (due : addr ∈ c.called) (new : addr ∉ c.answered) :
    let write := { c.write with pending := c.write.pending - 1 }.tally addr r
    Follows c₀ ((c.note addr r).proceed write.advance.1 write.advance.2) ∧
      ((c.note addr r).proceed write.advance.1 write.advance.2).Stands c₀.called := by
  intro write
  obtain ⟨counted, up_to_date, still_open⟩ :=
    follows.counted counts some_open open_ r due new
  have went_on := counted.advance up_to_date still_open
  simp only [Course.proceed, List.append_nil] at went_on ⊢
  exact went_on

theorem Follows.deadline (follows : Follows c₀ c) (stands : c.Stands first) :
    Follows c₀ (c.next .deadline) ∧ (c.next .deadline).Stands first := by
  cases result : c.write.result with
  | some result_ =>
    have idle : c.write.expire = c.write := by
      simp only [expire, result, Option.isSome_some, if_true]
    simp only [Course.next, idle]
    refine ⟨⟨follows.terms, follows.order, follows.nodup, follows.due, nofun, follows.engaged⟩, ?_⟩
    simp only [Stands, result] at stands ⊢
    cases result_ with
    | ok found => exact stands
    | error why => exact ⟨stands.1, nofun, stands.2.2⟩
  | none =>
    have ended : c.write.expire = c.write.finish := by
      simp only [expire, result, Option.isSome_none, Bool.false_eq_true, if_false]
    simp only [Course.next, ended]
    refine ⟨⟨follows.terms, follows.order, follows.nodup, follows.due, nofun, follows.engaged⟩, ?_⟩
    simp only [Stands, result] at stands
    obtain ⟨counts, short, -⟩ := stands
    have counted := counts.acked ▸ short
    simp only [Stands, finish, verdict_of_short counted]
    refine ⟨short, nofun, ?_⟩
    rw [counts.acked, counts.conflicts]

theorem next_of_ended {result : Except Failure Bool} (r : Except Failure Bool)
    (due : addr ∈ c.called) (new : addr ∉ c.answered) (ended : c.write.result = some result) :
    c.next (.answer addr r) = (c.note addr r).proceed c.write [] := by
  have idle : c.write.absorb addr r = (c.write, []) := by
    simp only [absorb, ended, Option.isSome_some, if_true]
  simp only [Course.next, if_pos (And.intro due new), idle]

theorem next_of_open (r : Except Failure Bool) (due : addr ∈ c.called) (new : addr ∉ c.answered)
    (open_ : c.write.result = none) :
    let write := { c.write with pending := c.write.pending - 1 }.tally addr r
    c.next (.answer addr r) = (c.note addr r).proceed write.advance.1 write.advance.2 := by
  intro write
  have absorbed : c.write.absorb addr r = write.advance := by
    unfold absorb
    rw [if_neg (by simp [open_])]
  simp only [Course.next, if_pos (And.intro due new), absorbed]

/-- Whatever happens next, the course goes on as it began. -/
theorem Follows.next (follows : Follows c₀ c) (stands : c.Stands c₀.called) (h : Happening) :
    Follows c₀ (c.next h) ∧ (c.next h).Stands c₀.called := by
  cases h with
  | deadline => exact follows.deadline stands
  | answer addr r =>
    by_cases possible : addr ∈ c.called ∧ addr ∉ c.answered
    · obtain ⟨due, new⟩ := possible
      cases result : c.write.result with
      | some result_ =>
        rw [next_of_ended r due new result]
        exact follows.answer_ended stands result r due new
      | none =>
        simp only [Stands, result] at stands
        obtain ⟨counts, -, some_open⟩ := stands
        rw [next_of_open r due new result]
        exact follows.answer_open counts some_open result r due new
    · simp only [Course.next, if_neg possible]
      exact ⟨follows, stands⟩

theorem Follows.after (follows : Follows c₀ c) (stands : c.Stands c₀.called)
    (happenings : List Happening) :
    Follows c₀ (c.after happenings) ∧ (c.after happenings).Stands c₀.called := by
  induction happenings generalizing c with
  | nil => exact ⟨follows, stands⟩
  | cons h rest ih =>
    obtain ⟨still, standing⟩ := follows.next stands h
    exact ih still standing

/-- A write is open as long as its deadline has not come, too few acknowledged, and a call is
open. -/
theorem Follows.open_iff (follows : Follows c₀ c) (stands : c.Stands first)
    (nodup : c.called.Nodup) : c.write.result = none ↔ c.expired = false ∧
      (acks c.early).length < c.write.w ∧ ∃ addr ∈ c.called, addr ∉ c.answered := by
  cases result : c.write.result with
  | none =>
    simp only [Stands, result] at stands
    obtain ⟨counts, short, waiting⟩ := stands
    refine iff_of_true rfl ⟨counts.in_time, short, ?_⟩
    by_contra none_open
    push Not at none_open
    have length := nodup.length_le_of_subset none_open
    rw [answered_of_in_time follows counts.in_time, List.length_map] at length
    have left := counts.pending
    omega
  | some ended =>
    refine iff_of_false nofun ?_
    rintro ⟨in_time, short, addr, due, silent⟩
    simp only [Stands, result] at stands
    cases ended with
    | ok found => exact Nat.not_le_of_lt short stands
    | error why => exact silent (stands.2.1 in_time addr due)

theorem Stands.verdict (stands : c.Stands first) {result : Except Failure Bool}
    (ended : c.write.result = some result) :
    (result.isOk = true ↔ c.write.w ≤ (acks c.early).length) ∧
      ∀ why, result = .error why → why =
        if 0 < refusals c.early then .stale c.write.key
        else .partialWrite (acks c.early).length c.write.w := by
  simp only [Stands, ended] at stands
  cases result with
  | ok found => exact ⟨iff_of_true rfl stands, nofun⟩
  | error why =>
    refine ⟨iff_of_false nofun (Nat.not_le_of_lt stands.1), ?_⟩
    rintro _ ⟨⟩
    exact stands.2.2

end Course

end QuorumKv.Quorum.Write
