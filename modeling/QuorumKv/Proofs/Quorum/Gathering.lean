import Mathlib.Data.List.Induction
import Mathlib.Data.List.Perm.Subperm
import QuorumKv.Proofs.Quorum.Read

/-! A read together with its environment: whom it called, and whose calls have ended. Each node has
its own answer; these come in any order, and each failure calls the next candidate while other calls
are open. Yet the number of nodes that were called tells how many of them have failed, so that a
quorum, once it is complete, is that of the first candidates that answer. -/
namespace QuorumKv.Quorum.Read

variable {α : Type}

def isGathering (s : Read α) : Bool :=
  match s.stage with
  | .gathering => true
  | _ => false

section Answers

variable (tells : String → Except Failure (Option α))

/-- Whether a node answers, be it that it has no record. -/
def answers (addr : String) : Bool :=
  (tells addr).isOk

/-- What a node shows: nothing if it fails. -/
def shows (addr : String) : Option α :=
  (tells addr).toOption.join

/-- What those of some nodes say that answer. -/
def said (addrs : List String) : List (Option α) :=
  (addrs.filter (answers tells)).map (shows tells)

end Answers

variable {tells : String → Except Failure (Option α)}

theorem shows_eq_some {addr : String} {x : α} :
    shows tells addr = some x ↔ tells addr = .ok (some x) := by
  unfold shows
  cases tells addr with
  | error why => exact iff_of_false (nomatch ·) (nomatch ·)
  | ok found =>
    cases found with
    | none => exact iff_of_false (nomatch ·) (nomatch ·)
    | some y => exact ⟨congrArg Except.ok, Except.ok.inj⟩

theorem length_said (addrs : List String) :
    (said tells addrs).length = addrs.countP (answers tells) := by
  rw [said, List.length_map, List.countP_eq_length_filter]

theorem said_append (earlier later : List String) :
    said tells (earlier ++ later) = said tells earlier ++ said tells later := by
  rw [said, List.filter_append, List.map_append, said, said]

theorem said_perm {some_nodes others : List String} (perm : some_nodes.Perm others) :
    (said tells some_nodes).Perm (said tells others) :=
  (perm.filter _).map _

inductive Happening where
  /-- The call to a node ends, at a moment at which some nodes are routable. -/
  | answer (addr : String) (isRoutable : String → Bool)
  | deadline

/-- A read together with its environment. -/
structure Course (α : Type) where
  read : Read α
  /-- The nodes that were called for the quorum, in order. -/
  quorum : List String
  /-- The nodes that were called one by one after it, in order. -/
  further : List String
  /-- The nodes whose calls have ended, in that order. -/
  heard : List String
  /-- The backups that were routable when the quorum was complete. -/
  backups : List String
  /-- Whether the deadline came before that. -/
  cutOff : Bool

namespace Course

def begin (needed : Nat) (ranked : List String) : Course α :=
  let (read, calls) := start needed ranked
  ⟨read, calls, [], [], [], false⟩

def called (c : Course α) : List String :=
  c.quorum ++ c.further

/-- The read goes on and makes some calls. -/
def proceed (c : Course α) (read : Read α) (calls backups : List String) : Course α :=
  if read.isGathering then { c with read := read, quorum := c.quorum ++ calls }
  else
    { c with
      read := read
      further := c.further ++ calls
      backups := if c.read.isGathering then backups else c.backups }

/-- One more thing happens, to a read of a bucket with some backups. Each call ends once, and with
the node's own answer. -/
def next (rev : α → Revision) (tells : String → Except Failure (Option α)) (backups : List String)
    (c : Course α) : Happening → Course α
  | .answer addr isRoutable =>
    if addr ∈ c.called ∧ addr ∉ c.heard then
      let live := backups.filter isRoutable
      let (read, calls) := c.read.absorb rev live (tells addr)
      { c with heard := c.heard ++ [addr] }.proceed read calls live
    else c
  | .deadline => { c with read := c.read.expire, cutOff := c.cutOff || c.read.isGathering }

def after (rev : α → Revision) (tells : String → Except Failure (Option α)) (backups : List String)
    (c : Course α) (happenings : List Happening) : Course α :=
  happenings.foldl (next rev tells backups) c

/-! ## What a course keeps -/

section Stands

variable (tells : String → Except Failure (Option α)) (needed : Nat) (ranked : List String)

/-- While a quorum is gathered, as many nodes are called as are needed, and one more for each that
failed, as long as there are any. -/
structure Counts (c : Course α) : Prop where
  stage : c.read.stage = .gathering
  quota : c.read.needed = needed
  order : c.quorum ++ c.read.untried = ranked
  alone : c.further = []
  once : c.heard.Nodup
  due : c.heard ⊆ c.quorum
  pending : c.read.pending + c.heard.length = c.quorum.length
  responses : c.read.responses = said tells c.heard
  size : c.quorum.length =
    min (needed + c.heard.countP fun addr => !answers tells addr) ranked.length
  sparing : c.quorum.dropLast.countP (answers tells) < needed

/-- A quorum is complete. It consists of the first candidates in rank that answer. -/
structure Complete (quorum : List String) (responses : List (Option α)) : Prop where
  order : quorum <+: ranked
  first : quorum.filter (answers tells) = (ranked.filter (answers tells)).take needed
  enough : needed ≤ ranked.countP (answers tells)
  responses : responses.Perm
    (((ranked.filter (answers tells)).take needed).map (shows tells))
  sparing : quorum.dropLast.countP (answers tells) < needed

/-- The nodes that are asked one by one when no quorum member has a record. -/
def spare (c : Course α) : List String :=
  ranked.drop c.quorum.length ++ c.backups

/-- Where a read stands that no deadline has cut off. -/
inductive Stands (rev : α → Revision) (c : Course α) : Prop where
  | gathering (counts : c.Counts tells needed ranked) (short : c.read.responses.length < needed)
      (waits : 0 < c.read.pending)
  | fell_short (all : c.quorum = ranked) (alone : c.further = []) (heard : c.heard.Perm ranked)
      (short : ranked.countP (answers tells) < needed)
      (sparing : c.quorum.dropLast.countP (answers tells) < needed)
      (stage : c.read.stage =
        .done (.error (.readQuorum (ranked.countP (answers tells)) needed)))
  | found {x : α} (complete : Complete tells needed ranked c.quorum c.read.responses)
      (alone : c.further = []) (heard : c.heard.Perm c.quorum)
      (newest : c.read.newest rev = some x) (stage : c.read.stage = .done (.ok (some x)))
  | through {addr : String} {rest : List String} (passed : List String)
      (complete : Complete tells needed ranked c.quorum c.read.responses)
      (further : c.further = passed ++ [addr]) (heard : c.heard.Perm (c.quorum ++ passed))
      (none_newest : c.read.newest rev = none) (silent : ∀ a ∈ passed, shows tells a = none)
      (order : c.spare ranked = passed ++ addr :: rest) (stage : c.read.stage = .through rest)
  | ended (complete : Complete tells needed ranked c.quorum c.read.responses)
      (further : c.further <+: c.spare ranked) (heard : c.heard.Perm (c.quorum ++ c.further))
      (none_newest : c.read.newest rev = none)
      (stage : c.read.stage = .done (.ok ((c.spare ranked).findSome? (shows tells))))

end Stands

variable {rev : α → Revision} {needed : Nat} {ranked backups : List String} {c : Course α}

theorem countP_add (tells : String → Except Failure (Option α)) (addrs : List String) :
    addrs.countP (answers tells) + addrs.countP (fun addr => !answers tells addr) =
      addrs.length := by
  rw [List.length_eq_countP_add_countP (answers tells)]
  simp only [Bool.not_eq_true, Bool.decide_eq_false]

theorem Counts.length_responses (counts : c.Counts tells needed ranked) :
    c.read.responses.length = c.heard.countP (answers tells) := by
  rw [counts.responses, length_said]

theorem Counts.in_rank (counts : c.Counts tells needed ranked) : c.quorum <+: ranked :=
  ⟨c.read.untried, counts.order⟩

/-- Candidates of which as many answer as are needed end with the last of these. -/
theorem filter_of_count {quorum : List String} (order : quorum <+: ranked)
    (exact_number : quorum.countP (answers tells) = needed) :
    quorum.filter (answers tells) = (ranked.filter (answers tells)).take needed := by
  have chosen := List.prefix_iff_eq_take.mp (order.filter (answers tells))
  rwa [← List.countP_eq_length_filter, exact_number] at chosen

/-- When as many answers have come as are needed, no call is open any more. -/
theorem Counts.complete (counts : c.Counts tells needed ranked)
    (full : needed ≤ c.read.responses.length) :
    c.heard.Perm c.quorum ∧
      Complete tells needed ranked c.quorum c.read.responses := by
  have pending := counts.pending
  have size := counts.size
  have parts := countP_add tells c.heard
  rw [counts.length_responses] at full
  -- `size` leaves no member of the quorum beyond those that answered or failed
  have heard : c.heard.Perm c.quorum :=
    (List.subperm_of_subset counts.once counts.due).perm_of_length_le (by omega)
  have exact_number : c.quorum.countP (answers tells) = needed := by
    rw [← heard.countP_eq]
    have same := heard.length_eq
    omega
  have first := filter_of_count counts.in_rank exact_number
  refine ⟨heard, counts.in_rank, first, ?_, ?_, counts.sparing⟩
  · rw [← exact_number]
    exact counts.in_rank.sublist.countP_le
  · rw [counts.responses, ← first]
    exact said_perm heard

/-- When all calls have ended before that, every candidate has been called. -/
theorem Counts.fell_short (counts : c.Counts tells needed ranked)
    (short : c.read.responses.length < needed) (last : c.read.pending = 0) :
    c.quorum = ranked ∧ c.heard.Perm ranked ∧
      c.read.responses.length = ranked.countP (answers tells) := by
  have pending := counts.pending
  have size := counts.size
  have parts := countP_add tells c.heard
  have responses := counts.length_responses
  have heard : c.heard.Perm c.quorum :=
    (List.subperm_of_subset counts.once counts.due).perm_of_length_le (by omega)
  have all : c.quorum = ranked := counts.in_rank.eq_of_length_le (by omega)
  rw [all] at heard
  exact ⟨all, heard, responses.trans (heard.countP_eq _)⟩

/-- The nodes behind the quorum are asked one by one. -/
theorem stands_askNext {passed addrs : List String}
    (complete : Complete tells needed ranked c.quorum c.read.responses)
    (further : c.further = passed) (heard : c.heard.Perm (c.quorum ++ passed))
    (none_newest : c.read.newest rev = none) (silent : ∀ a ∈ passed, shows tells a = none)
    (order : c.spare ranked = passed ++ addrs) :
    Stands tells needed ranked rev
      { c with
        read := (c.read.askNext addrs).1
        further := c.further ++ (c.read.askNext addrs).2 } := by
  cases addrs with
  | nil =>
    rw [List.append_nil] at order
    have all_silent : (c.spare ranked).findSome? (shows tells) = none :=
      List.findSome?_eq_none_iff.mpr (order ▸ silent)
    simp only [askNext, List.append_nil]
    refine .ended complete ?_ (further ▸ heard) none_newest ?_
    · exact (further.trans order.symm) ▸ List.prefix_refl _
    · exact congrArg (fun found => Stage.done (.ok found)) all_silent.symm
  | cons addr rest =>
    have called : c.further ++ [addr] = passed ++ [addr] := congrArg (· ++ [addr]) further
    exact .through passed complete called heard none_newest silent order rfl

theorem isGathering_askNext (s : Read α) (addrs : List String) :
    (s.askNext addrs).1.isGathering = false := by
  cases addrs <;> rfl

/-- A read that has counted an answer waits for more, falls short, or has a quorum. -/
theorem stands_advance (counts : c.Counts tells needed ranked) (live : List String) :
    Stands tells needed ranked rev
      (c.proceed (c.read.advance rev live).1 (c.read.advance rev live).2 live) := by
  have gathering : c.read.isGathering = true := by rw [isGathering, counts.stage]
  unfold advance
  by_cases full : c.read.needed ≤ c.read.responses.length
  · rw [if_pos full]
    rw [counts.quota] at full
    obtain ⟨heard, complete⟩ := counts.complete full
    cases won : Revision.latest rev (c.read.responses.filterMap id) with
    | some x => exact .found complete (congrArg (· ++ []) counts.alone) heard won rfl
    | none =>
      let d : Course α := { c with backups := live }
      have order : d.spare ranked = [] ++ (c.read.untried ++ live) := by
        have left : ranked.drop c.quorum.length = c.read.untried := by
          rw [← counts.order, List.drop_left]
        exact congrArg (· ++ live) left
      have none_newest : d.read.newest rev = none := won
      have asked := stands_askNext (c := d) complete counts.alone
        (by simpa only [List.append_nil] using heard) none_newest (List.forall_mem_nil _) order
      simp only
      rw [proceed, if_neg (by simp [isGathering_askNext]), if_pos gathering]
      exact asked
  · rw [if_neg full]
    rw [counts.quota] at full
    by_cases last : c.read.pending = 0
    · rw [if_pos last]
      obtain ⟨all, heard, count⟩ := counts.fell_short (Nat.lt_of_not_le full) last
      refine .fell_short all (congrArg (· ++ []) counts.alone) heard ?_ counts.sparing ?_
      · omega
      · rw [← count, ← counts.quota]
        rfl
    · rw [if_neg last, proceed, if_pos gathering]
      simp only [List.append_nil]
      exact .gathering counts (Nat.lt_of_not_le full) (Nat.pos_of_ne_zero last)

variable {addr : String}

theorem once_snoc (counts : c.Counts tells needed ranked) (due : addr ∈ c.quorum)
    (new : addr ∉ c.heard) : (c.heard ++ [addr]).Nodup ∧ c.heard ++ [addr] ⊆ c.quorum := by
  constructor
  · rw [List.nodup_append]
    refine ⟨counts.once, List.nodup_cons.mpr ⟨List.not_mem_nil, .nil⟩, ?_⟩
    rintro a known b one rfl
    exact new (List.mem_singleton.mp one ▸ known)
  · intro a listed
    obtain old | last := List.mem_append.mp listed
    · exact counts.due old
    · exact List.mem_singleton.mp last ▸ due

/-- An answer, or a failure for which there is no other candidate. -/
theorem counts_heard (counts : c.Counts tells needed ranked) (waits : 0 < c.read.pending)
    (due : addr ∈ c.quorum) (new : addr ∉ c.heard)
    (final : answers tells addr = true ∨ c.read.untried = []) :
    Counts tells needed ranked { c with
      heard := c.heard ++ [addr]
      read := { c.read with
        pending := c.read.pending - 1
        responses := c.read.responses ++ said tells [addr] } } := by
  obtain ⟨once, inside⟩ := once_snoc counts due new
  refine ⟨counts.stage, counts.quota, counts.order, counts.alone, once, inside, ?_, ?_, ?_,
    counts.sparing⟩
  · have pending := counts.pending
    simp only [List.length_append, List.length_singleton]
    omega
  · simp only [said_append, counts.responses]
  · have size := counts.size
    obtain answer | all := final
    · simpa [List.countP_append, answer] using size
    · have order := counts.order
      rw [all, List.append_nil] at order
      rw [order] at size ⊢
      simp only [List.countP_append]
      omega

/-- A failure that calls the next candidate. -/
theorem counts_replaced {next : String} {rest : List String}
    (counts : c.Counts tells needed ranked) (due : addr ∈ c.quorum) (new : addr ∉ c.heard)
    (failed : answers tells addr = false) (untried : c.read.untried = next :: rest) :
    Counts tells needed ranked { c with
      heard := c.heard ++ [addr]
      read := { c.read with untried := rest }
      quorum := c.quorum ++ [next] } := by
  obtain ⟨once, inside⟩ := once_snoc counts due new
  have order := counts.order
  rw [untried] at order
  have more : c.quorum.length + 1 + rest.length = ranked.length := by
    rw [← order, List.length_append, List.length_cons]
    omega
  have size := counts.size
  have fails : (c.heard ++ [addr]).countP (fun a => !answers tells a) =
      c.heard.countP (fun a => !answers tells a) + 1 := by
    simp [List.countP_append, failed]
  refine ⟨counts.stage, counts.quota, ?_, counts.alone, once, ?_, ?_, ?_, ?_, ?_⟩
  · simpa only [List.append_assoc, List.singleton_append] using order
  · exact List.subset_append_of_subset_left _ inside
  · have pending := counts.pending
    simp only [List.length_append, List.length_singleton]
    omega
  · have silent : said tells [addr] = [] := by simp [said, failed]
    simp only [said_append, silent, List.append_nil, counts.responses]
  · simp only [fails, List.length_append, List.length_singleton]
    omega
  · have among := (List.subperm_of_subset once inside).countP_le fun a => !answers tells a
    have parts := countP_add tells c.quorum
    rw [List.dropLast_concat]
    omega

/-- The call to a node of an incomplete quorum ends. -/
theorem stands_gathered (counts : c.Counts tells needed ranked)
    (short : c.read.responses.length < needed) (waits : 0 < c.read.pending)
    (due : addr ∈ c.quorum) (new : addr ∉ c.heard) (live : List String) :
    let (read, calls) := c.read.absorb rev live (tells addr)
    Stands tells needed ranked rev
      (({ c with heard := c.heard ++ [addr] } : Course α).proceed read calls live) := by
  cases told : tells addr with
  | ok found =>
    have answer : answers tells addr = true := by
      rw [answers, told]
      rfl
    have heard := counts_heard counts waits due new (.inl answer)
    have one : said tells [addr] = [found] := by simp [said, shows, answer, told, Except.toOption]
    rw [one] at heard
    have step : c.read.absorb rev live (.ok found) = Read.advance rev live { c.read with
        pending := c.read.pending - 1, responses := c.read.responses ++ [found] } := by
      simp only [absorb, counts.stage]
    rw [step]
    exact stands_advance heard live
  | error why =>
    have failed : answers tells addr = false := by
      rw [answers, told]
      rfl
    cases untried : c.read.untried with
    | nil =>
      have heard := counts_heard counts waits due new (.inr untried)
      have silent : said tells [addr] = [] := by simp [said, failed]
      rw [silent, List.append_nil] at heard
      have step : c.read.absorb rev live (.error why) =
          Read.advance rev live { c.read with pending := c.read.pending - 1 } := by
        simp only [absorb, counts.stage, untried]
      rw [step]
      exact stands_advance heard live
    | cons next rest =>
      have heard := counts_replaced counts due new failed untried
      have step : c.read.absorb rev live (.error why) =
          ({ c.read with untried := rest }, [next]) := by
        simp only [absorb, counts.stage, untried]
      have gathering : isGathering { c.read with untried := rest } = true := by
        simp only [isGathering, counts.stage]
      simp only [step]
      rw [proceed, if_pos gathering]
      exact .gathering heard short waits

/-- The node behind the quorum that is being asked answers or fails. -/
theorem stands_through {passed rest : List String}
    (complete : Complete tells needed ranked c.quorum c.read.responses)
    (further : c.further = passed ++ [addr]) (heard : c.heard.Perm (c.quorum ++ passed))
    (none_newest : c.read.newest rev = none) (silent : ∀ a ∈ passed, shows tells a = none)
    (order : c.spare ranked = passed ++ addr :: rest) (stage : c.read.stage = .through rest)
    (live : List String) :
    let (read, calls) := c.read.absorb rev live (tells addr)
    Stands tells needed ranked rev
      (({ c with heard := c.heard ++ [addr] } : Course α).proceed read calls live) := by
  have past : c.read.isGathering = false := by simp only [isGathering, stage]
  have order' : c.spare ranked = (passed ++ [addr]) ++ rest := by
    rw [order, List.append_assoc, List.singleton_append]
  have heard' : (c.heard ++ [addr]).Perm (c.quorum ++ (passed ++ [addr])) := by
    rw [← List.append_assoc]
    exact heard.append_right _
  have passes (nothing : shows tells addr = none) : Stands tells needed ranked rev
      (({ c with heard := c.heard ++ [addr] } : Course α).proceed (c.read.askNext rest).1
        (c.read.askNext rest).2 live) := by
    have still : ∀ a ∈ passed ++ [addr], shows tells a = none := by
      intro a listed
      obtain old | last := List.mem_append.mp listed
      · exact silent a old
      · exact List.mem_singleton.mp last ▸ nothing
    rw [proceed, if_neg (by simp [isGathering_askNext]), if_neg (by simp [past])]
    exact stands_askNext (c := { c with heard := c.heard ++ [addr] }) complete further heard'
      none_newest still order'
  cases told : tells addr with
  | error why =>
    have step : c.read.absorb rev live (.error why) = c.read.askNext rest := by
      simp only [absorb, stage]
    rw [step]
    exact passes (by rw [shows, told]; rfl)
  | ok found =>
    cases found with
    | none =>
      have step : c.read.absorb rev live (.ok none) = c.read.askNext rest := by
        simp only [absorb, stage]
      rw [step]
      exact passes (by rw [shows, told]; rfl)
    | some x =>
      have shown : shows tells addr = some x := shows_eq_some.mpr told
      have first : (c.spare ranked).findSome? (shows tells) = some x := by
        rw [order, List.findSome?_append, List.findSome?_eq_none_iff.mpr silent]
        simp [shown]
      have step : c.read.absorb rev live (.ok (some x)) =
          ({ c.read with stage := .done (pure (some x)) }, []) := by simp only [absorb, stage]
      simp only [step]
      rw [proceed, if_neg (by simp [isGathering]), if_neg (by simp [past])]
      refine .ended complete ?_ ?_ none_newest ?_
      · simp only [further, List.append_nil]
        exact ⟨rest, order'.symm⟩
      · simpa only [further, List.append_nil] using heard'
      · exact congrArg (fun found => Stage.done (.ok found)) first.symm

/-- A call ends. -/
theorem stands_answer (stands : c.Stands tells needed ranked rev) (due : addr ∈ c.called)
    (new : addr ∉ c.heard) (live : List String) :
    let (read, calls) := c.read.absorb rev live (tells addr)
    Stands tells needed ranked rev
      (({ c with heard := c.heard ++ [addr] } : Course α).proceed read calls live) := by
  cases stands with
  | gathering counts short waits =>
    rw [called, counts.alone, List.append_nil] at due
    exact stands_gathered counts short waits due new live
  | fell_short all alone heard =>
    rw [called, all, alone, List.append_nil] at due
    exact absurd (heard.mem_iff.mpr due) new
  | found complete alone heard =>
    rw [called, alone, List.append_nil] at due
    exact absurd (heard.mem_iff.mpr due) new
  | through passed complete further heard none_newest silent order stage =>
    rw [called, further, ← List.append_assoc] at due
    obtain old | last := List.mem_append.mp due
    · exact absurd (heard.mem_iff.mpr old) new
    · obtain rfl := List.mem_singleton.mp last
      exact stands_through complete further heard none_newest silent order stage live
  | ended complete further heard =>
    exact absurd (heard.mem_iff.mpr due) new

theorem heard_proceed (c : Course α) (read : Read α) (calls live : List String) :
    (c.proceed read calls live).heard = c.heard := by
  unfold proceed
  split <;> rfl

theorem read_proceed (c : Course α) (read : Read α) (calls live : List String) :
    (c.proceed read calls live).read = read := by
  unfold proceed
  split <;> rfl

theorem cutOff_proceed (c : Course α) (read : Read α) (calls live : List String) :
    (c.proceed read calls live).cutOff = c.cutOff := by
  unfold proceed
  split <;> rfl

theorem called_proceed (c : Course α) (read : Read α) (calls live : List String) :
    (c.proceed read calls live).called.Perm (calls ++ c.called) := by
  unfold proceed called
  split
  · rw [← List.append_assoc]
    exact List.perm_append_comm.append_right _
  · rw [← List.append_assoc]
    exact List.perm_append_comm

theorem next_answer {isRoutable : String → Bool} (due : addr ∈ c.called)
    (new : addr ∉ c.heard) : c.next rev tells backups (.answer addr isRoutable) =
      ({ c with heard := c.heard ++ [addr] } : Course α).proceed
        (c.read.absorb rev (backups.filter isRoutable) (tells addr)).1
        (c.read.absorb rev (backups.filter isRoutable) (tells addr)).2
        (backups.filter isRoutable) := by
  simp only [next, if_pos (And.intro due new)]

theorem after_snoc (rev : α → Revision) (tells : String → Except Failure (Option α))
    (backups : List String) (c : Course α) (earlier : List Happening) (h : Happening) :
    c.after rev tells backups (earlier ++ [h]) =
      (c.after rev tells backups earlier).next rev tells backups h := by
  simp only [after, List.foldl_append, List.foldl_cons, List.foldl_nil]

theorem cutOff_next (rev : α → Revision) (tells : String → Except Failure (Option α))
    (backups : List String) (c : Course α) (h : Happening)
    (in_time : (c.next rev tells backups h).cutOff = false) : c.cutOff = false := by
  cases h with
  | answer addr isRoutable =>
    simp only [next] at in_time
    split at in_time
    · rwa [cutOff_proceed] at in_time
    · exact in_time
  | deadline => exact (Bool.or_eq_false_iff.mp in_time).1

theorem stands_next (stands : c.Stands tells needed ranked rev) (backups : List String)
    (h : Happening) (in_time : (c.next rev tells backups h).cutOff = false) :
    (c.next rev tells backups h).Stands tells needed ranked rev := by
  cases h with
  | answer addr isRoutable =>
    by_cases possible : addr ∈ c.called ∧ addr ∉ c.heard
    · rw [next_answer possible.1 possible.2]
      exact stands_answer stands possible.1 possible.2 (backups.filter isRoutable)
    · simp only [next, if_neg possible]
      exact stands
  | deadline =>
    have past : c.read.isGathering = false := (Bool.or_eq_false_iff.mp in_time).2
    have idle : c.read.expire = c.read := by
      unfold expire
      split
      · rename_i stage
        simp only [isGathering, stage, Bool.true_eq_false] at past
      · rfl
    simp only [next, idle]
    cases stands with
    | gathering counts => simp only [isGathering, counts.stage, Bool.true_eq_false] at past
    | fell_short all alone heard short sparing stage =>
      exact .fell_short all alone heard short sparing stage
    | found complete alone heard newest stage => exact .found complete alone heard newest stage
    | through passed complete further heard none_newest silent order stage =>
      exact .through passed complete further heard none_newest silent order stage
    | ended complete further heard none_newest stage =>
      exact .ended complete further heard none_newest stage

theorem stands_begin (positive : 0 < needed) :
    (begin needed ranked).Stands tells needed ranked rev := by
  have some_needed : needed ≠ 0 := by omega
  let s : Read α :=
    ⟨needed, ranked.drop needed, (ranked.take needed).length, [], .gathering⟩
  have first : (begin needed ranked : Course α) =
      ⟨if (ranked.take needed).isEmpty then s.shortfall else s, ranked.take needed, [], [], [],
        false⟩ := rfl
  rw [first]
  by_cases silent : (ranked.take needed).isEmpty = true
  · rw [if_pos silent]
    have none_ranked : ranked = [] := by simpa [some_needed] using silent
    subst none_ranked
    refine .fell_short List.take_nil rfl (.refl _) positive ?_ rfl
    rw [List.take_nil]
    exact positive
  · rw [if_neg silent]
    have size : (ranked.take needed).length = min needed ranked.length := List.length_take ..
    have some_call : 0 < (ranked.take needed).length := by
      rw [List.isEmpty_iff_length_eq_zero] at silent
      exact Nat.pos_of_ne_zero silent
    refine .gathering ⟨rfl, rfl, List.take_append_drop .., rfl, .nil, List.nil_subset _, rfl, rfl,
      size, ?_⟩ positive some_call
    have fewer := List.countP_le_length (p := answers tells) (l := (ranked.take needed).dropLast)
    rw [List.length_dropLast] at fewer
    simp only
    omega

theorem stands_after (positive : 0 < needed) (rev : α → Revision) (backups : List String)
    (happenings : List Happening) :
    let c := (begin needed ranked).after rev tells backups happenings
    c.cutOff = false → c.Stands tells needed ranked rev := by
  induction happenings using List.reverseRecOn with
  | nil => exact fun _ => stands_begin positive
  | append_singleton earlier h ih =>
    simp only [after_snoc]
    intro in_time
    exact stands_next (ih (cutOff_next rev tells backups _ h in_time)) backups h in_time

/-- A course depends on the answers of the nodes that it has heard. -/
theorem after_congr {told : String → Except Failure (Option α)} {happenings : List Happening}
    (same : ∀ addr ∈ (c.after rev tells backups happenings).heard, told addr = tells addr) :
    c.after rev told backups happenings = c.after rev tells backups happenings := by
  induction happenings using List.reverseRecOn with
  | nil => rfl
  | append_singleton earlier h ih =>
    rw [after_snoc] at same
    rw [after_snoc, after_snoc]
    generalize c.after rev tells backups earlier = d at ih same
    cases h with
    | answer addr isRoutable =>
      by_cases possible : addr ∈ d.called ∧ addr ∉ d.heard
      · obtain ⟨due, new⟩ := possible
        rw [next_answer due new, heard_proceed] at same
        rw [ih fun a known => same a (List.mem_append_left _ known), next_answer due new,
          next_answer due new, same addr (List.mem_append_right _ List.mem_cons_self)]
      · simp only [next, if_neg possible] at same ⊢
        rw [ih same, if_neg possible]
    | deadline => simp only [next, ih same]

/-- Whether a course has not come to its backups: it gathers a quorum or has failed to. -/
def IsEarly (c : Course α) : Prop :=
  c.read.isGathering = true ∨ ∃ why, c.read.stage = .done (.error why)

/-- The routable backups are noted by the answer that ends the gathering, and never again. -/
theorem backups_next (rev : α → Revision) (tells : String → Except Failure (Option α))
    (backups : List String) (c : Course α) (h : Happening) :
    (∃ addr isRoutable, h = .answer addr isRoutable ∧
      (c.next rev tells backups h).backups = backups.filter isRoutable) ∨
    (c.next rev tells backups h).backups = c.backups ∧
      (c.IsEarly → (c.next rev tells backups h).IsEarly) := by
  cases h with
  | answer addr isRoutable =>
    by_cases possible : addr ∈ c.called ∧ addr ∉ c.heard
    · rw [next_answer possible.1 possible.2]
      by_cases on : (c.read.absorb rev (backups.filter isRoutable) (tells addr)).1.isGathering
      · rw [proceed, if_pos on]
        exact .inr ⟨rfl, fun _ => .inl on⟩
      · rw [proceed, if_neg on]
        by_cases was : c.read.isGathering = true
        · exact .inl ⟨addr, isRoutable, rfl, if_pos was⟩
        · refine .inr ⟨if_neg was, fun early => .inr ?_⟩
          obtain ⟨why, stage⟩ := early.resolve_left was
          exact ⟨why, by simp only [absorb, stage]⟩
    · simp only [next, if_neg possible]
      exact .inr ⟨trivial, id⟩
  | deadline =>
    refine .inr ⟨rfl, ?_⟩
    rintro (gathering | ⟨why, stage⟩)
    · refine .inr ⟨.readQuorum c.read.responses.length c.read.needed, ?_⟩
      cases stage : c.read.stage with
      | gathering =>
        simp only [next, expire, stage]
        rfl
      | through rest => simp [isGathering, stage] at gathering
      | done result => simp [isGathering, stage] at gathering
    · exact .inr ⟨why, by simp only [next, expire, stage]⟩

/-- Beyond its quorum, the backups of a course are those of its bucket that were routable at one of
its answers. -/
theorem backups_after (rev : α → Revision) (tells : String → Except Failure (Option α))
    (backups : List String) (happenings : List Happening) :
    let c := (begin needed ranked : Course α).after rev tells backups happenings
    (∃ addr isRoutable, .answer addr isRoutable ∈ happenings ∧
      c.backups = backups.filter isRoutable) ∨ c.backups = [] ∧ c.IsEarly := by
  induction happenings using List.reverseRecOn with
  | nil =>
    refine .inr ⟨rfl, ?_⟩
    simp only [after, List.foldl_nil, begin, start]
    split
    · exact .inr ⟨_, rfl⟩
    · exact .inl rfl
  | append_singleton earlier h ih =>
    simp only [after_snoc]
    obtain ⟨addr, isRoutable, rfl, now⟩ | ⟨same, early⟩ := backups_next rev tells backups _ h
    · exact .inl ⟨addr, isRoutable, List.mem_append_right _ List.mem_cons_self, now⟩
    · rw [same]
      obtain ⟨addr, isRoutable, listed, known⟩ | ⟨none_yet, before⟩ := ih
      · exact .inl ⟨addr, isRoutable, List.mem_append_left _ listed, known⟩
      · exact .inr ⟨none_yet, early before⟩

end Course

end QuorumKv.Quorum.Read
