import QuorumKv.Proofs.Quorum.Read

/-! A read whose nodes all answer, each in its turn: the newest record of the quorum, or else the
first record that the other nodes have. -/
namespace QuorumKv.Quorum.Read

variable {α : Type} {rev : α → Revision} {liveBackups : List String}

/-- A read hears one answer after the other. -/
def hear (rev : α → Revision) (liveBackups : List String) (s : Read α) :
    List (Option α) → Read α
  | [] => s
  | found :: rest => hear rev liveBackups (s.absorb rev liveBackups (.ok found)).1 rest

/-- What a read returns when every node that it may ask answers in its turn. -/
def inOrder (rev : α → Revision) (needed : Nat) (ranked liveBackups : List String)
    (shown : String → Option α) : Option (Except Failure (Option α)) :=
  ((start needed ranked).1.hear rev liveBackups ((ranked ++ liveBackups).map shown)).result?

theorem hear_append (s : Read α) (first later : List (Option α)) :
    s.hear rev liveBackups (first ++ later) =
      (s.hear rev liveBackups first).hear rev liveBackups later := by
  induction first generalizing s with
  | nil => rfl
  | cons found rest ih => exact ih _

theorem hear_done {s : Read α} (result : Except Failure (Option α))
    (stage : s.stage = .done result) (answers : List (Option α)) :
    s.hear rev liveBackups answers = s := by
  induction answers with
  | nil => rfl
  | cons found rest ih =>
    have same : (s.absorb rev liveBackups (.ok found)).1 = s := by simp only [absorb, stage]
    rw [hear, same, ih]

/-- Until the last answer of the quorum, a read goes on waiting. -/
theorem hear_quorum (s : Read α) (answers : List (Option α)) (stage : s.stage = .gathering)
    (left : s.pending + s.responses.length = s.needed) (all : answers.length = s.pending)
    (some_left : 0 < s.pending) :
    s.hear rev liveBackups answers =
      ({ s with pending := 0, responses := s.responses ++ answers }.advance rev liveBackups).1 := by
  induction answers generalizing s with
  | nil =>
    rw [List.length_nil] at all
    omega
  | cons found rest ih =>
    rw [List.length_cons] at all
    have step : (s.absorb rev liveBackups (.ok found)) = Read.advance rev liveBackups
        { s with pending := s.pending - 1, responses := s.responses ++ [found] } := by
      simp only [absorb, stage]
    rw [hear, step]
    by_cases last : rest = []
    · subst last
      have none_left : s.pending - 1 = 0 := by
        rw [List.length_nil] at all
        omega
      rw [hear, none_left]
    · have more : 0 < rest.length := List.length_pos_iff.mpr last
      have wait : Read.advance rev liveBackups
          { s with pending := s.pending - 1, responses := s.responses ++ [found] } =
            ({ s with pending := s.pending - 1, responses := s.responses ++ [found] }, []) := by
        rw [advance, if_neg, if_neg]
        · simp only
          omega
        · simp only [List.length_append, List.length_cons, List.length_nil]
          omega
      rw [wait, ih]
      · simp only [List.append_assoc, List.cons_append, List.nil_append]
      · exact stage
      · simp only [List.length_append, List.length_cons, List.length_nil]
        omega
      · simp only
        omega
      · simp only
        omega

/-- The first record of the further nodes is the answer. -/
theorem hear_askNext (s : Read α) (addrs : List String) (shown : String → Option α) :
    ((s.askNext addrs).1.hear rev liveBackups (addrs.map shown)).result? =
      some (.ok (addrs.findSome? shown)) := by
  induction addrs generalizing s with
  | nil => rfl
  | cons addr rest ih =>
    rw [List.map_cons, hear]
    cases found : shown addr with
    | some x =>
      have step : ((s.askNext (addr :: rest)).1.absorb rev liveBackups (.ok (some x))).1 =
          { s with stage := .done (pure (some x)) } := rfl
      rw [step, hear_done (pure (some x)) rfl]
      simp only [List.findSome?_cons, found]
      rfl
    | none =>
      have step : ((s.askNext (addr :: rest)).1.absorb rev liveBackups (.ok none)) =
          askNext { s with stage := .through rest } rest := rfl
      rw [step, ih]
      simp only [List.findSome?_cons, found]

theorem inOrder_eq {needed : Nat} {ranked : List String} (positive : 0 < needed)
    (enough : needed ≤ ranked.length) (shown : String → Option α) :
    inOrder rev needed ranked liveBackups shown =
      match Revision.latest rev ((ranked.take needed).filterMap shown) with
      | some found => some (.ok (some found))
      | none => some (.ok ((ranked.drop needed ++ liveBackups).findSome? shown)) := by
  have size : (ranked.take needed).length = needed := by
    rw [List.length_take, Nat.min_eq_left enough]
  let s : Read α := ⟨needed, ranked.drop needed, needed, [], .gathering⟩
  have first : (start (α := α) needed ranked).1 = s := by
    have busy : (ranked.take needed).isEmpty = false := by
      rw [List.isEmpty_eq_false_iff, ← List.length_pos_iff]
      omega
    simp only [start, busy, size]
    rfl
  have split : (ranked ++ liveBackups).map shown = (ranked.take needed).map shown ++
      (ranked.drop needed ++ liveBackups).map shown := by
    rw [← List.map_append, ← List.append_assoc, List.take_append_drop]
  have all : ((ranked.take needed).map shown).length = s.pending :=
    (List.length_map shown).trans size
  have full : s.needed ≤ (s.responses ++ (ranked.take needed).map shown).length :=
    Nat.le_of_eq all.symm
  have records : (s.responses ++ (ranked.take needed).map shown).filterMap id =
      (ranked.take needed).filterMap shown := List.filterMap_map
  rw [inOrder, first, split, hear_append, hear_quorum s _ rfl rfl all positive, advance,
    if_pos full]
  simp only [records]
  cases won : Revision.latest rev ((ranked.take needed).filterMap shown) with
  | some found =>
    simp only
    rw [hear_done (pure (some found)) rfl]
    rfl
  | none => exact hear_askNext ..

end QuorumKv.Quorum.Read
