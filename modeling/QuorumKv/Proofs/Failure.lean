import QuorumKv.Failure

/-! What a computation has done that may fail and did not: each of its steps has succeeded. -/
namespace QuorumKv

variable {α β : Type}

theorem ok_of_bind {r : Except Failure α} {f : α → Except Failure β} {b : β}
    (ok : (r >>= f) = .ok b) : ∃ a, r = .ok a ∧ f a = .ok b := by
  cases r with
  | error e => cases ok
  | ok a => exact ⟨a, rfl, ok⟩

/-- What every step of a fold keeps, the fold keeps. -/
theorem foldlM_keeps {P : β → Prop} {f : β → α → Except Failure β}
    (step : ∀ b a b', P b → f b a = .ok b' → P b') {items : List α} {before after : β}
    (start : P before) (folded : items.foldlM f before = .ok after) : P after := by
  induction items generalizing before with
  | nil =>
    obtain rfl := Except.ok.inj folded
    exact start
  | cons item rest ih =>
    rw [List.foldlM_cons] at folded
    obtain ⟨next, one, others⟩ := ok_of_bind folded
    exact ih (step before item next start one) others

/-- A fold that appends what each item brings, as long as each item is fit and the whole stays
sound. -/
theorem foldlM_append_iff {Sound : List β → Prop} {Fit : α → Prop} {new : α → List β}
    {f : List β → α → Except Failure (List β)}
    (sound_front : ∀ front back, Sound (front ++ back) → Sound front)
    (step : ∀ before item after, Sound before →
      (f before item = .ok after ↔ Fit item ∧ Sound after ∧ after = before ++ new item))
    {items : List α} {before after : List β} (sound : Sound before) :
    items.foldlM f before = .ok after ↔
      (∀ item ∈ items, Fit item) ∧ Sound after ∧ after = before ++ items.flatMap new := by
  induction items generalizing before with
  | nil =>
    constructor
    · intro folded
      obtain rfl := Except.ok.inj folded
      exact ⟨nofun, sound, by simp⟩
    · rintro ⟨-, -, rfl⟩
      simp [pure, Except.pure]
  | cons item rest ih =>
    rw [List.foldlM_cons, List.flatMap_cons, List.forall_mem_cons, ← List.append_assoc]
    constructor
    · intro folded
      obtain ⟨next, one, others⟩ := ok_of_bind folded
      obtain ⟨fit, sound_next, rfl⟩ := (step before item next sound).mp one
      obtain ⟨all_fit, sound_after, rfl⟩ := (ih sound_next).mp others
      exact ⟨⟨fit, all_fit⟩, sound_after, rfl⟩
    · rintro ⟨⟨fit, all_fit⟩, sound_after, rfl⟩
      have sound_next := sound_front _ _ sound_after
      have one := (step before item _ sound).mpr ⟨fit, sound_next, rfl⟩
      rw [one]
      exact (ih sound_next).mpr ⟨all_fit, sound_after, rfl⟩

end QuorumKv
