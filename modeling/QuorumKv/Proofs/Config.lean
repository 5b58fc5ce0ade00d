import QuorumKv.Config
import QuorumKv.Proofs.Text.Order

/-! What a configuration promises that passes its check, and that a switch document is read as the
plan it was written for. -/
namespace QuorumKv.Config

/-- It asks for some answers to every write and to every read, and for no more than there can be. -/
theorem quorums_of_check {config : Config} (valid : config.check = .ok ()) :
    let d := config.replication
    (0 < d.w ∧ d.w ≤ d.n) ∧ (0 < d.r ∧ d.r ≤ d.n) := by
  have quorum {some_quorum n : Nat} (allowed : ¬(some_quorum = 0 || n < some_quorum) = true) :
      0 < some_quorum ∧ some_quorum ≤ n := by
    rw [Bool.or_eq_true, not_or, decide_eq_true_eq, decide_eq_true_eq] at allowed
    exact ⟨Nat.pos_of_ne_zero allowed.1, Nat.le_of_not_lt allowed.2⟩
  unfold check at valid
  by_cases unnamed : config.replication.n = 0
  · rw [if_pos unnamed] at valid
    cases valid
  · rw [if_neg unnamed] at valid
    split at valid
    · cases valid
    · rename_i writes
      split at valid
      · cases valid
      · rename_i reads
        exact ⟨quorum writes, quorum reads⟩

/-- A typing that takes texts and tables for what they are. -/
structure Typing.IsPlain (t : Typing) : Prop where
  text : ∀ s, t.text (.text s) = some s
  fields : ∀ names fields, t.fields names (.table fields) = some fields

theorem Typing.isPlain_strict : Typing.strict.IsPlain :=
  ⟨fun _ => rfl, fun _ _ => rfl⟩

theorem Typing.isPlain_lenient : Typing.lenient.IsPlain :=
  ⟨fun _ => rfl, fun _ _ => rfl⟩

theorem mapM_map_of_inverse {α β : Type} {f : α → β} {g : β → Option α}
    (inverse : ∀ a, g (f a) = some a) (items : List α) : (items.map f).mapM g = some items := by
  induction items with
  | nil => rfl
  | cons item rest ih => simp [inverse, ih]

variable {t : Typing}

theorem texts_textList (plain : t.IsPlain) (texts : List String) :
    t.texts (textList texts) = some texts :=
  mapM_map_of_inverse plain.text texts

theorem readLists_table (plain : t.IsPlain) {lists : List (String × List String)}
    (ordered : (lists.map (·.1)).Pairwise (· < ·)) :
    readLists t (.table (lists.map fun (name, list) => (name, textList list))) = some lists := by
  have names : ((lists.map fun (name, list) => (name, textList list)).map (·.1)) =
      lists.map (·.1) := by
    rw [List.map_map]
    rfl
  rw [readLists, Text.sortedFields_of_ordered (names ▸ ordered)]
  apply mapM_map_of_inverse
  rintro ⟨name, list⟩
  simp only [texts_textList plain, Option.map_some]

/-- A plan with its lists in order is read back from its document. -/
theorem readSwitch_switchDocument (plain : t.IsPlain) {plan : Migration.Plan}
    (ordered : (plan.lists.map (·.1)).Pairwise (· < ·)) :
    readSwitch t (switchDocument plan) = some plan := by
  have stage (lists : Document) : Document.field?
      [("default_storage", .text plan.defaultStage), ("prefixes", lists)] "default_storage" =
      some (.text plan.defaultStage) := rfl
  have lists (lists : Document) : Document.field?
      [("default_storage", .text plan.defaultStage), ("prefixes", lists)] "prefixes" =
      some lists := rfl
  simp only [readSwitch, switchDocument, plain.fields, fieldOr, stage, lists, plain.text,
    readLists_table plain ordered, Option.bind_eq_bind, Option.bind_some]
  rfl

end QuorumKv.Config
