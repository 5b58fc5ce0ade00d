import Mathlib.Data.List.Nodup
import Mathlib.Data.List.Perm.Basic
import QuorumKv.Proofs.Assoc
import QuorumKv.Proofs.Key
import QuorumKv.Proofs.Quorum.Fetch

/-! The groups of a fetch, each of which goes its own way. What is proved of the group that goes on
holds of the whole fetch and of the calls that it waits for. In the end what the groups have found
comes together in the order of the keys, whichever of them was done first. -/
namespace QuorumKv.Quorum.Fetch

variable {m : Fetch} {bucket : Nat} {g h : Group}

/-- The one group of a bucket can be looked up. -/
theorem group?_of_mem (nodup : (m.groups.map (·.bucket)).Nodup) (listed : g ∈ m.groups) :
    m.group? g.bucket = some g := by
  unfold group?
  generalize m.groups = groups at nodup listed
  induction groups with
  | nil => cases listed
  | cons first rest ih =>
    obtain ⟨new, others⟩ := List.nodup_cons.mp nodup
    obtain rfl | later := List.mem_cons.mp listed
    · exact List.find?_cons_of_pos (beq_self_eq_true _)
    · have other : ¬(first.bucket == g.bucket) = true := by
        intro same
        exact new (List.mem_map.mpr ⟨g, later, (beq_iff_eq.mp same).symm⟩)
      rw [List.find?_cons, Bool.eq_false_iff.mpr other]
      exact ih others later

theorem bucket_of_group? (grouped : m.group? bucket = some g) : g.bucket = bucket :=
  beq_iff_eq.mp (List.find?_some (p := fun h : Group => h.bucket == bucket) grouped)

theorem group?_putGroup (grouped : m.group? bucket = some g) (same : h.bucket = bucket) :
    (m.putGroup h).group? bucket = some h := by
  have about (x : Group) :
      ((if x.bucket = h.bucket then h else x).bucket == bucket) = (x.bucket == bucket) := by
    by_cases here : x.bucket = h.bucket
    · rw [if_pos here, here]
    · rw [if_neg here]
  have place : g.bucket = h.bucket := (bucket_of_group? grouped).trans same.symm
  have found : m.groups.find? (fun x => x.bucket == bucket) = some g := grouped
  simp only [group?, putGroup, List.find?_map, Function.comp_def, about, found, Option.map_some,
    if_pos place]

/-- A group goes, and the one that takes its place comes. -/
theorem groups_putGroup (nodup : (m.groups.map (·.bucket)).Nodup)
    (grouped : m.group? bucket = some g) :
    ∃ rest, m.groups.Perm (g :: rest) ∧ ∀ h : Group, h.bucket = bucket →
      (m.putGroup h).groups.Perm (h :: rest) ∧
        (m.putGroup h).groups.map (·.bucket) = m.groups.map (·.bucket) := by
  have about := bucket_of_group? grouped
  obtain ⟨before, after, groups⟩ := List.append_of_mem (mem_of_group? grouped)
  refine ⟨before ++ after, groups ▸ List.perm_middle, fun h same => ⟨?_, ?_⟩⟩
  · rw [groups, List.map_append, List.map_cons, List.nodup_append, List.nodup_cons] at nodup
    obtain ⟨-, ⟨later, -⟩, apart⟩ := nodup
    have stay {some_groups : List Group} (others : ∀ x ∈ some_groups, x.bucket ≠ g.bucket) :
        some_groups.map (fun x => if x.bucket = h.bucket then h else x) = some_groups := by
      refine (List.map_congr_left fun x listed => if_neg ?_).trans (List.map_id _)
      rw [same, ← about]
      exact others x listed
    have put : (m.putGroup h).groups = before ++ h :: after := by
      have early : ∀ x ∈ before, x.bucket ≠ g.bucket := fun x listed =>
        apart _ (List.mem_map_of_mem listed) _ List.mem_cons_self
      have late : ∀ x ∈ after, x.bucket ≠ g.bucket := fun x listed here =>
        later (here ▸ List.mem_map_of_mem listed)
      simp only [putGroup, groups, List.map_append, List.map_cons]
      rw [stay early, stay late, if_pos (about.trans same.symm)]
    exact put ▸ List.perm_middle
  · simp only [putGroup, List.map_map]
    apply List.map_congr_left
    intro x _
    by_cases here : x.bucket = h.bucket
    · simp [here]
    · simp [here]

/-- A fetch whose groups are all in some condition, while it waits for what some of them asked. -/
structure Each {α : Type} (P : Group → Prop) (asks? : Group → Option α) (keys : List String)
    (bucketOf : String → Nat) (m : Fetch) (asked : List α) : Prop where
  keys_eq : m.keys = keys
  nodup : (m.groups.map (·.bucket)).Nodup
  covers : ∀ b, b ∈ m.groups.map (·.bucket) ↔ ∃ key ∈ keys, bucketOf key = b
  groups : ∀ g ∈ m.groups, P g
  asks : asked.Perm (m.groups.filterMap asks?)

variable {α : Type} {P : Group → Prop} {asks? : Group → Option α} {keys : List String}
  {bucketOf : String → Nat} {asked others new : List α}

/-- At the start there is a group for each bucket of the keys, with its keys. -/
theorem each_start (buckets : Nat) (keys : List String)
    (waiting : ∀ b,
      P ⟨b, keys.filter fun key => Key.bucket buckets key = b, [], .waiting⟩)
    (quiet : ∀ b some_keys, asks? ⟨b, some_keys, [], .waiting⟩ = none) :
    (start buckets keys).Each P asks? keys (Key.bucket buckets) [] := by
  have listed {g : Group} (known : g ∈ (start buckets keys).groups) :
      g = ⟨g.bucket, keys.filter fun key => Key.bucket buckets key = g.bucket, [], .waiting⟩ := by
    obtain ⟨⟨b, some_keys⟩, entry, rfl⟩ := List.mem_map.mp known
    obtain ⟨-, rfl⟩ := Key.mem_byBucket.mp entry
    rfl
  constructor
  · rfl
  · simp only [start, List.map_map]
    exact Key.nodup_byBucket buckets keys
  · intro b
    simp only [start, List.map_map, List.mem_map, Function.comp_apply]
    constructor
    · rintro ⟨⟨b, some_keys⟩, entry, rfl⟩
      exact (Key.mem_byBucket.mp entry).1
    · intro some_key
      exact ⟨(b, _), Key.mem_byBucket.mpr ⟨some_key, rfl⟩, rfl⟩
  · intro g known
    rw [listed known]
    exact waiting g.bucket
  · refine .of_eq (List.filterMap_eq_nil_iff.mpr fun g known => ?_).symm
    rw [listed known]
    exact quiet ..

/-- Which calls are counted first does not matter. -/
theorem Each.perm (each : m.Each P asks? keys bucketOf asked) (perm : asked.Perm others) :
    m.Each P asks? keys bucketOf others :=
  { each with asks := perm.symm.trans each.asks }

/-- One group goes on, and with it what it waits for. -/
theorem Each.replace (grouped : m.group? bucket = some g)
    (each : m.Each P asks? keys bucketOf asked) :
    ∃ others, asked.Perm ((asks? g).toList ++ others) ∧ ∀ h : Group, h.bucket = bucket → P h →
      (m.putGroup h).Each P asks? keys bucketOf ((asks? h).toList ++ others) := by
  obtain ⟨rest, before, put⟩ := groups_putGroup each.nodup grouped
  have split (x : Group) :
      (x :: rest).filterMap asks? = (asks? x).toList ++ rest.filterMap asks? := by
    cases asks : asks? x <;> simp [asks]
  refine ⟨rest.filterMap asks?, ?_, ?_⟩
  · rw [← split]
    exact each.asks.trans (before.filterMap _)
  · intro h same goes_on
    obtain ⟨after, buckets⟩ := put h same
    constructor
    · exact each.keys_eq
    · exact buckets ▸ each.nodup
    · exact buckets ▸ each.covers
    · intro x known
      obtain rfl | old := List.mem_cons.mp (after.mem_iff.mp known)
      · exact goes_on
      · exact each.groups x (before.mem_iff.mpr (.tail _ old))
    · rw [← split]
      exact (after.filterMap _).symm

open scoped List in
/-- A group asks for something that it did not wait for before. -/
theorem Each.ask (each : m.Each P asks? keys bucketOf asked) (grouped : m.group? bucket = some g)
    (same : h.bucket = bucket) (goes_on : P h)
    (asks : (asks? h).toList = (asks? g).toList ++ new) :
    (m.putGroup h).Each P asks? keys bucketOf (asked ++ new) := by
  obtain ⟨rest, before, after⟩ := each.replace grouped
  apply (after h same goes_on).perm
  rw [asks]
  calc (asks? g).toList ++ new ++ rest
    _ = (asks? g).toList ++ (new ++ rest) := List.append_assoc ..
    _ ~ (asks? g).toList ++ (rest ++ new) := List.perm_append_comm.append_left _
    _ = (asks? g).toList ++ rest ++ new := (List.append_assoc ..).symm
    _ ~ asked ++ new := before.symm.append_right new

open scoped List in
/-- A group has the answer that it waited for, and waits for the next. -/
theorem Each.answer {question : α} (each : m.Each P asks? keys bucketOf asked)
    (grouped : m.group? bucket = some g) (due : asks? g = some question)
    (perm : asked.Perm (question :: others)) (same : h.bucket = bucket) (goes_on : P h) :
    (m.putGroup h).Each P asks? keys bucketOf (others ++ (asks? h).toList) := by
  obtain ⟨left, before, after⟩ := each.replace grouped
  rw [due] at before
  have others_left : left ~ others := (before.symm.trans perm).cons_inv
  apply (after h same goes_on).perm
  calc (asks? h).toList ++ left
    _ ~ (asks? h).toList ++ others := others_left.append_left _
    _ ~ others ++ (asks? h).toList := List.perm_append_comm

/-- What is waited for was asked by a group. -/
theorem Each.due {question : α} (each : m.Each P asks? keys bucketOf asked)
    (listed : question ∈ asked) : ∃ g, m.group? g.bucket = some g ∧ asks? g = some question := by
  obtain ⟨g, known, asks⟩ := List.mem_filterMap.mp (each.asks.mem_iff.mp listed)
  exact ⟨g, group?_of_mem each.nodup known, asks⟩

/-- Without a result it waits for a node, or has not begun with some bucket. -/
theorem Each.waits (each : m.Each P asks? keys bucketOf asked)
    (asks : ∀ g ∈ m.groups, ∀ rest, g.stage = .asking rest → asks? g ≠ none)
    (open_ : m.result? = none) : asked ≠ [] ∨ m.waiting? ≠ none := by
  simp only [result?, ite_eq_right_iff, reduceCtorEq, imp_false, List.all_eq_true,
    beq_iff_eq, not_forall] at open_
  obtain ⟨g, known, going⟩ := open_
  cases stage : g.stage with
  | waiting =>
    right
    simp only [waiting?, ne_eq, Option.map_eq_none_iff, List.find?_eq_none, not_forall]
    exact ⟨g, known, by simp [stage]⟩
  | asking rest =>
    left
    rintro rfl
    obtain ⟨question, due⟩ := Option.ne_none_iff_exists'.mp (asks g known rest stage)
    have listed := List.mem_filterMap.mpr ⟨g, known, due⟩
    rw [← each.asks.mem_iff] at listed
    cases listed
  | done => exact absurd stage going

/-- What all groups have found once they are done. -/
theorem Each.mem_found {show_ : String → Option Item} {key : String} {item : Item}
    (each : m.Each P asks? keys bucketOf asked) (done : ∀ g ∈ m.groups, g.stage = .done)
    (found : ∀ g ∈ m.groups, g.stage = .done → ∀ key item, (key, item) ∈ g.found ↔
      key ∈ keys ∧ bucketOf key = g.bucket ∧ show_ key = some item) :
    (key, item) ∈ m.groups.flatMap (·.found) ↔ key ∈ keys ∧ show_ key = some item := by
  rw [List.mem_flatMap]
  constructor
  · rintro ⟨g, known, listed⟩
    obtain ⟨asked_for, -, shown⟩ := (found g known (done g known) key item).mp listed
    exact ⟨asked_for, shown⟩
  · rintro ⟨asked_for, shown⟩
    obtain ⟨g, known, about⟩ :=
      List.mem_map.mp ((each.covers (bucketOf key)).mpr ⟨key, asked_for, rfl⟩)
    exact ⟨g, known, (found g known (done g known) key item).mpr ⟨asked_for, about.symm, shown⟩⟩

/-- It returns what the groups have found, each key once and in the order in which it first came. -/
theorem Each.result {show_ : String → Option Item} {values : List (String × Item)}
    (each : m.Each P asks? keys bucketOf asked)
    (found : ∀ g ∈ m.groups, g.stage = .done → ∀ key item, (key, item) ∈ g.found ↔
      key ∈ keys ∧ bucketOf key = g.bucket ∧ show_ key = some item)
    (ended : m.result? = some values) :
    values = keys.eraseDups.filterMap fun key => (show_ key).map (key, ·) := by
  unfold result? at ended
  split at ended
  · rename_i all
    obtain rfl := Option.some.inj ended
    have done (g : Group) (known : g ∈ m.groups) : g.stage = .done :=
      beq_iff_eq.mp (List.all_eq_true.mp all g known)
    rw [each.keys_eq, Assoc.inOrder_eq]
    apply List.filterMap_congr
    intro key listed
    have asked_for : key ∈ keys := List.mem_eraseDups.mp listed
    rw [Assoc.get?_foldl_put [] fun _ _ there => ((each.mem_found done found).mp there).2]
    by_cases there : key ∈ (m.groups.flatMap (·.found)).map (·.1)
    · rw [if_pos there]
    · have nothing : show_ key = none := by
        cases shown : show_ key with
        | none => rfl
        | some item =>
          have there_too := (each.mem_found done found).mpr ⟨asked_for, shown⟩
          exact absurd (List.mem_map_of_mem there_too) there
      rw [if_neg there]
      exact (congrArg _ nothing).symm
  · cases ended

end QuorumKv.Quorum.Fetch
