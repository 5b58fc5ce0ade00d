import QuorumKv.Proofs.Node.Exchange
import QuorumKv.Quorum.Fetch
import QuorumKv.Total

/-! Whatever is still missing in a fetch can be asked for in one request, because all its keys
could. -/
namespace QuorumKv.Quorum.Fetch

/-- The place that some keys take on a request line. -/
def lineRoom (keys : List String) : Nat :=
  total (keys.map fun key => key.utf8ByteSize + 1)

theorem lineRoom_append (some_keys others : List String) :
    lineRoom (some_keys ++ others) = lineRoom some_keys + lineRoom others := by
  simp [lineRoom, total_append]

theorem lineRoom_one (key : String) : lineRoom [key] = key.utf8ByteSize + 1 := by
  simp [lineRoom, total]

theorem lineRoom_set_le (keys : List String) (i : Nat) (key : String) :
    lineRoom (keys.set i key) ≤ lineRoom keys + lineRoom [key] := by
  induction keys generalizing i with
  | nil => simp [lineRoom, total]
  | cons first rest ih =>
    cases i with
    | zero =>
      have parts := lineRoom_append [key] rest
      have whole := lineRoom_append [first] rest
      simp only [List.singleton_append] at parts whole
      rw [List.set_cons_zero, parts, whole]
      omega
    | succ i =>
      have parts := lineRoom_append [first] (rest.set i key)
      have whole := lineRoom_append [first] rest
      have later := ih i
      simp only [List.singleton_append] at parts whole
      rw [List.set_cons_succ, parts, whole]
      omega

theorem size_intercalate (keys : List String) (filled : keys ≠ []) :
    (" ".intercalate keys).utf8ByteSize + 1 = lineRoom keys := by
  induction keys with
  | nil => exact absurd rfl filled
  | cons key rest ih =>
    cases rest with
    | nil => rw [String.intercalate_singleton, lineRoom_one]
    | cons next others =>
      have whole := lineRoom_append [key] (next :: others)
      have later := ih (by simp)
      simp only [List.singleton_append, lineRoom_one] at whole
      rw [Wire.utf8ByteSize_words_cons _ _ (by simp), whole, ← later]
      omega

theorem length_getRequest {keys : List String} (filled : keys ≠ []) :
    (Wire.getRequest keys true).length = lineRoom keys + 6 := by
  have size := size_intercalate keys filled
  have name : "gets".utf8ByteSize = 4 := rfl
  rw [Wire.getRequest_eq true filled, Wire.length_line, if_pos rfl,
    Wire.utf8ByteSize_words_cons _ _ filled, name]
  omega

/-- Some of the keys take no more place, and are keys as good as the others. -/
def Within (some_keys keys : List String) : Prop :=
  (∀ key ∈ some_keys, key ∈ keys) ∧ lineRoom some_keys ≤ lineRoom keys

theorem Within.refl (keys : List String) : Within keys keys :=
  ⟨fun _ => id, Nat.le_refl _⟩

theorem Within.trans {a b c : List String} (first : Within a b) (second : Within b c) :
    Within a c :=
  ⟨fun key listed => second.1 key (first.1 key listed), Nat.le_trans first.2 second.2⟩

theorem within_sublist {some_keys keys : List String} (sub : some_keys.Sublist keys) :
    Within some_keys keys := by
  induction sub with
  | slnil => exact .refl []
  | cons key _ ih =>
    have whole := lineRoom_append [key]
    simp only [List.singleton_append] at whole
    refine ⟨fun k listed => .tail _ (ih.1 k listed), ?_⟩
    rw [whole]
    exact Nat.le_trans ih.2 (Nat.le_add_left _ _)
  | cons_cons key _ ih =>
    have whole := lineRoom_append [key]
    simp only [List.singleton_append] at whole
    refine ⟨fun k listed => ?_, ?_⟩
    · obtain rfl | later := List.mem_cons.mp listed
      · exact List.mem_cons_self
      · exact .tail _ (ih.1 k later)
    · rw [whole, whole]
      exact Nat.add_le_add_left ih.2 _

theorem carried_within {limits : Config.Limits} {some_keys keys : List String}
    (within : Within some_keys keys) (carried : (Ask.getMulti keys).Carried limits) :
    (Ask.getMulti some_keys).Carried limits := by
  refine ⟨fun key listed => carried.1 key (within.1 key listed), ?_⟩
  by_cases filled : some_keys = []
  · subst filled
    decide
  · have others : keys ≠ [] := by
      rintro rfl
      obtain ⟨key, listed⟩ := List.exists_mem_of_ne_nil _ filled
      exact absurd (within.1 key listed) List.not_mem_nil
    have room := carried.2
    rw [length_getRequest others] at room
    rw [length_getRequest filled]
    exact Nat.le_trans (Nat.add_le_add_right within.2 6) room

theorem within_swapErase (keys : List String) (key : String) :
    Within (swapErase keys key) keys := by
  unfold swapErase
  split
  · rename_i i last first final
    obtain ⟨front, rfl⟩ := List.getLast?_eq_some_iff.mp final
    by_cases inside : i < front.length
    · rw [List.set_append_left _ _ inside, List.dropLast_concat]
      refine ⟨fun k listed => ?_, ?_⟩
      · obtain known | rfl := List.mem_or_eq_of_mem_set listed
        · exact List.mem_append_left _ known
        · simp
      · rw [lineRoom_append]
        exact lineRoom_set_le front i last
    · have shorter : ((front ++ [last]).set i last).dropLast = front := by
        rw [List.set_append_right _ _ (Nat.not_lt.mp inside)]
        cases place : i - front.length with
        | zero => simp
        | succ n => simp
      rw [shorter]
      exact within_sublist (List.sublist_append_left front [last])
  · exact .refl keys

namespace Group

theorem within_takeValue (g : Group) (value : String × Item) :
    Within (g.takeValue value).missing g.missing ∧ (g.takeValue value).bucket = g.bucket := by
  unfold takeValue
  split
  · exact ⟨within_swapErase .., rfl⟩
  · exact ⟨.refl _, rfl⟩

theorem within_takeValues (values : List (String × Item)) (g : Group) :
    Within (values.foldl takeValue g).missing g.missing ∧
      (values.foldl takeValue g).bucket = g.bucket := by
  induction values generalizing g with
  | nil => exact ⟨.refl _, rfl⟩
  | cons value rest ih =>
    obtain ⟨first, same⟩ := within_takeValue g value
    obtain ⟨later, still⟩ := ih (g.takeValue value)
    exact ⟨later.trans first, still.trans same⟩

theorem askNext_missing (g : Group) (mains : List String) :
    (g.askNext mains).1.missing = g.missing ∧ (g.askNext mains).1.bucket = g.bucket := by
  unfold askNext
  split
  · split <;> exact ⟨rfl, rfl⟩
  · exact ⟨rfl, rfl⟩

theorem within_begin (g : Group) (ranked : List String) :
    Within (g.begin ranked).1.missing g.missing ∧ (g.begin ranked).1.bucket = g.bucket := by
  unfold begin
  split
  · obtain ⟨missing, bucket⟩ := askNext_missing g ranked
    exact ⟨missing ▸ .refl _, bucket⟩
  · exact ⟨.refl _, rfl⟩

theorem within_absorb (g : Group) (r : Except Failure (List (String × Item))) :
    Within (g.absorb r).1.missing g.missing ∧ (g.absorb r).1.bucket = g.bucket := by
  unfold absorb
  split
  · rename_i rest _
    cases r with
    | ok values =>
      obtain ⟨missing, bucket⟩ := askNext_missing (values.foldl takeValue g) rest
      obtain ⟨within, same⟩ := within_takeValues values g
      exact ⟨missing ▸ within, bucket.trans same⟩
    | error _ =>
      obtain ⟨missing, bucket⟩ := askNext_missing g rest
      exact ⟨missing ▸ .refl _, bucket⟩
  · exact ⟨.refl _, rfl⟩

end Group

/-- Whether every group can be asked for what it misses. -/
def Fits (limits : Config.Limits) (m : Fetch) : Prop :=
  ∀ g ∈ m.groups, (Ask.getMulti g.missing).Carried limits

theorem fits_start {limits : Config.Limits} (buckets : Nat) {keys : List String}
    (carried : (Ask.getMulti keys).Carried limits) : Fits limits (start buckets keys) := by
  intro g listed
  simp only [start, Key.byBucket, List.map_map, List.mem_map, Function.comp_apply] at listed
  obtain ⟨bucket, -, rfl⟩ := listed
  apply carried_within _ carried
  have part := within_sublist ((List.filter_sublist (p := fun entry : Nat × String =>
    entry.1 = bucket) (l := keys.map fun key => (Key.bucket buckets key, key))).map (·.2))
  rw [List.map_map] at part
  simpa [Function.comp_def] using part

theorem fits_putGroup {limits : Config.Limits} {m : Fetch} {g h : Group} (fits : Fits limits m)
    (known : g ∈ m.groups) (within : Within h.missing g.missing) : Fits limits (m.putGroup h) := by
  intro other listed
  simp only [putGroup, List.mem_map] at listed
  obtain ⟨old, there, rfl⟩ := listed
  split
  · exact carried_within within (fits g known)
  · exact fits old there

theorem mem_of_group? {m : Fetch} {bucket : Nat} {g : Group} (found : m.group? bucket = some g) :
    g ∈ m.groups :=
  List.mem_of_find?_eq_some found

end QuorumKv.Quorum.Fetch
