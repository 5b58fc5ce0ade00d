import QuorumKv.Key
import QuorumKv.Proofs.Text.Blank
import QuorumKv.Proofs.Text.Order

/-! Keys that the proxy accepts stay whole in a line, and a metadata query leads back to its key
unless the key is itself one. -/
namespace QuorumKv.Key

/-- What a key must be to be accepted. -/
structure Valid (maxLength : Nat) (key : String) : Prop where
  filled : key ≠ ""
  short : key.utf8ByteSize ≤ maxLength
  allowed : ∀ c ∈ key.toList, isForbidden c = false

theorem valid_of_validate {maxLength : Nat} {key : String}
    (valid : validate maxLength key = .ok ()) : Valid maxLength key := by
  unfold validate at valid
  split at valid
  · cases valid
  · rename_i filled
    split at valid
    · cases valid
    · rename_i short
      split at valid
      · cases valid
      · rename_i allowed
        refine ⟨?_, Nat.not_lt.mp short, ?_⟩
        · rintro rfl
          exact filled (by decide)
        · intro c listed
          exact Bool.eq_false_iff.mpr
            (List.any_eq_false.mp (Bool.eq_false_iff.mpr allowed) c listed)

theorem isWord_of_validate {maxLength : Nat} {key : String}
    (valid : validate maxLength key = .ok ()) :
    Text.IsWord key ∧ key.utf8ByteSize ≤ maxLength := by
  obtain ⟨filled, short, allowed⟩ := valid_of_validate valid
  refine ⟨⟨filled, fun c listed => ?_⟩, short⟩
  have plain := allowed c listed
  simp only [isForbidden, Bool.or_eq_false_iff] at plain
  exact plain.1.2

/-- What was not UTF-8 is in no key. -/
theorem replacement_notMem {maxLength : Nat} {key : String}
    (valid : validate maxLength key = .ok ()) : Text.Utf8.replacement ∉ key.toList := by
  intro listed
  have plain := (valid_of_validate valid).allowed _ listed
  simp [isForbidden] at plain

/-- The key that is read out of the query for a key. A mark at the front of a key that goes on
behind it is taken for the second mark of the query. -/
def queried (key : String) : String :=
  match key.toList with
  | '?' :: c :: rest => String.ofList (c :: rest)
  | _ => key

theorem metaQuery?_metaQueryFor {key : String} (filled : key ≠ "") :
    metaQuery? (metaQueryFor key) = some (queried key) := by
  have chars : (metaQueryFor key).toList = '?' :: key.toList := by simp [metaQueryFor]
  unfold metaQuery? queried
  rw [chars]
  cases whole : key.toList with
  | nil => exact absurd (String.toList_inj.mp whole) filled
  | cons c cs =>
    have again : String.ofList (c :: cs) = key := by rw [← whole, String.ofList_toList]
    by_cases mark : c = '?'
    · subst mark
      cases cs with
      | nil => exact congrArg some again
      | cons d ds => rfl
    · simp [mark, again]

/-- A key leads to itself exactly when it is no query. -/
theorem queried_eq_self_iff {key : String} : queried key = key ↔ metaQuery? key = none := by
  unfold queried metaQuery?
  cases whole : key.toList with
  | nil => simp
  | cons c cs =>
    by_cases mark : c = '?'
    · subst mark
      cases cs with
      | nil => simp
      | cons d ds =>
        have other : String.ofList (d :: ds) ≠ key := by
          rw [Ne, ← String.toList_inj, whole, String.toList_ofList]
          exact fun same => absurd (congrArg List.length same) (by simp)
        simp only [other, false_iff]
        by_cases double : d = '?'
        · subst double
          cases ds <;> simp
        · simp [double]
    · simp [mark]

theorem metaQuery?_for {key : String} (filled : key ≠ "") (plain : metaQuery? key = none) :
    metaQuery? (metaQueryFor key) = some key := by
  rw [metaQuery?_metaQueryFor filled, queried_eq_self_iff.mpr plain]

/-- Behind two marks every key is read as it is. -/
theorem metaQuery?_double {key : String} (filled : key ≠ "") :
    metaQuery? ("??" ++ key) = some key := by
  have chars : ("??" ++ key).toList = '?' :: '?' :: key.toList := by simp
  unfold metaQuery?
  rw [chars]
  cases whole : key.toList with
  | nil => exact absurd (String.toList_inj.mp whole) filled
  | cons c cs => exact congrArg some (by rw [← whole, String.ofList_toList])

theorem utf8ByteSize_metaQueryFor (key : String) :
    (metaQueryFor key).utf8ByteSize = 1 + key.utf8ByteSize := by
  rw [metaQueryFor, String.utf8ByteSize_append]
  rfl

theorem isWord_metaQueryFor {key : String} (word : Text.IsWord key) :
    Text.IsWord (metaQueryFor key) where
  filled := by
    rw [Ne, ← String.toList_inj]
    simp [metaQueryFor]
  whole := by
    intro c listed
    rw [metaQueryFor, String.toList_append, List.mem_append] at listed
    obtain mark | inside := listed
    · obtain rfl : c = '?' := by simpa using mark
      decide
    · exact word.whole c inside

/-- Each bucket is listed once. -/
theorem nodup_byBucket (buckets : Nat) (keys : List String) :
    ((byBucket buckets keys).map (·.1)).Nodup := by
  simp only [byBucket, List.map_map, Function.comp_def, List.map_id']
  have ordered : ((keys.map (bucket buckets)).mergeSort (· ≤ ·)).Pairwise
      fun a b => decide (a ≤ b) = true := by
    apply List.pairwise_mergeSort
    · intro a b c ab bc
      exact decide_eq_true (Nat.le_trans (of_decide_eq_true ab) (of_decide_eq_true bc))
    · intro a b
      simpa using Nat.le_total a b
  refine Text.nodup_eraseReps ?_ ordered
  intro a b ab ba
  exact Nat.le_antisymm (of_decide_eq_true ab) (of_decide_eq_true ba)

/-- A bucket is listed with its keys if it has any. -/
theorem mem_byBucket {buckets b : Nat} {keys some_keys : List String} :
    (b, some_keys) ∈ byBucket buckets keys ↔
      (∃ key ∈ keys, bucket buckets key = b) ∧
        some_keys = keys.filter fun key => bucket buckets key = b := by
  simp only [byBucket, List.mem_map, Text.mem_eraseReps, List.mem_mergeSort, List.map_map,
    List.filter_map, Function.comp_def, List.map_id', Prod.mk.injEq]
  constructor
  · rintro ⟨_, ⟨key, listed, same⟩, rfl, rfl⟩
    exact ⟨⟨key, listed, same⟩, rfl⟩
  · rintro ⟨⟨key, listed, same⟩, rfl⟩
    exact ⟨b, ⟨key, listed, same⟩, rfl, rfl⟩

/-- Keys of one bucket stay together. -/
theorem byBucket_of_same {buckets b : Nat} {keys : List String} (filled : keys ≠ [])
    (same : ∀ key ∈ keys, bucket buckets key = b) : byBucket buckets keys = [(b, keys)] := by
  have tags : ∀ x ∈ (keys.map (bucket buckets)).mergeSort (· ≤ ·), x = b := by
    intro x listed
    obtain ⟨key, known, rfl⟩ := List.mem_map.mp (List.mem_mergeSort.mp listed)
    exact same key known
  have some_tag : (keys.map (bucket buckets)).mergeSort (· ≤ ·) ≠ [] := by
    intro empty
    have length := congrArg List.length empty
    rw [List.length_mergeSort, List.length_map] at length
    exact filled (List.eq_nil_of_length_eq_zero length)
  have all : (keys.filter fun key => bucket buckets key = b) = keys :=
    List.filter_eq_self.mpr fun key listed => by simpa using same key listed
  simp only [byBucket, List.map_map, Function.comp_def, List.filter_map]
  rw [Text.eraseReps_of_same some_tag tags, List.map_singleton]
  simp only [List.map_id', all]

end QuorumKv.Key
