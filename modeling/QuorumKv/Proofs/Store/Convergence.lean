import QuorumKv.Proofs.Store.Layout

/-! Stores to which the same sets are delivered, under revisions of their own, end up with the same
records, in whatever order the sets come and however often. What a store has under a key is then the
newest of what it had and what was delivered. -/
namespace QuorumKv.Store

/-- Whether some changes are sets of a collection of items, each delivered at least once. -/
structure Delivers (collection : List (String × Item)) (changes : List Change) : Prop where
  only : ∀ change ∈ changes, ∃ key item now,
    change = .set key item now ∧ (key, item) ∈ collection
  every : ∀ key item, (key, item) ∈ collection → ∃ now, .set key item now ∈ changes

/-- Whether each item has a revision of its own, which stands for one content of its key. -/
structure IsConsistent (collection : List (String × Item)) : Prop where
  positive : ∀ p ∈ collection, 0 < p.2.rev.val
  bound : ∀ key a b, (key, a) ∈ collection → (key, b) ∈ collection → a.rev = b.rev →
    a.flags = b.flags ∧ a.value = b.value

/-- The item under a key, a tombstone's included. -/
def item? (s : Store) (key : String) : Option Item :=
  (s.record? key).map Record.item

/-- The items that some changes bring to a key. -/
def brought (key : String) (changes : List Change) : List Item :=
  changes.filterMap fun
    | .set k item _ => if k = key then some item else none
    | .delete _ _ => none

theorem mem_brought {key : String} {item : Item} {changes : List Change} :
    item ∈ brought key changes ↔ ∃ now, .set key item now ∈ changes := by
  rw [brought, List.mem_filterMap]
  constructor
  · rintro ⟨change, listed, chosen⟩
    cases change with
    | set k other now =>
      simp only [Option.ite_none_right_eq_some, Option.some.injEq] at chosen
      obtain ⟨rfl, rfl⟩ := chosen
      exact ⟨now, listed⟩
    | delete k now => cases chosen
  · rintro ⟨now, listed⟩
    exact ⟨_, listed, if_pos rfl⟩

variable {s : Store}

theorem item?_write (key : String) (item : Item) (now : Nat) :
    (s.write key item item.rev now).item? key = some item := by
  obtain ⟨r, there, rev, flags, value⟩ := s.record?_write_self key item item.rev now
  rw [item?, there, Option.map_some, Record.item, rev, flags, value]

/-- A set under a revision of its own leaves the newer of two items. -/
theorem item?_set {item : Item} (key : String) (now : Nat) (positive : 0 < item.rev.val) :
    (s.set key item now).2.item? key = Revision.newer Item.rev (s.item? key) item := by
  have live : ¬item.rev.isTombstone = true := by
    simp only [Revision.isTombstone, decide_eq_true_eq]
    omega
  have explicit : item.rev ≠ .auto := by
    intro auto
    rw [auto] at positive
    exact absurd positive (by decide)
  rw [set_explicit key now live explicit]
  cases held : s.record? key with
  | none =>
    have nothing : s.item? key = none := by rw [item?, held, Option.map_none]
    rw [nothing]
    exact item?_write key item now
  | some r =>
    have had : s.item? key = some r.item := by rw [item?, held, Option.map_some]
    have same : r.item.rev = r.rev := rfl
    rw [had, Revision.newer, same]
    by_cases newer : r.rev.magnitude < item.rev.magnitude
    · simp only [if_pos newer]
      exact item?_write key item now
    · simp only [if_neg newer]
      split <;> exact had

/-- Under each key there is the newest of what was there and what was brought. -/
theorem item?_after (key : String) {changes : List Change}
    (sets : ∀ change ∈ changes, ∃ k item now, change = .set k item now ∧ 0 < item.rev.val) :
    (s.after changes).item? key =
      (brought key changes).foldl (Revision.newer Item.rev) (s.item? key) := by
  induction changes generalizing s with
  | nil => rfl
  | cons change rest ih =>
    obtain ⟨k, item, now, rfl, positive⟩ := sets change List.mem_cons_self
    have later := ih (s := (s.set k item now).2) fun c listed => sets c (.tail _ listed)
    by_cases here : k = key
    · subst here
      rw [item?_set k now positive] at later
      have first : brought k (.set k item now :: rest) = item :: brought k rest :=
        List.filterMap_cons_some (if_pos rfl)
      rw [first]
      exact later
    · have still : (s.set k item now).2.item? key = s.item? key := by
        rw [item?, record?_set_ne item now here, item?]
      rw [still] at later
      have none_here : brought key (.set k item now :: rest) = brought key rest :=
        List.filterMap_cons_none (if_neg here)
      rw [none_here]
      exact later

/-- Two items of a key that are equally new are the same. -/
theorem IsConsistent.unique {collection : List (String × Item)} {key : String} {a b : Item}
    (consistent : IsConsistent collection) (listedA : (key, a) ∈ collection)
    (listedB : (key, b) ∈ collection) (equal : a.rev.magnitude = b.rev.magnitude) : a = b := by
  have positiveA : 0 < a.rev.val := consistent.positive _ listedA
  have positiveB : 0 < b.rev.val := consistent.positive _ listedB
  have same : a.rev = b.rev := by
    apply Revision.ext_val
    simp only [Revision.magnitude] at equal
    omega
  obtain ⟨flags, value⟩ := consistent.bound key a b listedA listedB same
  cases a
  cases b
  simp only at same flags value
  rw [same, flags, value]

theorem Delivers.mem_brought_iff {collection : List (String × Item)} {changes : List Change}
    (delivered : Delivers collection changes) (key : String) (item : Item) :
    item ∈ brought key changes ↔ (key, item) ∈ collection := by
  rw [mem_brought]
  constructor
  · rintro ⟨now, listed⟩
    obtain ⟨k, other, later, same, known⟩ := delivered.only _ listed
    obtain ⟨rfl, rfl, -⟩ := Change.set.inj same
    exact known
  · exact delivered.every key item

/-- The hash under a key is that of its value. -/
theorem hash_of_item? {key : String} {changes : List Change} :
    ((empty.after changes).record? key).map Record.hash =
      ((empty.after changes).item? key).map fun item => Hash.Crc32.checksum item.value := by
  rw [item?, Option.map_map]
  cases held : (empty.after changes).record? key with
  | none => rfl
  | some r => exact congrArg some ((laidOut_after changes).records key r held).hashed

/-- Two stores with the same records, to which the same sets are delivered, have the same records
afterwards. -/
theorem same_after_same_sets {before before' sets sets' : List Change}
    {collection : List (String × Item)} (consistent : IsConsistent collection)
    (delivered : Delivers collection sets) (delivered' : Delivers collection sets')
    (same : ∀ key, (empty.after before).item? key = (empty.after before').item? key) (key : String) :
    ((empty.after before).after sets).item? key =
        ((empty.after before').after sets').item? key ∧
      (((empty.after before).after sets).record? key).map Record.hash =
        (((empty.after before').after sets').record? key).map Record.hash := by
  have positive {changes : List Change} (given : Delivers collection changes) :
      ∀ change ∈ changes, ∃ k item now, change = .set k item now ∧ 0 < item.rev.val := by
    intro change listed
    obtain ⟨k, item, now, rfl, known⟩ := given.only change listed
    exact ⟨k, item, now, rfl, consistent.positive _ known⟩
  have items : ((empty.after before).after sets).item? key =
      ((empty.after before').after sets').item? key := by
    rw [item?_after key (positive delivered), item?_after key (positive delivered'), same key]
    apply Revision.foldl_newer_congr
    · intro item
      rw [delivered.mem_brought_iff, delivered'.mem_brought_iff]
    · intro a listedA b listedB
      exact consistent.unique ((delivered.mem_brought_iff key a).mp listedA)
        ((delivered.mem_brought_iff key b).mp listedB)
  refine ⟨items, ?_⟩
  rw [← after_append, ← after_append] at items ⊢
  rw [hash_of_item?, hash_of_item?, items]

/-- Three items for two keys. -/
def threeItems : List (String × Item) :=
  [("k", ⟨0, [97], .clamp 4⟩), ("k", ⟨0, [98], .clamp 6⟩), ("j", ⟨1, [99], .clamp 1⟩)]

def inTurn : List Change :=
  threeItems.map fun p => .set p.1 p.2 10

/-- The same sets the other way round, and then all of them again. -/
def outOfTurn : List Change :=
  inTurn.reverse ++ inTurn

/-- A store in which a key was set and deleted. -/
def buried (value : UInt8) : List Change :=
  [.set "k" ⟨0, [value], .clamp 3⟩ 1, .delete "k" 2]

theorem same_after_same_sets_buried :
    let left := (empty.after (buried 1)).after inTurn
    let right := (empty.after (buried 2)).after outOfTurn
    (IsConsistent threeItems ∧ Delivers threeItems inTurn ∧ Delivers threeItems outOfTurn) ∧
      left.item? "k" = right.item? "k" ∧
      (left.record? "k").map Record.hash = (right.record? "k").map Record.hash := by
  have consistent : IsConsistent threeItems := by
    refine ⟨by decide, ?_⟩
    have each : ∀ p ∈ threeItems, ∀ q ∈ threeItems, p.1 = q.1 → p.2.rev = q.2.rev →
        p.2.flags = q.2.flags ∧ p.2.value = q.2.value := by decide
    exact fun key a b listedA listedB => each _ listedA _ listedB rfl
  have delivered : Delivers threeItems inTurn := by
    constructor
    · intro change listed
      obtain ⟨p, known, rfl⟩ := List.mem_map.mp listed
      exact ⟨p.1, p.2, 10, rfl, known⟩
    · exact fun key item known => ⟨10, List.mem_map.mpr ⟨_, known, rfl⟩⟩
  have delivered' : Delivers threeItems outOfTurn := by
    constructor
    · intro change listed
      obtain reversed | again := List.mem_append.mp listed
      · exact delivered.only change (List.mem_reverse.mp reversed)
      · exact delivered.only change again
    · intro key item known
      obtain ⟨now, listed⟩ := delivered.every key item known
      exact ⟨now, List.mem_append_right _ listed⟩
  have left : (empty.after (buried 1)).records = [("k", ⟨0, [], .clamp (-4), 0, 2, 256⟩)] := by
    decide +kernel
  have right : (empty.after (buried 2)).records = [("k", ⟨0, [], .clamp (-4), 0, 2, 256⟩)] := by
    decide +kernel
  have same (key : String) :
      (empty.after (buried 1)).item? key = (empty.after (buried 2)).item? key := by
    simp only [item?, record?, left, right]
  exact ⟨⟨consistent, delivered, delivered'⟩, same_after_same_sets consistent delivered delivered'
    same "k"⟩

end QuorumKv.Store
