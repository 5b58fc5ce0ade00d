import QuorumKv.Ask
import QuorumKv.Proofs.Quorum.Groups

/-! What a fetch has found when some nodes have answered: of each key what the first of them shows
that has a record of it, unless that is a tombstone. A list of keys that shrinks in no particular
order comes down to a search for each key. -/
namespace QuorumKv.Quorum.Fetch

open scoped List in
/-- Takes out one occurrence and nothing else. -/
theorem cons_swapErase_perm {keys : List String} {key : String} (listed : key ∈ keys) :
    (key :: swapErase keys key).Perm keys := by
  have filled : keys ≠ [] := List.ne_nil_of_mem listed
  obtain ⟨i, place⟩ := Option.isSome_iff_exists.mp (List.isSome_idxOf?.mpr listed)
  obtain ⟨inside, here, -⟩ := List.idxOf?_eq_some_iff.mp place
  have final : keys.getLast? = some (keys.getLast filled) := List.getLast?_eq_some_getLast filled
  simp only [swapErase, place, final]
  generalize keys.getLast filled = last at final
  obtain ⟨front, rfl⟩ := List.getLast?_eq_some_iff.mp final
  by_cases early : i < front.length
  · rw [List.getElem_append_left early] at here
    rw [List.set_append_left _ _ early, List.dropLast_concat]
    calc key :: front.set i last
      _ ~ key :: last :: front.eraseIdx i := (List.set_perm_cons_eraseIdx early last).cons key
      _ ~ last :: key :: front.eraseIdx i := .swap ..
      _ ~ last :: front := (here ▸ List.getElem_cons_eraseIdx_perm early).cons last
      _ ~ front ++ [last] := (List.perm_append_singleton last front).symm
  · have at_end : i = front.length := by
      rw [List.length_append, List.length_singleton] at inside
      omega
    subst at_end
    have same : last = key := by simpa using here
    subst same
    simpa using (List.perm_append_singleton last front).symm

variable {shows : String → String → Option Item} {keys nodes mains : List String}

/-- What the first of some nodes that has a record of a key shows of it. -/
def firstOf (shows : String → String → Option Item) (nodes : List String) (key : String) :
    Option Item :=
  nodes.findSome? fun addr => shows addr key

/-- Every record that a node shows of some keys. -/
def told (show_ : String → Option Item) (keys : List String) : List (String × Item) :=
  keys.filterMap fun key => (show_ key).map (key, ·)

def isLive (item : Item) : Bool :=
  !item.rev.isTombstone

theorem firstOf_append (first later : List String) (key : String) :
    firstOf shows (first ++ later) key = (firstOf shows first key).or (firstOf shows later key) :=
  List.findSome?_append

/-- Nodes that show the same need not be told apart. -/
theorem firstOf_of_same {key : String} {held : Option Item} (filled : nodes ≠ [])
    (same : ∀ addr ∈ nodes, shows addr key = held) : firstOf shows nodes key = held := by
  cases held with
  | none => exact List.findSome?_eq_none_iff.mpr same
  | some item =>
    cases nodes with
    | nil => exact absurd rfl filled
    | cons addr rest => simp only [firstOf, List.findSome?_cons, same addr List.mem_cons_self]

theorem mem_told {show_ : String → Option Item} {key : String} {item : Item} :
    (key, item) ∈ told show_ keys ↔ key ∈ keys ∧ show_ key = some item := by
  simp only [told, List.mem_filterMap, Option.map_eq_some_iff, Prod.mk.injEq]
  constructor
  · rintro ⟨_, listed, _, shown, rfl, rfl⟩
    exact ⟨listed, shown⟩
  · rintro ⟨listed, shown⟩
    exact ⟨key, listed, item, shown, rfl, rfl⟩

theorem told_keys (show_ : String → Option Item) (keys : List String) :
    (told show_ keys).map (·.1) = keys.filter fun key => (show_ key).isSome := by
  induction keys with
  | nil => rfl
  | cons key rest ih =>
    cases shown : show_ key with
    | none =>
      rw [List.filter_cons_of_neg (by simp [shown]), ← ih]
      simp [told, shown]
    | some item =>
      rw [List.filter_cons_of_pos (by simp [shown]), ← ih]
      simp [told, shown]

namespace Group

variable {g : Group}

/-- What a group misses and what it has found once some nodes were heard. -/
structure Heard (shows : String → String → Option Item) (keys nodes : List String) (g : Group) :
    Prop where
  missing : g.missing.Perm (keys.filter fun key => (firstOf shows nodes key).isNone)
  found : ∀ key item, (key, item) ∈ g.found ↔
    key ∈ keys ∧ firstOf shows nodes key = some item ∧ isLive item = true

/-- Values of keys that are all missing are all taken. -/
theorem takeValues_eq {values : List (String × Item)} {others : List String}
    (perm : g.missing.Perm (values.map (·.1) ++ others)) :
    (values.foldl takeValue g).missing.Perm others ∧
      (values.foldl takeValue g).found = g.found ++ values.filter fun value => isLive value.2 := by
  induction values generalizing g with
  | nil => exact ⟨perm, (List.append_nil _).symm⟩
  | cons value rest ih =>
    have listed : value.1 ∈ g.missing := perm.mem_iff.mpr List.mem_cons_self
    have fewer : (swapErase g.missing value.1).Perm (rest.map (·.1) ++ others) :=
      ((cons_swapErase_perm listed).trans perm).cons_inv
    have step : g.takeValue value =
        { g with
          missing := swapErase g.missing value.1
          found := if value.2.rev.isTombstone then g.found else g.found ++ [value] } :=
      if_pos listed
    rw [List.foldl_cons]
    obtain ⟨missing, found⟩ := ih (g := g.takeValue value) (by rw [step]; exact fewer)
    refine ⟨missing, found.trans ?_⟩
    rw [step]
    cases dead : value.2.rev.isTombstone with
    | true => simp [isLive, dead]
    | false => simp [isLive, dead]

theorem heard_start (keys : List String) (bucket : Nat) :
    Heard shows keys [] ⟨bucket, keys, [], .waiting⟩ where
  missing := by simp [firstOf]
  found key item := by simp [firstOf]

/-- A node tells what it has of the keys that are missing. -/
theorem heard_takeValues {addr : String} (heard : g.Heard shows keys nodes) :
    ((told (shows addr) g.missing).foldl takeValue g).Heard shows keys (nodes ++ [addr]) := by
  have one (key : String) : firstOf shows (nodes ++ [addr]) key =
      (firstOf shows nodes key).or (shows addr key) := by
    rw [firstOf_append]
    simp only [firstOf, List.findSome?_cons, List.findSome?_nil]
    cases shows addr key <;> rfl
  have parts : g.missing.Perm ((told (shows addr) g.missing).map (·.1) ++
      g.missing.filter fun key => !(shows addr key).isSome) := by
    rw [told_keys]
    exact (List.filter_append_perm _ _).symm
  obtain ⟨missing, found⟩ := takeValues_eq parts
  constructor
  · have twice := heard.missing.filter fun key => !(shows addr key).isSome
    rw [List.filter_filter] at twice
    refine missing.trans (twice.trans (.of_eq (List.filter_congr ?_)))
    intro key _
    rw [one]
    cases firstOf shows nodes key <;> cases shows addr key <;> rfl
  · intro key item
    have still : key ∈ g.missing ↔ key ∈ keys ∧ firstOf shows nodes key = none := by
      rw [heard.missing.mem_iff, List.mem_filter, Option.isNone_iff_eq_none]
    rw [found, List.mem_append, List.mem_filter, mem_told, heard.found, one, still]
    cases firstOf shows nodes key <;> simp [and_assoc]

theorem heard_askNext (next : List String) (heard : g.Heard shows keys nodes) :
    (g.askNext next).1.Heard shows keys nodes := by
  unfold askNext
  split
  · split <;> exact ⟨heard.missing, heard.found⟩
  · exact ⟨heard.missing, heard.found⟩

/-- The bucket and the question of the call that a group waits for. -/
def asks? (g : Group) : Option (Nat × Ask) :=
  match g.stage with
  | .asking _ => some (g.bucket, .getMulti g.missing)
  | _ => none

/-- Whom a group calls, and that it waits for this call and no other. -/
theorem askNext_asks (g : Group) (next : List String) :
    (g.askNext next).2 ⊆ next ∧
      (g.askNext next).1.asks?.toList =
        (g.askNext next).2.map fun _ => (g.bucket, .getMulti (g.askNext next).1.missing) := by
  unfold askNext
  split
  · split
    · exact ⟨List.nil_subset _, rfl⟩
    · exact ⟨by simp, rfl⟩
  · exact ⟨List.nil_subset _, rfl⟩

/-- A group of which some mains were heard. At its end it knows what all of them would have
shown. -/
def Stands (shows : String → String → Option Item) (keys mains : List String) (g : Group) : Prop :=
  ∃ nodes ⊆ mains, g.Heard shows keys nodes ∧
    (∀ rest, g.stage = .asking rest → rest ⊆ mains) ∧
    (g.stage = .done → ∀ key ∈ keys, firstOf shows nodes key = firstOf shows mains key)

/-- With no main left to ask, all that can be known is known. -/
theorem stands_askNext {next : List String} (same : ∀ key ∈ keys, ∀ addr ∈ mains,
      shows addr key = firstOf shows mains key)
    (inside : nodes ⊆ mains) (rest : next ⊆ mains) (heard : g.Heard shows keys nodes)
    (settled : next = [] → ∀ key ∈ keys, firstOf shows nodes key = firstOf shows mains key) :
    (g.askNext next).1.Stands shows keys mains := by
  refine ⟨nodes, inside, heard_askNext next heard, ?_, ?_⟩
  · intro later asking
    unfold askNext at asking
    split at asking
    · split at asking
      · cases asking
      · obtain rfl := Fetch.Stage.asking.inj asking
        exact List.Subset.trans (List.subset_cons_self ..) rest
    · cases asking
  · intro done
    cases next with
    | nil => exact settled rfl
    | cons addr others =>
      by_cases all : g.missing.isEmpty = true
      · intro key listed
        have known : key ∉ g.missing := by
          rw [List.isEmpty_iff.mp all]
          exact List.not_mem_nil
        rw [heard.missing.mem_iff, List.mem_filter, not_and, Option.isNone_iff_eq_none] at known
        have filled : nodes ≠ [] := by
          rintro rfl
          exact known listed rfl
        exact firstOf_of_same filled fun addr node => same key listed addr (inside node)
      · simp [askNext, all] at done

/-- A group begins at most once. -/
theorem stands_begin {ranked : List String} (same : ∀ key ∈ keys, ∀ addr ∈ mains,
      shows addr key = firstOf shows mains key)
    (perm : ranked.Perm mains) (stands : g.Stands shows keys mains) :
    (g.begin ranked).1.Stands shows keys mains ∧ (g.begin ranked).2 ⊆ mains ∧
      (g.begin ranked).1.asks?.toList = g.asks?.toList ++
        (g.begin ranked).2.map fun _ => (g.bucket, .getMulti (g.begin ranked).1.missing) := by
  by_cases waiting : g.stage = .waiting
  · have step : g.begin ranked = g.askNext ranked := if_pos waiting
    have quiet : g.asks? = none := by simp only [asks?, waiting]
    obtain ⟨nodes, inside, heard, -⟩ := stands
    obtain ⟨calls, asks⟩ := askNext_asks g ranked
    rw [step, quiet]
    refine ⟨stands_askNext same inside perm.subset heard ?_,
      List.Subset.trans calls perm.subset, asks⟩
    rintro rfl key listed
    obtain rfl : mains = [] := List.nil_perm.mp perm
    obtain rfl : nodes = [] := List.subset_nil.mp inside
    rfl
  · have step : g.begin ranked = (g, []) := if_neg waiting
    rw [step]
    exact ⟨stands, List.nil_subset _, (List.append_nil _).symm⟩

/-- The main that is being asked answers. -/
theorem stands_absorb {addr : String} {rest : List String}
    (same : ∀ key ∈ keys, ∀ addr ∈ mains, shows addr key = firstOf shows mains key)
    (main : addr ∈ mains) (asking : g.stage = .asking rest) (stands : g.Stands shows keys mains) :
    let values := told (shows addr) g.missing
    (g.absorb (.ok values)).1.Stands shows keys mains ∧ (g.absorb (.ok values)).2 ⊆ mains ∧
      (g.absorb (.ok values)).1.asks?.toList = (g.absorb (.ok values)).2.map fun _ =>
        (g.bucket, .getMulti (g.absorb (.ok values)).1.missing) := by
  intro values
  obtain ⟨nodes, inside, heard, next, -⟩ := stands
  have step : g.absorb (.ok values) = (values.foldl takeValue g).askNext rest := by
    simp only [absorb, asking]
  have more : nodes ++ [addr] ⊆ mains :=
    List.append_subset.mpr ⟨inside, List.cons_subset.mpr ⟨main, List.nil_subset _⟩⟩
  obtain ⟨calls, asks⟩ := askNext_asks (values.foldl takeValue g) rest
  rw [(within_takeValues values g).2] at asks
  rw [step]
  refine ⟨?_, List.Subset.trans calls (next rest asking), asks⟩
  refine stands_askNext same more (next rest asking) (heard_takeValues heard) ?_
  intro _ key listed
  exact firstOf_of_same (by simp) fun a node => same key listed a (more node)

end Group

variable {m : Fetch} {bucketOf : String → Nat} {mainsOf : Nat → List String}
  {asked others : List (Nat × Ask)} {bucket : Nat} {g : Group}

/-- A fetch whose groups know what some of their mains show, while it waits for the answers to some
questions. -/
structure Stands (shows : String → String → Option Item) (keys : List String)
    (bucketOf : String → Nat) (mainsOf : Nat → List String) (m : Fetch)
    (asked : List (Nat × Ask)) : Prop where
  keys_eq : m.keys = keys
  nodup : (m.groups.map (·.bucket)).Nodup
  covers : ∀ b, b ∈ m.groups.map (·.bucket) ↔ ∃ key ∈ keys, bucketOf key = b
  groups : ∀ g ∈ m.groups,
    g.Stands shows (keys.filter fun key => bucketOf key = g.bucket) (mainsOf g.bucket)
  asks : asked.Perm (m.groups.filterMap Group.asks?)

theorem stands_iff : m.Stands shows keys bucketOf mainsOf asked ↔ m.Each
    (fun g => g.Stands shows (keys.filter fun key => bucketOf key = g.bucket) (mainsOf g.bucket))
    Group.asks? keys bucketOf asked :=
  ⟨fun stands => ⟨stands.keys_eq, stands.nodup, stands.covers, stands.groups, stands.asks⟩,
    fun each => ⟨each.keys_eq, each.nodup, each.covers, each.groups, each.asks⟩⟩

theorem stands_start (buckets : Nat) (keys : List String) :
    (start buckets keys).Stands shows keys (Key.bucket buckets) mainsOf [] := by
  refine stands_iff.mpr (each_start buckets keys (fun b => ?_) fun _ _ => rfl)
  refine ⟨[], List.nil_subset _, Group.heard_start .., ?_, ?_⟩
  · intro rest asking
    cases asking
  · intro done
    cases done

/-- Whether the mains of every key show the same of it. -/
def Unanimous (shows : String → String → Option Item) (keys : List String)
    (bucketOf : String → Nat) (mainsOf : Nat → List String) : Prop :=
  ∀ key ∈ keys, ∀ addr ∈ mainsOf (bucketOf key),
    shows addr key = firstOf shows (mainsOf (bucketOf key)) key

theorem Unanimous.at_bucket (same : Unanimous shows keys bucketOf mainsOf) (bucket : Nat) :
    ∀ key ∈ keys.filter fun key => bucketOf key = bucket, ∀ addr ∈ mainsOf bucket,
      shows addr key = firstOf shows (mainsOf bucket) key := by
  intro key listed
  obtain ⟨known, here⟩ := List.mem_filter.mp listed
  exact of_decide_eq_true here ▸ same key known

theorem stands_begin {ranked : List String} (same : Unanimous shows keys bucketOf mainsOf)
    (perm : ranked.Perm (mainsOf bucket)) (grouped : m.group? bucket = some g)
    (stands : m.Stands shows keys bucketOf mainsOf asked) :
    (m.putGroup (g.begin ranked).1).Stands shows keys bucketOf mainsOf
        (asked ++ (g.begin ranked).2.map fun _ =>
          (bucket, .getMulti (g.begin ranked).1.missing)) ∧
      (g.begin ranked).2 ⊆ mainsOf bucket := by
  obtain rfl := bucket_of_group? grouped
  have one := stands.groups g (mem_of_group? grouped)
  obtain ⟨begun, inside, asks⟩ := Group.stands_begin (same.at_bucket g.bucket) perm one
  have still := (Group.within_begin g ranked).2
  exact ⟨stands_iff.mpr ((stands_iff.mp stands).ask grouped still (still.symm ▸ begun) asks), inside⟩

theorem Stands.missing_subset (stands : m.Stands shows keys bucketOf mainsOf asked)
    (known : g ∈ m.groups) : g.missing ⊆ keys := by
  obtain ⟨nodes, -, heard, -⟩ := stands.groups g known
  intro key listed
  have asked_for := List.mem_of_mem_filter (heard.missing.mem_iff.mp listed)
  exact List.mem_of_mem_filter asked_for

/-- A call that is due was made for a group and asks for all that it misses. -/
theorem Stands.due {q : Ask} (stands : m.Stands shows keys bucketOf mainsOf asked)
    (listed : (bucket, q) ∈ asked) : ∃ g rest, m.group? bucket = some g ∧
      g.stage = .asking rest ∧ q = .getMulti g.missing := by
  obtain ⟨g, grouped, asks⟩ := (stands_iff.mp stands).due listed
  unfold Group.asks? at asks
  split at asks
  · rename_i rest asking
    cases asks
    exact ⟨g, rest, grouped, asking, rfl⟩
  · cases asks

theorem stands_absorb {addr : String} {rest : List String}
    (same : Unanimous shows keys bucketOf mainsOf) (main : addr ∈ mainsOf bucket)
    (grouped : m.group? bucket = some g) (asking : g.stage = .asking rest)
    (perm : asked.Perm ((bucket, .getMulti g.missing) :: others))
    (stands : m.Stands shows keys bucketOf mainsOf asked) :
    let r := g.absorb (.ok (told (shows addr) g.missing))
    (m.putGroup r.1).Stands shows keys bucketOf mainsOf
        (others ++ r.2.map fun _ => (bucket, .getMulti r.1.missing)) ∧
      r.2 ⊆ mainsOf bucket := by
  intro r
  obtain rfl := bucket_of_group? grouped
  have one := stands.groups g (mem_of_group? grouped)
  obtain ⟨heard, inside, asks⟩ := Group.stands_absorb (same.at_bucket g.bucket) main asking one
  have still : r.1.bucket = g.bucket := (Group.within_absorb g _).2
  have due : g.asks? = some (g.bucket, .getMulti g.missing) := by
    simp only [Group.asks?, asking]
  have next := (stands_iff.mp stands).answer grouped due perm still (still.symm ▸ heard)
  exact ⟨stands_iff.mpr (asks ▸ next), inside⟩

/-- What a settled group has found of its keys. -/
theorem Stands.mem_found {key : String} {item : Item}
    (stands : m.Stands shows keys bucketOf mainsOf asked) (known : g ∈ m.groups)
    (done : g.stage = .done) : (key, item) ∈ g.found ↔ key ∈ keys ∧ bucketOf key = g.bucket ∧
      (firstOf shows (mainsOf g.bucket) key).filter isLive = some item := by
  obtain ⟨nodes, -, heard, -, settled⟩ := stands.groups g known
  rw [heard.found, List.mem_filter, decide_eq_true_eq, Option.filter_eq_some_iff]
  constructor
  · rintro ⟨⟨listed, about⟩, first, live⟩
    have same := settled done key (List.mem_filter.mpr ⟨listed, decide_eq_true about⟩)
    exact ⟨listed, about, same ▸ first, live⟩
  · rintro ⟨listed, about, first, live⟩
    have same := settled done key (List.mem_filter.mpr ⟨listed, decide_eq_true about⟩)
    exact ⟨⟨listed, about⟩, same.trans first, live⟩

/-- Without a result it waits for a node, or has not begun with some bucket. -/
theorem Stands.waits (stands : m.Stands shows keys bucketOf mainsOf asked)
    (open_ : m.result? = none) : asked ≠ [] ∨ m.waiting? ≠ none := by
  refine (stands_iff.mp stands).waits (fun g _ rest asking => ?_) open_
  simp only [Group.asks?, asking, ne_eq, reduceCtorEq, not_false_eq_true]

/-- It returns of every key what the first main with a record shows, if that is live. -/
theorem Stands.result {values : List (String × Item)}
    (stands : m.Stands shows keys bucketOf mainsOf asked) (ended : m.result? = some values) :
    values = keys.eraseDups.filterMap fun key =>
      ((firstOf shows (mainsOf (bucketOf key)) key).filter isLive).map (key, ·) := by
  refine (stands_iff.mp stands).result (fun g known done key item => ?_) ended
  rw [stands.mem_found known done]
  refine and_congr_right fun _ => and_congr_right fun about => ?_
  rw [about]

end QuorumKv.Quorum.Fetch
