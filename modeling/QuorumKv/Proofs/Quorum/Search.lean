import QuorumKv.Proofs.Quorum.Found

/-! A fetch whose groups each go through their mains in an order of their own. A main that fails
tells nothing. Of each key the fetch finds what the first main in the order of its bucket shows that
has a record of it, unless that is a tombstone. -/
namespace QuorumKv.Quorum.Fetch

variable {shows : String → String → Option Item} {keys nodes ranked : List String}

/-- Who shows nothing tells nothing. -/
theorem told_none (keys : List String) : told (fun _ => none) keys = [] :=
  List.filterMap_eq_nil_iff.mpr fun _ _ => rfl

namespace Group

variable {g : Group}

/-- A group that goes through some nodes in order. Those before the one that is asked were heard,
and it stops early only when nothing is missing. -/
def Searches (shows : String → String → Option Item) (keys ranked : List String) (g : Group) :
    Prop :=
  ∃ nodes left, ranked = nodes ++ left ∧ g.Heard shows keys nodes ∧
    match g.stage with
    | .waiting => nodes = []
    | .asking rest => ∃ addr, left = addr :: rest
    | .done => left = [] ∨ g.missing = []

/-- The bucket, the node and the question of the call that such a group waits for. The node comes
just before those that are left. -/
def calls? (ranked : List String) (g : Group) : Option (Nat × String × Ask) :=
  match g.stage with
  | .asking rest => ranked.reverse[rest.length]?.map fun addr => (g.bucket, addr, .getMulti g.missing)
  | _ => none

theorem reverse_getElem? (nodes rest : List String) (addr : String) :
    (nodes ++ addr :: rest).reverse[rest.length]? = some addr := by
  simp

theorem searches_start (keys ranked : List String) (bucket : Nat) :
    Searches shows keys ranked ⟨bucket, keys, [], .waiting⟩ :=
  ⟨[], ranked, rfl, heard_start keys bucket, rfl⟩

/-- The nodes that are left are asked next. -/
theorem searches_askNext (next : List String) (heard : g.Heard shows keys nodes) :
    (g.askNext next).1.Searches shows keys (nodes ++ next) ∧
      ((g.askNext next).1.calls? (nodes ++ next)).toList = (g.askNext next).2.map fun addr =>
        (g.bucket, addr, .getMulti (g.askNext next).1.missing) := by
  cases next with
  | nil => exact ⟨⟨nodes, [], rfl, ⟨heard.missing, heard.found⟩, .inl rfl⟩, rfl⟩
  | cons addr rest =>
    by_cases none_left : g.missing.isEmpty = true
    · have step : g.askNext (addr :: rest) = ({ g with stage := .done }, []) := if_pos none_left
      rw [step]
      exact ⟨⟨nodes, addr :: rest, rfl, ⟨heard.missing, heard.found⟩,
        .inr (List.isEmpty_iff.mp none_left)⟩, rfl⟩
    · have step : g.askNext (addr :: rest) = ({ g with stage := .asking rest }, [addr]) :=
        if_neg none_left
      rw [step]
      refine ⟨⟨nodes, addr :: rest, rfl, ⟨heard.missing, heard.found⟩, addr, rfl⟩, ?_⟩
      simp only [calls?, reverse_getElem?]
      rfl

/-- The order counts in which the mains are ranked when the group begins. -/
theorem searches_begin {now : List String} (same : g.stage = .waiting → now = ranked)
    (searches : g.Searches shows keys ranked) :
    (g.begin now).1.Searches shows keys ranked ∧
      ((g.begin now).1.calls? ranked).toList = (g.calls? ranked).toList ++
        (g.begin now).2.map fun addr => (g.bucket, addr, .getMulti (g.begin now).1.missing) := by
  by_cases waiting : g.stage = .waiting
  · obtain rfl := same waiting
    have step : g.begin now = g.askNext now := if_pos waiting
    have quiet : g.calls? now = none := by simp only [calls?, waiting]
    obtain ⟨nodes, left, -, heard, at_start⟩ := searches
    simp only [waiting] at at_start
    subst at_start
    rw [step, quiet]
    exact searches_askNext now heard
  · have step : g.begin now = (g, []) := if_neg waiting
    rw [step]
    exact ⟨searches, (List.append_nil _).symm⟩

/-- The node that was asked answers with what it has, or fails and has shown nothing. -/
theorem searches_absorb {bucket : Nat} {addr : String} {q : Ask}
    {result : Except Failure (List (String × Item))}
    (calls : g.calls? ranked = some (bucket, addr, q)) (searches : g.Searches shows keys ranked)
    (answers : ∀ values, result = .ok values → values = told (shows addr) g.missing)
    (fails : ∀ why, result = .error why → ∀ key, shows addr key = none) :
    (g.absorb result).1.Searches shows keys ranked ∧
      ((g.absorb result).1.calls? ranked).toList = (g.absorb result).2.map fun addr =>
        (g.bucket, addr, .getMulti (g.absorb result).1.missing) := by
  obtain ⟨nodes, left, rfl, heard, place⟩ := searches
  unfold calls? at calls
  split at calls
  · rename_i rest asking
    simp only [asking] at place
    obtain ⟨called, rfl⟩ := place
    rw [reverse_getElem?] at calls
    obtain ⟨-, rfl, -⟩ : g.bucket = bucket ∧ called = addr ∧ Ask.getMulti g.missing = q := by
      simpa using calls
    have step : g.absorb result =
        ((told (shows called) g.missing).foldl takeValue g).askNext rest := by
      cases result with
      | ok values => simp only [absorb, asking, answers values rfl]
      | error why =>
        -- A failure passes for the answer of a node that has none of the keys.
        have nothing : shows called = fun _ => none := funext (fails why rfl)
        simp only [absorb, asking, nothing, told_none, List.foldl_nil]
    have heard_more : ((told (shows called) g.missing).foldl takeValue g).Heard shows keys
        (nodes ++ [called]) := heard_takeValues heard
    have next := searches_askNext rest heard_more
    rw [(within_takeValues _ g).2, List.append_assoc, List.singleton_append] at next
    rw [step]
    exact next
  · cases calls

/-- What a group has found once it is done. -/
theorem Searches.found {key : String} {item : Item} (searches : g.Searches shows keys ranked)
    (done : g.stage = .done) :
    (key, item) ∈ g.found ↔ key ∈ keys ∧ (firstOf shows ranked key).filter isLive = some item := by
  obtain ⟨nodes, left, rfl, heard, all⟩ := searches
  simp only [done] at all
  have same (listed : key ∈ keys) :
      firstOf shows (nodes ++ left) key = firstOf shows nodes key := by
    rw [firstOf_append]
    obtain rfl | none_left := all
    · exact Option.or_none
    · have known : key ∉ g.missing := by
        rw [none_left]
        exact List.not_mem_nil
      rw [heard.missing.mem_iff, List.mem_filter, not_and, Option.isNone_iff_eq_none] at known
      obtain ⟨first, shown⟩ := Option.ne_none_iff_exists'.mp (known listed)
      rw [shown, Option.some_or]
  rw [heard.found, Option.filter_eq_some_iff]
  exact and_congr_right fun listed => by rw [same listed]

end Group

variable {shows : Nat → String → String → Option Item} {bucketOf : String → Nat}
  {order mainsOf : Nat → List String} {m : Fetch} {bucket : Nat} {g : Group}
  {asked others : List (Nat × String × Ask)}

/-- What each group keeps: it goes through the nodes in the order of its bucket, and these are mains
once it has begun. -/
def GroupSearches (shows : Nat → String → String → Option Item) (keys : List String)
    (bucketOf : String → Nat) (order mainsOf : Nat → List String) (g : Group) : Prop :=
  g.Searches (shows g.bucket) (keys.filter fun key => bucketOf key = g.bucket) (order g.bucket) ∧
    (g.stage ≠ .waiting → order g.bucket ⊆ mainsOf g.bucket)

/-- A fetch whose groups go through the nodes in the order of their buckets, while it waits for the
answers to some calls. -/
def Searches (shows : Nat → String → String → Option Item) (keys : List String)
    (bucketOf : String → Nat) (order mainsOf : Nat → List String) (m : Fetch)
    (asked : List (Nat × String × Ask)) : Prop :=
  m.Each (GroupSearches shows keys bucketOf order mainsOf) (fun g => g.calls? (order g.bucket)) keys
    bucketOf asked

theorem searches_start (buckets : Nat) (keys : List String) :
    (start buckets keys).Searches shows keys (Key.bucket buckets) order mainsOf [] :=
  each_start buckets keys (fun b => ⟨Group.searches_start _ _ b, fun begun => absurd rfl begun⟩)
    fun _ _ => rfl

theorem searches_begin {now : List String} (mains : now ⊆ mainsOf bucket)
    (grouped : m.group? bucket = some g) (same : g.stage = .waiting → now = order bucket)
    (searches : m.Searches shows keys bucketOf order mainsOf asked) :
    (m.putGroup (g.begin now).1).Searches shows keys bucketOf order mainsOf
      (asked ++ (g.begin now).2.map fun addr =>
        (bucket, addr, .getMulti (g.begin now).1.missing)) := by
  obtain rfl := bucket_of_group? grouped
  obtain ⟨one, inside⟩ := Each.groups searches g (mem_of_group? grouped)
  obtain ⟨begun, calls⟩ := Group.searches_begin same one
  have still := (Group.within_begin g now).2
  refine Each.ask searches grouped still ⟨still.symm ▸ begun, fun _ => ?_⟩ (still.symm ▸ calls)
  rw [still]
  by_cases waiting : g.stage = .waiting
  · exact same waiting ▸ mains
  · exact inside waiting

/-- A call that is waited for was made for a group: to a main, about all that is missing. -/
theorem Searches.due {addr : String} {q : Ask}
    (searches : m.Searches shows keys bucketOf order mainsOf asked)
    (listed : (bucket, addr, q) ∈ asked) :
    ∃ g, m.group? bucket = some g ∧ g.calls? (order bucket) = some (bucket, addr, q) ∧
      q = .getMulti g.missing ∧ g.missing ⊆ keys ∧ addr ∈ mainsOf bucket := by
  obtain ⟨g, grouped, calls⟩ := Each.due searches listed
  obtain ⟨⟨nodes, -, -, heard, -⟩, inside⟩ := Each.groups searches g (mem_of_group? grouped)
  have whole := calls
  unfold Group.calls? at calls
  split at calls
  · rename_i rest asking
    obtain ⟨called, there, about⟩ := Option.map_eq_some_iff.mp calls
    cases about
    refine ⟨g, grouped, whole, rfl, ?_, ?_⟩
    · intro key missing
      exact List.mem_of_mem_filter (List.mem_of_mem_filter (heard.missing.mem_iff.mp missing))
    · apply inside (by simp [asking])
      exact List.mem_reverse.mp (List.mem_of_getElem? there)
  · cases calls

theorem searches_absorb {addr : String} {q : Ask} {result : Except Failure (List (String × Item))}
    (grouped : m.group? bucket = some g) (calls : g.calls? (order bucket) = some (bucket, addr, q))
    (perm : asked.Perm ((bucket, addr, q) :: others))
    (answers : ∀ values, result = .ok values → values = told (shows bucket addr) g.missing)
    (fails : ∀ why, result = .error why → ∀ key, shows bucket addr key = none)
    (searches : m.Searches shows keys bucketOf order mainsOf asked) :
    (m.putGroup (g.absorb result).1).Searches shows keys bucketOf order mainsOf
      (others ++ (g.absorb result).2.map fun addr =>
        (bucket, addr, .getMulti (g.absorb result).1.missing)) := by
  obtain rfl := bucket_of_group? grouped
  obtain ⟨one, inside⟩ := Each.groups searches g (mem_of_group? grouped)
  obtain ⟨next, more⟩ := Group.searches_absorb calls one answers fails
  have still := (Group.within_absorb g result).2
  have begun : g.stage ≠ .waiting := by
    intro waiting
    simp [Group.calls?, waiting] at calls
  have goes_on : GroupSearches shows keys bucketOf order mainsOf (g.absorb result).1 :=
    ⟨still.symm ▸ next, fun _ => still.symm ▸ inside begun⟩
  have answered := Each.answer searches grouped calls perm still goes_on
  rw [still, more] at answered
  exact answered

/-- Without a result it waits for a node, or has not begun with some bucket. -/
theorem Searches.waits (searches : m.Searches shows keys bucketOf order mainsOf asked)
    (open_ : m.result? = none) : asked ≠ [] ∨ m.waiting? ≠ none := by
  refine Each.waits searches (fun g known rest asking => ?_) open_
  obtain ⟨⟨nodes, left, ranked, -, place⟩, -⟩ := Each.groups searches g known
  simp only [asking] at place
  obtain ⟨addr, rfl⟩ := place
  simp [Group.calls?, asking, ranked]

/-- It returns of every key what the first node in the order of its bucket shows that has a record
of it, if that is live. -/
theorem Searches.result {values : List (String × Item)}
    (searches : m.Searches shows keys bucketOf order mainsOf asked)
    (ended : m.result? = some values) :
    values = keys.eraseDups.filterMap fun key =>
      ((firstOf (shows (bucketOf key)) (order (bucketOf key)) key).filter isLive).map
        (key, ·) := by
  refine Each.result searches (fun g known done key item => ?_) ended
  rw [(Each.groups searches g known).1.found done, List.mem_filter, decide_eq_true_eq, and_assoc]
  refine and_congr_right fun _ => and_congr_right fun about => ?_
  rw [about]

end QuorumKv.Quorum.Fetch
