import QuorumKv.Proofs.Route
import QuorumKv.Proofs.Text.Number

/-! Which plans a router can be built from, and what the router makes of one: every bucket has the
nodes that list it, in the order of the plan, and behind them those that back up every bucket. -/
namespace QuorumKv

namespace Route

/-- Whether an id names a bucket: a number in hexadecimal, behind a minus sign if the node backs up
the bucket. -/
def Names (id : String) (bucket : Nat) : Bool → Prop
  | true => id.toList.head? = some '-' ∧ Text.Shows 16 Text.bound64 id.toList.tail bucket
  | false => Text.Shows 16 Text.bound64 id.toList bucket

instance (id : String) (bucket : Nat) : (isBackup : Bool) → Decidable (Names id bucket isBackup)
  | true => inferInstanceAs (Decidable (_ ∧ _))
  | false => inferInstanceAs (Decidable (Text.Shows ..))

theorem readBucket_eq_ok_iff {buckets : Nat} {addr raw : String} {l : Listing} :
    readBucket buckets addr raw = .ok l ↔
      l.addr = addr ∧ Names raw l.bucket l.isBackup ∧ l.bucket < buckets := by
  unfold readBucket
  split
  rename_i id isBackup parts
  have named : Names raw l.bucket l.isBackup ↔
      l.isBackup = isBackup ∧ Text.Shows 16 Text.bound64 id l.bucket := by
    split at parts
    · rename_i rest chars
      obtain ⟨rfl, rfl⟩ := Prod.mk.inj parts
      cases kind : l.isBackup with
      | true => simp [Names, chars]
      | false =>
        have signed : ¬Names raw l.bucket false := fun shows =>
          shows.unsigned (by rw [chars, List.head?_cons])
        simp [signed]
    · rename_i unsigned
      obtain ⟨rfl, rfl⟩ := Prod.mk.inj parts
      have plain : raw.toList.head? ≠ some '-' := by
        intro minus
        obtain ⟨rest, chars⟩ := List.head?_eq_some_iff.mp minus
        exact unsigned rest chars
      cases l.isBackup <;> simp [Names, plain]
  rw [named, ← Text.unsigned?_trimList_iff]
  cases Text.unsigned? 16 Text.bound64 (Text.trimList Text.isBlank id) with
  | none =>
    constructor
    · intro made
      cases made
    · rintro ⟨-, ⟨-, read⟩, -⟩
      cases read
  | some bucket =>
    by_cases inside : bucket < buckets
    · simp only [inside, if_true]
      constructor
      · intro made
        obtain rfl := Except.ok.inj made
        exact ⟨rfl, ⟨rfl, rfl⟩, inside⟩
      · rintro ⟨rfl, ⟨rfl, same⟩, -⟩
        obtain rfl := Option.some.inj same
        rfl
    · simp only [inside, if_false]
      constructor
      · intro made
        cases made
      · rintro ⟨-, ⟨-, same⟩, inside'⟩
        obtain rfl := Option.some.inj same
        exact absurd inside' inside

/-- The nodes that list a bucket, or that list it as one they back up, in the order of the plan. -/
def Plan.listed (plan : Plan) (bucket : Nat) (isBackup : Bool) : List String :=
  (plan.items.filter fun item => Names item.2 bucket isBackup).map (·.1)

/-- What makes a router out of a plan: there are buckets, every id names one of them, no node names
the same one twice, and every bucket has a main node. -/
structure Plan.IsSound (plan : Plan) : Prop where
  some_bucket : 0 < plan.buckets
  in_range : ∀ entry ∈ plan.main, ∀ id ∈ entry.buckets,
    ∃ bucket < plan.buckets, ∃ isBackup, Names id bucket isBackup
  once : plan.items.Pairwise fun a b => ∀ bucket asA asB,
    Names a.2 bucket asA → Names b.2 bucket asB → a.1 ≠ b.1
  led : ∀ bucket < plan.buckets, plan.listed bucket false ≠ []

/-- The nodes of a bucket that a plan names, one way or the other. -/
def Plan.replicas (plan : Plan) (bucket : Nat) : Replicas :=
  plan.backup.foldl addBackup ⟨plan.listed bucket false, plan.listed bucket true⟩

theorem foldl_addBackup (r : Replicas) (backup : List String) :
    backup.foldl addBackup r =
      ⟨r.mains, r.backups ++ (backup.filter fun addr => addr ∉ r.all).eraseDups⟩ := by
  induction backup generalizing r with
  | nil => simp
  | cons addr rest ih =>
    rw [List.foldl_cons, ih]
    by_cases known : addr ∈ r.all
    · have kept : addBackup r addr = r := if_pos (List.mem_append.mp known)
      rw [kept, List.filter_cons_of_neg (by simpa using known)]
    · have added : addBackup r addr = ⟨r.mains, r.backups ++ [addr]⟩ :=
        if_neg fun known' => known (List.mem_append.mpr known')
      have others : (rest.filter fun other =>
            other ∉ (⟨r.mains, r.backups ++ [addr]⟩ : Replicas).all) =
          (rest.filter fun other => other ∉ r.all).filter fun other => !other == addr := by
        rw [List.filter_filter]
        refine List.filter_congr fun other _ => ?_
        simp only [Replicas.all, List.mem_append, List.mem_singleton]
        by_cases same : other = addr <;> simp [same]
      rw [added, others, List.filter_cons_of_pos (by simpa using known), List.eraseDups_cons,
        List.append_assoc, List.singleton_append]

/-- The listing that an id of a node stands for, if it names a bucket. -/
def listings (buckets : Nat) (item : String × String) : List Listing :=
  (readBucket buckets item.1 item.2).toOption.toList

variable {buckets : Nat} {item : String × String}

theorem mem_listings {l : Listing} : l ∈ listings buckets item ↔
    l.addr = item.1 ∧ Names item.2 l.bucket l.isBackup ∧ l.bucket < buckets := by
  rw [← readBucket_eq_ok_iff, listings]
  cases readBucket buckets item.1 item.2 <;> simp [Except.toOption, eq_comm]

theorem listings_of_ok {l : Listing} (read : readBucket buckets item.1 item.2 = .ok l) :
    listings buckets item = [l] := by
  rw [listings, read]
  rfl

theorem addListing_iff {before after : List Listing} (distinct : IsDistinct before) :
    addListing buckets before item = .ok after ↔
      listings buckets item ≠ [] ∧ IsDistinct after ∧
        after = before ++ listings buckets item := by
  constructor
  · intro added
    have distinct_after := distinct_addListing distinct added
    obtain ⟨listing, read, added⟩ := ok_of_bind added
    split at added
    · cases added
    · obtain rfl := Except.ok.inj added
      rw [listings_of_ok read]
      exact ⟨List.cons_ne_nil _ _, distinct_after, rfl⟩
  · rintro ⟨fit, distinct_after, rfl⟩
    cases read : readBucket buckets item.1 item.2 with
    | error e => simp [listings, read, Except.toOption] at fit
    | ok listing =>
      rw [listings_of_ok read] at distinct_after ⊢
      have new : ¬(before.any fun l => l.addr == listing.addr && l.bucket == listing.bucket) := by
        intro again
        obtain ⟨old, known, same⟩ := List.any_eq_true.mp again
        simp only [Bool.and_eq_true, beq_iff_eq] at same
        exact (List.pairwise_append.mp distinct_after).2.2 old known listing
          List.mem_cons_self same
      unfold addListing
      rw [read]
      exact if_neg new

theorem mem_items {plan : Plan} :
    item ∈ plan.items ↔ ∃ entry ∈ plan.main, ∃ id ∈ entry.buckets, (entry.addr, id) = item := by
  simp only [Plan.items, List.mem_flatMap, List.mem_map]

theorem read_items_iff {plan : Plan} {done : List Listing} :
    plan.items.foldlM (addListing plan.buckets) [] = .ok done ↔
      (∀ item ∈ plan.items, listings plan.buckets item ≠ []) ∧ IsDistinct done ∧
        done = plan.items.flatMap (listings plan.buckets) := by
  have distinct_front (front back : List Listing) (distinct : IsDistinct (front ++ back)) :
      IsDistinct front := (List.pairwise_append.mp distinct).1
  have step (before : List Listing) (item : String × String) (after : List Listing)
      (distinct : IsDistinct before) :
      addListing plan.buckets before item = .ok after ↔
        listings plan.buckets item ≠ [] ∧ IsDistinct after ∧
          after = before ++ listings plan.buckets item := addListing_iff distinct
  have none_yet : IsDistinct [] := List.Pairwise.nil
  exact foldlM_append_iff distinct_front step none_yet

/-- An id names one bucket only, in one way. -/
theorem Names.functional {id : String} {one other : Nat} {oneBackup otherBackup : Bool}
    (names : Names id one oneBackup) (names' : Names id other otherBackup) :
    one = other ∧ oneBackup = otherBackup := by
  -- whichever number of buckets is large enough for both, the id is read once
  have read (bucket : Nat) (isBackup : Bool) (named : Names id bucket isBackup)
      (inside : bucket < one + other + 1) :
      readBucket (one + other + 1) "" id = .ok ⟨"", bucket, isBackup⟩ :=
    readBucket_eq_ok_iff.mpr ⟨rfl, named, inside⟩
  have same := (read one oneBackup names (by omega)).symm.trans
    (read other otherBackup names' (by omega))
  obtain ⟨-, number, way⟩ := Listing.mk.inj (Except.ok.inj same)
  exact ⟨number, way⟩

theorem listings_ne_nil_iff : listings buckets item ≠ [] ↔
    ∃ bucket < buckets, ∃ isBackup, Names item.2 bucket isBackup := by
  constructor
  · intro filled
    obtain ⟨l, read⟩ := List.exists_mem_of_ne_nil _ filled
    obtain ⟨-, named, inside⟩ := mem_listings.mp read
    exact ⟨l.bucket, inside, l.isBackup, named⟩
  · rintro ⟨bucket, inside, isBackup, named⟩
    exact List.ne_nil_of_mem (a := ⟨item.1, bucket, isBackup⟩)
      (mem_listings.mpr ⟨rfl, named, inside⟩)

theorem nodup_listings_iff {items : List (String × String)}
    (fit : ∀ item ∈ items, listings buckets item ≠ []) :
    IsDistinct (items.flatMap (listings buckets)) ↔
      items.Pairwise fun a b => ∀ bucket asA asB,
        Names a.2 bucket asA → Names b.2 bucket asB → a.1 ≠ b.1 := by
  have single (item : String × String) : IsDistinct (listings buckets item) := by
    unfold listings
    cases readBucket buckets item.1 item.2 with
    | error e => exact .nil
    | ok l => exact List.pairwise_singleton _ l
  rw [IsDistinct, List.pairwise_flatMap]
  refine (and_iff_right fun item _ => single item).trans (List.Pairwise.iff_of_mem ?_)
  intro a b ina inb
  constructor
  · intro apart bucket asA asB namesA namesB same
    obtain ⟨l, inside, way, named⟩ := listings_ne_nil_iff.mp (fit a ina)
    obtain rfl := (named.functional namesA).1
    exact apart ⟨a.1, l, asA⟩ (mem_listings.mpr ⟨rfl, namesA, inside⟩)
      ⟨b.1, l, asB⟩ (mem_listings.mpr ⟨rfl, namesB, inside⟩) ⟨same, rfl⟩
  · rintro apart x inx y iny ⟨addr, bucket⟩
    obtain ⟨addrA, namesA, -⟩ := mem_listings.mp inx
    obtain ⟨addrB, namesB, -⟩ := mem_listings.mp iny
    exact apart x.bucket x.isBackup y.isBackup namesA (bucket ▸ namesB)
      (addrA.symm.trans (addr.trans addrB))

/-- What one id adds to the nodes of a bucket. -/
theorem listings_here {bucket : Nat} (inside : bucket < buckets) (isBackup : Bool) :
    ((listings buckets item).filter fun l => l.bucket == bucket && l.isBackup == isBackup).map
        (·.addr) =
      if Names item.2 bucket isBackup then [item.1] else [] := by
  cases read : readBucket buckets item.1 item.2 with
  | error e =>
    have unnamed : ¬Names item.2 bucket isBackup := by
      intro named
      have ok := readBucket_eq_ok_iff (l := ⟨item.1, bucket, isBackup⟩).mpr ⟨rfl, named, inside⟩
      rw [read] at ok
      cases ok
    simp [listings, read, Except.toOption, unnamed]
  | ok l =>
    obtain ⟨addr, named, -⟩ := readBucket_eq_ok_iff.mp read
    have same : Names item.2 bucket isBackup ↔ l.bucket = bucket ∧ l.isBackup = isBackup :=
      ⟨named.functional, fun ⟨number, way⟩ => number ▸ way ▸ named⟩
    rw [listings_of_ok read]
    by_cases here : l.bucket = bucket ∧ l.isBackup = isBackup
    · simp [here, same, addr]
    · rw [if_neg (same.not.mpr here), List.filter_cons_of_neg (by simpa using here)]
      rfl

theorem listed_of_listings {plan : Plan} {bucket : Nat} (inside : bucket < plan.buckets)
    (isBackup : Bool) :
    ((plan.items.flatMap (listings plan.buckets)).filter fun l =>
        l.bucket == bucket && l.isBackup == isBackup).map (·.addr) =
      plan.listed bucket isBackup := by
  have flat (items : List (String × String)) :
      (items.filter fun item => Names item.2 bucket isBackup).map (·.1) =
        items.flatMap fun item => if Names item.2 bucket isBackup then [item.1] else [] := by
    induction items with
    | nil => rfl
    | cons item rest ih =>
      by_cases named : Names item.2 bucket isBackup <;> simp [named, ih]
  rw [Plan.listed, flat, List.filter_flatMap, List.map_flatMap]
  simp only [listings_here inside isBackup]

/-- The nodes of a bucket once all ids are read. -/
theorem replicasOf_listings {plan : Plan} {bucket : Nat} (inside : bucket < plan.buckets) :
    replicasOf (plan.items.flatMap (listings plan.buckets)) plan.backup bucket =
      plan.replicas bucket := by
  have mains := listed_of_listings inside false
  have backups := listed_of_listings inside true
  simp only [beq_false, beq_true] at mains backups
  simp only [replicasOf, Plan.replicas, List.filter_filter]
  rw [← mains, ← backups]
  simp only [Bool.and_comm]

end Route

namespace Router

open Route

/-- A plan makes a router exactly if it is sound, and then a known one. -/
theorem ofPlan_eq_ok_iff {plan : Plan} {r : Router} :
    ofPlan plan = .ok r ↔
      plan.IsSound ∧ r.replicas = (List.range plan.buckets).map plan.replicas := by
  have nodes : (List.range plan.buckets).map
        (replicasOf (plan.items.flatMap (listings plan.buckets)) plan.backup) =
      (List.range plan.buckets).map plan.replicas :=
    List.map_congr_left fun bucket listed => replicasOf_listings (List.mem_range.mp listed)
  have mains (bucket : Nat) : (plan.replicas bucket).mains = plan.listed bucket false := by
    rw [Plan.replicas, foldl_addBackup]
  have led : ((List.range plan.buckets).map plan.replicas).findIdx?
        (fun r => r.mains.isEmpty) = none ↔
      ∀ bucket < plan.buckets, plan.listed bucket false ≠ [] := by
    simp [List.findIdx?_eq_none_iff, mains]
  have ranged : (∀ item ∈ plan.items, listings plan.buckets item ≠ []) ↔
      ∀ entry ∈ plan.main, ∀ id ∈ entry.buckets,
        ∃ bucket < plan.buckets, ∃ isBackup, Names id bucket isBackup := by
    simp only [mem_items, listings_ne_nil_iff]
    constructor
    · exact fun all entry listed id known => all (entry.addr, id) ⟨entry, listed, id, known, rfl⟩
    · rintro all item ⟨entry, listed, id, known, rfl⟩
      exact all entry listed id known
  unfold ofPlan
  constructor
  · intro built
    split at built
    · cases built
    · rename_i some_bucket
      obtain ⟨done, read, built⟩ := ok_of_bind built
      obtain ⟨fit, distinct, rfl⟩ := read_items_iff.mp read
      dsimp only at built
      rw [nodes] at built
      split at built
      · cases built
      · rename_i full
        obtain rfl := Except.ok.inj built
        exact ⟨⟨Nat.pos_of_ne_zero some_bucket, ranged.mp fit,
          (nodup_listings_iff fit).mp distinct, led.mp full⟩, rfl⟩
  · rintro ⟨sound, replicas⟩
    have fit := ranged.mpr sound.in_range
    have read := read_items_iff.mpr ⟨fit, (nodup_listings_iff fit).mpr sound.once, rfl⟩
    rw [if_neg (Nat.ne_of_gt sound.some_bucket)]
    dsimp only
    rw [read]
    dsimp only [bind, Except.bind]
    rw [nodes, led.mpr sound.led]
    exact congrArg Except.ok (congrArg Router.mk replicas.symm)

/-- A router is built exactly from a sound plan. Each of its buckets then has the main nodes that
list it and the backups that list it, in the order of the plan, and behind these the nodes that back
up every bucket, as far as they are not there yet; no node is there twice. Every key belongs to a
bucket with a main node. -/
theorem built_iff_sound (plan : Plan) :
    ((∃ r, ofPlan plan = .ok r) ↔ plan.IsSound) ∧
      ∀ r, ofPlan plan = .ok r →
        r.buckets = plan.buckets ∧
        (∀ bucket < plan.buckets,
          (r.resolve bucket).mains = plan.listed bucket false ∧
          (r.resolve bucket).backups = plan.listed bucket true ++
            (plan.backup.filter fun addr =>
              addr ∉ plan.listed bucket false ++ plan.listed bucket true).eraseDups ∧
          (r.resolve bucket).all.Nodup) ∧
        r.addresses.Pairwise (· ≤ ·) ∧ r.addresses.Nodup ∧
        (∀ addr, addr ∈ r.addresses ↔ ∃ bucket < plan.buckets, addr ∈ (r.resolve bucket).all) ∧
        ∀ key, r.bucketOf key < plan.buckets ∧ (r.resolve (r.bucketOf key)).mains ≠ [] := by
  refine ⟨⟨fun ⟨r, built⟩ => (ofPlan_eq_ok_iff.mp built).1,
    fun sound => ⟨⟨_⟩, ofPlan_eq_ok_iff.mpr ⟨sound, rfl⟩⟩⟩, ?_⟩
  intro r built
  obtain ⟨sound, replicas⟩ := ofPlan_eq_ok_iff.mp built
  have number : r.buckets = plan.buckets := by simp [buckets, replicas]
  have resolved (bucket : Nat) (inside : bucket < plan.buckets) :
      r.resolve bucket = plan.replicas bucket := by
    rw [resolve, number, Nat.mod_eq_of_lt inside, replicas, List.getD_eq_getElem?_getD,
      List.getElem?_map, List.getElem?_range inside]
    rfl
  have mains (bucket : Nat) (inside : bucket < plan.buckets) :
      (r.resolve bucket).mains = plan.listed bucket false := by
    rw [resolved bucket inside, Plan.replicas, foldl_addBackup]
  have inside (key : String) : r.bucketOf key < plan.buckets := by
    rw [bucketOf, Key.bucket, number]
    exact Nat.lt_of_lt_of_eq (Nat.mod_lt _ (Nat.le_max_right ..))
      (Nat.max_eq_left sound.some_bucket)
  refine ⟨number, ?_, Text.ordered_sortedSet _, Text.nodup_sortedSet _, ?_, ?_⟩
  · intro bucket inside
    refine ⟨mains bucket inside, ?_, nodup_resolve built bucket⟩
    rw [resolved bucket inside, Plan.replicas, foldl_addBackup]
    rfl
  · intro addr
    rw [addresses, Text.mem_sortedSet, replicas, List.mem_flatMap]
    constructor
    · rintro ⟨nodes, listed, here⟩
      obtain ⟨bucket, ranged, rfl⟩ := List.mem_map.mp listed
      have inside := List.mem_range.mp ranged
      exact ⟨bucket, inside, resolved bucket inside ▸ here⟩
    · rintro ⟨bucket, inside, here⟩
      exact ⟨plan.replicas bucket, List.mem_map_of_mem (List.mem_range.mpr inside),
        resolved bucket inside ▸ here⟩
  · intro key
    exact ⟨inside key, mains _ (inside key) ▸ sound.led _ (inside key)⟩

/-- Two buckets of which two nodes back up each other's, and a third node that backs up both. -/
theorem built_mutual :
    let plan : Plan := ⟨2, [⟨"n1", ["0", "-1"]⟩, ⟨"n2", [" +1 ", "-0"]⟩], ["n3", "n1", "n3"]⟩
    plan.IsSound ∧ ∃ r, ofPlan plan = .ok r ∧ (r.resolve 1).backups = ["n1", "n3"] ∧
      (∀ key, r.bucketOf key < 2 ∧ (r.resolve (r.bucketOf key)).mains ≠ []) ∧
      "n3" ∈ r.addresses := by
  intro plan
  have built : ofPlan plan = .ok ⟨[⟨["n1"], ["n2", "n3"]⟩, ⟨["n2"], ["n1", "n3"]⟩]⟩ := by
    decide +kernel
  obtain ⟨sound, made⟩ := built_iff_sound plan
  obtain ⟨-, nodes, -, -, members, keys⟩ := made _ built
  have listed : plan.listed 1 true ++ (plan.backup.filter fun addr =>
      addr ∉ plan.listed 1 false ++ plan.listed 1 true).eraseDups = ["n1", "n3"] := by
    decide +kernel
  exact ⟨sound.mp ⟨_, built⟩, _, built, (nodes 1 (by decide)).2.1.trans listed, keys,
    (members "n3").mpr ⟨1, by decide, by decide +kernel⟩⟩

/-- An id that names a bucket again, in another spelling, spoils the plan. -/
example : ¬Plan.IsSound ⟨2, [⟨"n1", ["0", "1", "-01"]⟩], []⟩ := fun sound =>
  absurd (ofPlan_eq_ok_iff.mpr ⟨sound, rfl⟩ : ofPlan _ = .ok ⟨_⟩) (by decide +kernel)

end Router

end QuorumKv
