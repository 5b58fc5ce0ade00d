import QuorumKv.Proofs.Failure
import QuorumKv.Proofs.Text.Order
import QuorumKv.Route

/-! A router that was built from a plan has every node of a bucket in one place only. -/
namespace QuorumKv

namespace Route

/-- No node is listed twice for a bucket. -/
def IsDistinct (listings : List Listing) : Prop :=
  listings.Pairwise fun a b => ¬(a.addr = b.addr ∧ a.bucket = b.bucket)

theorem distinct_addListing {buckets : Nat} {done after : List Listing} {item : String × String}
    (distinct : IsDistinct done) (added : addListing buckets done item = .ok after) :
    IsDistinct after := by
  obtain ⟨listing, -, added⟩ := ok_of_bind added
  split at added
  · cases added
  · rename_i new
    obtain rfl := Except.ok.inj added
    refine List.pairwise_append.mpr ⟨distinct, List.pairwise_singleton .., ?_⟩
    intro old known fresh listed same
    obtain rfl := List.mem_singleton.mp listed
    exact new (List.any_eq_true.mpr ⟨old, known, by simp [same]⟩)

theorem nodup_addBackup {r : Replicas} (addr : String) (nodup : r.all.Nodup) :
    (addBackup r addr).all.Nodup := by
  unfold addBackup
  split
  · exact nodup
  · rename_i absent
    rw [not_or] at absent
    have parts : Replicas.all ⟨r.mains, r.backups ++ [addr]⟩ = r.all ++ [addr] := by
      simp [Replicas.all]
    rw [parts, List.nodup_append]
    refine ⟨nodup, by simp, ?_⟩
    intro known listed other one
    obtain rfl := List.mem_singleton.mp one
    rintro rfl
    exact (List.mem_append.mp listed).elim absent.1 absent.2

theorem nodup_replicasOf {listings : List Listing} (backup : List String) (bucket : Nat)
    (distinct : IsDistinct listings) : (replicasOf listings backup bucket).all.Nodup := by
  have listed : (((listings.filter fun l => l.bucket == bucket).filter fun l => !l.isBackup).map
      (·.addr) ++ ((listings.filter fun l => l.bucket == bucket).filter (·.isBackup)).map
        (·.addr)).Nodup := by
    have here : ((listings.filter fun l => l.bucket == bucket).map (·.addr)).Nodup := by
      rw [List.Nodup, List.pairwise_map]
      refine (List.Pairwise.filter _ distinct).imp_of_mem ?_
      intro a b ina inb apart same
      have bucketA := (List.mem_filter.mp ina).2
      have bucketB := (List.mem_filter.mp inb).2
      exact apart ⟨same, (beq_iff_eq.mp bucketA).trans (beq_iff_eq.mp bucketB).symm⟩
    rw [← List.map_append]
    refine (List.Perm.nodup_iff ((List.Perm.trans List.perm_append_comm
      (?_ : List.Perm _ _)).map _)).mpr here
    simpa using List.filter_append_perm (·.isBackup) (listings.filter fun l => l.bucket == bucket)
  have each : ∀ r : Replicas, r.all.Nodup → (backup.foldl addBackup r).all.Nodup := by
    induction backup with
    | nil => exact fun _ => id
    | cons addr rest ih => exact fun r nodup => ih _ (nodup_addBackup addr nodup)
  exact each _ listed

end Route

namespace Router

open Route

/-- Mains and backups of a bucket together contain no address twice. -/
theorem nodup_resolve {plan : Plan} {r : Router} (built : ofPlan plan = .ok r) (bucket : Nat) :
    (r.resolve bucket).all.Nodup := by
  unfold ofPlan at built
  split at built
  · cases built
  · rename_i some_bucket
    obtain ⟨listings, listed, built⟩ := ok_of_bind built
    dsimp only at built
    split at built
    · cases built
    · obtain rfl := Except.ok.inj built
      have distinct : IsDistinct listings :=
        foldlM_keeps (fun _ _ _ => distinct_addListing) List.Pairwise.nil listed
      unfold resolve
      simp only [buckets, List.length_map, List.length_range]
      have inside : bucket % plan.buckets < plan.buckets :=
        Nat.mod_lt _ (Nat.pos_of_ne_zero some_bucket)
      rw [List.getD_eq_getElem?_getD, List.getElem?_map, List.getElem?_range inside]
      exact nodup_replicasOf plan.backup _ distinct

theorem mem_addresses {r : Router} {bucket : Nat} {addr : String}
    (node : addr ∈ (r.resolve bucket).all) : addr ∈ r.addresses := by
  rw [addresses, Text.mem_sortedSet, List.mem_flatMap]
  refine ⟨r.resolve bucket, ?_, node⟩
  unfold resolve at node ⊢
  cases there : r.replicas[bucket % r.buckets]? with
  | some replicas =>
    rw [List.getD_eq_getElem?_getD, there]
    exact List.mem_of_getElem? there
  | none =>
    rw [List.getD_eq_getElem?_getD, there] at node
    cases node

end Router

end QuorumKv
