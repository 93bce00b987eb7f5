import TkmChain.LifecycleSound
import TkmChain.Rewards

/-!
# Validators are chosen by stake

The choice cuts the range below the total stake into one piece for each active
validator, of the length of its stake. The active set is sorted by address, so the
order of registration is forgotten.
-/

namespace TkmChain

open List

/-! ## The choice -/

def tickets (rs : List ValidatorRecord) : List ValidatorRecord := rs.flatMap fun r => replicate r.stake r

theorem map_pickByStake (last : ValidatorRecord) :
    ∀ rs, (range (rs.map (·.stake)).sum).map (pickByStake last · rs) = tickets rs
  | [] => rfl
  | r :: rs => by
    have hfirst : ∀ c ∈ range r.stake, pickByStake last c (r :: rs) = r := fun c hc => if_pos (mem_range.mp hc)
    have hrest : ∀ c, pickByStake last (r.stake + c) (r :: rs) = pickByStake last c rs := fun c => by
      rw [pickByStake, if_neg (by omega), Nat.add_sub_cancel_left]
    rw [map_cons, sum_cons, range_add, map_append, map_map, map_congr_left hfirst, map_const', length_range]
    exact congrArg _ ((map_congr_left fun c _ => hrest c).trans (map_pickByStake last rs))

theorem count_tickets (hn : rs.Nodup) (hr : r ∈ rs) : (tickets rs).count r = r.stake := by
  induction rs with
  | nil => cases hr
  | cons q rs ih =>
    obtain ⟨hq, hn⟩ := nodup_cons.mp hn
    rw [tickets, flatMap_cons, count_append, ← tickets]
    rcases mem_cons.mp hr with rfl | hr
    · have hout : r ∉ tickets rs := fun h => by
        obtain ⟨p, hp, hmem⟩ := mem_flatMap.mp h
        exact hq (eq_of_mem_replicate hmem ▸ hp)
      rw [count_replicate_self, count_eq_zero.mpr hout]
      rfl
    · have hne : q ≠ r := fun he => hq (he ▸ hr)
      rw [count_replicate, if_neg (by simpa using hne), ih hn hr, Nat.zero_add]

/-! ## The active set -/

theorem active_exists (hok : RegistryOk st idx) (height : Nat) :
    ∃ active, activeValidatorRecords st height = .ok active := by
  obtain ⟨records, hr, _⟩ := validatorRecords_read hok
  rw [activeValidatorRecords, hr]
  exact ⟨_, rfl⟩

section
variable {st : StateDB} {idx : List Address} {active : List ValidatorRecord} (hok : RegistryOk st idx)
  (ha : activeValidatorRecords st height = .ok active)
include hok ha

theorem active_spec : (∀ r, r ∈ active ↔ readValidatorRecord st r.address = .ok r ∧ r.activeAt height = true) ∧
    active.Nodup ∧ active.Pairwise fun a b => a.address.toNat < b.address.toNat := by
  obtain ⟨records, hr, hs⟩ := validatorRecords_read hok
  simp only [activeValidatorRecords, hr, ok_rules, Except.ok.injEq] at ha
  obtain ⟨_, rfl, hactive⟩ := ha
  have hread : ∀ r, r ∈ records ↔ _ := fun r => hok.mem_records hs
  have haddr : records.map (·.address) = idx := by
    have h := congrArg (map (ofRecord 0 (·.address))) hs
    rw [map_map, map_map] at h
    refine h.trans ((map_congr_left fun a hm => ?_).trans (map_id idx))
    obtain ⟨r, hr, hra, _⟩ := hok.record a hm
    simp [ofRecord, hr, hra]
  have hnodup : active.Pairwise fun a b => a.address ≠ b.address := by
    rw [← hactive, (mergeSort_perm _ _).pairwise_iff fun h => h.symm]
    exact (pairwise_map.mp (haddr ▸ hok.nodup)).filter _
  have hsorted : active.Pairwise fun a b => decide (a.address.toNat ≤ b.address.toNat) = true :=
    hactive ▸ pairwise_mergeSort (fun a b c hab hbc => by simp only [decide_eq_true_eq] at *; omega)
      (fun a b => by simp only [Bool.or_eq_true, decide_eq_true_eq]; omega) _
  refine ⟨fun r => by rw [← hactive, mem_mergeSort, mem_filter, hread], hnodup.imp fun h he => h (congrArg _ he),
    (hsorted.and hnodup).imp fun h => ?_⟩
  have hne : _ ≠ _ := fun he => h.2 (BitVec.eq_of_toNat_eq he)
  have hle := of_decide_eq_true h.1
  omega

end

end TkmChain
