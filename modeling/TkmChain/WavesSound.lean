import TkmChain.FirstFit
import TkmChain.Waves

/-!
# The order of execution waves

The loop of the source is a first-fit schedule of the transaction indices with
the unknown access sets as barriers. Conflicting indices get different waves,
and the later one gets the later wave exactly if it is blocked in every wave up
to that of the earlier one.
-/

namespace TkmChain

open FirstFit List

/-! ## Conflicts -/

theorem conflicts_comm (a b : AccessSet) : a.conflicts b = b.conflicts a := by
  rw [Bool.eq_iff_iff]
  simp only [AccessSet.conflicts, accountAddressConflicts, storageAccessConflicts, storageSlotAddressConflicts,
    Bool.or_eq_true, any_eq_true, mem_append, Bool.and_eq_true, decide_eq_true_eq]
  grind

section
variable (access : List AccessSet)

def conflictsAt (i j : Nat) : Bool :=
  (access[i]?.map fun a => (access[j]?.map fun b => a.conflicts b).getD false).getD false

def unknownAt (i : Nat) : Bool := (access[i]?.map AccessSet.unknown).getD false

variable {access}

theorem conflictsAt_comm (i j : Nat) : conflictsAt access i j = conflictsAt access j i := by
  unfold conflictsAt
  cases access[i]? with
  | none => cases access[j]? <;> rfl
  | some a =>
    cases access[j]? with
    | none => rfl
    | some b => exact conflicts_comm a b

theorem unknownAt_conflicts (hi : i < access.length) (hj : j < access.length)
    (h : unknownAt access i = true) : conflictsAt access i j = true := by
  simp only [unknownAt, conflictsAt, getElem?_eq_getElem hi, getElem?_eq_getElem hj, Option.map_some,
    Option.getD_some] at h ⊢
  simp [AccessSet.conflicts, h]

/-! ## The loop as a schedule -/

def waveSchedule (access : List AccessSet) (k : Nat) : Schedule Nat :=
  schedule (conflictsAt access) (unknownAt access) (List.range k)

theorem fitsWave_eq (h : access[i]? = some item) :
    fitsWave access item = fun w => !w.any (conflictsAt access i) := by
  funext w
  simp only [fitsWave, not_any_eq_all_not, conflictsAt, h, Option.map_some, Option.getD_some]

theorem modify_length_add (l₁ l₂ : List α) (n : Nat) (f : α → α) :
    (l₁ ++ l₂).modify (l₁.length + n) f = l₁ ++ l₂.modify n f := by
  induction l₁ with
  | nil => simp
  | cons x l₁ ih => rw [length_cons, Nat.succ_add, cons_append, modify_succ_cons, ih, cons_append]

theorem addTransaction_schedule {st : WaveState} {s : Schedule Nat} {item : AccessSet} {i : Nat}
    (hi : access[i]? = some item) (hw : st.waves = s.waves) (hstart : st.start = s.closed.length) :
    (addTransaction access st (item, i)).waves = (s.add (conflictsAt access) (unknownAt access) i).waves ∧
      (addTransaction access st (item, i)).start =
        (s.add (conflictsAt access) (unknownAt access) i).closed.length := by
  have hunknown : unknownAt access i = item.unknown := by simp [unknownAt, hi]
  unfold addTransaction Schedule.add
  simp only [hunknown, hw, hstart]
  split
  · simp [Schedule.waves, Nat.add_assoc]
  · have hdrop : s.waves.drop s.closed.length = s.current := drop_left
    rw [hdrop, fitsWave_eq hi]
    cases hfind : s.current.findIdx? fun w => !w.any (conflictsAt access i) with
    | none => simp [Schedule.waves, place_of_none hfind]
    | some w => simp [Schedule.waves, place_of_some hfind, modify_length_add]

theorem foldl_schedule (k : Nat) (hk : k ≤ access.length) :
    ((access.zipIdx.take k).foldl (addTransaction access) ⟨[], 0⟩).waves = (waveSchedule access k).waves ∧
      ((access.zipIdx.take k).foldl (addTransaction access) ⟨[], 0⟩).start = (waveSchedule access k).closed.length := by
  induction k with
  | zero => exact ⟨rfl, rfl⟩
  | succ k ih =>
    obtain ⟨hw, hs⟩ := ih (Nat.le_of_succ_le hk)
    have hlen : k < access.zipIdx.length := by simpa using Nat.lt_of_succ_le hk
    rw [take_succ_eq_append_getElem hlen, foldl_append, foldl_cons, foldl_nil, waveSchedule,
      range_succ, schedule_concat, ← waveSchedule]
    simp only [getElem_zipIdx, Nat.zero_add]
    exact addTransaction_schedule (getElem?_eq_getElem hk) hw hs

theorem buildExecutionWaves_eq : buildExecutionWaves access = (waveSchedule access access.length).waves := by
  obtain ⟨hw, _⟩ := foldl_schedule access.length (Nat.le_refl _)
  rwa [take_of_length_le (by simp)] at hw

/-! ## What the waves respect -/

variable {i j k n m : Nat}

theorem inWave_waves (h : j < access.length) :
    InWave (buildExecutionWaves access) n j ↔
      n = (waveSchedule access j).next (conflictsAt access) (unknownAt access) j := by
  obtain ⟨k, hk⟩ := Nat.exists_eq_add_of_lt h
  have hsplit : List.range access.length = List.range j ++ j :: (List.range k).map (j + 1 + ·) := by
    rw [hk, Nat.add_right_comm, range_add, range_succ, append_assoc, singleton_append]
  have hnodup := nodup_range (n := access.length)
  rw [hsplit] at hnodup
  rw [buildExecutionWaves_eq, waveSchedule, hsplit]
  exact inWave_iff_next hnodup

theorem inWave_earlier (h : j ≤ access.length) (hi : i < j) :
    InWave (buildExecutionWaves access) n i ↔ InWave (waveSchedule access j).waves n i := by
  obtain ⟨k, hk⟩ := Nat.exists_eq_add_of_le h
  have hlater : i ∉ (List.range k).map (j + ·) := by
    simp only [mem_map, mem_range, not_exists, not_and]
    omega
  rw [buildExecutionWaves_eq, waveSchedule, hk, range_add]
  exact inWave_append_right hlater

theorem inWave_lt_length (h : InWave (buildExecutionWaves access) n i) : i < access.length := by
  rw [buildExecutionWaves_eq] at h
  exact mem_range.mp (inWave_mem h)

/-- An earlier index keeps `j` out of wave `n`: it conflicts in it, or it is unknown and not before it. -/
def BlockedBy (access : List AccessSet) (n j : Nat) : Prop :=
  ∃ k m, k < j ∧ InWave (buildExecutionWaves access) m k ∧
    (m = n ∧ conflictsAt access k j = true ∨ n ≤ m ∧ unknownAt access k = true)

theorem blockedBy_iff (h : j ≤ access.length) : BlockedBy access n j ↔
    Blocks (conflictsAt access) (unknownAt access) (waveSchedule access j).waves n j := by
  have hmem {m k : Nat} (hin : InWave (waveSchedule access j).waves m k) : k < j := mem_range.mp (inWave_mem hin)
  constructor
  · rintro ⟨k, m, hk, hin, ⟨rfl, hc⟩ | ⟨hm, hu⟩⟩
    · exact .inl ⟨k, (inWave_earlier h hk).mp hin, by rwa [conflictsAt_comm]⟩
    · exact .inr ⟨k, m, hm, hu, (inWave_earlier h hk).mp hin⟩
  · rintro (⟨k, hin, hc⟩ | ⟨k, m, hm, hu, hin⟩)
    · exact ⟨k, n, hmem hin, (inWave_earlier h (hmem hin)).mpr hin, .inl ⟨rfl, by rwa [conflictsAt_comm]⟩⟩
    · exact ⟨k, m, hmem hin, (inWave_earlier h (hmem hin)).mpr hin, .inr ⟨hm, hu⟩⟩

theorem inWave_first_fit (h : InWave (buildExecutionWaves access) n j) :
    ¬ BlockedBy access n j ∧ ∀ m < n, BlockedBy access m j := by
  have hj := inWave_lt_length h
  obtain rfl := (inWave_waves hj).mp h
  refine ⟨fun hb => not_blocks_next ((blockedBy_iff hj.le).mp hb), fun m hm => (blockedBy_iff hj.le).mpr ?_⟩
  refine blocks_before_next (fun x hx hu => ?_) hm
  exact unknownAt_conflicts hj (Nat.lt_trans (mem_range.mp hx) hj) hu

theorem wave_nodup : (buildExecutionWaves access).flatten.Nodup := by
  rw [buildExecutionWaves_eq]
  exact (schedule_perm _).nodup_iff.mpr nodup_range

theorem conflictsAt_of_inWave (hi : InWave (buildExecutionWaves access) n i)
    (hj : InWave (buildExecutionWaves access) n j) (hne : i ≠ j) : conflictsAt access i j = false := by
  rw [← Bool.not_eq_true]
  intro hc
  rcases Nat.lt_or_gt_of_ne hne with hlt | hlt
  · exact (inWave_first_fit hj).1 ⟨i, n, hlt, hi, .inl ⟨rfl, hc⟩⟩
  · exact (inWave_first_fit hi).1 ⟨j, n, hlt, hj, .inl ⟨rfl, by rwa [conflictsAt_comm]⟩⟩

theorem unknown_separates (hk : InWave (buildExecutionWaves access) n k) (hu : unknownAt access k = true)
    (hi : InWave (buildExecutionWaves access) m i) : (i < k → m < n) ∧ (k < i → n < m) := by
  constructor
  · intro hlt
    have hklen := inWave_lt_length hk
    have hnext := (inWave_waves hklen).mp hk
    rw [Schedule.next, if_pos hu] at hnext
    rw [hnext]
    exact inWave_lt ((inWave_earlier hklen.le hlt).mp hi)
  · intro hlt
    by_contra hle
    exact (inWave_first_fit hi).1 ⟨k, n, hlt, hk, .inr ⟨by omega, hu⟩⟩

/-- The waves partition the indices, keep conflicts apart and are separated by unknown indices, and of two conflicting
indices the smaller one comes first exactly if the larger one is kept out of every wave up to its own. -/
theorem waves_keep_conflicts_apart (access : List AccessSet) :
    (buildExecutionWaves access).flatten.Perm (List.range access.length) ∧
      (∀ n i j, InWave (buildExecutionWaves access) n i → InWave (buildExecutionWaves access) n j → i ≠ j →
        conflictsAt access i j = false) ∧
      (∀ n k, InWave (buildExecutionWaves access) n k → unknownAt access k = true →
        (buildExecutionWaves access)[n]? = some [k] ∧
        ∀ m i, InWave (buildExecutionWaves access) m i → (i < k → m < n) ∧ (k < i → n < m)) ∧
      ∀ m n i j, i < j → conflictsAt access i j = true → InWave (buildExecutionWaves access) m i →
        InWave (buildExecutionWaves access) n j → m ≠ n ∧ (m < n ↔ ∀ l ≤ m, BlockedBy access l j) := by
  refine ⟨?_, fun n i j => conflictsAt_of_inWave, fun n k hk hu => ⟨?_, fun m i hi => unknown_separates hk hu hi⟩,
    fun m n i j hlt hc hi hj => ⟨?_, ?_, ?_⟩⟩
  · rw [buildExecutionWaves_eq]
    exact schedule_perm _
  · obtain ⟨w, hw, hkw⟩ := hk
    have halone : ∀ i ∈ w, i = k := by
      intro i hi
      have hsep := unknown_separates ⟨w, hw, hkw⟩ hu ⟨w, hw, hi⟩
      omega
    have hnd : w.Nodup := wave_nodup.sublist (sublist_flatten_of_mem (mem_of_getElem? hw))
    have hrep : w = List.replicate w.length k := eq_replicate_of_mem halone
    rw [hrep, nodup_replicate] at hnd
    have hpos := length_pos_of_mem hkw
    rw [hw, hrep, show w.length = 1 by omega, replicate_one]
  · rintro rfl
    rw [conflictsAt_of_inWave hi hj (Nat.ne_of_lt hlt)] at hc
    cases hc
  · intro hmn l hl
    exact (inWave_first_fit hj).2 l (by omega)
  · intro hblocked
    by_contra hle
    exact (inWave_first_fit hj).1 (hblocked n (by omega))

/-- Transaction `1` conflicts with both others; `2` fits the wave of `0`, before that of `1`. -/
theorem waves_out_of_order : ¬ ∀ (access : List AccessSet) (m n i j : Nat), i < j → conflictsAt access i j = true →
    InWave (buildExecutionWaves access) m i → InWave (buildExecutionWaves access) n j → m < n := by
  intro hclaim
  have h := hclaim [⟨[], [1], [], [], false⟩, ⟨[], [1, 2], [], [], false⟩, ⟨[], [2], [], [], false⟩] 1 0 1 2
    (by decide) (by decide) ⟨[1], by decide, by decide⟩ ⟨[0, 2], by decide, by decide⟩
  exact absurd h (by decide)

end

end TkmChain
