import TkmChain.PreparationRuns

/-!
# The largest notes

The wallet covers the sum of its largest notes with just these notes. Merged into one they
are the largest note, so the next payment can spend it with as many of the others as a
payment has room for.
-/

namespace TkmChain.Prover

open List

/-! ## Sums of the largest values -/

theorem lt_sum_take {l : List Nat} {k v : Nat} (hsorted : l.Pairwise (· ≥ ·)) (hpos : ∀ v ∈ l, 0 < v) (hk : 2 ≤ k)
    (hl : 2 ≤ l.length) (hv : v ∈ l) : v < (l.take k).sum := by
  obtain ⟨j, rfl⟩ : ∃ j, k = j + 2 := ⟨k - 2, by omega⟩
  cases l with
  | nil => cases hv
  | cons a l =>
    cases l with
    | nil => simp at hl
    | cons b l =>
      have hva : v ≤ a := by
        cases mem_cons.mp hv with
        | inl heq => exact heq.le
        | inr hmem => exact rel_of_pairwise_cons hsorted hmem
      have hb : 0 < b := hpos b (by simp)
      simp only [take_succ_cons, sum_cons]
      omega

theorem sortedValues_perm (notes : List OwnedNote) : (sortedValues notes).Perm (notes.map (·.valueWei)) :=
  perm_insertionSort _ _

theorem sortedValues_pairwise (notes : List OwnedNote) : (sortedValues notes).Pairwise (· ≥ ·) :=
  pairwise_insertionSort _ _

theorem sortedValues_eq (hperm : values.Perm (notes.map (·.valueWei))) (hsorted : values.Pairwise (· ≥ ·)) :
    sortedValues notes = values :=
  ((sortedValues_perm notes).trans hperm.symm).eq_of_pairwise (fun _ _ _ _ hab hba => le_antisymm hba hab)
    (sortedValues_pairwise notes) hsorted

theorem sum_sortedValues (notes : List OwnedNote) : (sortedValues notes).sum = (notes.map (·.valueWei)).sum :=
  (sortedValues_perm notes).sum_eq

@[simp] theorem length_sortedValues (notes : List OwnedNote) : (sortedValues notes).length = notes.length := by
  rw [(sortedValues_perm notes).length_eq, length_map]

/-! ## The wallet's choice -/

theorem eligibleNotes_ok (h : Spendable notes)
    (hseen : ∀ note ∈ notes, note.commitment ∉ seen) : eligibleNotes seen notes = .ok notes := by
  induction notes generalizing seen with
  | nil => rfl
  | cons note rest ih =>
    obtain ⟨hnotin, hrest⟩ := nodup_cons.mp h.nodup
    have hspendable : Spendable rest :=
      ⟨hrest, fun n hn => h.pos n (mem_cons_of_mem _ hn), fun n hn => h.lt n (mem_cons_of_mem _ hn)⟩
    have hfresh : ∀ n ∈ rest, n.commitment ∉ note.commitment :: seen := by
      intro n hn hmem
      cases mem_cons.mp hmem with
      | inl heq => exact hnotin (mem_map.mpr ⟨n, hn, heq⟩)
      | inr hmem => exact hseen n (mem_cons_of_mem _ hn) hmem
    have hlt := (h.lt note mem_cons_self).not_ge
    have hpos := (h.pos note mem_cons_self).ne'
    have hnew := hseen note mem_cons_self
    simp only [eligibleNotes, ok_rules, if_neg hpos]
    exact ⟨(), hlt, (), hnew, rest, ih hspendable hfresh, rfl⟩

theorem chooseLargest_take (hpos : ∀ note ∈ notes, 0 < note.valueWei) (hk : k + 1 ≤ notes.length)
    (hrequired : required = total + ((notes.map (·.valueWei)).take (k + 1)).sum) :
    chooseLargest required (k + 1) total notes = some (notes.take (k + 1)) := by
  induction k generalizing total notes with
  | zero =>
    cases notes with
    | nil => cases hk
    | cons note rest => simp [chooseLargest, hrequired]
  | succ k ih =>
    cases notes with
    | nil => cases hk
    | cons note rest =>
      have hnext : chooseLargest required (k + 1) (total + note.valueWei) rest = some (rest.take (k + 1)) := by
        apply ih (fun n hn => hpos n (mem_cons_of_mem _ hn)) (Nat.le_of_succ_le_succ hk)
        simpa [Nat.add_assoc] using hrequired
      have hmore : ¬ required ≤ total + note.valueWei := by
        cases rest with
        | nil => simp at hk
        | cons second rest =>
          have hsecond := hpos second (by simp)
          simp only [map_cons, take_succ_cons, sum_cons] at hrequired
          omega
      rw [chooseLargest, if_neg hmore, hnext]
      rfl

def largestFirst (notes : List OwnedNote) : List OwnedNote := (notes.insertionSort fun a b => a.key ≤ b.key).reverse

theorem largestFirst_perm (notes : List OwnedNote) : (largestFirst notes).Perm notes :=
  (reverse_perm _).trans (perm_insertionSort _ _)

theorem map_largestFirst (notes : List OwnedNote) : (largestFirst notes).map (·.valueWei) = sortedValues notes := by
  refine (sortedValues_eq ((largestFirst_perm notes).map _) ?_).symm
  have hsorted : (notes.insertionSort fun a b => a.key ≤ b.key).Pairwise fun a b => a.key ≤ b.key :=
    pairwise_insertionSort _ _
  rw [pairwise_map, largestFirst, pairwise_reverse]
  exact hsorted.imp fun h => Prod.Lex.monotone_fst _ _ h

theorem valueWei_lt_sum {note : OwnedNote} (h : Spendable notes) (hk : 2 ≤ k) (hlen : 2 ≤ notes.length)
    (hnote : note ∈ notes) : note.valueWei < ((sortedValues notes).take k).sum := by
  have hmem : ∀ {v}, v ∈ sortedValues notes ↔ v ∈ notes.map (·.valueWei) := (sortedValues_perm notes).mem_iff
  have hpos : ∀ v ∈ sortedValues notes, 0 < v := by
    intro v hv
    obtain ⟨note, hnote, rfl⟩ := mem_map.mp (hmem.mp hv)
    exact h.pos note hnote
  apply lt_sum_take (sortedValues_pairwise notes) hpos hk
  · rw [length_sortedValues]
    exact hlen
  · exact hmem.mpr (mem_map_of_mem hnote)

theorem sum_pos (h : Spendable notes) (hk : 2 ≤ k) (hlen : 2 ≤ notes.length) : 0 < ((sortedValues notes).take k).sum := by
  obtain ⟨note, hnote⟩ := exists_mem_of_length_pos (Nat.zero_lt_of_lt hlen)
  exact Nat.zero_lt_of_lt (valueWei_lt_sum h hk hlen hnote)

theorem selectNotes_largest (h : Spendable notes) (hlen : inputSlots < notes.length)
    (hlt : ((sortedValues notes).take inputSlots).sum < 2 ^ 256) :
    selectNotes notes ((sortedValues notes).take inputSlots).sum = .ok ((largestFirst notes).take inputSlots) := by
  have hmany : 2 ≤ notes.length := le_trans (by decide) hlen.le
  have hsingle : (notes.insertionSort fun a b => a.key ≤ b.key).find?
      (((sortedValues notes).take inputSlots).sum ≤ ·.valueWei) = none := by
    rw [find?_eq_none]
    intro note hnote
    simpa using valueWei_lt_sum h (by decide) hmany ((mem_insertionSort _).mp hnote)
  have hchoose : chooseLargest ((sortedValues notes).take inputSlots).sum inputSlots 0 (largestFirst notes) =
      some ((largestFirst notes).take inputSlots) := by
    apply chooseLargest_take
    · exact fun note hnote => h.pos note ((largestFirst_perm notes).mem_iff.mp hnote)
    · rw [(largestFirst_perm notes).length_eq]
      exact hlen.le
    · rw [map_largestFirst, Nat.zero_add]
      rfl
  have hrequired : ((sortedValues notes).take inputSlots).sum ≠ 0 := (sum_pos h (by decide) hmany).ne'
  simp only [selectNotes, selectNotesWithLimit, chooseNotes, ok_rules]
  refine ⟨(), hrequired, (), by decide, notes, eligibleNotes_ok h (fun _ _ => not_mem_nil), ?_⟩
  rw [hsingle]
  simp only [ok_rules]
  refine ⟨_, hchoose, (), ?_, rfl⟩
  rw [map_take, map_largestFirst]
  exact hlt.not_ge

theorem filter_notMem_append {front back : List OwnedNote} (h : (front ++ back).Nodup) :
    (front ++ back).filter (· ∉ front) = back := by
  obtain ⟨-, -, hdisjoint⟩ := nodup_append.mp h
  have hfront : front.filter (· ∉ front) = [] := by
    rw [filter_eq_nil_iff]
    intro note hnote
    simp [hnote]
  have hback : back.filter (· ∉ front) = back := by
    rw [filter_eq_self]
    intro note hnote
    exact decide_eq_true fun hmem => hdisjoint note hmem note hnote rfl
  rw [filter_append, hfront, hback, nil_append]

theorem filter_largest (h : Spendable notes) (k : Nat) :
    (notes.filter (· ∉ (largestFirst notes).take k)).Perm ((largestFirst notes).drop k) := by
  have hnodup : (largestFirst notes).Nodup := (largestFirst_perm notes).nodup_iff.mpr (.of_map _ h.nodup)
  rw [← take_append_drop k (largestFirst notes)] at hnodup
  have hfilter := filter_notMem_append hnodup
  rw [take_append_drop] at hfilter
  exact ((largestFirst_perm notes).symm.filter _).trans (.of_eq hfilter)

/-! ## Capacity -/

theorem nativeNoteCapacity_ok (h : Spendable notes) (version : Nat) :
    nativeNoteCapacityWithLimit notes 0 (shieldInputLimit version) =
      .ok (min ((sortedValues notes).take (shieldInputLimit version)).sum maxSendWei) := by
  have hlimit : shieldInputLimit version = inputSlots ∨ shieldInputLimit version = shield5InputSlots := by
    unfold shieldInputLimit
    split
    · exact .inr rfl
    · exact .inl rfl
  have hlt : ¬ ∃ note ∈ notes, 2 ^ 256 ≤ note.valueWei := fun ⟨note, hnote, hge⟩ => (h.lt note hnote).not_ge hge
  simp only [nativeNoteCapacityWithLimit, ok_rules]
  refine ⟨(), ?_, (), ?_, rfl⟩
  · rw [not_and_or, not_not, not_not]
    exact hlimit
  · rw [not_or, not_not]
    exact ⟨h.nodup, hlt⟩

section
variable (h : Spendable notes) (hpos : 0 < target) (hcap : target ≤ maxSendWei)
include h hpos hcap

theorem privateNotePreparation_enough (henough : target ≤ ((sortedValues notes).take (shieldInputLimit version)).sum) :
    privateNotePreparationWithLimit notes target (shieldInputLimit version) = .ok none := by
  simp only [privateNotePreparationWithLimit, ok_rules]
  refine ⟨(), not_or.mpr ⟨hpos.ne', hcap.not_gt⟩, _, nativeNoteCapacity_ok h version, ?_⟩
  rw [if_pos (le_min henough hcap)]
  rfl

theorem privateNotePreparation_more (htotal : target ≤ (notes.map (·.valueWei)).sum)
    (hmore : ((sortedValues notes).take (shieldInputLimit version)).sum < target) :
    privateNotePreparationWithLimit notes target (shieldInputLimit version) =
      .ok (some ((sortedValues notes).take (shieldInputLimit version)).sum) := by
  have hmin : min ((sortedValues notes).take (shieldInputLimit version)).sum maxSendWei =
      ((sortedValues notes).take (shieldInputLimit version)).sum := min_eq_left (hmore.le.trans hcap)
  simp only [privateNotePreparationWithLimit, ok_rules]
  refine ⟨(), not_or.mpr ⟨hpos.ne', hcap.not_gt⟩, _, nativeNoteCapacity_ok h version, ?_⟩
  rw [hmin, if_neg hmore.not_ge]
  simp only [ok_rules]
  exact ⟨(), htotal.not_gt, trivial⟩

theorem requirePreparedNoteCapacity_iff :
    requirePreparedNoteCapacityWithLimit notes target (shieldInputLimit version) = .ok () ↔
      target ≤ ((sortedValues notes).take (shieldInputLimit version)).sum := by
  simp only [requirePreparedNoteCapacityWithLimit, ok_rules, nativeNoteCapacity_ok h, Except.ok.injEq]
  constructor
  · rintro ⟨⟨⟩, -, _, rfl, hle⟩
    exact (le_min_iff.mp (not_lt.mp hle)).1
  · exact fun hle => ⟨(), hpos.ne', _, rfl, (le_min hle hcap).not_gt⟩

end

/-! ## Merged notes -/

def IsMerged (k : Nat) (commitment : BitVec 320) (notes notes' : List OwnedNote) : Prop :=
  notes'.Perm (⟨commitment, ((sortedValues notes).take k).sum⟩ :: (largestFirst notes).drop k)

namespace IsMerged

section
variable (h : IsMerged k commitment notes notes')
include h

theorem merges (hk : k ≤ notes.length) : Merges k notes notes' := by
  refine ⟨(largestFirst notes).take k, (largestFirst notes).drop k, _, ?_, ?_, h⟩
  · rw [length_take, (largestFirst_perm notes).length_eq, min_eq_left hk]
  · rw [take_append_drop]
    exact (largestFirst_perm notes).symm

theorem perm_values :
    (notes'.map (·.valueWei)).Perm (((sortedValues notes).take k).sum :: (sortedValues notes).drop k) := by
  have hmap := List.Perm.map (·.valueWei) h
  rwa [map_cons, map_drop, map_largestFirst] at hmap

theorem total :
    (notes'.map (·.valueWei)).sum = (notes.map (·.valueWei)).sum := by
  rw [h.perm_values.sum_eq, sum_cons, sum_take_add_sum_drop, sum_sortedValues]

end

theorem mem (h : IsMerged k commitment notes notes') (hnote : note ∈ notes') :
    note = ⟨commitment, ((sortedValues notes).take k).sum⟩ ∨ note ∈ notes := by
  cases mem_cons.mp (h.mem_iff.mp hnote) with
  | inl heq => exact .inl heq
  | inr hdrop => exact .inr ((largestFirst_perm notes).mem_iff.mp (mem_of_mem_drop hdrop))

section
variable (h : IsMerged k commitment notes notes') (hs : Spendable notes) (hk : 2 ≤ k) (hlen : 2 ≤ notes.length)
include h hs hk hlen

theorem spendable (hlt : ((sortedValues notes).take k).sum < 2 ^ 256) (hfresh : ∀ note ∈ notes, note.commitment ≠ commitment) :
    Spendable notes' where
  nodup := by
    have hdrop : (((largestFirst notes).drop k).map (·.commitment)).Nodup := by
      refine List.Nodup.sublist ((drop_sublist k _).map _) ?_
      exact ((largestFirst_perm notes).map _).nodup_iff.mpr hs.nodup
    rw [(List.Perm.map _ h).nodup_iff, map_cons, nodup_cons]
    refine ⟨fun hmem => ?_, hdrop⟩
    obtain ⟨note, hnote, heq⟩ := mem_map.mp hmem
    exact hfresh note ((largestFirst_perm notes).mem_iff.mp (mem_of_mem_drop hnote)) heq
  pos note hnote := by
    cases h.mem hnote with
    | inl heq =>
      rw [heq]
      exact sum_pos hs hk hlen
    | inr hmem => exact hs.pos note hmem
  lt note hnote := by
    cases h.mem hnote with
    | inl heq =>
      rw [heq]
      exact hlt
    | inr hmem => exact hs.lt note hmem

theorem sorted :
    sortedValues notes' = ((sortedValues notes).take k).sum :: (sortedValues notes).drop k := by
  apply sortedValues_eq h.perm_values.symm
  rw [pairwise_cons]
  refine ⟨fun v hv => ?_, (sortedValues_pairwise notes).sublist (drop_sublist k _)⟩
  obtain ⟨note, hnote, rfl⟩ := mem_map.mp ((sortedValues_perm notes).mem_iff.mp (mem_of_mem_drop hv))
  exact (valueWei_lt_sum hs hk hlen hnote).le

theorem sum_take :
    ((sortedValues notes').take k).sum = ((sortedValues notes).take (2 * k - 1)).sum := by
  obtain ⟨j, rfl⟩ : ∃ j, k = j + 1 := ⟨k - 1, by omega⟩
  have hsplit : (sortedValues notes).take (j + 1 + j) =
      (sortedValues notes).take (j + 1) ++ ((sortedValues notes).drop (j + 1)).take j := take_add
  rw [h.sorted hs hk hlen, take_succ_cons, sum_cons, show 2 * (j + 1) - 1 = j + 1 + j by omega, hsplit,
    sum_append]

end

end IsMerged

end TkmChain.Prover
