import Mathlib

/-!
# First-fit schedules

Items are put one by one into the first wave of the open part of a schedule that
holds nothing they conflict with, or into a new wave; a barrier closes the
schedule with a wave of its own. The wave of an item never changes once it is
placed, and it is the first one that nothing earlier blocks.
-/

namespace FirstFit

open List

variable {α : Type} (conflict : α → α → Bool) (barrier : α → Bool)

def place (x : α) : List (List α) → List (List α)
  | [] => [[x]]
  | w :: ws => if w.any (conflict x) then w :: place x ws else (w ++ [x]) :: ws

structure Schedule (α : Type) where
  (closed current : List (List α))

def Schedule.empty : Schedule α := ⟨[], []⟩

def Schedule.waves (s : Schedule α) : List (List α) := s.closed ++ s.current

def Schedule.add (s : Schedule α) (x : α) : Schedule α :=
  if barrier x then ⟨s.waves ++ [[x]], []⟩ else ⟨s.closed, place conflict x s.current⟩

def schedule (xs : List α) : Schedule α := xs.foldl (Schedule.add conflict barrier) .empty

def InWave (ws : List (List α)) (n : Nat) (x : α) : Prop := ∃ w, ws[n]? = some w ∧ x ∈ w

variable {conflict barrier} {s : Schedule α} {x y : α} {n m : Nat}

/-! ## Placing one item -/

theorem place_perm : (place conflict x ws).flatten.Perm (ws.flatten ++ [x]) := by
  induction ws with
  | nil => exact .refl _
  | cons w ws ih =>
    unfold place
    split
    · simp only [flatten_cons, append_assoc]
      exact ih.append_left w
    · simp only [flatten_cons, append_assoc]
      exact List.Perm.append_left w perm_append_comm

def slot (conflict : α → α → Bool) (x : α) (ws : List (List α)) : Nat := ws.findIdx fun w => !w.any (conflict x)

theorem inWave_cons_zero : InWave (w :: ws) 0 y ↔ y ∈ w := by simp [InWave]

theorem inWave_cons_succ : InWave (w :: ws) (n + 1) y ↔ InWave ws n y := by simp [InWave]

theorem not_inWave_nil : ¬ InWave ([] : List (List α)) n y := by simp [InWave]

theorem inWave_place : InWave (place conflict x ws) n y ↔ InWave ws n y ∨ n = slot conflict x ws ∧ y = x := by
  induction ws generalizing n with
  | nil =>
    cases n with
    | zero => simp [place, slot, inWave_cons_zero, not_inWave_nil]
    | succ n => simp [place, slot, inWave_cons_succ, not_inWave_nil]
  | cons w ws ih =>
    unfold place slot
    rw [findIdx_cons]
    by_cases h : w.any (conflict x) = true
    · cases n with
      | zero => simp [h, inWave_cons_zero]
      | succ n => simp [h, inWave_cons_succ, ih, slot]
    · rw [Bool.not_eq_true] at h
      cases n with
      | zero => simp [h, inWave_cons_zero]
      | succ n => simp [h, inWave_cons_succ]

theorem place_of_some (h : ws.findIdx? (fun w => !w.any (conflict x)) = some n) :
    place conflict x ws = ws.modify n (· ++ [x]) := by
  induction ws generalizing n with
  | nil => simp at h
  | cons w ws ih =>
    rw [findIdx?_cons] at h
    unfold place
    by_cases hw : w.any (conflict x) = true
    · simp only [hw, Bool.not_true, Bool.false_eq_true, if_false, Option.map_eq_some_iff] at h
      obtain ⟨m, hm, rfl⟩ := h
      rw [if_pos hw, ih hm, modify_succ_cons]
    · simp only [hw, Bool.not_false, if_true, Option.some.injEq] at h
      rw [if_neg hw, ← h, modify_zero_cons]

theorem place_of_none (h : ws.findIdx? (fun w => !w.any (conflict x)) = none) : place conflict x ws = ws ++ [[x]] := by
  induction ws with
  | nil => rfl
  | cons w ws ih =>
    rw [findIdx?_cons] at h
    unfold place
    by_cases hw : w.any (conflict x) = true
    · simp only [hw, Bool.not_true, Bool.false_eq_true, if_false, Option.map_eq_none_iff] at h
      rw [if_pos hw, ih h, cons_append]
    · simp [hw] at h

theorem place_length : (place conflict x ws).length = max ws.length (slot conflict x ws + 1) := by
  induction ws with
  | nil => rfl
  | cons w ws ih =>
    unfold place slot
    rw [findIdx_cons]
    by_cases h : w.any (conflict x) = true
    · simp only [h, if_true, length_cons, ih, slot, Bool.not_true, cond_false]
      omega
    · rw [Bool.not_eq_true] at h
      simp [h]

theorem blocked_before_slot (h : n < slot conflict x ws) : ∃ y, InWave ws n y ∧ conflict x y = true := by
  have hlt : n < ws.length := Nat.lt_of_lt_of_le h findIdx_le_length
  have hany := not_of_lt_findIdx h
  simp only [Bool.not_eq_eq_eq_not, Bool.not_false, any_eq_true] at hany
  obtain ⟨y, hy, hc⟩ := hany
  exact ⟨y, ⟨ws[n], getElem?_eq_getElem hlt, hy⟩, hc⟩

theorem free_at_slot (h : InWave ws (slot conflict x ws) y) : conflict x y = false := by
  obtain ⟨w, hw, hy⟩ := h
  obtain ⟨hlt, rfl⟩ := List.getElem?_eq_some_iff.mp hw
  have hfree := findIdx_getElem (w := hlt)
  simp only [Bool.not_eq_true', any_eq_false] at hfree
  simpa using hfree y hy

/-! ## Adding an item to a schedule -/

def Schedule.next (conflict : α → α → Bool) (barrier : α → Bool) (s : Schedule α) (x : α) : Nat :=
  if barrier x then s.waves.length else s.closed.length + slot conflict x s.current

theorem inWave_append :
    InWave (vs ++ ws) n y ↔ InWave vs n y ∨ vs.length ≤ n ∧ InWave ws (n - vs.length) y := by
  unfold InWave
  rcases Nat.lt_or_ge n vs.length with h | h
  · rw [getElem?_append_left h]
    simp [Nat.not_le.mpr h]
  · rw [getElem?_append_right h]
    simp [h]

theorem inWave_lt (h : InWave ws n y) : n < ws.length := by
  obtain ⟨w, hw, _⟩ := h
  exact (List.getElem?_eq_some_iff.mp hw).1

theorem inWave_add : InWave (s.add conflict barrier x).waves n y ↔
    InWave s.waves n y ∨ n = s.next conflict barrier x ∧ y = x := by
  unfold Schedule.add Schedule.next
  split
  · have hlast : s.waves.length ≤ n ∧ InWave [[x]] (n - s.waves.length) y ↔ n = s.waves.length ∧ y = x := by
      rcases Nat.eq_zero_or_pos (n - s.waves.length) with h | h
      · rw [h, inWave_cons_zero, mem_singleton]
        exact ⟨fun ⟨hle, hy⟩ => ⟨by omega, hy⟩, fun ⟨hn, hy⟩ => ⟨by omega, hy⟩⟩
      · have : ¬ InWave [[x]] (n - s.waves.length) y := fun hin => by
          have := inWave_lt hin
          simp only [length_singleton] at this
          omega
        simp only [this, and_false, false_iff, not_and]
        omega
    rw [Schedule.waves, append_nil, inWave_append, hlast]
  · simp only [Schedule.waves, inWave_append, inWave_place]
    have : s.closed.length ≤ n ∧ n - s.closed.length = slot conflict x s.current ↔
        n = s.closed.length + slot conflict x s.current := by omega
    rw [← this, and_or_left, or_assoc, and_assoc]

theorem add_perm : (s.add conflict barrier x).waves.flatten.Perm (s.waves.flatten ++ [x]) := by
  unfold Schedule.add
  split
  · simp [Schedule.waves]
  · simp only [Schedule.waves, flatten_append, append_assoc]
    exact place_perm.append_left _

/-! ## Runs -/

theorem schedule_concat (xs : List α) :
    schedule conflict barrier (xs ++ [x]) = (schedule conflict barrier xs).add conflict barrier x := by
  simp [schedule]

theorem schedule_perm (xs : List α) : (schedule conflict barrier xs).waves.flatten.Perm xs := by
  induction xs using List.reverseRecOn with
  | nil => exact .refl _
  | append_singleton xs x ih =>
    rw [schedule_concat]
    exact add_perm.trans (ih.append_right _)

theorem inWave_mem (h : InWave (schedule conflict barrier xs).waves n y) : y ∈ xs := by
  obtain ⟨w, hw, hy⟩ := h
  exact (schedule_perm xs).mem_iff.mp (mem_flatten.mpr ⟨w, mem_of_getElem? hw, hy⟩)

theorem inWave_append_right (hy : y ∉ zs) :
    InWave (schedule conflict barrier (xs ++ zs)).waves n y ↔ InWave (schedule conflict barrier xs).waves n y := by
  induction zs using List.reverseRecOn with
  | nil => rw [append_nil]
  | append_singleton zs z ih =>
    rw [mem_append, not_or, mem_singleton] at hy
    rw [← append_assoc, schedule_concat, inWave_add, ih hy.1]
    simp [hy.2]

theorem inWave_iff_next (h : (pre ++ y :: post).Nodup) :
    InWave (schedule conflict barrier (pre ++ y :: post)).waves n y ↔
      n = (schedule conflict barrier pre).next conflict barrier y := by
  rw [nodup_append, nodup_cons] at h
  obtain ⟨_, ⟨hpost, _⟩, hdisj⟩ := h
  have hpre : ¬ InWave (schedule conflict barrier pre).waves n y := fun hin =>
    hdisj y (inWave_mem hin) y mem_cons_self rfl
  rw [← singleton_append, ← append_assoc, inWave_append_right hpost, schedule_concat, inWave_add]
  simp [hpre]

theorem lt_add (h : n < (s.add conflict barrier x).waves.length) :
    n < s.waves.length ∨ n = s.next conflict barrier x := by
  unfold Schedule.add at h
  unfold Schedule.next
  split at h
  · rw [if_pos ‹_›]
    simp only [Schedule.waves, append_nil, length_append, length_singleton] at h ⊢
    omega
  · rw [if_neg ‹_›]
    have hle : slot conflict x s.current ≤ s.current.length := findIdx_le_length
    simp only [Schedule.waves, length_append, place_length] at h ⊢
    omega

theorem exists_inWave (h : n < (schedule conflict barrier xs).waves.length) :
    ∃ y, InWave (schedule conflict barrier xs).waves n y := by
  induction xs using List.reverseRecOn with
  | nil => exact absurd h (Nat.not_lt_zero n)
  | append_singleton xs x ih =>
    rw [schedule_concat] at h ⊢
    rcases lt_add h with hlt | rfl
    · obtain ⟨y, hy⟩ := ih hlt
      exact ⟨y, inWave_add.mpr (.inl hy)⟩
    · exact ⟨x, inWave_add.mpr (.inr ⟨rfl, rfl⟩)⟩

theorem lt_closed_iff : n < (schedule conflict barrier xs).closed.length ↔
    ∃ b m, n ≤ m ∧ barrier b = true ∧ InWave (schedule conflict barrier xs).waves m b := by
  induction xs using List.reverseRecOn with
  | nil =>
    constructor
    · exact fun h => absurd h (Nat.not_lt_zero n)
    · rintro ⟨b, m, _, _, hin⟩
      exact absurd hin not_inWave_nil
  | append_singleton xs x ih =>
    rw [schedule_concat]
    simp only [inWave_add]
    by_cases hx : barrier x = true
    · have hnext : (schedule conflict barrier xs).next conflict barrier x = (schedule conflict barrier xs).waves.length :=
        if_pos hx
      have hclosed : ((schedule conflict barrier xs).add conflict barrier x).closed.length =
          (schedule conflict barrier xs).waves.length + 1 := by
        rw [Schedule.add, if_pos hx, length_append, length_singleton]
      rw [hclosed, hnext]
      constructor
      · intro h
        exact ⟨x, _, Nat.le_of_lt_succ h, hx, .inr ⟨rfl, rfl⟩⟩
      · rintro ⟨b, m, hm, _, hin | ⟨rfl, rfl⟩⟩
        · have := inWave_lt hin
          omega
        · omega
    · have hclosed : ((schedule conflict barrier xs).add conflict barrier x).closed =
          (schedule conflict barrier xs).closed := by rw [Schedule.add, if_neg hx]
      rw [hclosed, ih]
      constructor
      · rintro ⟨b, m, hm, hb, hin⟩
        exact ⟨b, m, hm, hb, .inl hin⟩
      · rintro ⟨b, m, hm, hb, hin | ⟨_, rfl⟩⟩
        · exact ⟨b, m, hm, hb, hin⟩
        · exact absurd hb hx

/-- What is scheduled keeps an item out of wave `n`: a conflict in it, or a barrier in it or after it. -/
def Blocks (conflict : α → α → Bool) (barrier : α → Bool) (ws : List (List α)) (n : Nat) (y : α) : Prop :=
  (∃ x, InWave ws n x ∧ conflict y x = true) ∨ ∃ b m, n ≤ m ∧ barrier b = true ∧ InWave ws m b

theorem blocks_before_next (hb : ∀ x ∈ xs, barrier y = true → conflict y x = true)
    (h : n < (schedule conflict barrier xs).next conflict barrier y) :
    Blocks conflict barrier (schedule conflict barrier xs).waves n y := by
  unfold Schedule.next at h
  split at h
  · obtain ⟨x, hx⟩ := exists_inWave h
    exact .inl ⟨x, hx, hb x (inWave_mem hx) ‹_›⟩
  · rcases Nat.lt_or_ge n (schedule conflict barrier xs).closed.length with hlt | hge
    · exact .inr (lt_closed_iff.mp hlt)
    · have hslot : n - (schedule conflict barrier xs).closed.length <
          slot conflict y (schedule conflict barrier xs).current := by omega
      obtain ⟨x, hx, hc⟩ := blocked_before_slot hslot
      exact .inl ⟨x, inWave_append.mpr (.inr ⟨hge, hx⟩), hc⟩

theorem not_blocks_next : ¬ Blocks conflict barrier (schedule conflict barrier xs).waves
    ((schedule conflict barrier xs).next conflict barrier y) y := by
  rintro (⟨x, hx, hc⟩ | hclosed)
  · unfold Schedule.next at hx
    split at hx
    · exact absurd (inWave_lt hx) (Nat.lt_irrefl _)
    · rcases inWave_append.mp hx with hin | ⟨_, hin⟩
      · have := inWave_lt hin
        omega
      · rw [Nat.add_sub_cancel_left] at hin
        rw [free_at_slot hin] at hc
        cases hc
  · have hlt := lt_closed_iff.mpr hclosed
    unfold Schedule.next at hlt
    split at hlt
    · simp only [Schedule.waves, length_append] at hlt
      omega
    · omega

end FirstFit
