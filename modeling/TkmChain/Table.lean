import Mathlib

/-!
# Tables

A finite map whose values carry their own key: at most one row for each key.
-/

structure Table {κ ν : Type} (key : ν → κ) where
  rows : List ν
  nodup : (rows.map key).Nodup

namespace Table

open List

variable {κ ν : Type} [DecidableEq κ] {key : ν → κ}

def empty : Table key := ⟨[], nodup_nil⟩

def get (t : Table key) (k : κ) : Option ν := t.rows.find? fun v => key v = k

def erase (t : Table key) (k : κ) : Table key where
  rows := t.rows.filter fun v => key v ≠ k
  nodup := t.nodup.sublist (filter_sublist.map _)

def filter (t : Table key) (p : ν → Bool) : Table key where
  rows := t.rows.filter p
  nodup := t.nodup.sublist (filter_sublist.map _)

def replace (t : Table key) (v : ν) : Table key where
  rows := t.rows.map fun w => if key w = key v then v else w
  nodup := by
    have hkeys : (t.rows.map fun w => if key w = key v then v else w).map key = t.rows.map key := by
      rw [map_map]
      refine map_congr_left fun w _ => ?_
      by_cases h : key w = key v
      · simp [h]
      · simp [h]
    rw [hkeys]
    exact t.nodup

def put (t : Table key) (v : ν) : Table key :=
  if h : t.rows.any fun w => key w = key v then t.replace v
  else
    { rows := t.rows ++ [v]
      nodup := by
        rw [map_append, nodup_append]
        refine ⟨t.nodup, nodup_singleton _, fun k hk k' hk' => ?_⟩
        obtain ⟨w, hw, rfl⟩ := mem_map.mp hk
        rw [map_singleton, mem_singleton] at hk'
        rw [hk']
        exact fun heq => h (any_eq_true.mpr ⟨w, hw, decide_eq_true heq⟩) }

variable {t : Table key} {v w : ν} {k : κ}

theorem get_eq_some : t.get k = some v ↔ v ∈ t.rows ∧ key v = k := by
  constructor
  · intro h
    exact ⟨mem_of_find?_eq_some h, by simpa using find?_some h⟩
  · rintro ⟨hv, rfl⟩
    cases hget : t.get (key v) with
    | none =>
      have := find?_eq_none.mp hget v hv
      simp at this
    | some w =>
      have hw : key w = key v := by simpa using find?_some hget
      rw [inj_on_of_nodup_map t.nodup (mem_of_find?_eq_some hget) hv hw]

theorem mem_replace (hv : ∃ u ∈ t.rows, key u = key v) :
    w ∈ (t.replace v).rows ↔ w ∈ t.rows ∧ key w ≠ key v ∨ w = v := by
  rw [replace, mem_map]
  constructor
  · rintro ⟨u, hu, rfl⟩
    by_cases h : key u = key v
    · exact .inr (if_pos h)
    · rw [if_neg h]
      exact .inl ⟨hu, h⟩
  · rintro (⟨hw, hne⟩ | rfl)
    · exact ⟨w, hw, if_neg hne⟩
    · obtain ⟨u, hu, hkey⟩ := hv
      exact ⟨u, hu, if_pos hkey⟩

theorem mem_put : w ∈ (t.put v).rows ↔ w ∈ t.rows ∧ key w ≠ key v ∨ w = v := by
  unfold put
  split
  · rename_i h
    obtain ⟨u, hu, hkey⟩ := any_eq_true.mp h
    exact mem_replace ⟨u, hu, of_decide_eq_true hkey⟩
  · rename_i h
    have hnew : ∀ u ∈ t.rows, key u ≠ key v := fun u hu heq =>
      h (any_eq_true.mpr ⟨u, hu, decide_eq_true heq⟩)
    rw [mem_append, mem_singleton]
    exact ⟨Or.imp_left fun hw => ⟨hw, hnew w hw⟩, Or.imp_left And.left⟩

theorem get_put_self (t : Table key) (v : ν) : (t.put v).get (key v) = some v :=
  get_eq_some.mpr ⟨mem_put.mpr (.inr rfl), rfl⟩

theorem get_put_ne (h : k ≠ key v) : (t.put v).get k = t.get k := by
  refine Option.ext fun w => ?_
  rw [get_eq_some, get_eq_some, mem_put]
  constructor
  · rintro ⟨⟨hw, -⟩ | rfl, hk⟩
    · exact ⟨hw, hk⟩
    · exact absurd hk.symm h
  · rintro ⟨hw, rfl⟩
    exact ⟨.inl ⟨hw, h⟩, rfl⟩

theorem get_filter_of_pos (h : t.get k = some v) (hp : p v) : (t.filter p).get k = some v := by
  obtain ⟨hv, hk⟩ := get_eq_some.mp h
  exact get_eq_some.mpr ⟨mem_filter.mpr ⟨hv, hp⟩, hk⟩

theorem get_filter_none (h : t.get k = none) : (t.filter p).get k = none := by
  rw [get, find?_eq_none] at h ⊢
  intro v hv
  exact h v (mem_of_mem_filter hv)

theorem put_of_get (h : t.get (key v) = some v) : t.put v = t := by
  have hmem := (get_eq_some.mp h).1
  have hany : (t.rows.any fun w => key w = key v) = true :=
    any_eq_true.mpr ⟨v, hmem, decide_eq_true rfl⟩
  have hrows : (t.rows.map fun w => if key w = key v then v else w) = t.rows := by
    refine (map_congr_left fun w hw => ?_).trans (map_id t.rows)
    show (if key w = key v then v else w) = w
    split
    · exact (inj_on_of_nodup_map t.nodup hw hmem ‹_›).symm
    · rfl
  rw [put, dif_pos hany, replace]
  cases t
  congr

omit [DecidableEq κ] in
theorem rows_nodup (t : Table key) : t.rows.Nodup := .of_map _ t.nodup

theorem put_perm (t : Table key) (v : ν) : (t.put v).rows.Perm (v :: (t.erase (key v)).rows) := by
  have hnew : v ∉ (t.erase (key v)).rows := fun h => by simpa using of_mem_filter h
  refine (perm_ext_iff_of_nodup (t.put v).rows_nodup (nodup_cons.mpr ⟨hnew, rows_nodup _⟩)).mpr fun w => ?_
  rw [mem_put, mem_cons, erase, mem_filter, decide_eq_true_eq, or_comm]

theorem perm_of_get (h : t.get k = some v) : t.rows.Perm (v :: (t.erase k).rows) := by
  obtain ⟨-, rfl⟩ := get_eq_some.mp h
  have hperm := t.put_perm v
  rwa [put_of_get h] at hperm

end Table
