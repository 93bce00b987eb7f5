import TkmChain.Header

/-!
# Occurrences of a marker

Records in the extra data of a header start with a marker and are found by its
first occurrence. A marker that does not overlap with itself is found where it
was written, unless it occurs in what was written before it.
-/

namespace TkmChain

open List

variable {m a b r x y : Bytes} {i j : Nat}

theorem indexOf_eq_none (hm : m ≠ []) : ∀ {b : Bytes}, indexOf m b = none ↔ ¬ m <:+: b
  | [] => by simp [indexOf, hm]
  | z :: b => by
    rw [indexOf, infix_cons_iff, not_or, ← isPrefixOf_iff_prefix]
    split
    · rename_i hp
      simp [hp]
    · rename_i hp
      rw [Option.map_eq_none_iff, indexOf_eq_none hm]
      simp [hp]

theorem indexOf_lt_length : ∀ {b : Bytes} {i : Nat}, indexOf m b = some i → i + m.length ≤ b.length
  | [], i, h => by
    rw [indexOf] at h
    split at h
    · rename_i hm
      obtain rfl := Option.some.inj h
      simp [hm]
    · cases h
  | z :: b, i, h => by
    rw [indexOf] at h
    split at h
    · rename_i hp
      obtain rfl := Option.some.inj h
      have := ( isPrefixOf_iff_prefix.mp hp).length_le
      omega
    · obtain ⟨j, hj, rfl⟩ := Option.map_eq_some_iff.mp h
      have := indexOf_lt_length hj
      rw [length_cons]
      omega

theorem indexOf_prefix_drop : ∀ {b : Bytes} {i : Nat}, indexOf m b = some i → m <+: b.drop i
  | [], i, h => by
    rw [indexOf] at h
    split at h
    · rename_i hm
      simp [hm]
    · cases h
  | z :: b, i, h => by
    rw [indexOf] at h
    split at h
    · rename_i hp
      obtain rfl := Option.some.inj h
      exact isPrefixOf_iff_prefix.mp hp
    · obtain ⟨j, hj, rfl⟩ := Option.map_eq_some_iff.mp h
      have ih := indexOf_prefix_drop hj
      simpa using ih

theorem indexOf_append_left : ∀ {a : Bytes} {i : Nat}, indexOf m a = some i → indexOf m (a ++ r) = some i
  | [], i, h => by
    rw [indexOf] at h
    split at h
    · rename_i hm
      obtain rfl := Option.some.inj h
      subst hm
      cases r <;> simp [indexOf]
    · cases h
  | z :: a, i, h => by
    have hlen := indexOf_lt_length h
    rw [indexOf] at h
    rw [cons_append, indexOf]
    split at h
    · rename_i hp
      have hp' : m.isPrefixOf (z :: (a ++ r)) = true := by
        rw [ isPrefixOf_iff_prefix] at hp ⊢
        exact hp.trans (prefix_append (z :: a) r)
      rw [if_pos hp', ← h]
    · rename_i hp
      obtain ⟨j, hj, rfl⟩ := Option.map_eq_some_iff.mp h
      have hp' : ¬ m.isPrefixOf (z :: (a ++ r)) = true := by
        rw [ isPrefixOf_iff_prefix] at hp ⊢
        intro hpre
        exact hp (prefix_of_prefix_length_le hpre (prefix_append (z :: a) r) (by omega))
      rw [if_neg hp', indexOf_append_left hj]
      rfl

def Unbordered (m : Bytes) : Prop := ∀ k, 0 < k → k < m.length → ¬ m.drop k <+: m

instance (m : Bytes) : Decidable (Unbordered m) :=
  decidable_of_iff (∀ k ∈ List.range m.length, 0 < k → ¬ (m.drop k).isPrefixOf m = true) (by
    simp only [mem_range, isPrefixOf_iff_prefix]
    exact ⟨fun h k h0 hk => h k hk h0, fun h k hk h0 => h k h0 hk⟩)

theorem indexOf_insert (hb : Unbordered m) : ∀ {a : Bytes}, ¬ m <:+: a → indexOf m (a ++ (m ++ r)) = some a.length
  | [], _ => by
    cases m with
    | nil => cases r <;> simp [indexOf]
    | cons z m => simp [indexOf]
  | z :: a, ha => by
    rw [infix_cons_iff, not_or] at ha
    have hp : ¬ m.isPrefixOf (z :: (a ++ (m ++ r))) = true := by
      rw [ isPrefixOf_iff_prefix]
      intro hpre
      by_cases hlen : m.length ≤ (z :: a).length
      · exact ha.1 (prefix_of_prefix_length_le hpre (prefix_append (z :: a) (m ++ r)) hlen)
      · -- the marker would start in `z :: a` and end in its own copy
        have hk : (z :: a).length < m.length := by omega
        refine hb (z :: a).length (by simp) hk ?_
        have hdrop : m.drop (z :: a).length <+: m ++ r := by
          obtain ⟨t, ht⟩ := hpre
          have hd := congrArg (List.drop (z :: a).length) ht
          rw [drop_append_of_le_length (by omega), ← cons_append, drop_left] at hd
          exact ⟨t, hd⟩
        exact prefix_of_prefix_length_le hdrop (prefix_append m r) (by simp)
    rw [cons_append, indexOf, if_neg hp, indexOf_insert hb ha.2]
    rfl

theorem infix_append_cases (h : m <:+: x ++ y) :
    m <:+: x ∨ m <:+: y ∨ ∃ k, 0 < k ∧ k < m.length ∧ m.drop k <+: y := by
  obtain ⟨s, t, hst⟩ := h
  rw [append_assoc, append_eq_append_iff] at hst
  rcases hst with ⟨u, rfl, hu⟩ | ⟨u, rfl, hu⟩
  · rw [append_eq_append_iff] at hu
    rcases hu with ⟨v, rfl, _⟩ | ⟨v, rfl, rfl⟩
    · exact Or.inl ⟨s, v, by simp⟩
    · by_cases hu0 : u = []
      · subst hu0
        exact Or.inr (Or.inl ⟨[], t, by simp⟩)
      · by_cases hv0 : v = []
        · subst hv0
          exact Or.inl ⟨s, [], by simp⟩
        · have h1 := length_pos_iff.mpr hu0
          have h2 := length_pos_iff.mpr hv0
          refine Or.inr (Or.inr ⟨u.length, h1, by rw [length_append]; omega, ?_⟩)
          rw [drop_left]
          exact prefix_append v t
  · exact Or.inr (Or.inl ⟨u, t, by rw [append_assoc]; exact hu.symm⟩)

end TkmChain
