import Mathlib

/-!
# Covering a sum with the largest items

Items are taken from the front of a list until they are worth enough. With the most valuable
items first no other choice of items needs fewer.
-/

namespace Greedy

open List

variable {α : Type} (value : α → Nat)

def worth (l : List α) : Nat := (l.map value).sum

/-- Items from the front until what is held and they are worth `goal`, at most `limit` of them. -/
def cover (goal : Nat) : Nat → Nat → List α → Option (List α)
  | 0, _, _ => none
  | _ + 1, _, [] => none
  | limit + 1, held, x :: rest =>
    if goal ≤ held + value x then some [x] else (cover goal limit (held + value x) rest).map (x :: ·)

variable {value} {goal limit held : Nat} {l chosen other : List α}

@[simp] theorem worth_nil : worth value [] = 0 := rfl

@[simp] theorem worth_cons : worth value (x :: l) = value x + worth value l := rfl

/-! ## What is taken -/

theorem cover_some (h : cover value goal limit held l = some chosen) (hheld : held < goal) :
    chosen <+: l ∧ chosen.length ≤ limit ∧ goal ≤ held + worth value chosen ∧
      ∀ k < chosen.length, held + worth value (l.take k) < goal := by
  fun_induction cover generalizing chosen with
  | case1 => cases h
  | case2 => cases h
  | case3 limit held x rest henough =>
    cases h
    refine ⟨⟨rest, rfl⟩, by simp, by simpa using henough, fun k hk => ?_⟩
    obtain rfl : k = 0 := by simpa using hk
    exact hheld
  | case4 limit held x rest henough ih =>
    obtain ⟨tail, htail, rfl⟩ := Option.map_eq_some_iff.mp h
    obtain ⟨hfront, hlength, hworth, hless⟩ := ih htail (Nat.lt_of_not_le henough)
    refine ⟨cons_prefix_cons.mpr ⟨rfl, hfront⟩, Nat.succ_le_succ hlength, ?_, fun k hk => ?_⟩
    · rw [worth_cons, ← Nat.add_assoc]
      exact hworth
    · cases k with
      | zero => exact hheld
      | succ k =>
        rw [take_succ_cons, worth_cons, ← Nat.add_assoc]
        exact hless k (Nat.lt_of_succ_lt_succ hk)

theorem cover_none (h : cover value goal limit held l = none) (hheld : held < goal) :
    held + worth value (l.take limit) < goal := by
  fun_induction cover with
  | case1 => exact hheld
  | case2 => exact hheld
  | case3 => cases h
  | case4 limit held x rest henough ih =>
    rw [take_succ_cons, worth_cons, ← Nat.add_assoc]
    exact ih (Option.map_eq_none_iff.mp h) (Nat.lt_of_not_le henough)

/-! ## The most valuable items first -/

theorem worth_le_take (hsorted : l.Pairwise fun a b => value b ≤ value a) (h : chosen.Subperm l) (hk : chosen.length ≤ k) :
    worth value chosen ≤ worth value (l.take k) := by
  classical
  induction l generalizing chosen k with
  | nil => rw [subperm_nil.mp h]; exact Nat.zero_le _
  | cons largest l ih =>
    obtain ⟨hlargest, hsorted⟩ := pairwise_cons.mp hsorted
    cases k with
    | zero => rw [eq_nil_of_length_eq_zero (Nat.le_zero.mp hk)]; exact Nat.zero_le _
    | succ k =>
      rw [take_succ_cons, worth_cons]
      have hrest : (chosen.erase largest).Subperm l := by
        have herase := h.erase largest
        rwa [erase_cons_head] at herase
      by_cases hmem : largest ∈ chosen
      · have hperm := perm_cons_erase hmem
        have hlength := hperm.length_eq
        rw [length_cons] at hlength
        have hsum := ih hsorted hrest (k := k) (by omega)
        rw [worth, (hperm.map value).sum_eq]
        exact Nat.add_le_add_left hsum _
      · rw [erase_of_not_mem hmem] at hrest
        cases chosen with
        | nil => exact Nat.zero_le _
        | cons first others =>
          have hfirst := hlargest first (hrest.subset mem_cons_self)
          have hsum := ih hsorted (k := k) ((sublist_cons_self first others).subperm.trans hrest)
            (Nat.le_of_succ_le_succ hk)
          exact Nat.add_le_add hfirst hsum

/-- A choice of as few items as possible, a single one of the least value if there is one. -/
structure Fewest (value : α → Nat) (goal limit : Nat) (items chosen : List α) : Prop where
  among : chosen.Subperm items
  few : chosen.length ≤ limit
  enough : goal ≤ worth value chosen
  single : ∀ x ∈ items, goal ≤ value x → ∃ y, chosen = [y] ∧ value y ≤ value x
  fewest : ∀ other : List α, other.Subperm items → goal ≤ worth value other → chosen.length ≤ other.length

variable {items : List α} (hgoal : 0 < goal)
include hgoal

theorem fewest_single (hlimit : 0 < limit) (hx : x ∈ items) (hcovers : goal ≤ value x)
    (hleast : ∀ y ∈ items, goal ≤ value y → value x ≤ value y) : Fewest value goal limit items [x] where
  among := singleton_subperm_iff.mpr hx
  few := hlimit
  enough := hcovers
  single y hy h := ⟨x, rfl, hleast y hy h⟩
  fewest other _ hother := by
    cases other with
    | nil => exact absurd hother (Nat.not_le_of_gt hgoal)
    | cons first others => simp

variable (hsorted : l.Pairwise fun a b => value b ≤ value a) (hperm : l.Perm items)
include hsorted hperm

theorem fewest_cover (hsmall : ∀ x ∈ items, value x < goal) (h : cover value goal limit 0 l = some chosen) :
    Fewest value goal limit items chosen := by
  obtain ⟨hfront, hlength, hworth, hless⟩ := cover_some h hgoal
  refine ⟨hfront.sublist.subperm.trans hperm.subperm, hlength, by omega, ?_, fun other hother hcovers => ?_⟩
  · exact fun x hx hcovers => absurd hcovers (Nat.not_le_of_gt (hsmall x hx))
  · by_contra hlt
    have hheld := hless other.length (by omega)
    have hlargest := worth_le_take hsorted (hother.trans hperm.symm.subperm) (Nat.le_refl _)
    omega

theorem cover_exists (hother : other.Subperm items) (hlength : other.length ≤ limit) (hworth : goal ≤ worth value other) :
    ∃ chosen, cover value goal limit 0 l = some chosen := by
  refine Option.isSome_iff_exists.mp (Option.ne_none_iff_isSome.mp fun hnone => ?_)
  have hless := cover_none hnone hgoal
  have hlargest := worth_le_take hsorted (hother.trans hperm.symm.subperm) hlength
  omega

omit hperm in
theorem cover_excess (h : cover value goal limit 0 l = some chosen) (hx : x ∈ chosen) :
    worth value chosen < goal + value x := by
  obtain ⟨hfront, -, -, hless⟩ := cover_some h hgoal
  -- the last item taken is the least, and without it too little was held
  obtain rfl | ⟨init, last, rfl⟩ := eq_nil_or_concat chosen
  · cases hx
  obtain ⟨rest, rfl⟩ := hfront
  have hinit := hless init.length (by simp)
  rw [concat_eq_append] at hx hsorted hinit ⊢
  rw [append_assoc, take_left' rfl, Nat.zero_add] at hinit
  have hlast : value last ≤ value x := by
    rcases mem_append.mp hx with hx | hx
    · exact (pairwise_append.mp (pairwise_append.mp hsorted).1).2.2 x hx last mem_cons_self
    · exact Nat.le_of_eq (congrArg value (mem_singleton.mp hx).symm)
  have hsplit : worth value (init ++ [last]) = worth value init + value last := by simp [worth]
  omega

end Greedy
