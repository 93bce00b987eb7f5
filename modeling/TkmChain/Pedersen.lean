import Mathlib

/-!
# Pedersen commitments

Commitments `mask • G + value • H` in an additive group. They hide their values perfectly:
where `H` is a multiple of `G`, every point is a commitment to every value. So openings are
counted only among those that somebody knows, a subgroup of pairs of a mask and a value, and
commitments are binding when the known openings of a point agree modulo the order of the
group.
-/

namespace Pedersen

structure Generators (𝔾 : Type) where
  (G H : 𝔾)

variable {𝔾 : Type} [AddCommGroup 𝔾] {g : Generators 𝔾} {known : AddSubgroup (ℤ × ℤ)} {p q : 𝔾} {v w : ℤ}

def Generators.commit (g : Generators 𝔾) (mask value : ℤ) : 𝔾 := mask • g.G + value • g.H

def Opens (g : Generators 𝔾) (known : AddSubgroup (ℤ × ℤ)) (p : 𝔾) (v : ℤ) : Prop :=
  ∃ mask, (mask, v) ∈ known ∧ p = g.commit mask v

/-- The known openings of a point agree, up to the order of the group. -/
def Binding (g : Generators 𝔾) (known : AddSubgroup (ℤ × ℤ)) (order : ℕ) : Prop :=
  ∀ p v w, Opens g known p v → Opens g known p w → v ≡ w [ZMOD order]

theorem opens_commit (h : (mask, value) ∈ known) : Opens g known (g.commit mask value) value :=
  ⟨mask, h, rfl⟩

theorem opens_zero : Opens g known 0 0 := ⟨0, known.zero_mem, by simp [Generators.commit]⟩

theorem Opens.add (hp : Opens g known p v) (hq : Opens g known q w) : Opens g known (p + q) (v + w) := by
  obtain ⟨m, hm, rfl⟩ := hp
  obtain ⟨n, hn, rfl⟩ := hq
  refine ⟨m + n, known.add_mem hm hn, ?_⟩
  simp only [Generators.commit]
  module

theorem Opens.nsmul (n : ℕ) (hp : Opens g known p v) : Opens g known (n • p) (n * v) := by
  obtain ⟨m, hm, rfl⟩ := hp
  refine ⟨n * m, ?_, ?_⟩
  · have hmul := known.nsmul_mem hm n
    rwa [Prod.smul_mk, nsmul_eq_mul, nsmul_eq_mul] at hmul
  · simp only [Generators.commit]
    module

theorem opens_sum (h : List.Forall₂ (Opens g known) ps vs) :
    Opens g known ps.sum vs.sum := by
  induction h with
  | nil => exact opens_zero
  | cons hp _ ih =>
    rw [List.sum_cons, List.sum_cons]
    exact hp.add ih

theorem Binding.eq_of_lt (h : Binding g known order) (hv : Opens g known p v) (hw : Opens g known p w)
    (hv0 : 0 ≤ v) (hvo : v < order) (hw0 : 0 ≤ w) (hwo : w < order) : v = w := by
  have hmod := h p v w hv hw
  rwa [Int.ModEq, Int.emod_eq_of_lt hv0 hvo, Int.emod_eq_of_lt hw0 hwo] at hmod

theorem sum_bounds {vs : List ℤ} {bound : ℤ} {n : ℕ} (h : ∀ v ∈ vs, 0 ≤ v ∧ v ≤ bound) (hb : 0 ≤ bound)
    (hn : vs.length ≤ n) : 0 ≤ vs.sum ∧ vs.sum ≤ n * bound := by
  refine ⟨List.sum_nonneg fun v hv => (h v hv).1, ?_⟩
  have hsum := List.sum_le_card_nsmul vs bound fun v hv => (h v hv).2
  rw [nsmul_eq_mul] at hsum
  exact le_trans hsum (mul_le_mul_of_nonneg_right (by exact_mod_cast hn) hb)

end Pedersen
