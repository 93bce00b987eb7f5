import TkmChain.Config

/-!
# Sums over all accounts
-/

namespace TkmChain

instance : Finite Address := Finite.of_injective BitVec.toFin fun _ _ h => BitVec.eq_of_toFin_eq h

noncomputable def accounts : Finset Address := (Set.toFinite (Set.univ : Set Address)).toFinset

theorem mem_accounts (a : Address) : a ∈ accounts := by simp [accounts]

theorem sum_accounts_update [AddCommMonoid N] (f : Address → N) (a : Address) (v : N) :
    ∑ x ∈ accounts, Function.update f a v x + f a = ∑ x ∈ accounts, f x + v := by
  rw [Finset.sum_update_of_mem (mem_accounts a), ← Finset.add_sum_erase _ _ (mem_accounts a),
    Finset.sdiff_singleton_eq_erase, add_comm v, add_assoc, add_comm v, ← add_assoc, add_comm _ (f a)]

end TkmChain
