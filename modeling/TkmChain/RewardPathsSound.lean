import TkmChain.RewardsSound

/-!
# Explicit and implicit rewards

A block is paid either by the reward transactions at the end of its body or, when
it has none, by `distributeRewardsToState`. The two computations agree account by
account except before the Antartical fork when a king is missing.
-/

namespace TkmChain

open List

/-! ## Credits as balances -/

def creditedTo (a : Address) (credits : List (Address × Nat)) : Nat :=
  (credits.map fun c => if c.1 = a then c.2 else 0).sum

section
variable (a b : Address) (x : Nat) (l l' : List (Address × Nat))

@[simp] theorem creditedTo_nil : creditedTo a [] = 0 := rfl

@[simp] theorem creditedTo_cons : creditedTo a ((b, x) :: l) = (if b = a then x else 0) + creditedTo a l := by
  simp [creditedTo]

theorem creditedTo_le : ∀ l : List (Address × Nat), creditedTo a l ≤ (l.map Prod.snd).sum
  | [] => le_rfl
  | (b, x) :: l => by
    have ih := creditedTo_le l
    rw [creditedTo_cons, map_cons, sum_cons]
    split <;> omega

theorem foldl_addBalance (st : StateDB) : ∀ l : List (Address × Nat),
    (l.foldl (fun st c => st.addBalance c.1 (BitVec.ofNat 256 c.2)) st).balance a =
      st.balance a + BitVec.ofNat 256 (creditedTo a l) := by
  intro l
  induction l generalizing st with
  | nil => simp
  | cons c l ih =>
    obtain ⟨b, x⟩ := c
    rw [foldl_cons, ih, creditedTo_cons, StateDB.addBalance_balance]
    by_cases hb : b = a
    · rw [hb, Function.update_self, if_pos rfl, BitVec.ofNat_add, BitVec.add_assoc]
    · rw [Function.update_of_ne (Ne.symm hb), if_neg hb, Nat.zero_add]

end

theorem foldl_addBalance_eq_iff (st : StateDB)
    (h₁ : (l₁.map Prod.snd).sum < 2 ^ 256) (h₂ : (l₂.map Prod.snd).sum < 2 ^ 256) :
    (∀ a, (l₁.foldl (fun st c => st.addBalance c.1 (BitVec.ofNat 256 c.2)) st).balance a =
      (l₂.foldl (fun st c => st.addBalance c.1 (BitVec.ofNat 256 c.2)) st).balance a) ↔
      ∀ a, creditedTo a l₁ = creditedTo a l₂ := by
  refine forall_congr' fun a => ?_
  rw [foldl_addBalance, foldl_addBalance, BitVec.add_right_inj]
  constructor
  · intro heq
    have hnat := congrArg BitVec.toNat heq
    rwa [BitVec.toNat_ofNat, BitVec.toNat_ofNat, Nat.mod_eq_of_lt ((creditedTo_le a l₁).trans_lt h₁),
      Nat.mod_eq_of_lt ((creditedTo_le a l₂).trans_lt h₂)] at hnat
  · intro heq
    rw [heq]

/-! ## What each path credits -/

section
variable {rx : RewardEngine} {h : Header} {u : Nat}

theorem halveReward_le : ∀ n reward, halveReward n reward ≤ reward
  | 0, _ => le_rfl
  | n + 1, reward => by
    rw [halveReward]
    split
    · exact Nat.zero_le _
    · exact (halveReward_le n _).trans (Nat.div_le_self _ _)

theorem Paying.bound (p : Paying h u) : 400 * u < 2 ^ 256 := by
  have hle : calculateBlockReward h.number64 ≤ 200 * ether := halveReward_le _ _
  rw [p.reward] at hle
  unfold ether at hle
  omega

theorem credit_new (hx : x ≠ 0) (ha : a ≠ 0) :
    rewardCredit rx (newBlockRewardTx h.number64 kind a x) = some (a, x) := by
  have hto : (newBlockRewardTx h.number64 kind a x).toAddr = some a := rfl
  have hval : (newBlockRewardTx h.number64 kind a x).value = x := rfl
  simp only [rewardCredit, hto, hval, ha, false_and, and_false, if_false, hx, or_self]

theorem credit_missing_king (hx : x ≠ 0) :
    rewardCredit rx (newBlockRewardTx h.number64 .rotatingKing 0 x) =
      if rx.mainKing = 0 then none else some (rx.mainKing, x) := by
  have hto : (newBlockRewardTx h.number64 .rotatingKing 0 x).toAddr = some 0 := rfl
  have hval : (newBlockRewardTx h.number64 .rotatingKing 0 x).value = x := rfl
  have hkind : (newBlockRewardTx h.number64 .rotatingKing 0 x).data.getLast? = some RewardKind.rotatingKing.byte :=
    getLast_rewardData _ _
  by_cases hm : rx.mainKing = 0
  · simp only [rewardCredit, hto, hval, hkind, hm, ne_eq, not_true, and_false, if_false, or_true, if_true]
  · simp only [rewardCredit, hto, hval, hkind, hm, ne_eq, not_false_eq_true, and_self, if_true, hx, or_self, if_false]

theorem distributeBody_front (st : StateDB)
    (hf : ∀ tx ∈ front, isBlockRewardTx tx = false) :
    (distributeBodyRewardTransactions rx st (front ++ rx.rewardTransactions h)).2 =
      ((rx.rewardTransactions h).filterMap (rewardCredit rx)).foldl
        (fun st c => st.addBalance c.1 (BitVec.ofNat 256 c.2)) st := by
  rw [distributeBodyRewardTransactions]
  by_cases hne : rx.rewardTransactions h = []
  · have hdrop : (front ++ []).dropWhile (fun tx => !isBlockRewardTx tx) = [] := by
      rw [dropWhile_append_of_pos (by simpa using hf)]
      rfl
    rw [hne, bodyRewardCredits, hdrop]
    rfl
  · have hmem : rx.rewardTransactions h ∈ rewardCandidates rx { chainID := none } h := canonical_mem
    rw [bodyRewardCredits_tail hf hne fun tx htx => (candidate_marker hmem tx htx).1]

theorem rewardShares_rotating (hk : rx.getRotatingKing h.number64 = 0) :
    (rx.rewardShares h total).rotating = 0 := by
  simp only [RewardEngine.rewardShares, RewardEngine.antarticalSplit, hk, if_true]
  split
  · rfl
  · split
    · rfl
    · split <;> rfl

theorem credits_of_shares (hs : rx.rewardMarkerShares h (calculateBlockReward h.number64) =
      rx.rewardShares h (calculateBlockReward h.number64)) :
    (rx.rewardTransactions h).filterMap (rewardCredit rx) =
      rx.implicitCredits h (calculateBlockReward h.number64) := by
  have hone : ∀ (kind : RewardKind) (a : Address) (x : Nat),
      (if 0 < x ∧ a ≠ 0 then [newBlockRewardTx h.number64 kind a x] else []).filterMap (rewardCredit rx) =
        if 0 < x ∧ a ≠ 0 then [(a, x)] else [] := by
    intro kind a x
    split
    · rename_i hpay
      rw [filterMap_cons_some (credit_new (Nat.pos_iff_ne_zero.mp hpay.1) hpay.2), filterMap_nil]
    · rfl
  have hrot : 0 < (rx.rewardShares h (calculateBlockReward h.number64)).rotating ↔
      0 < (rx.rewardShares h (calculateBlockReward h.number64)).rotating ∧ rx.getRotatingKing h.number64 ≠ 0 := by
    refine ⟨fun hpos => ⟨hpos, fun hk => ?_⟩, fun hpos => hpos.1⟩
    rw [rewardShares_rotating hk] at hpos
    exact absurd hpos (Nat.lt_irrefl 0)
  simp only [RewardEngine.rewardTransactions, RewardEngine.implicitCredits, calculateTotalReward, Option.getD_none,
    Nat.add_zero, hs, filterMap_append, RewardEngine.mainKingTx, RewardEngine.rotatingKingTx]
  rw [hone, hone, if_congr hrot rfl rfl, hone]

namespace Paying

variable (p : Paying h u) (ha : rx.antarticalActive h = false)
include p ha

theorem credits_noRotating (hm : rx.mainKingAt h ≠ 0) (hk : rx.getRotatingKing h.number64 = 0) :
    (rx.rewardTransactions h).filterMap (rewardCredit rx) =
        (rx.mainKingAt h, 20 * u) ::
          ((if rx.mainKing = 0 then [] else [(rx.mainKing, 80 * u)]) ++ [(h.coinbase, 100 * u)]) ∧
      rx.implicitCredits h (calculateBlockReward h.number64) =
        [(rx.mainKingAt h, 100 * u), (h.coinbase, 100 * u)] := by
  have hpos := p.pos
  constructor
  · rw [p.canonical ha hm, RewardEngine.mainKingTx, RewardEngine.rotatingKingTx, minerTx, hk,
      filterMap_cons_some (credit_new (by omega) hm), filterMap_cons, credit_missing_king (by omega),
      filterMap_cons_some (credit_new (by omega) p.coinbase), filterMap_nil]
    split
    · rename_i hnone
      split at hnone
      · rename_i hz
        rw [if_pos hz, nil_append]
      · cases hnone
    · rename_i c hsome
      split at hsome
      · cases hsome
      · rename_i hz
        rw [if_neg hz, ← Option.some.inj hsome]
        rfl
  · simp only [RewardEngine.implicitCredits, p.reward, p.fallbackShares ha, if_neg hm, if_pos hk]
    rw [if_pos ⟨by omega, hm⟩, if_neg (by omega), if_pos ⟨by omega, p.coinbase⟩]
    rfl

theorem credits_noMain (hm : rx.mainKingAt h = 0) (hk : rx.getRotatingKing h.number64 ≠ 0) :
    (rx.rewardTransactions h).filterMap (rewardCredit rx) = [(h.coinbase, 200 * u)] ∧
      rx.implicitCredits h (calculateBlockReward h.number64) =
        [(rx.getRotatingKing h.number64, 80 * u), (h.coinbase, 120 * u)] := by
  have hpos := p.pos
  constructor
  · rw [p.canonical_noMain ha hm, minerTx, filterMap_cons_some (credit_new (by omega) p.coinbase),
      filterMap_nil]
  · simp only [RewardEngine.implicitCredits, p.reward, p.fallbackShares ha, if_pos hm, if_neg hk]
    rw [if_neg (by omega), if_pos ⟨by omega, hk⟩, if_pos ⟨by omega, p.coinbase⟩]
    rfl

end Paying

end

/-! ## When the paths agree -/

/-- The schedule has ended, the Antartical shares apply, or no share of a missing king is redirected differently. -/
def RewardsAgree (rx : RewardEngine) (h : Header) : Prop :=
  calculateBlockReward h.number64 = 0 ∨ rx.antarticalActive h = true ∨
    (rx.mainKingAt h ≠ 0 ∧ (rx.getRotatingKing h.number64 ≠ 0 ∨ rx.mainKing = rx.mainKingAt h)) ∨
    (rx.mainKingAt h = 0 ∧ (rx.getRotatingKing h.number64 = 0 ∨ rx.getRotatingKing h.number64 = h.coinbase))

section
variable {rx : RewardEngine} {h : Header} {u : Nat}

theorem Paying.agree_noRotating (p : Paying h u) (ha : rx.antarticalActive h = false) (hm : rx.mainKingAt h ≠ 0)
    (hk : rx.getRotatingKing h.number64 = 0) (st : StateDB) :
    (∀ a, (((rx.rewardTransactions h).filterMap (rewardCredit rx)).foldl
        (fun st c => st.addBalance c.1 (BitVec.ofNat 256 c.2)) st).balance a =
      (rx.distributeRewardsToState st h (calculateBlockReward h.number64)).balance a) ↔
        rx.mainKing = rx.mainKingAt h := by
  have hpos := p.pos
  have hb := p.bound
  obtain ⟨hexp, himp⟩ := p.credits_noRotating ha hm hk
  rw [RewardEngine.distributeRewardsToState, hexp, himp,
    foldl_addBalance_eq_iff st (by split <;> simp <;> omega) (by simp; omega)]
  constructor
  · intro hall
    by_contra hne
    have hking := hall (rx.mainKingAt h)
    by_cases hz : rx.mainKing = 0
    · rw [if_pos hz] at hking
      simp only [nil_append, creditedTo_cons, creditedTo_nil, if_true] at hking
      omega
    · rw [if_neg hz] at hking
      simp only [cons_append, nil_append, creditedTo_cons, creditedTo_nil, if_true, if_neg hne] at hking
      omega
  · intro heq a
    rw [heq, if_neg hm]
    simp only [cons_append, nil_append, creditedTo_cons, creditedTo_nil]
    by_cases hking : rx.mainKingAt h = a
    · simp only [hking, if_true]
      omega
    · simp only [hking, if_false]
      omega

theorem Paying.agree_noMain (p : Paying h u) (ha : rx.antarticalActive h = false) (hm : rx.mainKingAt h = 0)
    (hk : rx.getRotatingKing h.number64 ≠ 0) (st : StateDB) :
    (∀ a, (((rx.rewardTransactions h).filterMap (rewardCredit rx)).foldl
        (fun st c => st.addBalance c.1 (BitVec.ofNat 256 c.2)) st).balance a =
      (rx.distributeRewardsToState st h (calculateBlockReward h.number64)).balance a) ↔
        rx.getRotatingKing h.number64 = h.coinbase := by
  have hpos := p.pos
  have hb := p.bound
  obtain ⟨hexp, himp⟩ := p.credits_noMain ha hm hk
  rw [RewardEngine.distributeRewardsToState, hexp, himp,
    foldl_addBalance_eq_iff st (by simp; omega) (by simp; omega)]
  constructor
  · intro hall
    by_contra hne
    have hminer := hall h.coinbase
    simp only [creditedTo_cons, creditedTo_nil, if_true, if_neg hne] at hminer
    omega
  · intro heq a
    rw [heq]
    simp only [creditedTo_cons, creditedTo_nil]
    split <;> omega

theorem rewardShares_agree (hs : calculateBlockReward h.number64 = 0 ∨ rx.antarticalActive h = true ∨
      (rx.mainKingAt h ≠ 0 ∧ rx.getRotatingKing h.number64 ≠ 0) ∨
      (rx.mainKingAt h = 0 ∧ rx.getRotatingKing h.number64 = 0)) :
    rx.rewardMarkerShares h (calculateBlockReward h.number64) =
      rx.rewardShares h (calculateBlockReward h.number64) := by
  simp only [RewardEngine.rewardMarkerShares, RewardEngine.rewardShares]
  by_cases hz : calculateBlockReward h.number64 = 0
  · rw [if_pos hz, if_pos hz]
  · rw [if_neg hz, if_neg hz]
    cases ha : rx.antarticalActive h with
    | true => rfl
    | false =>
      simp only [Bool.false_eq_true, if_false]
      rcases hs with hs | hs | ⟨hm, hk⟩ | ⟨hm, hk⟩
      · exact absurd hs hz
      · rw [hs] at ha
        cases ha
      · simp only [hm, hk, if_false]
      · simp only [hm, hk, if_true, ne_eq, not_true, if_false]

end

/-- The body's reward transactions and the implicit rewards change every balance alike exactly when `RewardsAgree`
holds. -/
theorem reward_paths_agree_iff (rx : RewardEngine) (h : Header) (st : StateDB) (front : List BodyTx)
    (hc : h.coinbase ≠ 0) (hf : ∀ tx ∈ front, isBlockRewardTx tx = false) :
    (∀ a, (distributeBodyRewardTransactions rx st (front ++ rx.rewardTransactions h)).2.balance a =
      (rx.distributeRewardsToState st h (calculateBlockReward h.number64)).balance a) ↔ RewardsAgree rx h := by
  rw [distributeBody_front st hf, RewardsAgree]
  by_cases hs : calculateBlockReward h.number64 = 0 ∨ rx.antarticalActive h = true ∨
      (rx.mainKingAt h ≠ 0 ∧ rx.getRotatingKing h.number64 ≠ 0) ∨
      (rx.mainKingAt h = 0 ∧ rx.getRotatingKing h.number64 = 0)
  · rw [RewardEngine.distributeRewardsToState, credits_of_shares (rewardShares_agree hs)]
    refine iff_of_true (fun _ => rfl) ?_
    rcases hs with hs | hs | ⟨hm, hk⟩ | ⟨hm, hk⟩
    · exact Or.inl hs
    · exact Or.inr (Or.inl hs)
    · exact Or.inr (Or.inr (Or.inl ⟨hm, Or.inl hk⟩))
    · exact Or.inr (Or.inr (Or.inr ⟨hm, Or.inl hk⟩))
  · rw [not_or, not_or, not_or, Bool.not_eq_true] at hs
    obtain ⟨hz, ha, hkings, hnone⟩ := hs
    have hlt : h.number64.toNat / blocksPerHalving < 8 :=
      Nat.lt_of_not_le fun hle => hz (calculateBlockReward_end hle)
    obtain ⟨u, p⟩ := paying_of_lt hc hlt
    by_cases hm : rx.mainKingAt h = 0
    · have hk : rx.getRotatingKing h.number64 ≠ 0 := fun hk => hnone ⟨hm, hk⟩
      simp only [p.agree_noMain ha hm hk, hz, ha, hm, hk, ne_eq, not_true, false_and, false_or, true_and,
        Bool.false_eq_true]
    · have hk : rx.getRotatingKing h.number64 = 0 := by_contra fun hk => hkings ⟨hm, hk⟩
      simp only [p.agree_noRotating ha hm hk, hz, ha, hm, hk, ne_eq, not_true, not_false_eq_true, false_and, false_or,
        or_false, true_and, Bool.false_eq_true]

theorem reward_paths_agree_withKing :
    (kingEngine [6]).getRotatingKing 1 = 6 ∧
    ∀ a, (distributeBodyRewardTransactions (kingEngine [6]) blankState
        ([] ++ (kingEngine [6]).rewardTransactions rewardedHeader)).2.balance a =
      ((kingEngine [6]).distributeRewardsToState blankState rewardedHeader
        (calculateBlockReward rewardedHeader.number64)).balance a := by
  have hking : (kingEngine [6]).getRotatingKing 1 = 6 := rfl
  refine ⟨hking, (reward_paths_agree_iff (kingEngine [6]) rewardedHeader blankState [] (by decide) nofun).mpr
    (Or.inr (Or.inr (Or.inl ⟨by decide, Or.inl ?_⟩)))⟩
  show (kingEngine [6]).getRotatingKing 1 ≠ 0
  rw [hking]
  decide

def quantumEngine : RewardEngine := { mainKing := 5, postQuantumMainKing := 6, quantumResistantTime := some 100 }

/-- The body pays the missing king's share to the main king from before the fork. -/
theorem reward_paths_differ :
    (distributeBodyRewardTransactions quantumEngine blankState
      (quantumEngine.rewardTransactions rewardedHeader)).2.balance 5 = BitVec.ofNat 256 (80 * ether) ∧
    (quantumEngine.distributeRewardsToState blankState rewardedHeader
      (calculateBlockReward rewardedHeader.number64)).balance 5 = 0 := by
  constructor <;> decide +kernel

end TkmChain
