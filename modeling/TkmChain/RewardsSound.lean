import TkmChain.Rewards

/-!
# What a reward tail can credit

A tail is accepted when its transactions, the validator's apart, are mixed from
candidates of one length, or at once when the chain config has a main king and
no rotating kings. The total a body credits is the total of its tail. Comparing
the schedules gives the exact condition under which no accepted tail credits
more than the block reward.
-/

namespace TkmChain

open List

variable {sha256 : Bytes → Hash} {rx : RewardEngine} {cfg : ChainConfig} {h : Header} {st : StateDB}
variable {c base front tail : List BodyTx} {f : BodyTx → Nat} {b tx : BodyTx}

/-! ## The schedules -/

theorem halveReward_end (n : Nat) : halveReward (n + 8) (200 * ether) = 0 := rfl

theorem legacyRandomXBlockReward_eq (n : UInt64) : legacyRandomXBlockReward n = calculateBlockReward n := by
  unfold legacyRandomXBlockReward calculateBlockReward
  by_cases h : n.toNat / blocksPerHalving ≤ maxHalvings
  · rw [Nat.min_eq_left h]
  · have hk : n.toNat / blocksPerHalving = n.toNat / blocksPerHalving - 8 + 8 := by
      unfold maxHalvings at h
      omega
    rw [Nat.min_eq_right (by omega), hk, halveReward_end]
    rfl

theorem calculateBlockReward_end (h : 8 ≤ n.toNat / blocksPerHalving) : calculateBlockReward n = 0 := by
  rw [← legacyRandomXBlockReward_eq, legacyRandomXBlockReward, ← Nat.sub_add_cancel h, halveReward_end]

/-! ## Supply -/

theorem circulatingLoop_eq : ∀ n reward remaining, ether ≤ reward → reward < ether * 2 ^ n →
    circulatingLoop n reward remaining = ∑ b ∈ Finset.range remaining, halveReward (b / blocksPerHalving) reward
  | 0, _, _, hle, hlt => by omega
  | n + 1, reward, remaining, hle, hlt => by
    have hperiod : 0 < blocksPerHalving := by decide
    rw [circulatingLoop]
    generalize hblocks : min blocksPerHalving remaining = blocks
    split
    · rename_i hnone
      rw [hnone, Finset.sum_range_zero]
    · have hfirst : ∑ b ∈ Finset.range blocks, halveReward (b / blocksPerHalving) reward = reward * blocks := by
        rw [Finset.sum_const_nat (m := reward), Finset.card_range, Nat.mul_comm]
        intro b hb
        rw [Nat.div_eq_of_lt (by rw [Finset.mem_range] at hb; omega), halveReward]
      -- past the blocks of this period one halving has been made
      have hnext : ∀ b ∈ Finset.range (remaining - blocks), halveReward ((blocks + b) / blocksPerHalving) reward =
          if reward / 2 < ether then 0 else halveReward (b / blocksPerHalving) (reward / 2) := by
        intro b hb
        obtain rfl : blocks = blocksPerHalving := by rw [Finset.mem_range] at hb; omega
        rw [Nat.add_div_left _ hperiod, halveReward]
      rw [← Nat.add_sub_cancel' (by omega : blocks ≤ remaining), Finset.sum_range_add, hfirst, Nat.add_sub_cancel_left,
        Finset.sum_congr rfl hnext]
      split
      · rw [Finset.sum_const_zero]
      · rw [circulatingLoop_eq n _ _ (by omega) (by rw [pow_succ, ← Nat.mul_assoc] at hlt; omega)]

theorem circulatingLoop_cap (h : n * blocksPerHalving ≤ remaining) :
    circulatingLoop n reward remaining = supplyCapLoop n reward := by
  induction n generalizing reward remaining with
  | zero => rfl
  | succ n ih =>
    have hperiod : 0 < blocksPerHalving := by decide
    rw [Nat.succ_mul] at h
    rw [circulatingLoop, supplyCapLoop, if_neg (by omega), Nat.min_eq_left (by omega), ih (by omega)]

def rewardAt (b : Nat) : Nat := halveReward (b / blocksPerHalving) (200 * ether)

theorem rewardAt_zero {i : Nat} : rewardAt i = 0 ↔ 8 ≤ i / blocksPerHalving := by
  unfold rewardAt
  constructor
  · contrapose!
    generalize i / blocksPerHalving = k
    revert k
    decide
  · intro h
    rw [← Nat.sub_add_cancel h, halveReward_end]

theorem sum_rewardAt_mono (h : m ≤ n) : ∑ b ∈ Finset.range m, rewardAt b ≤ ∑ b ∈ Finset.range n, rewardAt b :=
  Finset.sum_le_sum_of_subset (Finset.range_subset_range.mpr h)

theorem sum_rewardAt_end (hm : rewardAt m = 0) (h : m ≤ n) :
    ∑ b ∈ Finset.range m, rewardAt b = ∑ b ∈ Finset.range n, rewardAt b := by
  refine Finset.sum_subset (Finset.range_subset_range.mpr h) fun b _ hb => rewardAt_zero.mpr ?_
  rw [Finset.mem_range, Nat.not_lt] at hb
  exact Nat.le_trans (rewardAt_zero.mp hm) (Nat.div_le_div_right hb)

theorem calculateCirculatingSupply_eq (n : UInt64) :
    calculateCirculatingSupply n = genesisPremine + ∑ b ∈ Finset.range n.toNat, rewardAt b := by
  rw [calculateCirculatingSupply, circulatingLoop_eq _ _ _ (by decide) (by decide)]
  simp only [rewardAt]

theorem calculateTotalSupplyCap_eq (h : (maxHalvings + 1) * blocksPerHalving ≤ m) :
    calculateTotalSupplyCap = genesisPremine + ∑ b ∈ Finset.range m, rewardAt b := by
  rw [calculateTotalSupplyCap, ← circulatingLoop_cap h, circulatingLoop_eq _ _ _ (by decide) (by decide)]
  simp only [rewardAt]

/-- The four schedules agree: the supply is the sum of the rewards, it only grows, and it is at its cap when the reward
has ended. -/
theorem emission_schedules_agree (n : UInt64) :
    legacyRandomXBlockReward n = calculateBlockReward n ∧
    calculateCirculatingSupply n =
      genesisPremine + ∑ b ∈ Finset.range n.toNat, calculateBlockReward (UInt64.ofNat b) ∧
    (∀ m ≤ n, calculateCirculatingSupply m ≤ calculateCirculatingSupply n) ∧
    calculateCirculatingSupply n ≤ calculateTotalSupplyCap ∧
    (calculateCirculatingSupply n = calculateTotalSupplyCap ↔ calculateBlockReward n = 0) := by
  have hreward : ∀ m : UInt64, calculateBlockReward m = rewardAt m.toNat := fun m => (legacyRandomXBlockReward_eq m).symm
  obtain ⟨last, hlast⟩ : ∃ last, last = (maxHalvings + 1) * blocksPerHalving := ⟨_, rfl⟩
  have hend : rewardAt last = 0 := rewardAt_zero.mpr (by rw [hlast]; decide)
  have hcap : rewardAt n.toNat = 0 →
      ∑ b ∈ Finset.range n.toNat, rewardAt b = ∑ b ∈ Finset.range last, rewardAt b := fun h =>
    (Nat.le_total _ _).elim (sum_rewardAt_end h) fun hle => (sum_rewardAt_end hend hle).symm
  have hbelow : rewardAt n.toNat ≠ 0 → n.toNat + 1 ≤ last := by
    intro h
    by_contra hge
    exact h (rewardAt_zero.mpr (Nat.le_trans (rewardAt_zero.mp hend) (Nat.div_le_div_right (by omega))))
  rw [calculateTotalSupplyCap_eq (Nat.le_of_eq hlast.symm), calculateCirculatingSupply_eq]
  refine ⟨legacyRandomXBlockReward_eq n, ?_, fun m hm => ?_, ?_⟩
  · refine congrArg _ (Finset.sum_congr rfl fun b hb => ?_)
    rw [hreward, UInt64.toNat_ofNat_of_lt' (Nat.lt_trans (Finset.mem_range.mp hb) n.toNat_lt_size)]
  · rw [calculateCirculatingSupply_eq]
    exact Nat.add_le_add_left (sum_rewardAt_mono hm) _
  · rw [hreward]
    by_cases hzero : rewardAt n.toNat = 0
    · rw [hcap hzero]
      exact ⟨Nat.le_refl _, iff_of_true rfl hzero⟩
    · have hsum := sum_rewardAt_mono (hbelow hzero)
      rw [Finset.sum_range_succ] at hsum
      exact ⟨by omega, by omega⟩

theorem iterate_half (k x : Nat) : (fun share : Nat => share / 2)^[k] x = x / 2 ^ k := by
  induction k generalizing x with
  | zero => simp
  | succ k ih => rw [Function.iterate_succ_apply, ih, Nat.div_div_eq_div_mul, pow_succ, Nat.mul_comm]

theorem rewardSharesAt_eq (n : UInt64) :
    rewardSharesAt n blocksPerHalving =
      ⟨90 * ether / 2 ^ (n.toNat / blocksPerHalving), 70 * ether / 2 ^ (n.toNat / blocksPerHalving),
        35 * ether / 2 ^ (n.toNat / blocksPerHalving), 5 * ether / 2 ^ (n.toNat / blocksPerHalving)⟩ := by
  have hb : blocksPerHalving ≠ 0 := by decide
  simp only [rewardSharesAt, if_neg hb, iterate_half, initialRewardShares]

theorem schedule_unit (h : n.toNat / blocksPerHalving < 8) :
    ∃ u, 0 < u ∧ calculateBlockReward n = 200 * u ∧
      rewardSharesAt n blocksPerHalving = ⟨90 * u, 70 * u, 35 * u, 5 * u⟩ := by
  rw [rewardSharesAt_eq, ← legacyRandomXBlockReward_eq, legacyRandomXBlockReward]
  refine ⟨ether / 2 ^ (n.toNat / blocksPerHalving), ?_⟩
  generalize n.toNat / blocksPerHalving = k at h
  revert k
  decide

theorem validatorShare_pos (n : UInt64) :
    0 < (rewardSharesAt n blocksPerHalving).validator ↔ n.toNat / blocksPerHalving < 66 := by
  rw [rewardSharesAt_eq]
  show 0 < 70 * ether / 2 ^ _ ↔ _
  rw [Nat.div_pos_iff]
  constructor
  · intro ⟨_, hle⟩
    by_contra hge
    have := Nat.pow_le_pow_right (n := 2) (by decide) (Nat.le_of_not_lt hge)
    unfold ether at hle
    omega
  · intro hlt
    have := Nat.pow_le_pow_right (n := 2) (by decide) (Nat.le_of_lt_succ hlt)
    unfold ether
    exact ⟨Nat.pow_pos (by decide), by omega⟩

/-! ## Credits -/

def creditValue (rx : RewardEngine) (tx : BodyTx) : Nat := (rewardCredit rx tx).elim 0 Prod.snd

section
variable (rx : RewardEngine) (n : UInt64) (a : Address) (x : Nat)

@[simp] theorem isBlockRewardTx_new (kind : RewardKind) : isBlockRewardTx (newBlockRewardTx n kind a x) = true := by
  have hp : blockRewardTxPrefix.isPrefixOf (rewardData n kind) = true := by
    rw [rewardData, append_assoc, isPrefixOf_iff_prefix]
    exact prefix_append _ _
  simp [isBlockRewardTx, newBlockRewardTx, hp]
  simp [rewardData]

@[simp] theorem getLast_rewardData (kind : RewardKind) : (rewardData n kind).getLast? = some kind.byte := by
  simp [rewardData]

@[simp] theorem isValidatorRewardTx_new (kind : RewardKind) :
    isValidatorRewardTx (newBlockRewardTx n kind a x) = decide (kind = .validator) := by
  have hd : (newBlockRewardTx n kind a x).data = rewardData n kind := rfl
  rw [isValidatorRewardTx, isBlockRewardTx_new, hd, getLast_rewardData]
  cases kind <;> decide

theorem isValidatorRewardTx_validator : isValidatorRewardTx (newValidatorRewardTx n a x) = true := by
  show isValidatorRewardTx { newBlockRewardTx n .validator a x with nonce := _ } = true
  exact isValidatorRewardTx_new n a x .validator

end

/-! ## Matching -/

def Mixed (txs : List BodyTx) (candidates : List (List BodyTx)) : Prop :=
  (∃ c ∈ candidates, c.length = txs.length) ∧
    ∀ i < txs.length, ∃ m ∈ candidates, m.length = txs.length ∧ txs[i]? = m[i]?

theorem Mixed.self (h : txs ∈ candidates) : Mixed txs candidates :=
  ⟨⟨txs, h, rfl⟩, fun _ _ => ⟨txs, h, rfl, rfl⟩⟩

theorem matchingMixed_isSome :
    (matchingMixedRewardTransactions txs candidates).isSome = true ↔ Mixed txs candidates := by
  rw [matchingMixedRewardTransactions, Option.isSome_filter]
  cases hf : candidates.find? fun c => c.length = txs.length with
  | none =>
    rw [find?_eq_none] at hf
    constructor
    · intro h
      cases h
    · rintro ⟨⟨c, hc, hl⟩, _⟩
      exact absurd (decide_eq_true hl) (hf c hc)
  | some c =>
    have hc := mem_of_find?_eq_some hf
    have hl : c.length = txs.length := by simpa using find?_some hf
    simp
    exact ⟨fun h => ⟨⟨c, hc, hl⟩, h⟩, fun h => h.2⟩

theorem matchingMixed_length (h : matchingMixedRewardTransactions txs candidates = some m) : m.length = txs.length := by
  rw [matchingMixedRewardTransactions, Option.filter_eq_some_iff] at h
  simpa using find?_some h.1

theorem matchingRewardTransactions_ok :
    (∃ e, matchingRewardTransactions txs candidates = .ok e ∧ e.length = txs.length) ↔ Mixed txs candidates := by
  unfold matchingRewardTransactions
  cases hf : candidates.find? fun c => c ≠ [] ∧ c = txs with
  | some c =>
    have hc := mem_of_find?_eq_some hf
    have he := find?_some hf
    simp only [decide_eq_true_eq] at he
    exact ⟨fun _ => Mixed.self (he.2 ▸ hc), fun _ => ⟨c, rfl, by rw [he.2]⟩⟩
  | none =>
    cases hm : matchingMixedRewardTransactions txs candidates with
    | some m =>
      have hmix : Mixed txs candidates := matchingMixed_isSome.mp (by rw [hm]; rfl)
      exact ⟨fun _ => hmix, fun _ => ⟨m, rfl, matchingMixed_length hm⟩⟩
    | none =>
      constructor
      · rintro ⟨e, he, _⟩
        simp only at he
        split at he
        · cases he
        · split at he
          · cases he
          · split at he <;> cases he
      · intro hmix
        have := matchingMixed_isSome.mpr hmix
        rw [hm] at this
        cases this

theorem Mixed.sum_le {total : Nat} (h : Mixed txs candidates) (bound : Nat → List Nat)
    (hb : ∀ c ∈ candidates, List.Forall₂ (fun tx b => f tx ≤ b) c (bound c.length) ∧ (bound c.length).sum ≤ total) :
    (txs.map f).sum ≤ total := by
  obtain ⟨⟨c, hc, hl⟩, hat⟩ := h
  have hc := hb c hc
  rw [hl] at hc
  refine Nat.le_trans (Forall₂.sum_le_sum (forall₂_map_left_iff.mpr ?_)) hc.2
  refine forall₂_of_length_eq_of_get (hl.symm.trans hc.1.length_eq) fun i hi hi' => ?_
  obtain ⟨d, hd, hdl, hdi⟩ := hat i hi
  obtain ⟨hi'', hdi⟩ := List.getElem?_eq_some_iff.mp (hdi.symm.trans (List.getElem?_eq_getElem hi))
  have hd := (hb d hd).1
  rw [hdl] at hd
  simpa only [List.get_eq_getElem, hdi] using hd.get hi'' hi'

/-! ## The candidates -/

theorem mem_addCandidate :
    c ∈ addCandidate l d ↔ c ∈ l ∨ (c = d ∧ d ≠ []) := by
  unfold addCandidate
  split
  · rename_i h
    rw [mem_append, mem_singleton]
    exact or_congr_right ⟨fun hc => ⟨hc, h.1⟩, fun hc => hc.1⟩
  · rename_i h
    refine ⟨Or.inl, ?_⟩
    rintro (hc | ⟨rfl, hne⟩)
    · exact hc
    · by_contra hno
      exact h ⟨hne, hno⟩

theorem mem_rewardCandidates : c ∈ rewardCandidates rx cfg h ↔ c = rx.rewardTransactions h ∨
      (rx.antarticalActive h = false ∧ (c = rx.legacyRewardTransactions h ∨
        (c = rx.fallbackRewardTransactions h ∧ rx.fallbackRewardTransactions h ≠ []))) ∨
      (c = legacyNoRotatingKingRewardTransactions cfg h ∧ legacyNoRotatingKingRewardTransactions cfg h ≠ []) := by
  have hlegacy : rx.legacyRewardTransactions h ≠ [] := cons_ne_nil _ _
  have hlast : c ∈ (if legacyNoRotatingKingRewardTransactions cfg h ≠ [] then
      [legacyNoRotatingKingRewardTransactions cfg h] else []) ↔
      c = legacyNoRotatingKingRewardTransactions cfg h ∧ legacyNoRotatingKingRewardTransactions cfg h ≠ [] := by
    split
    · rename_i hne
      simp [hne]
    · rename_i hne
      simp [hne]
  rw [rewardCandidates, mem_append, hlast, RewardEngine.compatibleRewardTransactions]
  cases rx.antarticalActive h with
  | true => simp
  | false => simp [mem_addCandidate, hlegacy, or_assoc]

def Marker (tx : BodyTx) : Prop := isBlockRewardTx tx = true ∧ isValidatorRewardTx tx = false

theorem marker_new (hk : kind ≠ .validator) :
    Marker (newBlockRewardTx n kind a x) :=
  ⟨isBlockRewardTx_new n a x kind, by rw [isValidatorRewardTx_new]; exact decide_eq_false hk⟩

theorem candidate_marker (hc : c ∈ rewardCandidates rx cfg h) : ∀ tx ∈ c, Marker tx := by
  have hite : ∀ {p : Prop} [Decidable p] {t}, Marker t → ∀ tx ∈ (if p then [t] else []), Marker tx := by
    intro p _ t ht
    split
    · exact forall_mem_singleton.mpr ht
    · exact nofun
  have hparts : ∀ {l₁ l₂ l₃ : List BodyTx}, (∀ tx ∈ l₁, Marker tx) → (∀ tx ∈ l₂, Marker tx) →
      (∀ tx ∈ l₃, Marker tx) → ∀ tx ∈ l₁ ++ l₂ ++ l₃, Marker tx :=
    fun h₁ h₂ h₃ => forall_mem_append.mpr ⟨forall_mem_append.mpr ⟨h₁, h₂⟩, h₃⟩
  have hthree : ∀ a₁ a₂ a₃ x₁ x₂ x₃, ∀ tx ∈ [newBlockRewardTx h.number64 .mainKing a₁ x₁,
      newBlockRewardTx h.number64 .rotatingKing a₂ x₂, newBlockRewardTx h.number64 .miner a₃ x₃], Marker tx := by
    simp [marker_new]
  rcases mem_rewardCandidates.mp hc with rfl | ⟨_, rfl | ⟨rfl, _⟩⟩ | ⟨rfl, _⟩
  · exact hparts (hite (marker_new nofun)) (hite (marker_new nofun)) (hite (marker_new nofun))
  · exact hthree _ _ _ _ _ _
  · exact hparts (hite (marker_new nofun)) (hite (marker_new nofun)) (hite (marker_new nofun))
  · simp only [legacyNoRotatingKingRewardTransactions]
    split
    · exact nofun
    · exact hthree _ _ _ _ _ _

def BaseAccepted (rx : RewardEngine) (cfg : ChainConfig) (h : Header) (base : List BodyTx) : Prop :=
  (∀ tx ∈ base, Marker tx) ∧
    (lonelyKing cfg cfg.mainKingAddress = true ∧ base ≠ [] ∨ Mixed base (rewardCandidates rx cfg h))

theorem Mixed.mem (hm : Mixed base candidates) (htx : tx ∈ base) : ∃ c ∈ candidates, tx ∈ c := by
  obtain ⟨i, hi⟩ := mem_iff_getElem?.mp htx
  obtain ⟨hlt, _⟩ := List.getElem?_eq_some_iff.mp hi
  obtain ⟨c, hc, _, hci⟩ := hm.2 i hlt
  exact ⟨c, hc, mem_of_getElem? (hci ▸ hi)⟩

theorem Mixed.markers (hm : Mixed base (rewardCandidates rx cfg h)) : ∀ tx ∈ base, Marker tx := by
  intro tx htx
  obtain ⟨c, hc, hmem⟩ := hm.mem htx
  exact candidate_marker hc tx hmem

/-! ## Tails and their bases -/

theorem creditValue_direct (ht : tx.toAddr = some a)
    (hk : tx.data.getLast? ≠ some RewardKind.rotatingKing.byte) :
    creditValue rx tx = if a = 0 then 0 else tx.value := by
  simp only [creditValue, rewardCredit, ht, hk, false_and, if_false]
  by_cases ha : a = 0
  · rw [if_pos (Or.inr ha), if_pos ha]
    rfl
  · by_cases hv : tx.value = 0
    · rw [if_pos (Or.inl hv), if_neg ha, hv]
      rfl
    · rw [if_neg (not_or.mpr ⟨hv, ha⟩), if_neg ha]
      rfl

section
variable (n : UInt64) (a : Address) (x : Nat)

@[simp] theorem creditValue_main :
    creditValue rx (newBlockRewardTx n .mainKing a x) = if a = 0 then 0 else x :=
  creditValue_direct rfl (by rw [newBlockRewardTx, getLast_rewardData]; decide)

@[simp] theorem creditValue_miner :
    creditValue rx (newBlockRewardTx n .miner a x) = if a = 0 then 0 else x :=
  creditValue_direct rfl (by rw [newBlockRewardTx, getLast_rewardData]; decide)

@[simp] theorem creditValue_rotating :
    creditValue rx (newBlockRewardTx n .rotatingKing a x) = if a = 0 ∧ rx.mainKing = 0 then 0 else x := by
  have hrec : (if a = 0 ∧ rx.mainKing ≠ 0 then rx.mainKing else a) = 0 ↔ a = 0 ∧ rx.mainKing = 0 := by
    split
    · rename_i hr
      exact ⟨fun hm => absurd hm hr.2, fun hm => absurd hm.2 hr.2⟩
    · rename_i hr
      exact ⟨fun ha => ⟨ha, by_contra fun hm => hr ⟨ha, hm⟩⟩, fun ha => ha.1⟩
  simp only [creditValue, rewardCredit, newBlockRewardTx, getLast_rewardData, true_and]
  by_cases hz : a = 0 ∧ rx.mainKing = 0
  · rw [if_pos (Or.inr (hrec.mpr hz)), if_pos hz]
    rfl
  · rw [if_neg hz]
    by_cases hx : x = 0
    · rw [if_pos (Or.inl hx), hx]
      rfl
    · rw [if_neg (not_or.mpr ⟨hx, fun he => hz (hrec.mp he)⟩)]
      rfl

end

theorem sum_filterMap_credit : ∀ l : List BodyTx,
    ((l.filterMap (rewardCredit rx)).map Prod.snd).sum = (l.map (creditValue rx)).sum
  | [] => rfl
  | tx :: l => by
    rw [map_cons, sum_cons, ← sum_filterMap_credit l, filterMap_cons, creditValue]
    cases rewardCredit rx tx with
    | none => simp
    | some c => simp

section
variable (hf : ∀ tx ∈ front, isBlockRewardTx tx = false) (ht : tail ≠ [])
  (hall : ∀ tx ∈ tail, isBlockRewardTx tx = true)
include hf ht hall

theorem bodyRewardCredits_tail :
    bodyRewardCredits rx (front ++ tail) = some (tail.filterMap (rewardCredit rx)) := by
  have hdrop : (front ++ tail).dropWhile (fun tx => !isBlockRewardTx tx) = tail := by
    rw [dropWhile_append_of_pos (by simpa using hf)]
    cases tail with
    | nil => rfl
    | cons tx tail => rw [dropWhile_cons_of_neg (by simp [hall tx (by simp)])]
  have hgood : ¬ (tail = [] ∨ ¬ tail.all isBlockRewardTx = true) := by
    rw [not_or, not_not, all_eq_true]
    exact ⟨ht, hall⟩
  rw [bodyRewardCredits, hdrop]
  exact if_neg hgood

theorem bodyRewardTotal_tail :
    bodyRewardTotal rx (front ++ tail) = (tail.map (creditValue rx)).sum := by
  rw [bodyRewardTotal, bodyRewardCredits_tail hf ht hall]
  exact sum_filterMap_credit tail

end

theorem sum_filter_split (f : BodyTx → Nat) (p : BodyTx → Bool) (l : List BodyTx) :
    (l.map f).sum = ((l.filter fun tx => !p tx).map f).sum + ((l.filter p).map f).sum := by
  rw [← ((filter_append_perm p l).map f).sum_eq, map_append, sum_append, Nat.add_comm]

theorem isValidatorRewardTx_reward (hv : isValidatorRewardTx tx = true) : isBlockRewardTx tx = true := by
  rw [isValidatorRewardTx, Bool.and_eq_true] at hv
  exact hv.1

theorem selectValidator_ok_iff (sha256 : Bytes → Hash) (ha : activeValidatorRecords st h.number64.toNat = .ok active) :
    (∃ r, selectValidator sha256 st h.number64.toNat h.parentHash = .ok r) ↔ active ≠ [] := by
  unfold selectValidator
  rw [ha]
  cases active with
  | nil => exact ⟨fun ⟨_, hr⟩ => (nomatch hr), fun hn => absurd rfl hn⟩
  | cons r rs => exact ⟨fun _ => cons_ne_nil _ _, fun _ => ⟨_, rfl⟩⟩

def validatorCredit (sha256 : Bytes → Hash) (h : Header) (st : StateDB) : Nat :=
  match selectValidator sha256 st h.number64.toNat h.parentHash with
  | .ok r => if r.rewardAddress = 0 then 0 else (rewardSharesAt h.number64 blocksPerHalving).validator
  | .error _ => 0

theorem validateValidatorReward_ok (hv : isValidatorRewardTx tx = true) :
    validateValidatorRewardTransaction sha256 st h tx = .ok () ↔
      ∃ r, selectValidator sha256 st h.number64.toNat h.parentHash = .ok r ∧ tx.toAddr = some r.rewardAddress ∧
        tx.value = (rewardSharesAt h.number64 blocksPerHalving).validator := by
  simp only [validateValidatorRewardTransaction, ok_rules, hv, not_true, not_or, not_not]
  exact ⟨fun ⟨_, _, r, hr, ht⟩ => ⟨r, hr, ht⟩, fun ⟨r, hr, ht⟩ => ⟨(), not_false, r, hr, ht⟩⟩

theorem creditValue_validator (hv : isValidatorRewardTx tx = true)
    (hok : validateValidatorRewardTransaction sha256 st h tx = .ok ()) :
    creditValue rx tx = validatorCredit sha256 h st := by
  obtain ⟨r, hr, hto, hval⟩ := (validateValidatorReward_ok hv).mp hok
  have hk : tx.data.getLast? ≠ some RewardKind.rotatingKing.byte := by
    rw [isValidatorRewardTx, Bool.and_eq_true, decide_eq_true_eq] at hv
    rw [hv.2]
    decide
  rw [creditValue_direct hto hk, hval, validatorCredit, hr]

theorem processBlockRewardTxs_ok (sha256 : Bytes → Hash) (rx : RewardEngine) (gas : Nat)
    (ha : activeValidatorRecords st h.number64.toNat = .ok active) :
    (∃ r, processBlockRewardTxs sha256 rx cfg h txs gas st = .ok r) ↔
      (∀ tx ∈ txs.filter isValidatorRewardTx, validateValidatorRewardTransaction sha256 st h tx = .ok ()) ∧
      (txs.filter isValidatorRewardTx).length = (if active = [] then 0 else 1) ∧
      BaseAccepted rx cfg h (txs.filter fun tx => !isValidatorRewardTx tx) := by
  have hcount : (txs.filter isValidatorRewardTx).length = (if active = [] then 0 else 1) ↔
      ¬ (active ≠ [] ∧ (txs.filter isValidatorRewardTx).length ≠ 1) ∧
        ¬ (active = [] ∧ txs.filter isValidatorRewardTx ≠ []) := by
    by_cases he : active = []
    · simp [he]
    · simp [he]
  have hbase : BaseAccepted rx cfg h (txs.filter fun tx => !isValidatorRewardTx tx) ↔
      acceptNoRotatingKingRewardTail cfg (txs.filter fun tx => !isValidatorRewardTx tx) = true ∨
        Mixed (txs.filter fun tx => !isValidatorRewardTx tx) (rewardCandidates rx cfg h) := by
    constructor
    · rintro ⟨hmark, ⟨hk, hne⟩ | hm⟩
      · refine Or.inl ?_
        simp only [acceptNoRotatingKingRewardTail, hk, Bool.true_and, Bool.and_eq_true, decide_eq_true_eq]
        exact ⟨hne, all_eq_true.mpr fun tx htx => (hmark tx htx).1⟩
      · exact Or.inr hm
    · rintro (hacc | hm)
      · simp only [acceptNoRotatingKingRewardTail, Bool.and_eq_true, decide_eq_true_eq] at hacc
        obtain ⟨⟨hk, hne⟩, hall⟩ := hacc
        refine ⟨fun tx htx => ⟨all_eq_true.mp hall tx htx, ?_⟩, Or.inl ⟨hk, hne⟩⟩
        simpa using (mem_filter.mp htx).2
      · exact ⟨hm.markers, Or.inr hm⟩
  rw [hcount, hbase]
  simp only [processBlockRewardTxs, ha, except_bind_ok, checkAll_ok, failIf_ok]
  constructor
  · rintro ⟨r, _, hval, act, hact, _, h1, _, h2, hr⟩
    obtain rfl := Except.ok.inj hact
    refine ⟨hval, ⟨h1, h2⟩, ?_⟩
    split at hr
    · rename_i hacc
      exact Or.inl hacc
    · simp only [except_bind_ok, failIf_ok, not_not] at hr
      obtain ⟨e, he, _, hl, _⟩ := hr
      exact Or.inr (matchingRewardTransactions_ok.mp ⟨e, he, hl⟩)
  · rintro ⟨hval, ⟨h1, h2⟩, hacc⟩
    refine ⟨rewardTxReceipts txs gas, (), hval, active, rfl, (), h1, (), h2, ?_⟩
    split
    · rfl
    · rename_i hno
      obtain ⟨e, he, hl⟩ := matchingRewardTransactions_ok.mpr (hacc.resolve_left hno)
      simp only [except_bind_ok, failIf_ok, not_not]
      exact ⟨e, he, (), hl, rfl⟩

def validatorTail (sha256 : Bytes → Hash) (h : Header) (st : StateDB) : List BodyTx :=
  match selectValidator sha256 st h.number64.toNat h.parentHash with
  | .ok r => [newValidatorRewardTx h.number64 r.rewardAddress (rewardSharesAt h.number64 blocksPerHalving).validator]
  | .error _ => []

theorem validatorTail_spec (sha256 : Bytes → Hash) (ha : activeValidatorRecords st h.number64.toNat = .ok active) :
    (∀ tx ∈ validatorTail sha256 h st, isValidatorRewardTx tx = true ∧
      validateValidatorRewardTransaction sha256 st h tx = .ok ()) ∧
    (validatorTail sha256 h st).length = if active = [] then 0 else 1 := by
  have hsel := selectValidator_ok_iff sha256 ha
  unfold validatorTail
  cases hr : selectValidator sha256 st h.number64.toNat h.parentHash with
  | error e =>
    have hnil : active = [] := by
      by_contra hne
      obtain ⟨r, hok⟩ := hsel.mpr hne
      rw [hr] at hok
      cases hok
    exact ⟨nofun, by rw [if_pos hnil]; rfl⟩
  | ok r =>
    have hne : active ≠ [] := hsel.mp ⟨r, hr⟩
    refine ⟨fun tx htx => ?_, by rw [if_neg hne]; rfl⟩
    obtain rfl := mem_singleton.mp htx
    have hv := isValidatorRewardTx_validator h.number64 r.rewardAddress
      (rewardSharesAt h.number64 blocksPerHalving).validator
    exact ⟨hv, (validateValidatorReward_ok hv).mpr ⟨r, hr, rfl, rfl⟩⟩

theorem validator_sum {l : List BodyTx} {active : List ValidatorRecord}
    (ha : activeValidatorRecords st h.number64.toNat = .ok active)
    (hl : l.length = if active = [] then 0 else 1)
    (hv : ∀ tx ∈ l, isValidatorRewardTx tx = true ∧ validateValidatorRewardTransaction sha256 st h tx = .ok ()) :
    (l.map (creditValue rx)).sum = validatorCredit sha256 h st := by
  by_cases hnil : active = []
  · rw [if_pos hnil, length_eq_zero_iff] at hl
    rw [hl, validatorCredit]
    cases hr : selectValidator sha256 st h.number64.toNat h.parentHash with
    | error e => rfl
    | ok r => exact absurd hnil ((selectValidator_ok_iff sha256 ha).mp ⟨r, hr⟩)
  · rw [if_neg hnil, length_eq_one_iff] at hl
    obtain ⟨tx, rfl⟩ := hl
    obtain ⟨hval, hok⟩ := hv tx (by simp)
    rw [map_singleton, sum_singleton, creditValue_validator hval hok]

theorem tails_bounded_iff {active : List ValidatorRecord} {total : Nat}
    (ha : activeValidatorRecords st h.number64.toNat = .ok active) :
    (∀ front tail gas r, (∀ tx ∈ front, isBlockRewardTx tx = false) → tail ≠ [] →
      processBlockRewardTxs sha256 rx cfg h tail gas st = .ok r → bodyRewardTotal rx (front ++ tail) ≤ total) ↔
    ∀ base, BaseAccepted rx cfg h base → (base ≠ [] ∨ active ≠ []) →
      (base.map (creditValue rx)).sum + validatorCredit sha256 h st ≤ total := by
  obtain ⟨hvt, hvl⟩ := validatorTail_spec sha256 ha
  constructor
  · intro hall base hbase hne
    have hf1 : (base ++ validatorTail sha256 h st).filter isValidatorRewardTx = validatorTail sha256 h st := by
      rw [filter_append, filter_eq_nil_iff.mpr fun tx htx => by simp [(hbase.1 tx htx).2],
        filter_eq_self.mpr fun tx htx => (hvt tx htx).1, nil_append]
    have hf2 : (base ++ validatorTail sha256 h st).filter (fun tx => !isValidatorRewardTx tx) = base := by
      rw [filter_append, filter_eq_self.mpr fun tx htx => by simp [(hbase.1 tx htx).2],
        filter_eq_nil_iff.mpr fun tx htx => by simp [(hvt tx htx).1], append_nil]
    have hnil : base ++ validatorTail sha256 h st ≠ [] := by
      intro hnil
      obtain ⟨hb, ht⟩ := append_eq_nil_iff.mp hnil
      rw [ht] at hvl
      rcases hne with hne | hne
      · exact hne hb
      · rw [if_neg hne] at hvl
        cases hvl
    obtain ⟨r, hr⟩ := (processBlockRewardTxs_ok sha256 rx 0 ha).mpr
      ⟨by rw [hf1]; exact fun tx htx => (hvt tx htx).2, by rw [hf1, hvl], by rw [hf2]; exact hbase⟩
    have hfront : ∀ tx ∈ ([] : List BodyTx), isBlockRewardTx tx = false := nofun
    have hle := hall [] _ 0 r hfront hnil hr
    rw [bodyRewardTotal_tail hfront hnil] at hle
    · rwa [map_append, sum_append, validator_sum ha hvl hvt] at hle
    · intro tx htx
      rcases mem_append.mp htx with htx | htx
      · exact (hbase.1 tx htx).1
      · exact isValidatorRewardTx_reward (hvt tx htx).1
  · intro hall front tail gas r hfront hne hr
    obtain ⟨hval, hlen, hbase⟩ := (processBlockRewardTxs_ok sha256 rx gas ha).mp ⟨r, hr⟩
    have hv : ∀ tx ∈ tail.filter isValidatorRewardTx, isValidatorRewardTx tx = true ∧
        validateValidatorRewardTransaction sha256 st h tx = .ok () :=
      fun tx htx => ⟨(mem_filter.mp htx).2, hval tx htx⟩
    rw [bodyRewardTotal_tail hfront hne, sum_filter_split _ isValidatorRewardTx, validator_sum ha hlen hv]
    · apply hall _ hbase
      by_contra hboth
      rw [not_or, not_not, not_not] at hboth
      rw [if_pos hboth.2, length_eq_zero_iff] at hlen
      refine hne (eq_nil_iff_forall_not_mem.mpr fun tx htx => ?_)
      cases hk : isValidatorRewardTx tx with
      | true =>
        have hm : tx ∈ tail.filter isValidatorRewardTx := mem_filter.mpr ⟨htx, hk⟩
        rw [hlen] at hm
        cases hm
      | false =>
        have hm : tx ∈ tail.filter fun tx => !isValidatorRewardTx tx := mem_filter.mpr ⟨htx, by simp [hk]⟩
        rw [hboth.1] at hm
        cases hm
    · intro tx htx
      cases hk : isValidatorRewardTx tx with
      | true => exact isValidatorRewardTx_reward hk
      | false => exact (hbase.1 tx (mem_filter.mpr ⟨htx, by simp [hk]⟩)).1

/-! ## The candidates before the schedule ends -/

theorem splitReward_unit (u : Nat) : splitReward (200 * u) = ⟨20 * u, 80 * u, 100 * u⟩ := by
  have h1 : 200 * u * 10 / 100 = 20 * u := by omega
  have h2 : 200 * u * 40 / 100 = 80 * u := by omega
  have h3 : 200 * u * 50 / 100 = 100 * u := by omega
  have h4 : 100 * u + (200 * u - (20 * u + 80 * u + 100 * u)) = 100 * u := by omega
  rw [splitReward, h1, h2, h3, h4]

structure Paying (h : Header) (u : Nat) : Prop where
  pos : 0 < u
  coinbase : h.coinbase ≠ 0
  reward : calculateBlockReward h.number64 = 200 * u
  shares : rewardSharesAt h.number64 blocksPerHalving = ⟨90 * u, 70 * u, 35 * u, 5 * u⟩

def minerTx (h : Header) (x : Nat) : BodyTx := newBlockRewardTx h.number64 .miner h.coinbase x

namespace Paying

theorem total (p : Paying h u) : calculateTotalReward (calculateBlockReward h.number64) none = 200 * u := by
  rw [p.reward]
  rfl

theorem legacy (p : Paying h u) :
    rx.legacyRewardTransactions h = [rx.mainKingTx h (20 * u), rx.rotatingKingTx h (80 * u), minerTx h (100 * u)] := by
  rw [RewardEngine.legacyRewardTransactions, p.total, splitReward_unit]
  rfl

section
variable (p : Paying h u) (ha : rx.antarticalActive h = false)
include p ha

theorem markerShares :
    rx.rewardMarkerShares h (200 * u) = if rx.mainKingAt h = 0 then ⟨0, 0, 200 * u⟩ else ⟨20 * u, 80 * u, 100 * u⟩ := by
  have hpos := p.pos
  have hsum : 100 * u + 20 * u + 80 * u = 200 * u := by omega
  simp only [RewardEngine.rewardMarkerShares, ha, splitReward_unit, hsum]
  rw [if_neg (by omega), if_neg (by decide)]

theorem fallbackShares :
    rx.rewardShares h (200 * u) =
      if rx.mainKingAt h = 0 then
        if rx.getRotatingKing h.number64 = 0 then ⟨0, 0, 200 * u⟩ else ⟨0, 80 * u, 120 * u⟩
      else if rx.getRotatingKing h.number64 = 0 then ⟨100 * u, 0, 100 * u⟩ else ⟨20 * u, 80 * u, 100 * u⟩ := by
  have hpos := p.pos
  have h1 : 100 * u + 20 * u = 120 * u := by omega
  have h2 : 120 * u + 80 * u = 200 * u := by omega
  have h3 : 20 * u + 80 * u = 100 * u := by omega
  simp only [RewardEngine.rewardShares, ha, splitReward_unit]
  rw [if_neg (by omega), if_neg (by decide)]
  by_cases hm : rx.mainKingAt h = 0
  · by_cases hk : rx.getRotatingKing h.number64 = 0
    · simp only [hm, hk, if_true, ne_eq, not_true, if_false, h1, h2]
    · simp only [hm, hk, if_true, if_false, h1]
  · by_cases hk : rx.getRotatingKing h.number64 = 0
    · simp only [hm, hk, if_true, ne_eq, not_false_eq_true, if_false, h3]
    · simp only [hm, hk, if_false]

theorem canonical (hm : rx.mainKingAt h ≠ 0) :
    rx.rewardTransactions h = [rx.mainKingTx h (20 * u), rx.rotatingKingTx h (80 * u), minerTx h (100 * u)] := by
  have hpos := p.pos
  simp only [RewardEngine.rewardTransactions, p.total, p.markerShares ha, if_neg hm]
  rw [if_pos ⟨by omega, hm⟩, if_pos (by omega), if_pos ⟨by omega, p.coinbase⟩]
  rfl

theorem canonical_noMain (hm : rx.mainKingAt h = 0) : rx.rewardTransactions h = [minerTx h (200 * u)] := by
  have hpos := p.pos
  simp only [RewardEngine.rewardTransactions, p.total, p.markerShares ha, if_pos hm]
  rw [if_neg (by omega), if_neg (by omega), if_pos ⟨by omega, p.coinbase⟩]
  rfl

theorem fallback (hm : rx.mainKingAt h ≠ 0) (hk : rx.getRotatingKing h.number64 ≠ 0) :
    rx.fallbackRewardTransactions h =
      [rx.mainKingTx h (20 * u), rx.rotatingKingTx h (80 * u), minerTx h (100 * u)] := by
  have hpos := p.pos
  simp only [RewardEngine.fallbackRewardTransactions, p.total, p.fallbackShares ha, if_neg hm, if_neg hk]
  rw [if_pos ⟨by omega, hm⟩, if_pos (Or.inl ⟨by omega, hk⟩), if_pos ⟨by omega, p.coinbase⟩]
  rfl

theorem fallback_noRotating (hm : rx.mainKingAt h ≠ 0) (hk : rx.getRotatingKing h.number64 = 0) :
    rx.fallbackRewardTransactions h = [rx.mainKingTx h (100 * u), rx.rotatingKingTx h 0, minerTx h (100 * u)] := by
  have hpos := p.pos
  simp only [RewardEngine.fallbackRewardTransactions, p.total, p.fallbackShares ha, if_neg hm, if_pos hk]
  rw [if_pos ⟨by omega, hm⟩, if_pos (Or.inr ⟨hk, by omega, hm⟩), if_pos ⟨by omega, p.coinbase⟩]
  rfl

theorem fallback_noMain (hm : rx.mainKingAt h = 0) :
    rx.fallbackRewardTransactions h =
      if rx.getRotatingKing h.number64 = 0 then [minerTx h (200 * u)]
      else [rx.rotatingKingTx h (80 * u), minerTx h (120 * u)] := by
  have hpos := p.pos
  by_cases hk : rx.getRotatingKing h.number64 = 0
  · simp only [RewardEngine.fallbackRewardTransactions, p.total, p.fallbackShares ha, if_pos hm, if_pos hk]
    rw [if_neg (by omega), if_neg (by omega), if_pos ⟨by omega, p.coinbase⟩]
    rfl
  · simp only [RewardEngine.fallbackRewardTransactions, p.total, p.fallbackShares ha, if_pos hm, if_neg hk]
    rw [if_neg (by omega), if_pos (Or.inl ⟨by omega, hk⟩), if_pos ⟨by omega, p.coinbase⟩]
    rfl

end

theorem antartical (p : Paying h u) (ha : rx.antarticalActive h = true) :
    rx.rewardTransactions h =
      (if rx.mainKingAt h = 0 then [] else [rx.mainKingTx h (5 * u)]) ++
      (if rx.getRotatingKing h.number64 = 0 then [] else [rx.rotatingKingTx h (35 * u)]) ++
      [minerTx h (90 * u + (if rx.mainKingAt h = 0 then 5 * u else 0) +
        (if rx.getRotatingKing h.number64 = 0 then 35 * u else 0))] := by
  have hpos := p.pos
  have hne : 200 * u ≠ 0 := by omega
  simp only [RewardEngine.rewardTransactions, RewardEngine.rewardMarkerShares, p.total, ha, if_neg hne, if_true,
    RewardEngine.antarticalSplit, p.shares]
  congr 1
  · congr 1
    · by_cases hm : rx.mainKingAt h = 0
      · simp only [if_pos hm, Nat.lt_irrefl, false_and, if_false]
      · simp only [if_neg hm]
        rw [if_pos ⟨by omega, hm⟩]
    · by_cases hk : rx.getRotatingKing h.number64 = 0
      · simp only [if_pos hk, Nat.lt_irrefl, if_false]
      · simp only [if_neg hk]
        rw [if_pos (by omega)]
  · have hmain : 5 * u - (if rx.mainKingAt h = 0 then 0 else 5 * u) = if rx.mainKingAt h = 0 then 5 * u else 0 := by
      split <;> omega
    have hrot : 35 * u - (if rx.getRotatingKing h.number64 = 0 then 0 else 35 * u) =
        if rx.getRotatingKing h.number64 = 0 then 35 * u else 0 := by
      split <;> omega
    rw [if_pos ⟨by omega, p.coinbase⟩, hmain, hrot]
    rfl

theorem noRotating (p : Paying h u) (hl : lonelyKing cfg (cfg.mainKingAddressAt h.number h.time.toNat) = true) :
    legacyNoRotatingKingRewardTransactions cfg h =
      [newBlockRewardTx h.number64 .mainKing (cfg.mainKingAddressAt h.number h.time.toNat) (20 * u),
       newBlockRewardTx h.number64 .rotatingKing 0 (80 * u), minerTx h (100 * u)] := by
  have hpos := p.pos
  have h1 : 200 * u * 10 / 100 = 20 * u := by omega
  have h2 : 200 * u * 40 / 100 = 80 * u := by omega
  have h3 : 200 * u - (20 * u + 80 * u) = 100 * u := by omega
  simp only [legacyNoRotatingKingRewardTransactions, legacyRandomXBlockReward_eq, p.reward, h1, h2, h3]
  rw [if_neg (not_or.mpr ⟨not_not.mpr hl, by omega⟩)]
  rfl

theorem candidates (p : Paying h u) (hc : c ∈ rewardCandidates rx cfg h) : c = rx.rewardTransactions h ∨
    (rx.antarticalActive h = false ∧
      (c = [rx.mainKingTx h (20 * u), rx.rotatingKingTx h (80 * u), minerTx h (100 * u)] ∨
        c = rx.fallbackRewardTransactions h)) ∨
    (lonelyKing cfg (cfg.mainKingAddressAt h.number h.time.toNat) = true ∧
      c = [newBlockRewardTx h.number64 .mainKing (cfg.mainKingAddressAt h.number h.time.toNat) (20 * u),
        newBlockRewardTx h.number64 .rotatingKing 0 (80 * u), minerTx h (100 * u)]) := by
  rcases mem_rewardCandidates.mp hc with hc | ⟨ha, hc⟩ | ⟨hc, hne⟩
  · exact .inl hc
  · exact .inr (.inl ⟨ha, p.legacy ▸ hc.imp_right And.left⟩)
  · have hl : lonelyKing cfg (cfg.mainKingAddressAt h.number h.time.toNat) = true :=
      by_contra fun hno => hne (if_pos (.inl hno))
    exact .inr (.inr ⟨hl, hc.trans (p.noRotating hl)⟩)

end Paying

/-! ## The bound -/

theorem Mixed.three {a c a₂ a₃ b₁ b₃ c₁ c₂ : BodyTx}
    (h₁ : [a, b₁, c₁] ∈ candidates) (h₂ : [a₂, b, c₂] ∈ candidates) (h₃ : [a₃, b₃, c] ∈ candidates) :
    Mixed [a, b, c] candidates := by
  refine ⟨⟨_, h₁, rfl⟩, fun i hi => ?_⟩
  match i, hi with
  | 0, _ => exact ⟨_, h₁, rfl, rfl⟩
  | 1, _ => exact ⟨_, h₂, rfl, rfl⟩
  | 2, _ => exact ⟨_, h₃, rfl, rfl⟩

theorem credit_mainKingTx (x : Nat) : creditValue rx (rx.mainKingTx h x) = if rx.mainKingAt h = 0 then 0 else x :=
  creditValue_main _ _ _

theorem credit_rotatingKingTx (x : Nat) :
    creditValue rx (rx.rotatingKingTx h x) =
      if rx.getRotatingKing h.number64 = 0 ∧ rx.mainKing = 0 then 0 else x :=
  creditValue_rotating _ _ _

theorem Paying.credit_miner (p : Paying h u) (x : Nat) : creditValue rx (minerTx h x) = x := by
  rw [minerTx, creditValue_miner, if_neg p.coinbase]

def PaysValidator (sha256 : Bytes → Hash) (h : Header) (st : StateDB) : Prop :=
  ∃ r, selectValidator sha256 st h.number64.toNat h.parentHash = .ok r ∧ r.rewardAddress ≠ 0 ∧
    h.number64.toNat / blocksPerHalving < 66

theorem validatorCredit_pays (hp : PaysValidator sha256 h st) :
    validatorCredit sha256 h st = (rewardSharesAt h.number64 blocksPerHalving).validator := by
  obtain ⟨r, hr, hne, _⟩ := hp
  rw [validatorCredit, hr]
  exact if_neg hne

theorem validatorCredit_zero (hp : ¬ PaysValidator sha256 h st) : validatorCredit sha256 h st = 0 := by
  unfold validatorCredit
  cases hr : selectValidator sha256 st h.number64.toNat h.parentHash with
  | error e => rfl
  | ok r =>
    by_cases hz : r.rewardAddress = 0
    · exact if_pos hz
    · have hend : ¬ h.number64.toNat / blocksPerHalving < 66 := fun hlt => hp ⟨r, hr, hz, hlt⟩
      rw [← validatorShare_pos] at hend
      show (if r.rewardAddress = 0 then 0 else _) = 0
      rw [if_neg hz]
      omega

theorem PaysValidator.active {active : List ValidatorRecord} (hp : PaysValidator sha256 h st)
    (ha : activeValidatorRecords st h.number64.toNat = .ok active) : active ≠ [] := by
  obtain ⟨r, hr, _⟩ := hp
  exact (selectValidator_ok_iff sha256 ha).mp ⟨r, hr⟩

/-- No accepted tail credits more than the block reward: the chain config does not wave tails through, a paid
validator meets the fork's shares alone, and before the fork the main king does not collect twice. -/
structure RewardsBounded (sha256 : Bytes → Hash) (rx : RewardEngine) (cfg : ChainConfig) (h : Header) (st : StateDB) :
    Prop where
  checked : lonelyKing cfg cfg.mainKingAddress = false
  paid : PaysValidator sha256 h st → h.number64.toNat / blocksPerHalving < 8 ∧ rx.antarticalActive h = true
  alone : PaysValidator sha256 h st → lonelyKing cfg (cfg.mainKingAddressAt h.number h.time.toNat) = true →
    rx.mainKing = 0 ∧ (rx.mainKingAt h = 0 ∨ rx.getRotatingKing h.number64 = 0)
  once : h.number64.toNat / blocksPerHalving < 8 → rx.antarticalActive h = false → rx.mainKing ≠ 0 →
    rx.getRotatingKing h.number64 ≠ 0

theorem paying_of_lt (hc : h.coinbase ≠ 0) (hk : h.number64.toNat / blocksPerHalving < 8) : ∃ u, Paying h u := by
  obtain ⟨u, hpos, hr, hs⟩ := schedule_unit hk
  exact ⟨u, hpos, hc, hr, hs⟩

theorem ended_candidates (hk : 8 ≤ h.number64.toNat / blocksPerHalving)
    (hc : c ∈ rewardCandidates rx cfg h) : ∀ tx ∈ c, tx.value = 0 := by
  have hr := calculateBlockReward_end hk
  have hl : legacyRandomXBlockReward h.number64 = 0 := by rw [legacyRandomXBlockReward_eq, hr]
  have ht : calculateTotalReward (calculateBlockReward h.number64) none = 0 := by rw [hr]; rfl
  rw [mem_rewardCandidates] at hc
  rcases hc with rfl | ⟨_, rfl | ⟨rfl, _⟩⟩ | ⟨rfl, _⟩
  · simp [RewardEngine.rewardTransactions, RewardEngine.rewardMarkerShares, ht]
  · intro tx htx
    simp only [RewardEngine.legacyRewardTransactions, ht, mem_cons, not_mem_nil, or_false] at htx
    rcases htx with rfl | rfl | rfl <;> rfl
  · simp [RewardEngine.fallbackRewardTransactions, RewardEngine.rewardShares, ht]
  · simp [legacyNoRotatingKingRewardTransactions, hl]

theorem creditValue_le (tx : BodyTx) : creditValue rx tx ≤ tx.value := by
  unfold creditValue
  cases hc : rewardCredit rx tx with
  | none => exact Nat.zero_le _
  | some c =>
    unfold rewardCredit at hc
    split at hc
    · cases hc
    · rw [Option.ite_none_left_eq_some] at hc
      exact Nat.le_of_eq (congrArg Prod.snd (Option.some.inj hc.2)).symm

theorem ended_sum (hk : 8 ≤ h.number64.toNat / blocksPerHalving)
    (hm : Mixed base (rewardCandidates rx cfg h)) : (base.map (creditValue rx)).sum = 0 := by
  rw [List.sum_eq_zero_iff_forall_eq_nat]
  intro x hx
  obtain ⟨tx, htx, rfl⟩ := mem_map.mp hx
  obtain ⟨c, hc, hmem⟩ := hm.mem htx
  exact Nat.le_zero.mp (ended_candidates hk hc tx hmem ▸ creditValue_le tx)

theorem credit_le {n : UInt64} {kind : RewardKind} {a : Address} {x y : Nat} (hxy : x ≤ y) :
    creditValue rx (newBlockRewardTx n kind a x) ≤ y :=
  Nat.le_trans (creditValue_le _) hxy

def Within (rx : RewardEngine) (total : Nat) (c : List BodyTx) (b : List Nat) : Prop :=
  List.Forall₂ (fun tx y => creditValue rx tx ≤ y) c b ∧ b.sum ≤ total

theorem within_one {total x : Nat} {a : BodyTx} (ha : creditValue rx a ≤ x) (ht : x ≤ total) :
    Within rx total [a] [x] :=
  ⟨.cons ha .nil, by simpa using ht⟩

theorem within_two {total x y : Nat} {a : BodyTx} (ha : creditValue rx a ≤ x) (hb : creditValue rx b ≤ y)
    (ht : x + y ≤ total) : Within rx total [a, b] [x, y] :=
  ⟨.cons ha (.cons hb .nil), by simpa using ht⟩

theorem within_three {total x y z : Nat} {a c : BodyTx} (ha : creditValue rx a ≤ x) (hb : creditValue rx b ≤ y)
    (hc : creditValue rx c ≤ z) (ht : x + (y + z) ≤ total) : Within rx total [a, b, c] [x, y, z] :=
  ⟨.cons ha (.cons hb (.cons hc .nil)), by simpa using ht⟩

theorem Paying.sum_le_legacy (p : Paying h u) (ha : rx.antarticalActive h = false)
    (honce : rx.mainKing ≠ 0 → rx.getRotatingKing h.number64 ≠ 0)
    (hm : Mixed base (rewardCandidates rx cfg h)) : (base.map (creditValue rx)).sum ≤ 200 * u := by
  have hplain : ∀ a b c : BodyTx, a.value = 20 * u → b.value = 80 * u → c.value = 100 * u →
      Within rx (200 * u) [a, b, c] [20 * u, 80 * u, 100 * u] := fun a b c hx hy hz =>
    within_three (hx ▸ creditValue_le a) (hy ▸ creditValue_le b) (hz ▸ creditValue_le c) (by omega)
  by_cases hM : rx.mainKingAt h = 0
  · -- one, two or three markers; the bounds depend on the length alone
    refine hm.sum_le (fun | 1 => [200 * u] | 2 => [80 * u, 120 * u] | _ => [20 * u, 80 * u, 100 * u]) fun c hc => ?_
    rcases p.candidates hc with rfl | ⟨_, rfl | rfl⟩ | ⟨_, rfl⟩
    · rw [p.canonical_noMain ha hM]
      exact within_one (creditValue_le _) (Nat.le_refl _)
    · exact hplain _ _ _ rfl rfl rfl
    · rw [p.fallback_noMain ha hM]
      split
      · exact within_one (creditValue_le _) (Nat.le_refl _)
      · exact within_two (creditValue_le _) (creditValue_le _) (by show 80 * u + 120 * u ≤ _; omega)
    · exact hplain _ _ _ rfl rfl rfl
  · by_cases hK : rx.getRotatingKing h.number64 = 0
    · -- without a main king of the engine the second marker pays nobody
      have hmk : rx.mainKing = 0 := by_contra fun hne => honce hne hK
      have hz : ∀ x, creditValue rx (rx.rotatingKingTx h x) ≤ 0 := fun x => by
        rw [credit_rotatingKingTx, if_pos ⟨hK, hmk⟩]
      refine hm.sum_le (fun _ => [100 * u, 0, 100 * u]) fun c hc => ?_
      rcases p.candidates hc with rfl | ⟨_, rfl | rfl⟩ | ⟨_, rfl⟩
      · rw [p.canonical ha hM]
        exact within_three (credit_le (by omega)) (hz _) (creditValue_le _) (by omega)
      · exact within_three (credit_le (by omega)) (hz _) (creditValue_le _) (by omega)
      · rw [p.fallback_noRotating ha hM hK]
        exact within_three (creditValue_le _) (hz _) (creditValue_le _) (by omega)
      · refine within_three (credit_le (by omega)) ?_ (creditValue_le _) (by omega)
        rw [creditValue_rotating, if_pos ⟨rfl, hmk⟩]
    · refine hm.sum_le (fun _ => [20 * u, 80 * u, 100 * u]) fun c hc => ?_
      rcases p.candidates hc with rfl | ⟨_, rfl | rfl⟩ | ⟨_, rfl⟩
      · exact p.canonical ha hM ▸ hplain _ _ _ rfl rfl rfl
      · exact hplain _ _ _ rfl rfl rfl
      · exact p.fallback ha hM hK ▸ hplain _ _ _ rfl rfl rfl
      · exact hplain _ _ _ rfl rfl rfl

def antarticalAmounts (rx : RewardEngine) (h : Header) (u : Nat) : List Nat :=
  (if rx.mainKingAt h = 0 then [] else [5 * u]) ++
  (if rx.getRotatingKing h.number64 = 0 then [] else [35 * u]) ++
  [90 * u + (if rx.mainKingAt h = 0 then 5 * u else 0) + (if rx.getRotatingKing h.number64 = 0 then 35 * u else 0)]

theorem Paying.within_antartical (p : Paying h u) (ha : rx.antarticalActive h = true) :
    Within rx (130 * u) (rx.rewardTransactions h) (antarticalAmounts rx h u) := by
  rw [p.antartical ha, antarticalAmounts]
  by_cases hM : rx.mainKingAt h = 0
  · by_cases hK : rx.getRotatingKing h.number64 = 0
    · simp only [if_pos hM, if_pos hK]
      exact within_one (creditValue_le _) (by omega)
    · simp only [if_pos hM, if_neg hK]
      exact within_two (creditValue_le _) (creditValue_le _) (by omega)
  · by_cases hK : rx.getRotatingKing h.number64 = 0
    · simp only [if_neg hM, if_pos hK]
      exact within_two (creditValue_le _) (creditValue_le _) (by omega)
    · simp only [if_neg hM, if_neg hK]
      exact within_three (creditValue_le _) (creditValue_le _) (creditValue_le _) (by omega)

theorem Paying.sum_le_antartical (p : Paying h u) (ha : rx.antarticalActive h = true)
    (hm : Mixed base (rewardCandidates rx cfg h)) : (base.map (creditValue rx)).sum ≤ 200 * u := by
  refine hm.sum_le (fun | 1 => [130 * u] | 2 => [35 * u, 125 * u] | _ => [20 * u, 80 * u, 100 * u]) fun c hc => ?_
  rcases p.candidates hc with rfl | ⟨hno, _⟩ | ⟨_, rfl⟩
  · rw [p.antartical ha]
    by_cases hM : rx.mainKingAt h = 0
    · by_cases hK : rx.getRotatingKing h.number64 = 0
      · simp only [if_pos hM, if_pos hK]
        exact within_one (credit_le (by omega)) (by omega)
      · simp only [if_pos hM, if_neg hK]
        exact within_two (credit_le (by omega)) (credit_le (by omega)) (by omega)
    · by_cases hK : rx.getRotatingKing h.number64 = 0
      · simp only [if_neg hM, if_pos hK]
        exact within_two (credit_le (by omega)) (credit_le (by omega)) (by omega)
      · simp only [if_neg hM, if_neg hK]
        exact within_three (credit_le (by omega)) (credit_le (by omega)) (credit_le (by omega)) (by omega)
  · exact nomatch ha.symm.trans hno
  · exact within_three (credit_le (Nat.le_refl _)) (credit_le (Nat.le_refl _)) (credit_le (Nat.le_refl _)) (by omega)

theorem Paying.sum_le_paid (p : Paying h u) (ha : rx.antarticalActive h = true)
    (halone : lonelyKing cfg (cfg.mainKingAddressAt h.number h.time.toNat) = true →
      rx.mainKing = 0 ∧ (rx.mainKingAt h = 0 ∨ rx.getRotatingKing h.number64 = 0))
    (hm : Mixed base (rewardCandidates rx cfg h)) : (base.map (creditValue rx)).sum ≤ 130 * u := by
  have hlen : (rx.rewardTransactions h).length = (antarticalAmounts rx h u).length :=
    (p.within_antartical ha).1.length_eq
  by_cases hl : lonelyKing cfg (cfg.mainKingAddressAt h.number h.time.toNat) = true
  · obtain ⟨hmk, hking⟩ := halone hl
    have hshort : (antarticalAmounts rx h u).length ≠ 3 := by
      unfold antarticalAmounts
      rcases hking with hM | hK
      · by_cases hK : rx.getRotatingKing h.number64 = 0
        · simp only [if_pos hM, if_pos hK]; simp
        · simp only [if_pos hM, if_neg hK]; simp
      · by_cases hM : rx.mainKingAt h = 0
        · simp only [if_pos hM, if_pos hK]; simp
        · simp only [if_neg hM, if_pos hK]; simp
    refine hm.sum_le (fun n => if n = 3 then [20 * u, 0, 100 * u] else antarticalAmounts rx h u) fun c hc => ?_
    rcases p.candidates hc with rfl | ⟨hno, _⟩ | ⟨_, rfl⟩
    · simp only [if_neg (hlen ▸ hshort)]
      exact p.within_antartical ha
    · exact nomatch ha.symm.trans hno
    · refine within_three (creditValue_le _) ?_ (creditValue_le _) (by show 20 * u + (0 + 100 * u) ≤ _; omega)
      rw [creditValue_rotating, if_pos ⟨rfl, hmk⟩]
  · refine hm.sum_le (fun _ => antarticalAmounts rx h u) fun c hc => ?_
    rcases p.candidates hc with rfl | ⟨hno, _⟩ | ⟨hlonely, _⟩
    · exact p.within_antartical ha
    · exact nomatch ha.symm.trans hno
    · exact absurd hlonely hl

theorem RewardsBounded.base_le (hc : h.coinbase ≠ 0) (hb : RewardsBounded sha256 rx cfg h st)
    (hbase : BaseAccepted rx cfg h base) :
    (base.map (creditValue rx)).sum + validatorCredit sha256 h st ≤ calculateBlockReward h.number64 := by
  have hm : Mixed base (rewardCandidates rx cfg h) := by
    rcases hbase.2 with ⟨hl, _⟩ | hm
    · rw [hb.checked] at hl
      cases hl
    · exact hm
  by_cases hk : h.number64.toNat / blocksPerHalving < 8
  · obtain ⟨u, p⟩ := paying_of_lt hc hk
    rw [p.reward]
    by_cases hp : PaysValidator sha256 h st
    · have hle := p.sum_le_paid (hb.paid hp).2 (hb.alone hp) hm
      rw [validatorCredit_pays hp, p.shares]
      show _ + 70 * u ≤ _
      omega
    · rw [validatorCredit_zero hp, Nat.add_zero]
      cases ha : rx.antarticalActive h with
      | true => exact p.sum_le_antartical ha hm
      | false => exact p.sum_le_legacy ha (hb.once hk ha) hm
  · have hp : ¬ PaysValidator sha256 h st := fun hp => hk (hb.paid hp).1
    rw [validatorCredit_zero hp, ended_sum (Nat.le_of_not_lt hk) hm]
    exact Nat.zero_le _

theorem canonical_mem : rx.rewardTransactions h ∈ rewardCandidates rx cfg h := mem_rewardCandidates.mpr (Or.inl rfl)

theorem fallback_mem (ha : rx.antarticalActive h = false) (hne : rx.fallbackRewardTransactions h ≠ []) :
    rx.fallbackRewardTransactions h ∈ rewardCandidates rx cfg h :=
  mem_rewardCandidates.mpr (Or.inr (Or.inl ⟨ha, Or.inr ⟨rfl, hne⟩⟩))

theorem noRotating_mem (hne : legacyNoRotatingKingRewardTransactions cfg h ≠ []) :
    legacyNoRotatingKingRewardTransactions cfg h ∈ rewardCandidates rx cfg h :=
  mem_rewardCandidates.mpr (Or.inr (Or.inr ⟨rfl, hne⟩))

theorem BaseAccepted.of_mixed (hm : Mixed base (rewardCandidates rx cfg h)) : BaseAccepted rx cfg h base :=
  ⟨hm.markers, Or.inr hm⟩

theorem mainKingAt_ne (hmk : rx.mainKing ≠ 0) : rx.mainKingAt h ≠ 0 := by
  unfold RewardEngine.mainKingAt
  split
  · rename_i hpq
    exact hpq.1
  · exact hmk

theorem Paying.full_candidate (p : Paying h u) (cfg : ChainConfig) (ha : rx.antarticalActive h = false) :
    ∃ c ∈ rewardCandidates rx cfg h, c ≠ [] ∧ (c.map (creditValue rx)).sum = 200 * u := by
  by_cases hM : rx.mainKingAt h = 0
  · refine ⟨_, canonical_mem, ?_⟩
    rw [p.canonical_noMain ha hM]
    exact ⟨cons_ne_nil _ _, by simp [p.credit_miner]⟩
  · by_cases hK : rx.getRotatingKing h.number64 = 0
    · have hf := p.fallback_noRotating ha hM hK
      refine ⟨_, fallback_mem ha (by rw [hf]; exact cons_ne_nil _ _), ?_⟩
      rw [hf]
      refine ⟨cons_ne_nil _ _, ?_⟩
      simp only [map_cons, map_nil, sum_cons, sum_nil, credit_mainKingTx, if_neg hM,
        credit_rotatingKingTx, p.credit_miner, ite_self]
      omega
    · refine ⟨_, canonical_mem, ?_⟩
      rw [p.canonical ha hM]
      refine ⟨cons_ne_nil _ _, ?_⟩
      simp only [map_cons, map_nil, sum_cons, sum_nil, credit_mainKingTx, if_neg hM,
        credit_rotatingKingTx, p.credit_miner, hK, false_and, if_false]
      omega

theorem rewardsBounded_of_bases (hc : h.coinbase ≠ 0)
    (hact : activeValidatorRecords st h.number64.toNat = .ok active)
    (hall : ∀ base, BaseAccepted rx cfg h base → (base ≠ [] ∨ active ≠ []) →
      (base.map (creditValue rx)).sum + validatorCredit sha256 h st ≤ calculateBlockReward h.number64) :
    RewardsBounded sha256 rx cfg h st := by
  have hended : PaysValidator sha256 h st → h.number64.toNat / blocksPerHalving < 8 := by
    intro hp
    by_contra hge
    -- the validator alone is paid after the schedule has ended
    have hr := calculateBlockReward_end (Nat.le_of_not_lt hge)
    have hcan : rx.rewardTransactions h = [] := by
      simp [RewardEngine.rewardTransactions, RewardEngine.rewardMarkerShares, calculateTotalReward, hr]
    have hle := hall [] (.of_mixed (.self (hcan ▸ canonical_mem))) (Or.inr (hp.active hact))
    rw [validatorCredit_pays hp, hr, map_nil, sum_nil, Nat.zero_add] at hle
    obtain ⟨_, _, _, hlt⟩ := hp
    have := (validatorShare_pos h.number64).mpr hlt
    omega
  have hpays : ∀ {u}, Paying h u → PaysValidator sha256 h st → ∀ c, BaseAccepted rx cfg h c → c ≠ [] →
      (c.map (creditValue rx)).sum ≤ 130 * u := by
    intro u p hp c hacc hne
    have hle := hall c hacc (Or.inl hne)
    rw [validatorCredit_pays hp, p.shares, p.reward] at hle
    change _ + 70 * u ≤ _ at hle
    omega
  have hactive : PaysValidator sha256 h st → rx.antarticalActive h = true := by
    intro hp
    by_contra ha
    obtain ⟨u, p⟩ := paying_of_lt hc (hended hp)
    obtain ⟨c, hmem, hne, hsum⟩ := p.full_candidate cfg (by simpa using ha)
    have hle := hpays p hp c (.of_mixed (.self hmem)) hne
    have := p.pos
    omega
  refine ⟨?_, fun hp => ⟨hended hp, hactive hp⟩, fun hp hl => ?_, fun hk ha hmk hK => ?_⟩
  · by_contra hl
    have hbig := hall [newBlockRewardTx h.number64 .miner h.coinbase (calculateBlockReward h.number64 + 1)]
      ⟨fun tx htx => mem_singleton.mp htx ▸ marker_new nofun,
        Or.inl ⟨by simpa using hl, cons_ne_nil _ _⟩⟩ (Or.inl (cons_ne_nil _ _))
    simp only [map_cons, map_nil, sum_cons, sum_nil, creditValue_miner, if_neg hc] at hbig
    omega
  · obtain ⟨u, p⟩ := paying_of_lt hc (hended hp)
    have hpos := p.pos
    have hno := p.noRotating hl
    have hmem : legacyNoRotatingKingRewardTransactions cfg h ∈ rewardCandidates rx cfg h :=
      noRotating_mem (by rw [hno]; exact cons_ne_nil _ _)
    have hking : cfg.mainKingAddressAt h.number h.time.toNat ≠ 0 := by
      simp only [lonelyKing, decide_eq_true_eq] at hl
      exact hl.2.1
    constructor
    · by_contra hmk
      have hle := hpays p hp _ (.of_mixed (.self hmem)) (by rw [hno]; exact cons_ne_nil _ _)
      rw [hno] at hle
      simp only [map_cons, map_nil, sum_cons, sum_nil, creditValue_main, if_neg hking,
        creditValue_rotating, hmk, and_false, if_false, p.credit_miner] at hle
      omega
    · by_contra hboth
      rw [not_or] at hboth
      obtain ⟨hM, hK⟩ := hboth
      -- the main king's and the miner's marker of the old schedule, the rotating king's of the new
      have hcan := p.antartical (hactive hp)
      rw [if_neg hM, if_neg hK, if_neg hM, if_neg hK] at hcan
      rw [hno] at hmem
      have hmix : Mixed [newBlockRewardTx h.number64 .mainKing (cfg.mainKingAddressAt h.number h.time.toNat) (20 * u),
          rx.rotatingKingTx h (35 * u), minerTx h (100 * u)] (rewardCandidates rx cfg h) :=
        Mixed.three hmem (hcan ▸ canonical_mem) hmem
      have hle := hpays p hp _ (.of_mixed hmix) (cons_ne_nil _ _)
      simp only [map_cons, map_nil, sum_cons, sum_nil, creditValue_main, if_neg hking,
        credit_rotatingKingTx, hK, false_and, if_false, p.credit_miner] at hle
      omega
  · obtain ⟨u, p⟩ := paying_of_lt hc hk
    have hpos := p.pos
    have hM : rx.mainKingAt h ≠ 0 := mainKingAt_ne hmk
    -- the rotating king's share once in the main king's marker and once in its own
    have hcan := p.canonical ha hM
    have hfall := p.fallback_noRotating ha hM hK
    have hmem : rx.fallbackRewardTransactions h ∈ rewardCandidates rx cfg h :=
      fallback_mem ha (by rw [hfall]; exact cons_ne_nil _ _)
    have hmix : Mixed [rx.mainKingTx h (100 * u), rx.rotatingKingTx h (80 * u), minerTx h (100 * u)]
        (rewardCandidates rx cfg h) :=
      Mixed.three (hfall ▸ hmem) (hcan ▸ canonical_mem) (hcan ▸ canonical_mem)
    have hle := hall _ (.of_mixed hmix) (Or.inl (cons_ne_nil _ _))
    rw [p.reward] at hle
    simp only [map_cons, map_nil, sum_cons, sum_nil, credit_mainKingTx, if_neg hM,
      credit_rotatingKingTx, hmk, and_false, if_false, p.credit_miner] at hle
    omega

theorem processBlockRewardTxs_readable (hr : processBlockRewardTxs sha256 rx cfg h txs gas st = .ok r) :
    ∃ active, activeValidatorRecords st h.number64.toNat = .ok active := by
  simp only [processBlockRewardTxs, ok_rules] at hr
  obtain ⟨_, _, active, ha, _⟩ := hr
  exact ⟨active, ha⟩

/-- No accepted reward tail credits more than the block reward exactly when the validator registry cannot be read or
the schedules do not meet. -/
theorem reward_tails_bounded_iff (sha256 : Bytes → Hash) (rx : RewardEngine) (cfg : ChainConfig) (h : Header)
    (st : StateDB) (hc : h.coinbase ≠ 0) :
    (∀ front tail gas r, (∀ tx ∈ front, isBlockRewardTx tx = false) → tail ≠ [] →
      processBlockRewardTxs sha256 rx cfg h tail gas st = .ok r →
      bodyRewardTotal rx (front ++ tail) ≤ calculateBlockReward h.number64) ↔
    (∃ e, activeValidatorRecords st h.number64.toNat = .error e) ∨ RewardsBounded sha256 rx cfg h st := by
  cases hact : activeValidatorRecords st h.number64.toNat with
  | error e =>
    refine ⟨fun _ => Or.inl ⟨e, rfl⟩, fun _ front tail gas r _ _ hr => ?_⟩
    obtain ⟨active, ha⟩ := processBlockRewardTxs_readable hr
    rw [hact] at ha
    cases ha
  | ok active =>
    rw [tails_bounded_iff hact]
    constructor
    · intro hall
      exact Or.inr (rewardsBounded_of_bases hc hact hall)
    · rintro (⟨e, he⟩ | hb) base hbase _
      · cases he
      · exact hb.base_le hc hbase

def kingConfig (rotating : List Address) : ChainConfig :=
  { chainID := some mainnetChainID, mainKingAddress := 5, rotatingKingAddresses := rotating }

def kingEngine (rotating : List Address) : RewardEngine := { mainKing := 5, rotatingKings := rotating }

def rewardedHeader : Header where
  parentHash := 0
  coinbase := 9
  difficulty := minDifficulty
  number := 1
  time := 120
  fits := Header.fits_min

def blankState : StateDB where
  balance := fun _ => 0
  nonce := fun _ => 0
  codeSize := fun _ => 0
  storage := fun _ => 0
  poolOverdrawn := false

def inflatedTail : List BodyTx := [newBlockRewardTx 1 .miner 9 (1000 * ether)]

theorem blankState_active (height : Nat) : activeValidatorRecords blankState height = .ok [] := by
  have h : validatorRecords blankState = .ok [] := rfl
  rw [activeValidatorRecords, h]
  simp [bind, Except.bind, pure, Except.pure]

theorem rewards_bounded_withKing :
    (kingEngine [6]).getRotatingKing 1 = 6 ∧
    ∀ front tail gas r, (∀ tx ∈ front, isBlockRewardTx tx = false) → tail ≠ [] →
      processBlockRewardTxs (fun _ => 0) (kingEngine [6]) (kingConfig [6]) rewardedHeader tail gas blankState = .ok r →
      bodyRewardTotal (kingEngine [6]) (front ++ tail) ≤ calculateBlockReward rewardedHeader.number64 := by
  have hking : (kingEngine [6]).getRotatingKing 1 = 6 := rfl
  have hpays : ¬ PaysValidator (fun _ => 0) rewardedHeader blankState := fun hp =>
    hp.active (blankState_active _) rfl
  refine ⟨hking, (reward_tails_bounded_iff (fun _ => 0) (kingEngine [6]) (kingConfig [6]) rewardedHeader blankState
    (by decide)).mpr (Or.inr ⟨by decide, fun hp => absurd hp hpays, fun hp => absurd hp hpays, fun _ _ _ => ?_⟩)⟩
  show (kingEngine [6]).getRotatingKing 1 ≠ 0
  rw [hking]
  decide

/-- With a main king and no rotating kings in the config a miner writes its own reward. -/
theorem inflated_tail_accepted :
    processBlockRewardTxs (fun _ => 0) (kingEngine []) (kingConfig []) rewardedHeader inflatedTail 0 blankState =
      .ok (rewardTxReceipts inflatedTail 0) ∧
    bodyRewardTotal (kingEngine []) inflatedTail = 1000 * ether ∧ calculateBlockReward 1 = 200 * ether := by
  refine ⟨?_, ?_, ?_⟩
  · rw [processBlockRewardTxs, blankState_active]
    rfl
  · rfl
  · rfl
end TkmChain
