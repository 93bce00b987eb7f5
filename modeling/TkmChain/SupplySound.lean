import TkmChain.Issuance
import TkmChain.SupplyRuns
import TkmChain.SealingSound
import TkmChain.RewardsSound

/-!
# Reported and issued supply

Block by block, the supply index counts the markers of three kinds, or the whole
reward of a block without markers. That is what the block credits except where a
marker of another kind is paid, one of the three kinds pays nobody, or a block
without markers is finalised with less than its reward.
-/

namespace TkmChain

open List

variable {total reward : Nat} {king : Address}

/-! ## What a block reports -/

def listedMarker (tx : BodyTx) : Bool :=
  tx.data.getLast? = some RewardKind.mainKing.byte || tx.data.getLast? = some RewardKind.rotatingKing.byte ||
    tx.data.getLast? = some RewardKind.miner.byte

theorem addMarker_total (mainKing : Address) (d : SupplyDelta) (tx : BodyTx) :
    (d.addMarker mainKing tx).total = d.total + if listedMarker tx then tx.value else 0 := by
  unfold SupplyDelta.addMarker
  by_cases hv : tx.value = 0
  · simp [hv]
  rw [if_neg hv]
  by_cases h0 : tx.data.getLast? = some RewardKind.mainKing.byte
  · have hl : listedMarker tx = true := by simp [listedMarker, h0]
    rw [if_pos h0, if_pos hl]
    simp only [SupplyDelta.total]
    omega
  by_cases h1 : tx.data.getLast? = some RewardKind.rotatingKing.byte
  · have hl : listedMarker tx = true := by simp [listedMarker, h1]
    rw [if_neg h0, if_pos h1, if_pos hl]
    split
    · simp only [SupplyDelta.total]
      omega
    · simp only [SupplyDelta.total]
      omega
  by_cases h2 : tx.data.getLast? = some RewardKind.miner.byte
  · have hl : listedMarker tx = true := by simp [listedMarker, h2]
    rw [if_neg h0, if_neg h1, if_pos h2, if_pos hl]
    simp only [SupplyDelta.total]
    omega
  · have hl : listedMarker tx = false := by simp [listedMarker, h0, h1, h2]
    rw [if_neg h0, if_neg h1, if_neg h2, hl]
    rfl

theorem foldl_addMarker_total (mainKing : Address) : ∀ (l : List BodyTx) (d : SupplyDelta),
    (l.foldl (SupplyDelta.addMarker mainKing) d).total = d.total + ((l.filter listedMarker).map BodyTx.value).sum
  | [], d => rfl
  | tx :: l, d => by
    rw [foldl_cons, foldl_addMarker_total mainKing l, addMarker_total, filter_cons]
    split
    · simp only [map_cons, sum_cons]
      omega
    · rfl

def reportedTotal (b : RewardBlock) : Nat :=
  if BlockContext.hasMarkers b then ((b.transactions.filter isBlockRewardTx).filter listedMarker |>.map BodyTx.value).sum
  else calculateBlockReward b.header.number64

theorem filter_markers_eq_nil :
    b.transactions.filter isBlockRewardTx = [] ↔ BlockContext.hasMarkers b = false := by
  simp [BlockContext.hasMarkers, filter_eq_nil_iff]

theorem implicitRewardDelta_total (kings : SupplyKings) (b : RewardBlock) (reward : Nat) :
    (kings.implicitRewardDelta b reward).total = reward := by
  have hle : reward * 10 / 100 + reward * 40 / 100 ≤ reward := by omega
  unfold SupplyKings.implicitRewardDelta
  split
  · simp only [SupplyDelta.total]
    omega
  · split
    · simp only [SupplyDelta.total]
      omega
    · simp only [SupplyDelta.total]
      omega

theorem blockRewardDelta_total (kings : SupplyKings) (hn : b.header.number64 ≠ 0)
    (hc : b.header.coinbase ≠ 0) : (kings.blockRewardDelta b).total = reportedTotal b := by
  unfold SupplyKings.blockRewardDelta SupplyKings.markerRewardDelta reportedTotal
  rw [if_neg hn]
  cases hm : BlockContext.hasMarkers b with
  | false =>
    simp only [filter_markers_eq_nil.mpr hm, if_true, hc, false_or, Bool.false_eq_true, if_false]
    split
    · rename_i hz
      rw [hz]
      rfl
    · exact implicitRewardDelta_total kings b _
  | true =>
    have hne : b.transactions.filter isBlockRewardTx ≠ [] := fun h => by
      rw [filter_markers_eq_nil, hm] at h
      cases h
    simp only [if_neg hne, if_true, foldl_addMarker_total]
    exact Nat.zero_add _

/-! ## What a block issues -/

section
variable {rx : RewardEngine} {h : Header} {u : Nat}

theorem sum_credit {a : Address} {v : Nat} {P : Prop} [Decidable P] (hP : P ↔ 0 < v ∧ a ≠ 0) :
    ((if P then [(a, v)] else []).map Prod.snd).sum = if a = 0 then 0 else v := by
  by_cases ha : a = 0
  · rw [if_pos ha, if_neg fun h => (hP.mp h).2 ha]
    rfl
  · rw [if_neg ha]
    by_cases hv : 0 < v
    · rw [if_pos (hP.mpr ⟨hv, ha⟩)]
      rfl
    · rw [if_neg fun h => hv (hP.mp h).1, Nat.eq_zero_of_not_pos hv]
      rfl

theorem sum_credits {m k c : Address} {x y z : Nat} (hm : m = 0 → x = 0) (hk : k = 0 → y = 0) (hc : c ≠ 0) :
    (((if 0 < x ∧ m ≠ 0 then [(m, x)] else []) ++ (if 0 < y ∧ k ≠ 0 then [(k, y)] else []) ++
      (if 0 < z ∧ c ≠ 0 then [(c, z)] else [])).map Prod.snd).sum = x + y + z := by
  have hpaid : ∀ {a : Address} {v : Nat}, (a = 0 → v = 0) → (if a = 0 then 0 else v) = v := by
    intro a v hv
    split
    · exact (hv ‹_›).symm
    · rfl
  rw [map_append, map_append, sum_append, sum_append, sum_credit Iff.rfl, sum_credit Iff.rfl,
    sum_credit Iff.rfl, hpaid hm, hpaid hk, if_neg hc]

structure PaidShares (rx : RewardEngine) (h : Header) (s : RewardSplit) (total : Nat) : Prop where
  mainKing : rx.mainKingAt h = 0 → s.mainKing = 0
  rotating : rx.getRotatingKing h.number64 = 0 → s.rotating = 0
  total : s.mainKing + s.rotating + s.miner = total

theorem Paying.legacyShares (p : Paying h u) (ha : rx.antarticalActive h = false) :
    PaidShares rx h (rx.rewardShares h (200 * u)) (200 * u) := by
  have hsum : ∀ x y z : Nat, x + y + z = 200 * u → (RewardSplit.mk x y z).mainKing + (RewardSplit.mk x y z).rotating +
      (RewardSplit.mk x y z).miner = 200 * u := fun _ _ _ h => h
  rw [p.fallbackShares ha]
  by_cases hm : rx.mainKingAt h = 0
  · by_cases hk : rx.getRotatingKing h.number64 = 0
    · simp only [hm, hk, if_true]
      exact ⟨fun _ => rfl, fun _ => rfl, hsum _ _ _ (by omega)⟩
    · simp only [hm, hk, if_true, if_false]
      exact ⟨fun _ => rfl, fun h => absurd h hk, hsum _ _ _ (by omega)⟩
  · by_cases hk : rx.getRotatingKing h.number64 = 0
    · simp only [hm, hk, if_true, if_false]
      exact ⟨fun h => absurd h hm, fun _ => rfl, hsum _ _ _ (by omega)⟩
    · simp only [hm, hk, if_false]
      exact ⟨fun h => absurd h hm, fun h => absurd h hk, hsum _ _ _ (by omega)⟩

theorem Paying.antarticalShares (p : Paying h u) (ha : rx.antarticalActive h = true) :
    PaidShares rx h (rx.rewardShares h (200 * u)) (130 * u) := by
  have hne : 200 * u ≠ 0 := by
    have := p.pos
    omega
  have hs : rx.rewardShares h (200 * u) = rx.antarticalSplit h := by
    simp only [RewardEngine.rewardShares, ha, if_neg hne, if_true]
  rw [hs]
  simp only [RewardEngine.antarticalSplit, p.shares]
  refine ⟨fun hm => if_pos hm, fun hk => if_pos hk, ?_⟩
  dsimp only
  by_cases hm : rx.mainKingAt h = 0
  · by_cases hk : rx.getRotatingKing h.number64 = 0
    · rw [if_pos hm, if_pos hk]
      omega
    · rw [if_pos hm, if_neg hk]
      omega
  · by_cases hk : rx.getRotatingKing h.number64 = 0
    · rw [if_neg hm, if_pos hk]
      omega
    · rw [if_neg hm, if_neg hk]
      omega

section
variable {s : RewardSplit} (hs : PaidShares rx h s total) (hc : h.coinbase ≠ 0) (heq : rx.rewardShares h reward = s)
include hs hc heq

theorem PaidShares.implicit : ((rx.implicitCredits h reward).map Prod.snd).sum = total := by
  rw [← hs.total, RewardEngine.implicitCredits, heq]
  exact sum_credits hs.mainKing hs.rotating hc

theorem PaidShares.implicitFor (hk : king ≠ 0) :
    ((rx.implicitCreditsFor h reward king).map Prod.snd).sum = total := by
  rw [← hs.total, RewardEngine.implicitCreditsFor, heq, if_neg hk]
  exact sum_credits hs.mainKing (fun h => absurd h hk) hc

end

theorem kyotoCredits_sum (hc : h.coinbase ≠ 0) (reward : Nat) :
    ((rx.kyotoCredits h reward).map Prod.snd).sum =
      (if rx.mainKingAt h = 0 then 0 else reward * 50 / 100) + (reward - reward * 50 / 100) := by
  unfold RewardEngine.kyotoCredits
  by_cases hz : reward = 0
  · subst hz
    simp
  · rw [if_neg hz, map_append, sum_append, sum_credit And.comm, sum_credit And.comm, if_neg hc]

end

/-! ## Blocks with markers -/

namespace BlockContext

variable {c : BlockContext} {b : RewardBlock}

theorem front_markers (b : RewardBlock) :
    ∀ tx ∈ b.transactions.takeWhile fun tx => !isBlockRewardTx tx, isBlockRewardTx tx = false := by
  intro tx htx
  simpa using mem_takeWhile_imp htx

theorem rewardTail_ne_nil (hm : hasMarkers b = true) : rewardTail b ≠ [] := by
  intro hnil
  obtain ⟨tx, htx, hreward⟩ := any_eq_true.mp hm
  have hall := dropWhile_eq_nil_iff.mp hnil tx htx
  rw [hreward] at hall
  cases hall

theorem Accepts.tail_markers (ha : c.Accepts b) (hm : hasMarkers b = true) :
    ∀ tx ∈ rewardTail b, isBlockRewardTx tx = true := by
  obtain ⟨gas, receipts, hok⟩ := ha.tail (rewardTail_ne_nil hm)
  obtain ⟨active, hactive⟩ := processBlockRewardTxs_readable hok
  obtain ⟨-, -, hbase⟩ := (processBlockRewardTxs_ok c.sha256 c.rx gas hactive).mp ⟨receipts, hok⟩
  intro tx htx
  by_cases hv : isValidatorRewardTx tx = true
  · exact isValidatorRewardTx_reward hv
  · exact (hbase.1 tx (mem_filter.mpr ⟨htx, by simpa using hv⟩)).1

theorem front_append_tail (b : RewardBlock) :
    (b.transactions.takeWhile fun tx => !isBlockRewardTx tx) ++ rewardTail b = b.transactions :=
  takeWhile_append_dropWhile

section
variable (ha : c.Accepts b) (hm : hasMarkers b = true)
include ha hm

theorem Accepts.markers :
    b.transactions.filter isBlockRewardTx = rewardTail b := by
  have hfront : (b.transactions.takeWhile fun tx => !isBlockRewardTx tx).filter isBlockRewardTx = [] :=
    filter_eq_nil_iff.mpr fun tx htx => by simp [front_markers b tx htx]
  have hall : (rewardTail b).filter isBlockRewardTx = rewardTail b := filter_eq_self.mpr (ha.tail_markers hm)
  calc b.transactions.filter isBlockRewardTx
      = ((b.transactions.takeWhile fun tx => !isBlockRewardTx tx) ++ rewardTail b).filter isBlockRewardTx := by
        rw [front_append_tail]
    _ = rewardTail b := by rw [filter_append, hfront, nil_append, hall]

theorem Accepts.body :
    bodyRewardCredits c.rx b.transactions = some ((rewardTail b).filterMap (rewardCredit c.rx)) := by
  rw [← bodyRewardCredits_tail (front_markers b) (rewardTail_ne_nil hm) (ha.tail_markers hm), front_append_tail]

theorem Accepts.mode_body : (c.finalization b).mode = .body := by
  simp [finalization, finalizeRewards, hm, ha.body hm]

theorem Accepts.issued_body :
    c.issued b = ((rewardTail b).map (creditValue c.rx)).sum := by
  rw [issued, ha.mode_body hm, RewardEngine.modeCredits, ha.body hm]
  exact sum_filterMap_credit _

end

/-! ## Blocks without markers -/

def Unmarked : RewardMode → Prop
  | .body => False
  | .implicitFor king => king ≠ 0
  | _ => True

theorem historical_ne (h : king ∈ historicalRotatingKingAddresses) : king ≠ 0 := by
  simp only [historicalRotatingKingAddresses, mem_cons, not_mem_nil, or_false] at h
  rcases h with rfl | rfl | rfl | rfl | rfl | rfl | rfl | rfl | rfl | rfl | rfl | rfl | rfl
  all_goals simp

theorem kyotoFinalizations_unmarked (hf : f ∈ kyotoFinalizations king) : Unmarked f.mode := by
  rw [kyotoFinalizations, mem_append] at hf
  rcases hf with hf | hf
  · simp only [mem_cons, not_mem_nil, or_false] at hf
    rcases hf with rfl | rfl | rfl | rfl | rfl
    all_goals exact trivial
  · obtain ⟨k, hk, hf⟩ := mem_flatMap.mp hf
    simp only [mem_cons, not_mem_nil, or_false] at hf
    rcases hf with rfl | rfl | rfl
    · exact trivial
    · exact trivial
    · exact historical_ne hk

theorem bodyRewardCredits_none (rx : RewardEngine) (hm : hasMarkers b = false) :
    bodyRewardCredits rx b.transactions = none := by
  have hnil : (b.transactions.dropWhile fun tx => !isBlockRewardTx tx) = [] :=
    dropWhile_eq_nil_iff.mpr fun tx htx => by
      have := any_eq_false.mp hm tx htx
      simpa using this
  rw [bodyRewardCredits, hnil]
  rfl

theorem finalizeRewards_unmarked (hm : hasMarkers b = false) : Unmarked (c.finalizeRewards b).mode := by
  simp only [finalizeRewards, bodyRewardCredits_none c.rx hm, Option.isSome_none, Bool.false_eq_true, if_false]
  split
  · exact trivial
  · exact trivial

theorem mode_unmarked (hm : hasMarkers b = false) : Unmarked (c.finalization b).mode := by
  unfold finalization
  split
  · cases hfind : (kyotoFinalizations (c.rx.getRotatingKing b.header.number64)).find? fun f =>
        c.stateAfter b f = b.header.root with
    | none => exact finalizeRewards_unmarked hm
    | some f => exact kyotoFinalizations_unmarked (mem_of_find?_eq_some hfind)
  · exact finalizeRewards_unmarked hm

/-- The block credits what the index counts: markers of the three kinds that pay nobody make up for paid markers of
other kinds, or a block without markers is finalised with its whole reward. -/
def Counted (c : BlockContext) (b : RewardBlock) : Prop :=
  let reward := calculateBlockReward b.header.number64
  match (c.finalization b).mode with
  | .body =>
    (((rewardTail b).filter fun tx => !listedMarker tx && (rewardCredit c.rx tx).isSome).map BodyTx.value).sum =
      (((rewardTail b).filter fun tx => listedMarker tx && (rewardCredit c.rx tx).isNone).map BodyTx.value).sum
  | .kyoto => reward = 0 ∨ c.rx.mainKingAt b.header ≠ 0
  | .none => reward = 0
  | .implicit => reward = 0 ∨ c.rx.antarticalActive b.header = false
  | .implicitFor _ => reward = 0 ∨ c.rx.antarticalActive b.header = false

theorem sum_filter_and (f : BodyTx → Nat) (p q : BodyTx → Bool) (l : List BodyTx) :
    ((l.filter p).map f).sum =
      ((l.filter fun tx => p tx && !q tx).map f).sum + ((l.filter fun tx => p tx && q tx).map f).sum := by
  rw [sum_filter_split f q (l.filter p), filter_filter, filter_filter]
  simp only [Bool.and_comm]

theorem creditValue_paid (rx : RewardEngine) (tx : BodyTx) :
    creditValue rx tx = if (rewardCredit rx tx).isSome then tx.value else 0 := by
  unfold creditValue
  cases hc : rewardCredit rx tx with
  | none => rfl
  | some p =>
    have hvalue : p.2 = tx.value := by
      unfold rewardCredit at hc
      cases ht : tx.toAddr with
      | none => simp [ht] at hc
      | some a =>
        simp only [ht, Option.ite_none_left_eq_some, Option.some.injEq] at hc
        rw [← hc.2]
    exact hvalue

theorem sum_creditValue (rx : RewardEngine) : ∀ l : List BodyTx,
    (l.map (creditValue rx)).sum = ((l.filter fun tx => (rewardCredit rx tx).isSome).map BodyTx.value).sum
  | [] => rfl
  | tx :: l => by
    rw [map_cons, sum_cons, sum_creditValue rx l, creditValue_paid, filter_cons]
    split
    · rw [map_cons, sum_cons]
    · exact Nat.zero_add _

theorem Accepts.counted_body (ha : c.Accepts b) (hm : hasMarkers b = true) :
    reportedTotal b = c.issued b ↔ c.Counted b := by
  have hlisted := sum_filter_and BodyTx.value listedMarker (fun tx => (rewardCredit c.rx tx).isSome) (rewardTail b)
  have hpaid := sum_filter_and BodyTx.value (fun tx => (rewardCredit c.rx tx).isSome) listedMarker (rewardTail b)
  simp only [Bool.and_comm (Option.isSome _)] at hpaid
  unfold Counted
  rw [reportedTotal, if_pos hm, ha.markers hm, ha.issued_body hm, sum_creditValue, ha.mode_body hm]
  simp only [← Option.not_isSome]
  omega

theorem Paying.counted (p : Paying b.header u) (hm : hasMarkers b = false) :
    200 * u = c.issued b ↔ c.Counted b := by
  have hpos := p.pos
  have hunmarked := mode_unmarked (c := c) hm
  have hne : 200 * u ≠ 0 := by omega
  unfold Counted issued
  cases hmode : (c.finalization b).mode with
  | body =>
    rw [hmode] at hunmarked
    exact hunmarked.elim
  | kyoto =>
    simp only [RewardEngine.modeCredits, p.reward, kyotoCredits_sum p.coinbase, hne, false_or]
    by_cases hking : c.rx.mainKingAt b.header = 0
    · simp only [hking, if_true, not_true_eq_false, ne_eq, iff_false]
      omega
    · simp only [hking, if_false, not_false_eq_true, ne_eq, iff_true]
      omega
  | none =>
    simp only [RewardEngine.modeCredits, p.reward, map_nil, sum_nil]
  | implicit =>
    simp only [RewardEngine.modeCredits, p.reward, if_pos (Nat.pos_of_ne_zero hne), hne, false_or]
    cases hant : c.rx.antarticalActive b.header with
    | false => simp only [(p.legacyShares hant).implicit p.coinbase rfl]
    | true =>
      rw [(p.antarticalShares hant).implicit p.coinbase rfl]
      simp only [Bool.true_eq_false, iff_false]
      omega
  | implicitFor king =>
    rw [hmode] at hunmarked
    simp only [RewardEngine.modeCredits, p.reward, hne, false_or]
    cases hant : c.rx.antarticalActive b.header with
    | false => simp only [(p.legacyShares hant).implicitFor p.coinbase rfl hunmarked]
    | true =>
      rw [(p.antarticalShares hant).implicitFor p.coinbase rfl hunmarked]
      simp only [Bool.true_eq_false, iff_false]
      omega

theorem counted_ended (hm : hasMarkers b = false) (hc : b.header.coinbase ≠ 0)
    (hz : calculateBlockReward b.header.number64 = 0) : 0 = c.issued b ↔ c.Counted b := by
  have hunmarked := mode_unmarked (c := c) hm
  have hshares : PaidShares c.rx b.header ⟨0, 0, 0⟩ 0 := ⟨fun _ => rfl, fun _ => rfl, rfl⟩
  unfold Counted issued
  cases hmode : (c.finalization b).mode with
  | body =>
    rw [hmode] at hunmarked
    exact hunmarked.elim
  | kyoto => simp only [RewardEngine.modeCredits, hz, kyotoCredits_sum hc, Nat.zero_mul, Nat.zero_div, ite_self, true_or]
  | none => simp only [RewardEngine.modeCredits, hz, map_nil, sum_nil]
  | implicit => simp only [RewardEngine.modeCredits, hz, Nat.lt_irrefl, if_false, map_nil, sum_nil, true_or]
  | implicitFor king =>
    rw [hmode] at hunmarked
    simp only [RewardEngine.modeCredits, hz, hshares.implicitFor hc (rfl : c.rx.rewardShares b.header 0 = _) hunmarked,
      true_or]

theorem Accepts.counted_iff (ha : c.Accepts b) (hc : b.header.coinbase ≠ 0) :
    reportedTotal b = c.issued b ↔ c.Counted b := by
  cases hm : hasMarkers b with
  | true => exact ha.counted_body hm
  | false =>
    have hreport : reportedTotal b = calculateBlockReward b.header.number64 := by
      rw [reportedTotal, hm]
      rfl
    rw [hreport]
    by_cases hk : b.header.number64.toNat / blocksPerHalving < 8
    · obtain ⟨u, p⟩ := paying_of_lt hc hk
      rw [p.reward]
      exact Paying.counted p hm
    · have hz := calculateBlockReward_end (Nat.le_of_not_lt hk)
      rw [hz]
      exact counted_ended hm hc hz

end BlockContext

/-! ## Chains -/

structure Rewarded (c : BlockContext) (b : Branch RewardBlock) : Prop where
  accepts : c.Accepts b.content
  coinbase : b.content.header.coinbase ≠ 0
  number : b.content.header.number64.toNat = b.number

theorem Rewarded.number_ne (h : Rewarded c (.child p x)) : x.header.number64 ≠ 0 := by
  intro hz
  have hn := h.number
  rw [show (Branch.child p x).content.header.number64 = 0 from hz] at hn
  cases hn

structure Tallied (t : Branch RewardBlock) (e : SupplyEntry) : Prop where
  block : t.ancestor e.blockNumber = some e.block
  total : e.totalIssued = (e.block.blocks.map fun b => reportedTotal b.content).sum
  parts : e.totalIssued = e.mainKingRewards + e.rotatingKingRewards + e.minerRewards

section
variable {t block : Branch RewardBlock} {ctx : Branch RewardBlock → BlockContext} {e : SupplyEntry}

theorem tallied_genesis (genesisSupply : Nat) (h : t.ancestor 0 = some block) :
    Tallied t (.genesis genesisSupply block) := by
  obtain ⟨b, rfl⟩ := Branch.ancestor_zero h
  exact ⟨h, rfl, rfl⟩

theorem Tallied.extend (he : Tallied t e) (hchain : ∀ b ∈ t.blocks, Rewarded (ctx b) b)
    (hblock : t.ancestor (e.blockNumber + 1) = some block) (kings : SupplyKings) :
    Tallied t (e.extend (e.blockNumber + 1) block (kings.blockRewardDelta block.content)) := by
  obtain ⟨x, rfl⟩ := Branch.ancestor_succ he.block hblock
  have hrewarded := hchain _ (Branch.mem_blocks hblock)
  have hdelta := blockRewardDelta_total kings hrewarded.number_ne hrewarded.coinbase
  rw [SupplyDelta.total] at hdelta
  have htotal := he.total
  have hparts := he.parts
  refine ⟨hblock, ?_, ?_⟩
  · simp only [SupplyEntry.extend, Branch.blocks, map_append, sum_append, map_singleton,
      sum_singleton]
    rw [← htotal, show (Branch.child e.block x).content = x from rfl, ← hdelta]
    omega
  · simp only [SupplyEntry.extend]
    omega

end

namespace SupplyService

variable {t : Branch RewardBlock} {ctx : Branch RewardBlock → BlockContext}

def Still (events : List SupplyEvent) : Prop := ∀ chain, SupplyEvent.reorg chain ∉ events

theorem run_tallied (genesisSupply : Nat) (hchain : ∀ b ∈ t.blocks, Rewarded (ctx b) b) (events : List SupplyEvent)
    (hstill : Still events) :
    (run genesisSupply t events).chain = t ∧ Keeps (Tallied t) (run genesisSupply t events) := by
  induction events using List.reverseRecOn with
  | nil => exact ⟨rfl, keeps_init _ _ _⟩
  | append_singleton events e ih =>
    obtain ⟨hc, hk⟩ := ih fun chain hmem => hstill chain (mem_append_left _ hmem)
    rw [run_concat]
    refine ⟨?_, hk.step (fun block hb => tallied_genesis _ (hc ▸ hb)) e ?_⟩
    · cases e with
      | reorg chain => exact absurd (mem_append_right _ (mem_singleton_self _)) (hstill chain)
      | atBlock target => exact (atBlock_unmoved target).chain.trans hc
      | read kings => exact (read_unmoved kings).chain.trans hc
    · intro kings target current number block _ hcall _ hblock hcurrent
      obtain ⟨-, rfl⟩ := hk.call _ hcall
      exact hcurrent.extend hchain (hc ▸ hblock) kings

/-! ### A call on a fresh database -/

theorem writeEntry_entries (svc : SupplyService) (e : SupplyEntry) :
    (svc.writeEntry e).entries e.blockNumber = some e := Function.update_self ..

def Reached (t : Branch RewardBlock) (n k : Nat) (svc : SupplyService) : Prop :=
  svc.chain = t ∧ ∃ e, svc.call = some (.index n e (k + 1)) ∧ svc.entries k = some e ∧ t.ancestor k = some e.block

theorem reached_zero (genesisSupply : Nat) (t : Branch RewardBlock) (kings : SupplyKings) (hn : n ≠ 0)
    (hle : n ≤ t.number) : Reached t n 0 (((init genesisSupply t).atBlock n).read kings) := by
  obtain ⟨g, hg⟩ := Branch.ancestor_isSome (Nat.zero_le t.number)
  have hcall : (init genesisSupply t).atBlock n = { init genesisSupply t with call := some (.restart n) } := by
    have hnot : ¬ (init genesisSupply t).chain.number < n := Nat.not_lt.mpr hle
    simp only [atBlock, init, readLatest, Option.bind_none, hn, if_false] at hnot ⊢
    rw [if_neg hnot]
  have hread : ((init genesisSupply t).atBlock n).read kings =
      { (init genesisSupply t).writeEntry (.genesis genesisSupply g) with
        call := some (.index n (.genesis genesisSupply g) 1) } := by
    rw [hcall]
    simp only [read, genesisEntry, init, hg, startFrom, SupplyEntry.genesis, writeEntry, Nat.not_lt_zero, if_false]
  rw [hread]
  exact ⟨rfl, _, rfl, writeEntry_entries (init genesisSupply t) (.genesis genesisSupply g), hg⟩

theorem Reached.read (h : Reached t n k svc) (hk : k < n) (hn : n ≤ t.number) (kings : SupplyKings) :
    Reached t n (k + 1) (svc.read kings) := by
  obtain ⟨hchain, e, hcall, -, -⟩ := h
  obtain ⟨block, hblock⟩ := Branch.ancestor_isSome (Nat.le_trans hk hn)
  have hread : svc.read kings =
      { svc.writeEntry (e.extend (k + 1) block (kings.blockRewardDelta block.content)) with
        call := some (.index n (e.extend (k + 1) block (kings.blockRewardDelta block.content)) (k + 2)) } := by
    simp only [SupplyService.read, hcall, hchain, hblock, if_neg (Nat.not_lt.mpr hk)]
  rw [hread]
  exact ⟨hchain, _, rfl, writeEntry_entries svc (e.extend (k + 1) block (kings.blockRewardDelta block.content)), hblock⟩

section
variable (genesisSupply : Nat) (t : Branch RewardBlock) (kings : SupplyKings)

theorem reached_reads (hn : n ≠ 0)
    (hle : n ≤ t.number) (k : Nat) (hk : k ≤ n) :
    Reached t n k (run genesisSupply t (.atBlock n :: List.replicate (k + 1) (.read kings))) := by
  induction k with
  | zero => exact reached_zero genesisSupply t kings hn hle
  | succ k ih =>
    rw [replicate_succ', ← cons_append, run_concat]
    exact (ih (Nat.le_of_succ_le hk)).read hk hle kings

theorem fresh_call (hle : n ≤ t.number) :
    ∃ e, (run genesisSupply t (.atBlock n :: List.replicate (n + 2) (.read kings))).reply = some (.ok e) ∧
      (run genesisSupply t (.atBlock n :: List.replicate (n + 2) (.read kings))).entries n = some e ∧
      t.ancestor n = some e.block := by
  by_cases hn : n = 0
  · subst hn
    obtain ⟨g, hg⟩ := Branch.ancestor_isSome (Nat.zero_le t.number)
    refine ⟨.genesis genesisSupply g, ?_⟩
    have hcall : (init genesisSupply t).atBlock 0 =
        ((init genesisSupply t).writeEntry (.genesis genesisSupply g)).answer (.ok (.genesis genesisSupply g)) := by
      simp only [atBlock, init, genesisEntry, hg, Nat.not_lt_zero, if_false, if_true]
    have hrun : run genesisSupply t (.atBlock 0 :: List.replicate 2 (.read kings)) =
        (((init genesisSupply t).atBlock 0).read kings).read kings := rfl
    rw [Nat.zero_add, hrun, hcall]
    exact ⟨rfl, writeEntry_entries (init genesisSupply t) (.genesis genesisSupply g), hg⟩
  · obtain ⟨-, e, hcall, hentry, hblock⟩ := reached_reads genesisSupply t kings hn hle n (Nat.le_refl n)
    refine ⟨e, ?_⟩
    rw [replicate_succ', ← cons_append, run_concat]
    have hread : (run genesisSupply t (.atBlock n :: List.replicate (n + 1) (.read kings))).step (.read kings) =
        (run genesisSupply t (.atBlock n :: List.replicate (n + 1) (.read kings))).answer (.ok e) := by
      simp only [step, SupplyService.read, hcall, if_pos (Nat.lt_succ_self n)]
    rw [hread]
    exact ⟨rfl, hentry, hblock⟩

end

theorem still_call (n : Nat) (kings : SupplyKings) :
    Still (.atBlock n :: List.replicate (n + 2) (.read kings)) := by
  intro chain hmem
  rcases mem_cons.mp hmem with h | h
  · cases h
  · cases eq_of_mem_replicate h

def issuedUpTo (ctx : Branch RewardBlock → BlockContext) (block : Branch RewardBlock) : Nat :=
  (block.blocks.map fun b => (ctx b).issued b.content).sum

theorem reported_eq_issued (ha : t.ancestor n = some a)
    (hchain : ∀ b ∈ t.blocks, Rewarded (ctx b) b) (hcounted : ∀ b ∈ t.blocks, (ctx b).Counted b.content) :
    (a.blocks.map fun b => reportedTotal b.content).sum = issuedUpTo ctx a := by
  rw [issuedUpTo]
  congr 1
  refine map_congr_left fun b hb => ?_
  have hmem := Branch.blocks_ancestor ha b hb
  exact ((hchain b hmem).accepts.counted_iff (hchain b hmem).coinbase).mpr (hcounted b hmem)

/-- On every chain a call returns the entry of its block. Every entry stored without a reorganisation has as its total
what the chain up to its block issued, and the three kinds add up to it, exactly when every block credits what the
index counts. -/
theorem supply_index_matches_issued_iff (genesisSupply : Nat) (t : Branch RewardBlock)
    (ctx : Branch RewardBlock → BlockContext) (hchain : ∀ b ∈ t.blocks, Rewarded (ctx b) b) :
    (∀ kings n, n ≤ t.number → ∃ e,
      (run genesisSupply t (.atBlock n :: List.replicate (n + 2) (.read kings))).reply = some (.ok e) ∧
      (run genesisSupply t (.atBlock n :: List.replicate (n + 2) (.read kings))).entries n = some e) ∧
    ((∀ events, Still events → ∀ n e, (run genesisSupply t events).entries n = some e →
      t.ancestor n = some e.block ∧ e.totalIssued = issuedUpTo ctx e.block ∧
        e.totalIssued = e.mainKingRewards + e.rotatingKingRewards + e.minerRewards) ↔
    ∀ b ∈ t.blocks, (ctx b).Counted b.content) := by
  refine ⟨fun kings n hn => ?_, fun h b hb => ?_, fun hcounted events hstill n e he => ?_⟩
  · obtain ⟨e, hreply, hentry, -⟩ := fresh_call genesisSupply t kings hn
    exact ⟨e, hreply, hentry⟩
  · -- the totals at the block and at its parent differ by what the block adds
    have htotal : ∀ a m, t.ancestor m = some a →
        (a.blocks.map fun b => reportedTotal b.content).sum = issuedUpTo ctx a := by
      intro a m ha
      obtain ⟨e, -, hentry, hblock⟩ := fresh_call genesisSupply t ⟨0, fun _ => 0⟩ (Branch.ancestor_le ha)
      obtain rfl : e.block = a := Option.some.inj (hblock.symm.trans ha)
      have hkeeps := (run_tallied genesisSupply hchain _ (still_call m ⟨0, fun _ => 0⟩)).2
      rw [← ((hkeeps.entries m e hentry).2).total]
      exact (h _ (still_call m _) m e hentry).2.1
    obtain ⟨p, x, rfl⟩ := Branch.exists_parent hb
    have hblock := Branch.ancestor_of_mem_blocks hb
    have hchild := htotal _ _ hblock
    have hparent := htotal _ _ (Branch.ancestor_parent hblock)
    simp only [issuedUpTo, Branch.blocks, map_append, sum_append, map_singleton,
      sum_singleton] at hchild hparent
    rw [hparent] at hchild
    exact ((hchain _ hb).accepts.counted_iff (hchain _ hb).coinbase).mp (Nat.add_left_cancel hchild)
  · obtain ⟨hn, htallied⟩ := (run_tallied genesisSupply hchain events hstill).2.entries n e he
    subst hn
    refine ⟨htallied.block, ?_, htallied.parts⟩
    rw [htallied.total]
    exact reported_eq_issued htallied.block hchain hcounted

/-! ## A chain of one empty block -/

def genesisBlock : Branch RewardBlock := .genesis ⟨{ rewardedHeader with number := 0, fits := by decide }, []⟩

def quietContext : BlockContext where
  rx := kingEngine [6]
  config := kingConfig [6]
  sha256 _ := 0
  st := blankState
  root _ _ := 0

def quietChain : Branch RewardBlock := .child genesisBlock ⟨rewardedHeader, []⟩

theorem supply_index_matches_issued_quiet :
    ∃ e, (run 0 quietChain (.atBlock 1 :: List.replicate 3 (.read ⟨5, fun _ => 6⟩))).entries 1 = some e ∧
      e.totalIssued = issuedUpTo (fun _ => quietContext) e.block ∧
      e.totalIssued = e.mainKingRewards + e.rotatingKingRewards + e.minerRewards := by
  have hchain : ∀ b ∈ quietChain.blocks, Rewarded quietContext b := by
    intro b hb
    obtain rfl : b = quietChain := mem_singleton.mp hb
    have haccepts : quietContext.Accepts ⟨rewardedHeader, []⟩ :=
      ⟨fun h => absurd rfl h, fun h => absurd h (by decide), rfl⟩
    exact ⟨haccepts, by decide, rfl⟩
  have hcounted : ∀ b ∈ quietChain.blocks, quietContext.Counted b.content := by
    intro b hb
    obtain rfl : b = quietChain := mem_singleton.mp hb
    exact .inr rfl
  obtain ⟨hreturns, hmatches⟩ := supply_index_matches_issued_iff 0 quietChain (fun _ => quietContext) hchain
  obtain ⟨e, -, he⟩ := hreturns ⟨5, fun _ => 6⟩ 1 (Nat.le_refl 1)
  exact ⟨e, he, (hmatches.mpr hcounted _ (still_call 1 _) 1 e he).2⟩

/-! ## A block that pays a validator -/

def validatorBlock : RewardBlock where
  header := rewardedHeader
  transactions := { kingEngine [6] with antarticalTime := some 0 }.rewardTransactions rewardedHeader ++
    [newValidatorRewardTx 1 soleValidator.rewardAddress (70 * ether)]

def validatorContext : BlockContext where
  rx := { kingEngine [6] with antarticalTime := some 0 }
  config := { kingConfig [6] with londonBlock := some 0, antarticalTime := some 0 }
  sha256 _ := 0
  st := committeeState
  root _ _ := 0

def validatorChain : Branch RewardBlock := .child genesisBlock validatorBlock

theorem validatorBlock_accepted : validatorContext.Accepts validatorBlock := by
  have htail : BlockContext.rewardTail validatorBlock = validatorBlock.transactions := by decide
  have hselect : selectValidator (fun _ => 0) committeeState 1 rewardedHeader.parentHash = .ok soleValidator := by
    rw [selectValidator, committeeState_active]
    rfl
  have hpaid : validatorBlock.transactions.filter isValidatorRewardTx =
      [newValidatorRewardTx 1 soleValidator.rewardAddress (70 * ether)] := by decide
  have hbase : (validatorBlock.transactions.filter fun tx => !isValidatorRewardTx tx) =
      validatorContext.rx.rewardTransactions rewardedHeader := by decide
  refine ⟨fun _ => ⟨0, ?_⟩, fun _ => ⟨[soleValidator], committeeState_active, fun _ => ?_⟩, rfl⟩
  · rw [htail]
    refine (processBlockRewardTxs_ok (fun _ => 0) validatorContext.rx 0 committeeState_active).mpr ⟨?_, ?_, ?_⟩
    · intro tx htx
      rw [hpaid, mem_singleton] at htx
      rw [htx]
      exact (validateValidatorReward_ok (isValidatorRewardTx_validator _ _ _)).mpr
        ⟨soleValidator, hselect, rfl, by decide⟩
    · rw [hpaid]
      rfl
    · rw [hbase]
      exact .of_mixed (.self canonical_mem)
  · rw [htail]
    exact append_ne_nil_of_right_ne_nil _ (cons_ne_nil _ _)

/-- The index leaves the reward of the validator out. -/
theorem validator_reward_not_reported :
    Rewarded validatorContext validatorChain ∧ validatorContext.issued validatorBlock = 200 * ether ∧
      ((run 0 validatorChain [.atBlock 1, .read ⟨5, fun _ => 6⟩, .read ⟨5, fun _ => 6⟩]).entries 1).map
        SupplyEntry.totalIssued = some (130 * ether) := by
  refine ⟨⟨validatorBlock_accepted, by decide, rfl⟩, ?_, ?_⟩
  · decide +kernel
  · decide +kernel

end SupplyService

end TkmChain
