import TkmChain.Admission
import TkmChain.PrepaidSound
import TkmChain.AccessSound

/-!
# What an admitted transaction can pay

Admission compares the balance with the cost less what a note will release. The
shielded rules release exactly that, except for a V3 envelope before privacy
commitments, which they pass over; so the purchase of gas is covered in every
other case. A vote adds its burn to the cost. The fee of a validator
registration is in no sum with the gas.
-/

namespace TkmChain

open Proc Function

variable {B : Backend} {M : Machine} {cfg : ChainConfig} {hd : Header} {tx : Tx} {msg : Message}
variable {st s t : StateDB} {b b₀ : BlockState} {v : Wei} {receipt : Receipt} {result : ExecutionResult}

/-! ## The purchase -/

def gasNeed (cfg : ChainConfig) (hd : Header) (msg : Message) : Nat :=
  msg.gas * msg.gasFeeCap + msg.value +
    if cfg.isCancun hd.number hd.time.toNat && 0 < blobGasUsed msg then blobGasUsed msg * msg.blobGasFeeCap.getD 0 else 0

theorem within256_ok : within256 n = .ok m ↔ n < 2 ^ 256 ∧ n = m := by
  simp only [within256, ok_rules, Nat.not_le, exists_const]

theorem within256_error (h : within256 n = .error e) : 2 ^ 256 ≤ n ∧ ∃ m, e = .insufficientFunds m := by
  rcases except_bind_error.mp h with h | ⟨_, _, h⟩
  · obtain ⟨hbig, rfl⟩ := failIf_error.mp h
    exact ⟨hbig, _, rfl⟩
  · cases h

theorem addBlobCosts_ok (h : addBlobCosts M cfg hd msg need cost = .ok (need', cost')) :
    need' = need + (if cfg.isCancun hd.number hd.time.toNat && 0 < blobGasUsed msg then
      blobGasUsed msg * msg.blobGasFeeCap.getD 0 else 0) ∧ (msg.blobHashes = none → cost' = cost) := by
  unfold addBlobCosts at h
  split at h
  · rename_i hblob
    simp only [ok_rules, within256_ok, Prod.mk.injEq] at h
    obtain ⟨_, ⟨_, rfl⟩, _, ⟨_, rfl⟩, _, _, _, _, _, ⟨_, rfl⟩, rfl, _⟩ := h
    rw [if_pos hblob]
    refine ⟨rfl, fun hnone => ?_⟩
    simp [blobGasUsed, hnone] at hblob
  · rename_i hblob
    cases h
    rw [if_neg hblob]
    exact ⟨rfl, fun _ => rfl⟩

theorem gasCost_ok (h : gasCost M cfg hd msg st = .ok cost) :
    gasNeed cfg hd msg ≤ (st.balance msg.sender).toNat ∧ (msg.blobHashes = none → cost = msg.gas * msg.gasPrice) := by
  simp only [gasCost, ok_rules, within256_ok, Nat.not_lt] at h
  obtain ⟨_, ⟨_, rfl⟩, _, ⟨_, rfl⟩, _, ⟨_, rfl⟩, ⟨need, cost'⟩, hblob, _, hle, rfl⟩ := h
  obtain ⟨rfl, hcost⟩ := addBlobCosts_ok hblob
  exact ⟨hle, hcost⟩

theorem checkMessage_blobFee (h : checkMessage B M cfg hd msg st = .ok u) :
    checkBlobFee M cfg hd msg = .ok () := by
  simp only [checkMessage, ok_rules] at h
  obtain ⟨_, _, _, _, _, _, _, _, _, _, _, _, _, _, _, _, _, hblob, _⟩ := h
  exact hblob

section
variable (hfee : checkBlobFee M cfg hd msg = .ok ()) (hcap : msg.blobGasFeeCap.getD 0 < 2 ^ 256)
include hfee hcap

theorem addBlobCosts_error (hle : cost ≤ need)
    (h : addBlobCosts M cfg hd msg need cost = .error e) :
    2 ^ 256 ≤ need + (if cfg.isCancun hd.number hd.time.toNat && 0 < blobGasUsed msg then
      blobGasUsed msg * msg.blobGasFeeCap.getD 0 else 0) ∧ ∃ m, e = .insufficientFunds m := by
  unfold addBlobCosts at h
  split at h
  · rename_i hon
    rw [checkBlobFee, if_pos hon] at hfee
    simp only [ok_rules, Nat.not_lt] at hfee
    obtain ⟨fee, hbase, hfee⟩ := hfee
    rw [if_pos hon]
    simp only [except_bind_error, within256_ok, failIf_ok, failIf_error, hbase, Option.getD_some] at h
    have hblob : blobGasUsed msg * fee ≤ blobGasUsed msg * msg.blobGasFeeCap.getD 0 := Nat.mul_le_mul_left _ hfee
    rcases h with h | ⟨_, ⟨_, rfl⟩, h | ⟨_, _, ⟨hbig, _⟩ | ⟨_, _, h | ⟨_, ⟨_, rfl⟩, h | ⟨_, _, h⟩⟩⟩⟩⟩
    · obtain ⟨hbig, herr⟩ := within256_error h
      exact ⟨by omega, herr⟩
    · exact within256_error h
    · omega
    · obtain ⟨hbig, herr⟩ := within256_error h
      exact ⟨by omega, herr⟩
    · obtain ⟨hbig, herr⟩ := within256_error h
      exact ⟨by omega, herr⟩
    · cases h
  · cases h

theorem gasCost_error (hprice : msg.gasPrice ≤ msg.gasFeeCap)
    (h : gasCost M cfg hd msg st = .error e) :
    (st.balance msg.sender).toNat < gasNeed cfg hd msg ∧ ∃ m, e = .insufficientFunds m := by
  have hbal : (st.balance msg.sender).toNat < 2 ^ 256 := (st.balance msg.sender).isLt
  have hcost : msg.gas * msg.gasPrice ≤ msg.gas * msg.gasFeeCap := Nat.mul_le_mul_left _ hprice
  have hneed : msg.gas * msg.gasFeeCap + msg.value ≤ gasNeed cfg hd msg := Nat.le_add_right _ _
  simp only [gasCost, except_bind_error, within256_ok, failIf_error] at h
  rcases h with h | ⟨_, ⟨_, rfl⟩, h | ⟨_, ⟨_, rfl⟩, h | ⟨_, ⟨_, rfl⟩, h | ⟨⟨need, cost⟩, hblob, ⟨hlt, rfl⟩ | ⟨_, _, h⟩⟩⟩⟩⟩
  · obtain ⟨hbig, herr⟩ := within256_error h
    exact ⟨by omega, herr⟩
  · obtain ⟨hbig, herr⟩ := within256_error h
    exact ⟨by omega, herr⟩
  · obtain ⟨hbig, herr⟩ := within256_error h
    exact ⟨by omega, herr⟩
  · obtain ⟨hbig, herr⟩ := addBlobCosts_error hfee hcap (by omega) h
    exact ⟨Nat.lt_of_lt_of_le hbal hbig, herr⟩
  · obtain ⟨rfl, _⟩ := addBlobCosts_ok hblob
    exact ⟨hlt, _, rfl⟩
  · cases h

end

theorem transactionToMessage_price (h : transactionToMessage B cfg hd tx = .ok msg) :
    msg.gasPrice ≤ msg.gasFeeCap ∧ msg.blobGasFeeCap.getD 0 < 2 ^ 256 := by
  simp only [transactionToMessage, ok_rules, Nat.not_le] at h
  obtain ⟨_, _, _, _, _, _, _, _, _, hblob, _, _, rfl⟩ := h
  refine ⟨?_, hblob⟩
  cases hd.baseFee with
  | none => exact Nat.le_refl _
  | some fee => exact Nat.min_le_right _ _

theorem feeMode_error (h : feeMode B cfg hd data = .error e) : ∃ c, e = .consensus c := by
  have hmap {x : Except Err Nat} (hx : x.mapError TxErr.consensus = .error e) : ∃ c, e = .consensus c := by
    cases x with
    | ok n => cases hx
    | error c =>
      cases hx
      exact ⟨c, rfl⟩
  unfold feeMode at h
  split at h
  · cases h
  · exact hmap h

theorem takeGas_error (h : takeGas gas check pay b = (.error e, b')) :
    check b.state.current = .error e ∨ e = .gasLimitReached := by
  rcases bind_error.mp h with h | ⟨a, _, hread, h⟩
  · exact .inl (read_error.mp h).1
  · obtain ⟨_, rfl⟩ := read_ok.mp hread
    rcases bind_error.mp h with h | ⟨_, _, _, h⟩
    · simp only [BlockState.onPool, GasPool.subGas, failIf] at h
      split at h
      · cases h
      · rename_i hsub
        split at hsub
        · cases hsub
          cases h
          exact .inr rfl
        · cases hsub
    · cases h

theorem buyGas_funds_iff (hmsg : transactionToMessage B cfg hd tx = .ok msg)
    (hfee : checkBlobFee M cfg hd msg = .ok ()) :
    (∃ m, (buyGas B M cfg hd msg b).1 = .error (.insufficientFunds m)) ↔
      (∃ mode, feeMode B cfg hd msg.data = .ok mode ∧ mode ≠ shieldedFeePrepaid) ∧
        (b.state.current.balance msg.sender).toNat < gasNeed cfg hd msg := by
  obtain ⟨hprice, hcap⟩ := transactionToMessage_price hmsg
  constructor
  · rintro ⟨m, h⟩
    have h : buyGas B M cfg hd msg b = (.error (.insufficientFunds m), _) := Prod.ext h rfl
    rcases bind_error.mp h with h | ⟨mode, _, hread, h⟩
    · -- a malformed envelope is no lack of funds
      obtain ⟨hmode, _⟩ := read_error.mp h
      obtain ⟨_, herr⟩ := feeMode_error hmode
      cases herr
    · obtain ⟨hmode, rfl⟩ := read_ok.mp hread
      by_cases hpre : mode = shieldedFeePrepaid
      · rw [if_pos hpre] at h
        rcases bind_error.mp h with h | ⟨_, _, _, h⟩
        · rcases takeGas_error h with h | h
          · simp only [checkPrepaid, except_bind_error, failIf_error] at h
            rcases h with ⟨_, h⟩ | ⟨_, _, _, h⟩
            · cases h
            · cases h
          · cases h
        · cases h
      · rw [if_neg hpre] at h
        rcases bind_error.mp h with h | ⟨_, _, _, h⟩
        · rcases takeGas_error h with h | h
          · exact ⟨⟨mode, hmode, hpre⟩, (gasCost_error hfee hcap hprice h).1⟩
          · cases h
        · cases h
  · rintro ⟨⟨mode, hmode, hpre⟩, hlt⟩
    cases hcost : gasCost M cfg hd msg b.state.current with
    | ok cost => exact absurd (gasCost_ok hcost).1 (Nat.not_le.mpr hlt)
    | error e =>
      obtain ⟨_, m, rfl⟩ := gasCost_error hfee hcap hprice hcost
      refine ⟨m, ?_⟩
      have htake : takeGas msg.gas (gasCost M cfg hd msg) (fun cost st => st.subBalance msg.sender (BitVec.ofNat 256 cost))
          b = (.error (.insufficientFunds m), b) := bind_error.mpr (.inl (read_error.mpr ⟨hcost, rfl⟩))
      have hbuy : buyGas B M cfg hd msg b = (.error (.insufficientFunds m), b) := by
        refine bind_error.mpr (.inr ⟨mode, b, read_ok.mpr ⟨hmode, rfl⟩, ?_⟩)
        rw [if_neg hpre]
        exact bind_error.mpr (.inl htake)
      rw [hbuy]

/-! ## What the shielded rules leave the sender -/

theorem StateDB.release_credit {a b : Address} {v : Int} (ha : a ≠ poolAddress)
    (hfit : (s.balance a).toNat + v.toNat < 2 ^ 256) :
    ((s.release b v).balance a).toNat = (s.balance a).toNat + if b = a then v.toNat else 0 := by
  unfold StateDB.release
  by_cases hv : 0 < v
  · rw [if_pos hv]
    by_cases hb : b = a
    · subst hb
      simp only [StateDB.addBalance_balance, update_self, StateDB.subBalance_balance, update_of_ne ha,
        if_true]
      rw [BitVec.toNat_add, BitVec.toNat_ofNat, Nat.mod_eq_of_lt (by omega : v.toNat < 2 ^ 256), Nat.mod_eq_of_lt hfit]
    · simp [update_of_ne (Ne.symm hb), update_of_ne ha, hb]
  · rw [if_neg hv, Int.toNat_eq_zero.mpr (by omega)]
    simp

theorem Payout.Paid.credit {p : Payout} {tx : Tx} {a : Address} (h : p.Paid tx s t)
    (ha : a ≠ poolAddress) (hfit : (s.balance a).toNat + p.withdrawal.toNat + p.sponsor.toNat < 2 ^ 256) :
    (t.balance a).toNat = (s.balance a).toNat + (if p.recipient = a then p.withdrawal.toNat else 0) +
      if p.sender = a then p.sponsor.toNat else 0 := by
  have hburn : ((s.subBalance poolAddress (BitVec.ofNat 256 p.burned.toNat)).balance a) = s.balance a :=
    update_of_ne ha _ _
  have hwithdrawal := StateDB.release_credit (s := s.subBalance poolAddress (BitVec.ofNat 256 p.burned.toNat))
    (b := p.recipient) (v := p.withdrawal) ha (by rw [hburn]; omega)
  rw [hburn] at hwithdrawal
  have hle : (if p.recipient = a then p.withdrawal.toNat else 0) ≤ p.withdrawal.toNat := by split <;> omega
  rw [h.balance, Payout.pay, StateDB.release_credit ha (by omega), hwithdrawal]

theorem lessSponsor_le {bal : Nat} {v : Int} (h : lessSponsor cost v ≤ bal) : cost ≤ bal + v.toNat := by
  unfold lessSponsor at h
  split at h <;> omega

section
variable {w w' : World}

def Fits (st : StateDB) (sender : Address) : Prop := (st.balance sender).toNat + st.pool < 2 ^ 256

theorem NoteRun.funds {e : ShieldedV3Transaction} {l : List Digest} {link : Option Digest}
    (h : NoteRun B cfg num time tx e l link w w') (hs : B.sender cfg num time tx = .ok sender)
    (hm : e.feeMode ≠ shieldedFeePrepaid) (hfit : Fits w.st sender)
    (hadm : lessSponsor cost (e.gasSponsorValue.getD 0) ≤ (w.st.balance sender).toNat) :
    cost ≤ (w'.st.balance sender).toNat := by
  obtain ⟨ledger, a, _, ha, hpaid⟩ := h.paid
  obtain rfl : a = sender := Except.ok.inj (ha.symm.trans hs)
  have hreserve := h.facts.reserve
  have hpool := spendable_le_pool w.st e.asset
  have hw := h.shape.withdrawal
  have hv := h.shape.sponsor
  have hsponsor : (notePayout e ledger a).sponsor = e.sponsor := if_neg fun hp => hm hp.2
  have hwithdrawal : (notePayout e ledger a).withdrawal = e.withdrawal := rfl
  unfold Fits at hfit
  have hcredit := hpaid.credit (B.sender_ne_pool _ _ _ _ _ hs) (by rw [hsponsor, hwithdrawal]; omega)
  have hself : (notePayout e ledger a).sender = a := rfl
  rw [if_pos hself, hsponsor] at hcredit
  have hcost := lessSponsor_le hadm
  change cost ≤ _ + e.sponsor.toNat at hcost
  omega

theorem V6Run.funds {e : ShieldedV6Transaction} {ledger : Option ConfidentialLedgerTotals}
    (h : V6Run B cfg num time tx e ledger w w') (hne : sender ≠ poolAddress) (hfit : Fits w.st sender) :
    (w.st.balance sender).toNat ≤ (w'.st.balance sender).toNat := by
  have hcov := h.covered
  have hwithdrawal : (v6Payout e).withdrawal = e.withdrawal := rfl
  have hsponsor : (v6Payout e).sponsor = 0 := rfl
  unfold Fits at hfit
  have hcredit := h.paid.credit hne (by rw [hsponsor, hwithdrawal]; omega)
  omega

theorem LegacyRun.funds {e : ShieldedTransaction} {ledger : Option ConfidentialLedgerTotals}
    (h : LegacyRun B cfg num time tx e ledger w w') (hs : B.sender cfg num time tx = .ok sender)
    (hq : ∀ a, B.quantumSender tx = .ok a → a = sender) (hfit : Fits w.st sender)
    (hadm : lessSponsor cost (migrationSponsor B tx e) ≤ (w.st.balance sender).toNat) :
    cost ≤ (w'.st.balance sender).toNat := by
  obtain ⟨a, ha, hpaid⟩ := h.paid
  have hrelease := h.release
  obtain ⟨hw0, hs0⟩ := release_nonneg e
  have hself : shieldedGasSponsorValue e ≠ 0 → a = sender := by
    intro hne
    rw [legacySender, if_pos (h.sponsor hne), hs] at ha
    exact (Except.ok.inj ha).symm
  unfold Fits at hfit
  unfold publicRelease at hrelease
  have hcredit := hpaid.credit (B.sender_ne_pool _ _ _ _ _ hs)
    (by change _ + (shieldedWithdrawalValue e).toNat + (shieldedGasSponsorValue e).toNat < _; omega)
  change _ = _ + (if e.withdrawalRecipient = sender then (shieldedWithdrawalValue e).toNat else 0) +
    (if a = sender then (shieldedGasSponsorValue e).toNat else 0) at hcredit
  have hcost := lessSponsor_le hadm
  have hsponsor : (shieldedGasSponsorValue e).toNat ≤ if a = sender then (shieldedGasSponsorValue e).toNat else 0 := by
    by_cases hne : shieldedGasSponsorValue e = 0
    · omega
    · rw [if_pos (hself hne)]
  unfold migrationSponsor at hcost
  split at hcost
  · rename_i hmig
    have hto : e.withdrawalRecipient = sender := by
      cases hsend : B.quantumSender tx with
      | error m => simp [hsend, Except.toOption] at hmig
      | ok q =>
        simp only [hsend, Except.toOption, Option.some.injEq] at hmig
        rw [← hmig.2.2, hq q hsend]
    rw [if_pos hto] at hcredit
    have : shieldedWithdrawalValue e = e.withdrawalValue.getD 0 := by
      unfold shieldedWithdrawalValue
      omega
    omega
  · omega

theorem passedOver_unchanged (hp : hasShieldedV3Prefix tx.data = true) (hoff : ¬ cfg.isPrivacyCommitments num time = true)
    (h : processShieldedTransaction B cfg num time tx w = (.ok (), w')) : w' = w := by
  obtain ⟨hnote, _⟩ := dispatch_note (.inl rfl) hp h
  have hnone : decodeShieldedTransaction B tx.data = .ok none := decodeShieldedTransaction_none hp
  rw [processNoteVersion, if_neg fun hp => hoff hp.2, if_neg fun hp => hoff hp.2] at hnote
  simp only [processLegacyTransaction, validateShieldedTransactionEnvelope, hnone, run_rules,
    except_map_ok] at hnote
  obtain ⟨_, ⟨_, _, rfl⟩, hnote⟩ := hnote
  exact hnote.symm

/-- What a purchase after the shielded rules finds: an envelope they passed over, a prepaid fee, or the full cost. -/
inductive Funded (B : Backend) (cfg : ChainConfig) (num time : Nat) (tx : Tx) (sender : Address) (w w' : World) : Prop
  | passedOver (hp : hasShieldedV3Prefix tx.data = true) (hoff : cfg.isPrivacyCommitments num time = false) (h : w' = w)
  | prepaid (e : ShieldedV3Transaction) (henv : NoteEnvelope B tx.data e) (hm : e.feeMode = shieldedFeePrepaid)
      (ha : cfg.isConfidentialLedger num time = true)
  | paid (h : tx.cost + (if hasAddressVotePrefix tx.data then addressVoteBurnWei else 0) ≤
      (w'.st.balance sender).toNat)

theorem NoteRun.funded {e : ShieldedV3Transaction} {l : List Digest} {link : Option Digest}
    (h : NoteRun B cfg num time tx e l link w w') (henv : NoteEnvelope B tx.data e)
    (hs : B.sender cfg num time tx = .ok sender) (hfit : Fits w.st sender)
    (hadm : lessSponsor (tx.cost + if hasAddressVotePrefix tx.data then addressVoteBurnWei else 0)
      (e.gasSponsorValue.getD 0) ≤ (w.st.balance sender).toNat) : Funded B cfg num time tx sender w w' := by
  by_cases hm : e.feeMode = shieldedFeePrepaid
  · exact .prepaid e henv hm (ledgerShape_prepaid h.fee hm).active
  · exact .paid (h.funds hs hm hfit hadm)

theorem shielded_funded (h : processShieldedTransaction B cfg num time tx w = (.ok (), w'))
    (hs : B.sender cfg num time tx = .ok sender) (hq : ∀ a, B.quantumSender tx = .ok a → a = sender)
    (hfit : Fits w.st sender) (hadm : shieldedTransactionPreBalanceCost B tx ≤ (w.st.balance sender).toNat) :
    Funded B cfg num time tx sender w w' := by
  have hacc := processShieldedTransaction_accepted h
  unfold shieldedTransactionPreBalanceCost at hadm
  by_cases h5 : hasShieldedV5Prefix tx.data = true
  · have h6 : hasShieldedV6Prefix tx.data = false := hasPrefix_false h5
    simp only [processShieldedTransaction, h6, h5, Bool.false_eq_true, if_false, if_true, run_rules] at h
    obtain ⟨_, h⟩ := h
    obtain ⟨e, l, hdec, _, hrun⟩ := processShieldedV5_ok h
    rw [if_pos h5, hdec] at hadm
    exact hrun.funded (.v5 e h5 hdec) hs hfit hadm
  rw [if_neg h5] at hadm
  by_cases h4 : hasShieldedV4Prefix tx.data = true
  · obtain ⟨hnote, hon⟩ := dispatch_note (.inr rfl) h4 h
    rw [processNoteVersion, if_pos ⟨h4, hon h4⟩] at hnote
    obtain ⟨e, l, hdec, _, hrun⟩ := processShieldedV4_ok hnote
    rw [if_pos h4, hdec] at hadm
    exact hrun.funded (.v4 e h4 hdec) hs hfit hadm
  rw [if_neg h4] at hadm
  by_cases h3 : hasShieldedV3Prefix tx.data = true
  · obtain ⟨hnote, _⟩ := dispatch_note (.inl rfl) h3 h
    by_cases hon : cfg.isPrivacyCommitments num time = true
    · rw [processNoteVersion, if_neg fun hp => h4 hp.1, if_pos ⟨h3, hon⟩] at hnote
      obtain ⟨e, l, hdec, _, hrun⟩ := processShieldedV3_ok hnote
      rw [if_pos h3, hdec] at hadm
      exact hrun.funded (.v3 e h3 hdec) hs hfit hadm
    · exact .passedOver h3 (Bool.not_eq_true _ ▸ hon) (passedOver_unchanged h3 hon h)
  rw [if_neg h3] at hadm
  refine .paid ?_
  cases hacc with
  | idle hd hframe =>
    rw [hd] at hadm
    rwa [hframe.balance]
  | note e l link hd henv hrun =>
    cases henv with
    | v3 e hp _ => exact absurd hp h3
    | v4 e hp _ => exact absurd hp h4
    | v5 e hp _ => exact absurd hp h5
  | v6 e ledger hd hrun =>
    rw [hd] at hadm
    exact Nat.le_trans hadm (hrun.funds (B.sender_ne_pool _ _ _ _ _ hs) hfit)
  | legacy e ledger hd hrun =>
    rw [hd] at hadm
    exact hrun.funds hs hq hfit hadm

end

/-! ## The purchase of an admitted transaction -/

theorem validateTransactionWithState_cost {signer : Tx → Except Err Address} {opts : StateOptions}
    {sender : Address} {u : Unit} (hs : signer tx = .ok sender)
    (h : validateTransactionWithState B signer opts st tx = .ok u) :
    shieldedTransactionPreBalanceCost B tx ≤ (st.balance sender).toNat := by
  simp only [validateTransactionWithState, hs, ok_rules, Nat.not_lt] at h
  obtain ⟨a, ha, _, _, _, _, _, _, _, _, _, hcost, _⟩ := h
  obtain rfl := Except.ok.inj ha
  exact hcost

theorem gasNeed_le_cost (htx : msg.Typed) : gasNeed cfg hd msg ≤ msg.cost := by
  unfold gasNeed Tx.cost
  split
  · rename_i hblob
    have hne : msg.blobHashes ≠ none := by
      intro hnone
      simp [blobGasUsed, hnone] at hblob
    rw [if_pos (by_contra fun htype => hne (htx.blobs htype))]
    unfold blobGasUsed
    omega
  · omega

theorem feeMode_inactive (h : cfg.isPrivacyCommitments hd.number hd.time.toNat = false) :
    feeMode B cfg hd data = .ok 0 := by
  have : ¬ cfg.isConfidentialLedger hd.number hd.time.toNat = true := by
    intro ha
    rw [ChainConfig.isPrivateFork_privacy ha] at h
    cases h
  rw [feeMode, if_pos this]

theorem purchase_funds_iff (htx : tx.Typed)
    (hmsg : transactionToMessage B cfg hd tx = .ok msg) (hq : ∀ a, B.quantumSender tx = .ok a → a = msg.sender)
    (hfit : Fits w.st msg.sender)
    (hadm : shieldedTransactionPreBalanceCost B tx ≤ (w.st.balance msg.sender).toNat)
    (hsh : processShieldedTransaction B cfg hd.number hd.time.toNat tx w = (.ok (), w'))
    (hbal : c.state.current.balance = w'.st.balance) (hcheck : checkMessage B M cfg hd msg c.state.current = .ok ()) :
    (∃ m, (buyGas B M cfg hd msg c).1 = .error (.insufficientFunds m)) ↔
      hasShieldedV3Prefix tx.data = true ∧ cfg.isPrivacyCommitments hd.number hd.time.toNat = false ∧
        (w.st.balance msg.sender).toNat < gasNeed cfg hd msg := by
  rw [buyGas_funds_iff hmsg (checkMessage_blobFee hcheck), hbal]
  have hsender := transactionToMessage_sender hmsg
  obtain rfl := transactionToMessage_tx hmsg
  constructor
  · rintro ⟨⟨mode, hmode, hne⟩, hlt⟩
    cases shielded_funded hsh hsender hq hfit hadm with
    | passedOver hp hoff h =>
      rw [h] at hlt
      exact ⟨hp, hoff, hlt⟩
    | prepaid e henv hm ha =>
      rw [henv.feeMode_eq ha, hm] at hmode
      exact absurd (Except.ok.inj hmode).symm hne
    | paid h =>
      have : gasNeed cfg hd msg ≤ msg.cost := gasNeed_le_cost htx
      omega
  · rintro ⟨hp, hoff, hlt⟩
    rw [passedOver_unchanged hp (by simp [hoff]) hsh]
    exact ⟨⟨0, feeMode_inactive hoff, by decide⟩, hlt⟩

/-! ## A call of the pool that uses all its gas -/

def Machine.KeepsPool (M : Machine) : Prop := ∀ st : StateDB, st.pool ≠ 0 → (M.finalise st).storage = st.storage

/-- The state such a call leaves before it is finalised: `st` paid the gas and the value, and the coinbase the tip. -/
def spentState (coinbase : Address) (msg : Message) (tip : Nat) (st : StateDB) : StateDB :=
  settledState coinbase msg false 0 tip
    ((st.subBalance msg.sender (BitVec.ofNat 256 (msg.gas * msg.gasPrice))).transfer msg.sender poolAddress msg.value)

theorem ApplySteps.spent
    (h : ApplySteps B M cfg coinbase hd tx msg b b' b₁ b₂ b₃ prepaid receipt result) (hM : M.Plain) (htx : msg.Typed)
    (htype : msg.type = .pqTkm) (hto : msg.toAddr = some poolAddress)
    (hmode : feeMode B cfg hd msg.data ≠ .ok shieldedFeePrepaid) (hcode : b₁.state.current.codeSize poolAddress = 0)
    (hfull : result.usedGas = msg.gas) :
    gasNeed cfg hd msg ≤ (b₁.state.current.balance msg.sender).toNat ∧
      b₃.state.current.balance = (spentState coinbase msg (tipOf cfg hd msg) b₁.state.current).balance ∧
      b₃.state.current.storage = b₁.state.current.storage := by
  have hauth : msg.setCodeAuthorizations = none := htx.authorizations (by rw [htype]; exact nofun)
  have hblobs : msg.blobHashes = none := htx.blobs (by rw [htype]; exact nofun)
  obtain ⟨cost, floor, hcheck, remaining, peak, _, hst, hused⟩ := executePurchased_ok h.executed
  have hpos : remaining = 0 := by
    obtain ⟨htxgas, hle, _⟩ := checkExecution_bounds hcheck
    have : txGas = 21000 := rfl
    omega
  cases buyGas_ok h.bought with
  | fromNote hm _ _ => exact absurd hm hmode
  | fromSender mode paid hm hne hc hbought =>
    obtain ⟨hneed, hpaid⟩ := gasCost_ok hc
    obtain rfl := hpaid hblobs
    refine ⟨hneed, ?_⟩
    have hvalue : msg.value ≤ (b₂.state.current.balance msg.sender).toNat := by
      simp only [checkExecution, ok_rules] at hcheck
      obtain ⟨_, _, _, _, _, _, _, _, _, hfunds, _⟩ := hcheck
      by_contra hlt
      exact hfunds ⟨by omega, by omega⟩
    have hfree : b₂.state.current.codeSize poolAddress = 0 := by
      rw [hbought]
      exact hcode
    generalize hj : b₂.state.write (fun st => st.setNonce msg.sender (st.nonce msg.sender + 1)) = j at *
    have hrun : (runMessage M cfg hd msg (msg.gas - cost) b₂.state).state.current =
        j.current.transfer msg.sender poolAddress msg.value := by
      simp only [runMessage, hto, hauth, hj]
      refine hM.callPool hd msg.sender msg.data _ msg.value j ?_ ?_
      · rw [← hj]
        exact hfree
      · rw [← hj]
        exact hvalue
    have hstore : b₂.state.current.storage = b₁.state.current.storage := by rw [hbought, StateDB.subBalance_storage]
    rw [hst, hrun, hpos, ← hj, spentState, ← hbought]
    exact ⟨rfl, hstore⟩

section
variable (hne : msg.sender ≠ poolAddress) (hneed : gasNeed cfg hd msg ≤ (st.balance msg.sender).toNat)
  (hprice : msg.gasPrice ≤ msg.gasFeeCap) (htip : tip ≤ msg.gasPrice)
include hne hneed hprice htip

omit hne in
theorem spent_costs : msg.gas * msg.gasPrice ≤ msg.gas * msg.gasFeeCap ∧ msg.gas * tip ≤ msg.gas * msg.gasPrice ∧
    msg.gas * msg.gasFeeCap + msg.value ≤ (st.balance msg.sender).toNat :=
  ⟨Nat.mul_le_mul_left _ hprice, Nat.mul_le_mul_left _ htip, Nat.le_trans (Nat.le_add_right _ _) hneed⟩

theorem spentState_balance :
    ((spentState coinbase msg tip st).balance msg.sender).toNat + msg.gas * msg.gasPrice + msg.value =
      (st.balance msg.sender).toNat + if coinbase = msg.sender then msg.gas * tip else 0 := by
  have hbal := (st.balance msg.sender).isLt
  obtain ⟨hgas, htips, hcost⟩ := spent_costs hneed hprice htip
  have hword {n : Nat} (hn : n ≤ (st.balance msg.sender).toNat) : (BitVec.ofNat 256 n).toNat = n := by
    rw [BitVec.toNat_ofNat, Nat.mod_eq_of_lt (by omega)]
  have hsub : (st.balance msg.sender - BitVec.ofNat 256 (msg.gas * msg.gasPrice) - BitVec.ofNat 256 msg.value).toNat +
      msg.gas * msg.gasPrice + msg.value = (st.balance msg.sender).toNat := by
    have hgasWord := hword (n := msg.gas * msg.gasPrice) (by omega)
    have hvalueWord := hword (n := msg.value) (by omega)
    generalize BitVec.ofNat 256 (msg.gas * msg.gasPrice) = g at *
    generalize BitVec.ofNat 256 msg.value = v at *
    rw [BitVec.toNat_sub_of_le, BitVec.toNat_sub_of_le]
    · omega
    · rw [BitVec.le_def]
      omega
    · rw [BitVec.le_def, BitVec.toNat_sub_of_le]
      · omega
      · rw [BitVec.le_def]
        omega
  have hmoved : (spentState coinbase msg tip st).balance msg.sender =
      (st.balance msg.sender - BitVec.ofNat 256 (msg.gas * msg.gasPrice) - BitVec.ofNat 256 msg.value) +
        if coinbase = msg.sender then BitVec.ofNat 256 (msg.gas * tip) else 0 := by
    by_cases hc : coinbase = msg.sender
    · subst hc
      simp [spentState, settledState, StateDB.transfer, hne]
    · simp [spentState, settledState, StateDB.transfer, hne, hc, Ne.symm hc]
  rw [hmoved]
  split
  · rw [BitVec.toNat_add, hword (by omega), Nat.mod_eq_of_lt (by omega)]
    omega
  · simp
    omega

theorem spentState_pool (hfit : Fits st msg.sender) (hvalue : 0 < msg.value) :
    (spentState coinbase msg tip st).pool ≠ 0 := by
  obtain ⟨hgas, htips, hcost⟩ := spent_costs hneed hprice htip
  unfold Fits at hfit
  have hmoved : (spentState coinbase msg tip st).balance poolAddress = st.balance poolAddress +
      BitVec.ofNat 256 msg.value + if coinbase = poolAddress then BitVec.ofNat 256 (msg.gas * tip) else 0 := by
    by_cases hc : coinbase = poolAddress
    · subst hc
      simp [spentState, settledState, StateDB.transfer, Ne.symm hne]
    · simp [spentState, settledState, StateDB.transfer, Ne.symm hne, hc, Ne.symm hc]
  have hword {n : Nat} (hn : n ≤ (st.balance msg.sender).toNat) : (BitVec.ofNat 256 n).toNat = n := by
    rw [BitVec.toNat_ofNat, Nat.mod_eq_of_lt (by omega)]
  have hpool : (st.balance poolAddress + BitVec.ofNat 256 msg.value).toNat = st.pool + msg.value := by
    rw [BitVec.toNat_add, hword (by omega)]
    exact Nat.mod_eq_of_lt (by unfold StateDB.pool at hfit; omega)
  rw [StateDB.pool, hmoved]
  split
  · rw [BitVec.toNat_add, hpool, hword (by omega), Nat.mod_eq_of_lt (by omega)]
    omega
  · simp only [BitVec.ofNat_eq_ofNat, BitVec.add_zero]
    omega

end

/-! ## Hooks that lack funds -/

def StateDB.fund (st : StateDB) (a : Address) (v : Wei) : StateDB :=
  { st with balance := Function.update st.balance a v }

def BlockState.fund (b : BlockState) (a : Address) (v : Wei) : BlockState :=
  { b with state := b.state.write fun st => st.fund a v }

def FailsForFunds (x : Proc BlockState TxErr Unit) (a : Address) (b : BlockState) : Prop :=
  ¬ x.Succeeds b ∧ ∃ v, b.state.current.balance a < v ∧ x.Succeeds (b.fund a v)

theorem onState_succeeds {x : Proc StateDB Err Unit} :
    (BlockState.onState x).Succeeds b ↔ x.Succeeds b.state.current := by
  constructor
  · rintro ⟨u, b', h⟩
    exact ⟨_, _, onState_ok h⟩
  · rintro ⟨u, st, h⟩
    exact ⟨(), _, by simp only [BlockState.onState, h]; rfl⟩

theorem importHooks_succeeds (hidle : Idle cfg hd tx.data) (ha : cfg.isAntartical hd.number hd.time.toNat = true) :
    (importHooks B M cfg hd tx sender).Succeeds b ↔
      (hasAddressVotePrefix tx.data = true → (processAddressVote B sender tx.data tx.hash).Succeeds b.state.current) ∧
      (hasValidatorRegistrationPrefix tx.data = true →
        (processValidatorRegistration B cfg hd.number hd.time.toNat tx).Succeeds b.state.current) ∧
      (hasValidatorSlashPrefix tx.data = true →
        (processValidatorSlash B cfg hd.number hd.time.toNat tx).Succeeds b.state.current) ∧
      ((hasValidatorExitPrefix tx.data || hasValidatorWithdrawalPrefix tx.data) = true →
        (processValidatorAction B cfg hd.number hd.time.toNat tx).Succeeds b.state.current) := by
  simp only [importHooks, hidle.oracle, hidle.crossChain, runWhen_false, Proc.pure_bind]
  simp only [ha, Bool.true_and]
  by_cases hv : hasAddressVotePrefix tx.data = true
  · have hr : hasValidatorRegistrationPrefix tx.data = false := hasPrefix_false hv
    have hs : hasValidatorSlashPrefix tx.data = false := hasPrefix_false hv
    have he : hasValidatorExitPrefix tx.data = false := hasPrefix_false hv
    have hw : hasValidatorWithdrawalPrefix tx.data = false := hasPrefix_false hv
    simp only [hv, hr, hs, he, hw, runWhen_true, runWhen_false, Proc.pure_bind, bind_unit, Bool.or_self,
      onState_succeeds, Bool.false_eq_true, false_imp_iff, true_imp_iff, and_true]
  rw [Bool.not_eq_true] at hv
  by_cases hr : hasValidatorRegistrationPrefix tx.data = true
  · have hs : hasValidatorSlashPrefix tx.data = false := hasPrefix_false hr
    have he : hasValidatorExitPrefix tx.data = false := hasPrefix_false hr
    have hw : hasValidatorWithdrawalPrefix tx.data = false := hasPrefix_false hr
    simp only [hv, hr, hs, he, hw, runWhen_true, runWhen_false, Proc.pure_bind, bind_unit, Bool.or_self,
      onState_succeeds, Bool.false_eq_true, false_imp_iff, true_imp_iff, and_true, true_and]
  rw [Bool.not_eq_true] at hr
  by_cases hs : hasValidatorSlashPrefix tx.data = true
  · have he : hasValidatorExitPrefix tx.data = false := hasPrefix_false hs
    have hw : hasValidatorWithdrawalPrefix tx.data = false := hasPrefix_false hs
    simp only [hv, hr, hs, he, hw, runWhen_true, runWhen_false, Proc.pure_bind, bind_unit, Bool.or_self,
      onState_succeeds, Bool.false_eq_true, false_imp_iff, true_imp_iff, and_true, true_and]
  rw [Bool.not_eq_true] at hs
  simp only [hv, hr, hs, runWhen_false, Proc.pure_bind, Bool.false_eq_true, false_imp_iff, true_and]
  cases hact : hasValidatorExitPrefix tx.data || hasValidatorWithdrawalPrefix tx.data with
  | false =>
    simp only [runWhen_false, Bool.false_eq_true, false_imp_iff, iff_true]
    exact ⟨(), b, rfl⟩
  | true => simp only [runWhen_true, onState_succeeds, true_imp_iff]

theorem fund_pool (hne : sender ≠ poolAddress) : (st.fund sender v).pool = st.pool := by
  simp [StateDB.fund, StateDB.pool, Ne.symm hne]

theorem readValidatorRecord_fund (a : Address) :
    readValidatorRecord (st.fund sender v) a = readValidatorRecord st a :=
  readValidatorRecord_congr rfl rfl fun _ _ => rfl

theorem burn_succeeds :
    (do burnAddressVoteFee sender; Proc.modify f; Proc.modify g : Proc StateDB Err Unit).Succeeds st ↔
      addressVoteBurnWei ≤ (st.balance sender).toNat := by
  simp only [burnAddressVoteFee, Proc.bind_assoc, succeeds_read_bind, succeeds_modify_bind,
    succeeds_modify, failIf_ok, Nat.not_lt, and_true, exists_const]

theorem vote_succeeds_of_fund (hburn : addressVoteBurnWei ≤ (st.balance sender).toNat)
    (h : (processAddressVote B sender data txHash).Succeeds (st.fund sender v)) :
    (processAddressVote B sender data txHash).Succeeds st := by
  simp only [processAddressVote, succeeds_read_bind] at h ⊢
  obtain ⟨vote, hdecode, u, hstate, owner, howner, count, hcount, h⟩ := h
  refine ⟨vote, hdecode, u, hstate, owner, howner, count, hcount, ?_⟩
  split at h
  · rename_i hun
    rw [if_pos hun]
    obtain ⟨u, hpos, _⟩ := succeeds_read_bind.mp h
    exact succeeds_read_bind.mpr ⟨u, hpos, burn_succeeds.mpr hburn⟩
  · rename_i hun
    rw [if_neg hun]
    obtain ⟨u, hfree, _⟩ := succeeds_read_bind.mp h
    exact succeeds_read_bind.mpr ⟨u, hfree, burn_succeeds.mpr hburn⟩

theorem action_succeeds_of_fund (hne : sender ≠ poolAddress)
    (h : (processValidatorAction B cfg num time tx).Succeeds (st.fund sender v)) :
    (processValidatorAction B cfg num time tx).Succeeds st := by
  obtain ⟨u, st', h⟩ := h
  cases hexit : hasValidatorExitPrefix tx.data with
  | true =>
    obtain ⟨a, r, hbasics, ha, hread, hactive, hkey, hfits, _⟩ := (processValidatorAction_exit_iff hexit).mp h
    rw [readValidatorRecord_fund] at hread
    exact ⟨(), _, (processValidatorAction_exit_iff hexit).mpr ⟨a, r, hbasics, ha, hread, hactive, hkey, hfits, rfl⟩⟩
  | false =>
    obtain ⟨a, r, hbasics, ha, hread, hp, hexited, hkey, hpool, hfits, _⟩ :=
      (processValidatorAction_withdrawal_iff hexit).mp h
    rw [readValidatorRecord_fund] at hread
    rw [fund_pool hne] at hpool
    exact ⟨(), _, (processValidatorAction_withdrawal_iff hexit).mpr
      ⟨a, r, hbasics, ha, hread, hp, hexited, hkey, hpool, hfits, rfl⟩⟩

theorem slash_succeeds_of_fund (hne : sender ≠ poolAddress)
    (h : (processValidatorSlash B cfg num time tx).Succeeds (st.fund sender v)) :
    (processValidatorSlash B cfg num time tx).Succeeds st := by
  obtain ⟨u, st', h⟩ := h
  obtain ⟨e, r, hbasics, he, hread, hkey, hnew, hpool, hfits, _⟩ := processValidatorSlash_iff.mp h
  rw [readValidatorRecord_fund] at hread
  rw [fund_pool hne] at hpool
  exact ⟨(), _, processValidatorSlash_iff.mpr ⟨e, r, hbasics, he, hread, hkey, hnew, hpool, hfits, rfl⟩⟩

def RegistrationRules (B : Backend) (cfg : ChainConfig) (num time : Nat) (tx : Tx) (sender : Address) (st : StateDB) :
    Prop :=
  validateValidatorRegistrationBasics B cfg num time tx = .ok () ∧
    validateValidatorRegistrationState B st sender tx.data (num % 2 ^ 64) = .ok () ∧
    ∃ e, decodeValidatorRegistration B tx.data = .ok e ∧
      chunkCount (encodeValidatorRecord (registeredRecord num sender e)) ≠ 0 ∧
      chunkCount (encodeValidatorRecord (registeredRecord num sender e)) ≤ 256

theorem RegistrationRules.congr (hs : ∀ k, k.kind = .registry → t.storage k = s.storage k) :
    RegistrationRules B cfg num time tx sender t ↔ RegistrationRules B cfg num time tx sender s := by
  have hread : readValidatorRecord t sender = readValidatorRecord s sender :=
    readValidatorRecord_congr (hs _ rfl) (hs _ rfl) fun i _ => hs _ rfl
  have hcount : validatorCount t = validatorCount s := by rw [validatorCount, hs _ rfl, ← validatorCount]
  have hstake : stakeOf t sender = stakeOf s sender := by rw [stakeOf, hread, ← stakeOf]
  unfold RegistrationRules validateValidatorRegistrationState
  rw [hstake, hcount]

theorem registration_succeeds_iff (ha : B.sender cfg num time tx = .ok sender) :
    (processValidatorRegistration B cfg num time tx).Succeeds st ↔
      RegistrationRules B cfg num time tx sender st ∧ validatorRegistrationFeeWei ≤ (st.balance sender).toNat := by
  constructor
  · rintro ⟨u, st', h⟩
    obtain ⟨a, e, hbasics, ha', he, hstate, hfee, hfits, _⟩ := processValidatorRegistration_iff.mp h
    obtain rfl := Except.ok.inj (ha'.symm.trans ha)
    exact ⟨⟨hbasics, hstate, e, he, hfits⟩, hfee⟩
  · rintro ⟨⟨hbasics, hstate, e, he, hfits⟩, hfee⟩
    exact ⟨(), _, processValidatorRegistration_iff.mpr ⟨sender, e, hbasics, ha, he, hstate, hfee, hfits, rfl⟩⟩

/-! ## The hooks of an admitted transaction -/

theorem feeMode_of_other (hp3 : hasPrefix tx.data shieldedV3Magic = false) (hp4 : hasShieldedV4Prefix tx.data = false)
    (hp5 : hasShieldedV5Prefix tx.data = false) : feeMode B cfg hd tx.data = .ok 0 := by
  have hnone : decodeShieldedV3Transaction B tx.data = .ok none := by
    simp [decodeShieldedV3Transaction, decodeNoteEnvelope, hp3]
  simp only [feeMode, hp4, hp5, hnone, Bool.false_eq_true, if_false]
  split <;> rfl

theorem registration_passedOver (ha : cfg.isAntartical num time = true)
    (hp : hasValidatorRegistrationPrefix tx.data = true)
    (h : processShieldedTransaction B cfg num time tx w = (.ok (), w')) : w' = w := by
  have h6 : hasShieldedV6Prefix tx.data = false := hasPrefix_false hp
  have h5 : hasShieldedV5Prefix tx.data = false := hasPrefix_false hp
  have hstamp : hasAntarticalStampPrefix tx.data = false := hasPrefix_false hp
  have htvm : hasPrivateTVMPrefix tx.data = false := hasPrefix_false hp
  simp only [processShieldedTransaction, h6, h5, ha, Bool.false_eq_true, if_false, if_true, run_rules] at h
  obtain ⟨_, h⟩ := h
  simp only [processAntartical, hstamp, htvm, isValidatorProtocolEnvelope, hp, Bool.true_or, Bool.false_eq_true, if_false,
    if_true, run_rules] at h
  obtain ⟨_, _, _, _, rfl⟩ := h
  rfl

theorem stampRule_value (h : validateAntarticalStampState B st sender tx = .ok u) :
    (hasAddressVotePrefix tx.data = true → tx.toAddr = some poolAddress ∧ tx.value = 0) ∧
      (hasValidatorRegistrationPrefix tx.data = true → tx.toAddr = some poolAddress ∧ tx.value = validatorBondWei) := by
  constructor
  · intro hp
    have hstamp : hasAntarticalStampPrefix tx.data = false := hasPrefix_false hp
    simp only [validateAntarticalStampState, hstamp, hp, Bool.false_eq_true, if_false, if_true, ok_rules, not_or,
      not_not] at h
    obtain ⟨_, hvalue, _⟩ := h
    exact hvalue
  · intro hp
    have hstamp : hasAntarticalStampPrefix tx.data = false := hasPrefix_false hp
    have hvote : hasAddressVotePrefix tx.data = false := hasPrefix_false hp
    simp only [validateAntarticalStampState, hstamp, hvote, hp, Bool.false_eq_true, if_false, if_true, ok_rules,
      not_or, not_not] at h
    obtain ⟨_, hvalue, _⟩ := h
    exact hvalue

theorem tipOf_le_price : tipOf cfg hd msg ≤ msg.gasPrice := by
  unfold tipOf
  split
  · exact Nat.sub_le _ _
  · exact Nat.le_refl _

theorem spent_in_block {w' : World} (hM : M.Plain)
    (hK : M.KeepsPool) (htx : tx.Typed) (hmsg : transactionToMessage B cfg hd tx = .ok msg)
    (ha : cfg.isAntartical hd.number hd.time.toNat = true) (hb₀ : b₀.state.current = w'.st)
    (hcode : w'.st.codeSize poolAddress = 0) (hto : tx.toAddr = some poolAddress)
    (hmode : feeMode B cfg hd tx.data = .ok 0)
    (happ : applyTransactionWithEVM B M cfg hd coinbase msg tx b₀ = (.ok (receipt, result), b))
    (hfull : result.usedGas = tx.gas) :
    (b.state.current.balance msg.sender).toNat + tx.gas * msg.gasPrice + tx.value =
        (w'.st.balance msg.sender).toNat + (if coinbase = msg.sender then tx.gas * tipOf cfg hd msg else 0) ∧
      (0 < tx.value → Fits w'.st msg.sender →
        ∀ k : Slot, k.kind = .registry → b.state.current.storage k = w'.st.storage k) := by
  obtain ⟨b₁, b₂, b₃, prepaid, hsteps⟩ := applyTransactionWithEVM_ok happ
  have hne : msg.sender ≠ poolAddress := B.sender_ne_pool _ _ _ _ _ (transactionToMessage_sender hmsg)
  obtain ⟨hprice, _⟩ := transactionToMessage_price hmsg
  obtain rfl := transactionToMessage_tx hmsg
  have hframe : TreeFrame w'.st b₁.state.current := hb₀ ▸ hsteps.stamp_frame
  have hfree : b₁.state.current.codeSize poolAddress = 0 := by rw [hframe.codeSize, hcode]
  have hnote : feeMode B cfg hd msg.data ≠ .ok shieldedFeePrepaid := by
    rw [hmode]
    exact fun h => absurd (Except.ok.inj h) (by decide)
  obtain ⟨hneed, hbal, hstore⟩ :=
    hsteps.spent hM htx (checkMessage_private ha hsteps.checked).1 hto hnote hfree hfull
  have hfinal : b.state.current.balance = (spentState coinbase msg (tipOf cfg hd msg) b₁.state.current).balance := by
    rw [hsteps.finalised, hM.finalise, hbal]
  constructor
  · rw [hfinal, spentState_balance hne hneed hprice tipOf_le_price, hframe.balance]
  · intro hvalue hfit k hk
    have hfit₁ : Fits b₁.state.current msg.sender := by rwa [Fits, hframe.pool, hframe.balance]
    have hpool : b₃.state.current.pool ≠ 0 := by
      rw [StateDB.pool, hbal]
      exact spentState_pool hne hneed hprice tipOf_le_price hfit₁ hvalue
    rw [hsteps.finalised, hK _ hpool, hstore, hframe.storage k (by rw [hk]; decide)]

section
variable (hidle : Idle cfg hd tx.data) (ha : cfg.isAntartical hd.number hd.time.toNat = true)
include hidle ha

theorem failsForFunds_registration (hp : hasValidatorRegistrationPrefix tx.data = true)
    (hs : B.sender cfg hd.number hd.time.toNat tx = .ok sender) :
    FailsForFunds (importHooks B M cfg hd tx sender) sender b ↔
      RegistrationRules B cfg hd.number hd.time.toNat tx sender b.state.current ∧
        (b.state.current.balance sender).toNat < validatorRegistrationFeeWei := by
  have hv : hasAddressVotePrefix tx.data = false := hasPrefix_false hp
  have hsl : hasValidatorSlashPrefix tx.data = false := hasPrefix_false hp
  have he : hasValidatorExitPrefix tx.data = false := hasPrefix_false hp
  have hw : hasValidatorWithdrawalPrefix tx.data = false := hasPrefix_false hp
  have hhook (b : BlockState) : (importHooks B M cfg hd tx sender).Succeeds b ↔
      RegistrationRules B cfg hd.number hd.time.toNat tx sender b.state.current ∧
        validatorRegistrationFeeWei ≤ (b.state.current.balance sender).toNat := by
    rw [importHooks_succeeds hidle ha, ← registration_succeeds_iff hs]
    simp [hv, hp, hsl, he, hw]
  have hrules (v : Wei) : RegistrationRules B cfg hd.number hd.time.toNat tx sender (b.fund sender v).state.current ↔
      RegistrationRules B cfg hd.number hd.time.toNat tx sender b.state.current :=
    RegistrationRules.congr fun _ _ => rfl
  simp only [FailsForFunds, hhook, hrules]
  constructor
  · rintro ⟨hfail, v, _, hr, _⟩
    exact ⟨hr, Nat.lt_of_not_le fun hle => hfail ⟨hr, hle⟩⟩
  · rintro ⟨hr, hlt⟩
    have hfee : (BitVec.ofNat 256 validatorRegistrationFeeWei).toNat = validatorRegistrationFeeWei := by decide
    refine ⟨fun h => absurd h.2 (Nat.not_le_of_lt hlt), BitVec.ofNat 256 validatorRegistrationFeeWei, ?_, hr, ?_⟩
    · rwa [BitVec.lt_def, hfee]
    · have hset : (b.fund sender (BitVec.ofNat 256 validatorRegistrationFeeWei)).state.current.balance sender =
          BitVec.ofNat 256 validatorRegistrationFeeWei := update_self ..
      rw [hset, hfee]

theorem not_failsForFunds (hne : sender ≠ poolAddress)
    (hp : hasValidatorRegistrationPrefix tx.data = false)
    (hburn : hasAddressVotePrefix tx.data = true → addressVoteBurnWei ≤ (b.state.current.balance sender).toNat) :
    ¬ FailsForFunds (importHooks B M cfg hd tx sender) sender b := by
  rintro ⟨hfail, v, _, h⟩
  rw [importHooks_succeeds hidle ha] at hfail h
  obtain ⟨hvote, _, hslash, hact⟩ := h
  refine hfail ⟨fun hv => ?_, fun hr => ?_, fun hs => ?_, fun hx => ?_⟩
  · exact vote_succeeds_of_fund (hburn hv) (hvote hv)
  · rw [hp] at hr
    cases hr
  · exact slash_succeeds_of_fund hne (hslash hs)
  · exact action_succeeds_of_fund hne (hact hx)

end

theorem vote_funded (hv : hasAddressVotePrefix tx.data = true)
    (h : Funded B cfg num time tx sender w w') : tx.cost + addressVoteBurnWei ≤ (w'.st.balance sender).toNat := by
  cases h with
  | passedOver hp _ _ => exact Bool.noConfusion (hv.symm.trans (hasPrefix_false hp))
  | prepaid e henv _ _ => exact Bool.noConfusion (hv.symm.trans henv.other_magic)
  | paid h => rwa [if_pos hv] at h

theorem hooks_funds_iff {w w' : World} (hM : M.Plain)
    (hK : M.KeepsPool) (htx : tx.Typed) (hmsg : transactionToMessage B cfg hd tx = .ok msg)
    (hq : ∀ a, B.quantumSender tx = .ok a → a = msg.sender) (hfit : Fits w.st msg.sender)
    (hadm : shieldedTransactionPreBalanceCost B tx ≤ (w.st.balance msg.sender).toNat)
    (hcode : w.st.codeSize poolAddress = 0)
    (hsh : processShieldedTransaction B cfg hd.number hd.time.toNat tx w = (.ok (), w'))
    (hb₀ : b₀.state.current = w'.st)
    (happ : applyTransactionWithEVM B M cfg hd coinbase msg tx b₀ = (.ok (receipt, result), b))
    (hfull : result.usedGas = tx.gas) :
    FailsForFunds (importHooks B M cfg hd tx msg.sender) msg.sender b ↔
      cfg.isAntartical hd.number hd.time.toNat = true ∧ hasValidatorRegistrationPrefix tx.data = true ∧
        RegistrationRules B cfg hd.number hd.time.toNat tx msg.sender w.st ∧
        (w.st.balance msg.sender).toNat + (if coinbase = msg.sender then tx.gas * tipOf cfg hd msg else 0) <
          tx.gas * msg.gasPrice + validatorBondWei + validatorRegistrationFeeWei := by
  have hsender := transactionToMessage_sender hmsg
  have hne : msg.sender ≠ poolAddress := B.sender_ne_pool _ _ _ _ _ hsender
  have hidle : Idle cfg hd tx.data := by
    obtain ⟨b₁, b₂, b₃, prepaid, hsteps⟩ := applyTransactionWithEVM_ok happ
    have := Idle.of_message hsteps.checked
    rwa [transactionToMessage_tx hmsg] at this
  by_cases ha : cfg.isAntartical hd.number hd.time.toNat = true
  swap
  · constructor
    · rintro ⟨hfail, _⟩
      refine absurd ⟨(), b, ?_⟩ hfail
      rw [Bool.not_eq_true] at ha
      simp [importHooks, ha, runWhen_false, Proc.pure_bind]
      rfl
    · exact fun h => absurd h.1 ha
  obtain ⟨_, hs, hrule⟩ := processShieldedTransaction_rule ha hsh
  obtain rfl := Except.ok.inj (hs.symm.trans hsender)
  obtain ⟨hvote, hreg⟩ := stampRule_value hrule
  have hcode' : w'.st.codeSize poolAddress = 0 := by
    rw [((processShieldedTransaction_accepted hsh).spares hsender (StampRule.of_ok hrule)).2, hcode]
  by_cases hp : hasValidatorRegistrationPrefix tx.data = true
  · obtain ⟨hto, hvalue⟩ := hreg hp
    obtain rfl := registration_passedOver ha hp hsh
    have hmode : feeMode B cfg hd tx.data = .ok 0 :=
      feeMode_of_other (hasPrefix_false hp) (hasPrefix_false hp) (hasPrefix_false hp)
    obtain ⟨hspent, hstore⟩ := spent_in_block hM hK htx hmsg ha hb₀ hcode' hto hmode happ hfull
    have hbond : 0 < validatorBondWei := by decide
    have hrules : RegistrationRules B cfg hd.number hd.time.toNat tx msg.sender b.state.current ↔
        RegistrationRules B cfg hd.number hd.time.toNat tx msg.sender w'.st :=
      RegistrationRules.congr (hstore (by omega) hfit)
    rw [failsForFunds_registration hidle ha hp hsender, hrules]
    have hfee : (b.state.current.balance msg.sender).toNat < validatorRegistrationFeeWei ↔
        (w'.st.balance msg.sender).toNat + (if coinbase = msg.sender then tx.gas * tipOf cfg hd msg else 0) <
          tx.gas * msg.gasPrice + validatorBondWei + validatorRegistrationFeeWei := by omega
    rw [hfee]
    exact ⟨fun h => ⟨ha, hp, h⟩, fun h => h.2.2⟩
  · refine ⟨fun h => absurd h ?_, fun h => absurd h.2.1 hp⟩
    refine not_failsForFunds hidle ha hne (Bool.not_eq_true _ ▸ hp) fun hv => ?_
    obtain ⟨hto, hvalue⟩ := hvote hv
    have hmode : feeMode B cfg hd tx.data = .ok 0 :=
      feeMode_of_other (hasPrefix_false hv) (hasPrefix_false hv) (hasPrefix_false hv)
    obtain ⟨hspent, _⟩ := spent_in_block hM hK htx hmsg ha hb₀ hcode' hto hmode happ hfull
    have hheld := vote_funded hv (shielded_funded hsh hsender hq hfit hadm)
    obtain ⟨hprice, _⟩ := transactionToMessage_price hmsg
    obtain rfl := transactionToMessage_tx hmsg
    have hgas : msg.gas * msg.gasPrice ≤ msg.gas * msg.gasFeeCap := Nat.mul_le_mul_left _ hprice
    unfold Tx.cost at hheld
    omega

/-- An admitted transaction lacks funds for its gas exactly if it is a V3 envelope that was passed over and counted as
sponsored, and for its hook exactly if it is a valid registration whose fee the gas and the bond leave uncovered. -/
theorem admitted_funds_iff {signer : Tx → Except Err Address} {opts : StateOptions} {s s₁ : ImportState} {b₀ : BlockState}
    (hM : M.Plain) (hK : M.KeepsPool) (htx : tx.Typed) (hmsg : transactionToMessage B cfg hd tx = .ok msg)
    (hsig : signer tx = .ok msg.sender) (hq : ∀ a, B.quantumSender tx = .ok a → a = msg.sender)
    (hfit : Fits s.state.current msg.sender) (hcode : s.state.current.codeSize poolAddress = 0)
    (hadm : validateTransactionWithState B signer opts s.state.current tx = .ok ())
    (hsh : importShielded B cfg hd tx s = (.ok (), s₁))
    (htvm : importPrivateTVM M cfg hd tx s₁.toBlockState = (.ok (), b₀)) :
    (∀ b₁, Proc.runWhen (cfg.isAntartical hd.number hd.time.toNat && hasAntarticalStampPrefix tx.data)
          (BlockState.onState (processAntarticalStamp B cfg hd.number hd.time.toNat tx)) b₀ = (.ok (), b₁) →
        checkMessage B M cfg hd msg b₁.state.current = .ok () →
        ((∃ m, (buyGas B M cfg hd msg b₁).1 = .error (.insufficientFunds m)) ↔
          hasShieldedV3Prefix tx.data = true ∧ cfg.isPrivacyCommitments hd.number hd.time.toNat = false ∧
            (s.state.current.balance msg.sender).toNat < gasNeed cfg hd msg)) ∧
      ∀ receipt result b used b', applyTransactionWithEVM B M cfg hd coinbase msg tx b₀ = (.ok (receipt, result), b) →
        result.usedGas = tx.gas → userOperationHook M cfg hd tx b = (.ok used, b') →
        (FailsForFunds (importHooks B M cfg hd tx msg.sender) msg.sender b' ↔
          cfg.isAntartical hd.number hd.time.toNat = true ∧ hasValidatorRegistrationPrefix tx.data = true ∧
            RegistrationRules B cfg hd.number hd.time.toNat tx msg.sender s.state.current ∧
            (s.state.current.balance msg.sender).toNat +
                (if coinbase = msg.sender then tx.gas * tipOf cfg hd msg else 0) <
              tx.gas * msg.gasPrice + validatorBondWei + validatorRegistrationFeeWei) := by
  obtain ⟨w, hw, rfl⟩ := importShielded_ok hsh
  have hcost := validateTransactionWithState_cost hsig hadm
  -- a message that passed its checks carries no private TVM call and no user operation
  have hstart (hidle : Idle cfg hd tx.data) : b₀.state.current = w.st := by
    rw [hidle.privateTVM] at htvm
    rw [← (pure_ok.mp htvm).2]
    rfl
  constructor
  · intro b₁ hstamp hcheck
    have hidle : Idle cfg hd tx.data := by
      rw [← transactionToMessage_tx hmsg]
      exact Idle.of_message hcheck
    refine purchase_funds_iff htx hmsg hq hfit hcost hw ?_ hcheck
    have hframe : TreeFrame b₀.state.current b₁.state.current := by
      rcases runWhen_ok.mp hstamp with ⟨_, hrun⟩ | ⟨_, rfl⟩
      · exact (processAntarticalStamp_frame B cfg hd.number hd.time.toNat tx).ok (onState_ok hrun)
      · exact Frame.rfl
    rw [hframe.balance, hstart hidle]
  · intro receipt result b used b' happ hfull huser
    have hidle : Idle cfg hd tx.data := by
      obtain ⟨b₁, b₂, b₃, prepaid, hsteps⟩ := applyTransactionWithEVM_ok happ
      rw [← transactionToMessage_tx hmsg]
      exact Idle.of_message hsteps.checked
    rw [hidle.userOperation] at huser
    obtain rfl := (pure_ok.mp huser).2
    exact hooks_funds_iff (w := ⟨s.state.current, s.seen⟩) hM hK htx hmsg hq hfit hcost hcode hw (hstart hidle) happ
      hfull

/-! ## A registration without its fee -/

def lastValidator : ValidatorRegistration where
  version := validatorEnvelopeVersion
  publicKey := List.replicate mldsa87PublicKeySize 1
  rewardAddress := 7
  activationHeight := 10 ^ 9

def registrationBackend : Backend := { migrationBackend with decodeRegistration := fun _ => .ok lastValidator }

def bareRegistration : Tx where
  hash := 1
  hash_ne := Hash.one_ne
  type := .pqTkm
  chainId := mainnetChainID
  nonce := 0
  gasTipCap := 1
  gasFeeCap := 1
  gas := 21680
  toAddr := some poolAddress
  value := validatorBondWei
  data := Bytes.ofText validatorRegistrationMagic
  algorithm := algorithmMLDSA87
  publicKey := List.replicate mldsa87PublicKeySize 1

def stampedAccount (balance : Wei) : ImportState where
  state := Journal.ofState { emptyState with
    balance := Function.update (fun _ => 0) 7 balance
    storage := fun k => if k = stampAddressSlot 7 then 1 else 0 }
  gasPool := newGasPool 50000
  seen := ∅

def loneOptions : StateOptions where
  antartical := true
  firstNonceGap := none
  usedAndLeftSlots := none
  existingExpenditure _ := 0
  existingCost _ _ := none

def bondAndFee : Wei := BitVec.ofNat 256 (validatorBondWei + validatorRegistrationFeeWei)

def registrationMessage : Message := { bareRegistration with sender := 7, gasPrice := 1 }

def upToHooks : Proc ImportState TxErr (Receipt × ExecutionResult) := do
  importShielded registrationBackend exitConfig prepaidHeader bareRegistration
  ImportState.onBlock (importPrivateTVM transferMachine exitConfig prepaidHeader bareRegistration)
  ImportState.onBlock (applyTransactionWithEVM registrationBackend transferMachine exitConfig prepaidHeader 0
    registrationMessage bareRegistration)

structure RegistrationRun (s s₁ : ImportState) (b₀ b : BlockState) (receipt : Receipt) (result : ExecutionResult) :
    Prop where
  admitted : validateTransactionWithState registrationBackend (fun _ => .ok 7) loneOptions s.state.current
    bareRegistration = .ok ()
  shielded : importShielded registrationBackend exitConfig prepaidHeader bareRegistration s = (.ok (), s₁)
  privateTVM : importPrivateTVM transferMachine exitConfig prepaidHeader bareRegistration s₁.toBlockState = (.ok (), b₀)
  applied : applyTransactionWithEVM registrationBackend transferMachine exitConfig prepaidHeader 0 registrationMessage
    bareRegistration b₀ = (.ok (receipt, result), b)
  full : result.usedGas = bareRegistration.gas

theorem registrationRun_exists {s : ImportState} (hadm : validateTransactionWithState registrationBackend
      (fun _ => .ok 7) loneOptions s.state.current bareRegistration = .ok ())
    (hrun : (upToHooks s).1.map (fun r => r.2.usedGas) = .ok bareRegistration.gas) :
    ∃ s₁ b₀ b receipt result, RegistrationRun s s₁ b₀ b receipt result := by
  rcases h : upToHooks s with ⟨r, s'⟩
  rw [h] at hrun
  obtain ⟨⟨receipt, result⟩, rfl, hfull⟩ := except_map_ok.mp hrun
  unfold upToHooks at h
  obtain ⟨_, s₁, hsh, h⟩ := bind_ok.mp h
  obtain ⟨_, _, htvm, h⟩ := bind_ok.mp h
  obtain ⟨b₀, hb₀, rfl⟩ := zoom_ok.mp htvm
  obtain ⟨b, hb, _⟩ := zoom_ok.mp h
  exact ⟨s₁, b₀, b, receipt, result, hadm, hsh, hb₀, hb, hfull⟩

theorem registrationMessage_eq :
    transactionToMessage registrationBackend exitConfig prepaidHeader bareRegistration = .ok registrationMessage := rfl

theorem transferMachine_keepsPool : transferMachine.KeepsPool := fun _ _ => rfl

theorem registration_sender : ∀ a, registrationBackend.quantumSender bareRegistration = .ok a →
    a = registrationMessage.sender := by
  intro a h
  exact (Except.ok.inj h).symm

theorem registration_fits {balance : Wei} (h : (stampedAccount balance).state.current.pool = 0) :
    Fits (stampedAccount balance).state.current registrationMessage.sender := by
  unfold Fits
  rw [h]
  exact BitVec.isLt _

/-- An account that holds twice the bond and the fee is charged both. -/
theorem admitted_funds_iff_registration : ∃ s₁ b₀ b receipt result,
    RegistrationRun (stampedAccount (2 * bondAndFee)) s₁ b₀ b receipt result ∧
      ¬ FailsForFunds (importHooks registrationBackend transferMachine exitConfig prepaidHeader bareRegistration 7) 7 b := by
  obtain ⟨s₁, b₀, b, receipt, result, hrun⟩ :=
    registrationRun_exists (s := stampedAccount (2 * bondAndFee)) (by decide +kernel) (by decide +kernel)
  refine ⟨s₁, b₀, b, receipt, result, hrun, ?_⟩
  have hfunds := (admitted_funds_iff transferMachine_plain transferMachine_keepsPool ⟨fun _ => rfl, fun _ => rfl⟩
    registrationMessage_eq rfl registration_sender (registration_fits (by decide)) rfl hrun.admitted hrun.shielded
    hrun.privateTVM).2 receipt result b 0 b hrun.applied hrun.full rfl
  intro h
  obtain ⟨_, _, _, hlt⟩ := hfunds.mp h
  exact absurd hlt (by decide +kernel)

/-- An account that holds the bond and the fee is admitted, pays for its gas and cannot pay the fee. -/
theorem registration_lacks_fee : ¬ ∀ s s₁ b₀ b receipt result, RegistrationRun s s₁ b₀ b receipt result →
    ¬ FailsForFunds (importHooks registrationBackend transferMachine exitConfig prepaidHeader bareRegistration 7) 7 b := by
  intro hclaim
  obtain ⟨s₁, b₀, b, receipt, result, hrun⟩ :=
    registrationRun_exists (s := stampedAccount bondAndFee) (by decide +kernel) (by decide +kernel)
  refine hclaim _ _ _ _ _ _ hrun ?_
  obtain ⟨w, hw, rfl⟩ := importShielded_ok hrun.shielded
  have hidle : importPrivateTVM transferMachine exitConfig prepaidHeader bareRegistration = pure () := rfl
  have htvm := hrun.privateTVM
  rw [hidle] at htvm
  obtain rfl := (pure_ok.mp htvm).2
  refine (hooks_funds_iff (w := ⟨(stampedAccount bondAndFee).state.current, ∅⟩) transferMachine_plain
    transferMachine_keepsPool ⟨fun _ => rfl, fun _ => rfl⟩ registrationMessage_eq registration_sender
    (registration_fits (by decide)) (validateTransactionWithState_cost rfl hrun.admitted) rfl hw rfl hrun.applied
    hrun.full).mpr ⟨by decide, by decide +kernel, ⟨?_, ?_, lastValidator, ?_, ?_⟩, by decide +kernel⟩
  · exact except_ok_of_isOk (by decide +kernel)
  · exact except_ok_of_isOk (by decide +kernel)
  · rfl
  · decide +kernel

end TkmChain
