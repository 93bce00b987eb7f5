import TkmChain.Settlement

/-!
# What the shielded rules pay

An accepted transaction changes balances in one way only: the pool burns a
prepaid fee, pays a withdrawal and sponsors the sender's gas. A burnt fee leaves
a ticket under the hash of the transaction, and no other ticket changes.
-/

namespace TkmChain

variable {s t : StateDB} {e : ShieldedV3Transaction}

structure Payout where
  burned : Int
  recipient : Address
  withdrawal : Int
  sender : Address
  sponsor : Int

namespace Payout

def pay (p : Payout) (st : StateDB) : StateDB :=
  ((st.subBalance poolAddress (BitVec.ofNat 256 p.burned.toNat)).release p.recipient p.withdrawal).release p.sender
    p.sponsor

/-- The balances of `t` are those of `s` after the payout, and `t` holds the ticket of what was burnt. -/
structure Paid (p : Payout) (tx : Tx) (s t : StateDB) : Prop where
  balance : t.balance = (p.pay s).balance
  codeSize : t.codeSize = s.codeSize
  ticket : t.storage (confidentialFeeTicket tx.hash) =
    if p.burned = 0 then s.storage (confidentialFeeTicket tx.hash) else bigToHash p.burned
  tickets : ∀ k, k ≠ tx.hash → t.storage (confidentialFeeTicket k) = s.storage (confidentialFeeTicket k)

end Payout

/-! ## Balances -/

theorem StateDB.release_balance_congr (h : t.balance = s.balance) (a : Address) (v : Int) :
    (t.release a v).balance = (s.release a v).balance := by
  unfold StateDB.release
  split
  · simp [h]
  · exact h

theorem StateDB.release_codeSize (st : StateDB) (a : Address) (v : Int) : (st.release a v).codeSize = st.codeSize := by
  unfold StateDB.release
  split <;> rfl

theorem Payout.pay_congr (h : t.balance = s.balance) (p : Payout) : (p.pay t).balance = (p.pay s).balance := by
  apply StateDB.release_balance_congr
  apply StateDB.release_balance_congr
  simp [h]

theorem Payout.pay_of_unburned {p : Payout} (h : p.burned = 0) (st : StateDB) :
    (p.pay st).balance = ((st.release p.recipient p.withdrawal).release p.sender p.sponsor).balance := by
  apply StateDB.release_balance_congr
  apply StateDB.release_balance_congr
  rw [h]
  simp

abbrev TicketFrame : StateDB → StateDB → Prop := Frame fun k => k.kind ≠ .ticket

theorem TicketFrame.ticket (h : TicketFrame s t) (k : Hash) :
    t.storage (confidentialFeeTicket k) = s.storage (confidentialFeeTicket k) :=
  h.storage _ fun hk => hk rfl

theorem Frame.tickets (h : Frame Calm s t) : TicketFrame s t := h.mono fun _ hk => hk.2

theorem commitOption_tickets (asset : Nat) (ledger : Option ConfidentialLedgerTotals) (st : StateDB) :
    TicketFrame st (commitOption asset ledger st) := (commitOption_frame asset ledger st).mono fun k hk => by simp [hk]

theorem Payout.paid_of_frames {p : Payout} {tx : Tx} {s₁ : StateDB} (hp : p.burned = 0) (hs : TicketFrame s s₁)
    (ht : TicketFrame ((s₁.release p.recipient p.withdrawal).release p.sender p.sponsor) t) : p.Paid tx s t := by
  have hticket (k : Hash) : t.storage (confidentialFeeTicket k) = s.storage (confidentialFeeTicket k) := by
    rw [ht.ticket, release_storage, release_storage, hs.ticket]
  refine ⟨?_, ?_, ?_, fun k _ => hticket k⟩
  · rw [ht.balance, ← Payout.pay_of_unburned hp, Payout.pay_congr hs.balance]
  · rw [ht.codeSize, StateDB.release_codeSize, StateDB.release_codeSize, hs.codeSize]
  · rw [if_pos hp, hticket]

/-! ## The payouts of each version -/

def notePayout (e : ShieldedV3Transaction) (ledger : Option ConfidentialLedgerTotals) (sender : Address) : Payout where
  burned := if ledger.isSome ∧ e.feeMode = shieldedFeePrepaid then e.sponsor else 0
  recipient := e.withdrawalRecipient
  withdrawal := e.withdrawal
  sender := sender
  sponsor := publicSponsor e ledger

def v6Payout (e : ShieldedV6Transaction) : Payout where
  burned := 0
  recipient := e.withdrawalRecipient
  withdrawal := e.withdrawal
  sender := 0
  sponsor := 0

def legacyPayoutOf (e : ShieldedTransaction) (sender : Address) : Payout where
  burned := 0
  recipient := e.withdrawalRecipient
  withdrawal := shieldedWithdrawalValue e
  sender := sender
  sponsor := shieldedGasSponsorValue e

structure PrepaidFee (cfg : ChainConfig) (num time : Nat) (tx : Tx) (e : ShieldedV3Transaction) : Prop where
  active : cfg.isConfidentialLedger num time = true
  value : tx.value = 0
  gas : tx.gas = confidentialPrepaidGas
  feeCap : tx.gasFeeCap ≠ 0
  fits : tx.gas * tx.gasFeeCap < 2 ^ 256
  sponsor : e.sponsor = (tx.gas * tx.gasFeeCap : Nat)

theorem PrepaidFee.pos (h : PrepaidFee cfg num time tx e) : 0 < tx.gas * tx.gasFeeCap :=
  Nat.mul_pos (by rw [h.gas]; decide) (Nat.pos_of_ne_zero h.feeCap)

theorem ledgerShape_prepaid
    (h : validateConfidentialLedgerShape cfg num time tx e.deposit e.sponsor e.feeMode e.asset = .ok u)
    (hm : e.feeMode = shieldedFeePrepaid) : PrepaidFee cfg num time tx e := by
  have hne : ¬ shieldedFeePrepaid = shieldedFeePublic := by decide
  simp only [validateConfidentialLedgerShape, hm, ok_rules] at h
  obtain ⟨_, hmode, h⟩ := h
  have hactive : cfg.isConfidentialLedger num time = true := by
    by_contra hoff
    exact hmode (.inr ⟨hne, hoff⟩)
  rw [if_neg (by simp [hactive]), if_neg hne] at h
  simp only [ok_rules, not_or, not_not, bitLenAbove, decide_eq_true_eq, Nat.not_le] at h
  obtain ⟨_, ⟨_, _, hvalue, hgas, hcap, _⟩, hfits, hsponsor⟩ := h
  refine ⟨hactive, hvalue, hgas, hcap, ?_, ?_⟩
  · omega
  · rw [hsponsor]
    push_cast
    rfl

section
variable {B : Backend} {w w' : World}

theorem noteMarks_tickets (tx : Tx) (e : ShieldedV3Transaction) (l : List Digest) (link : Option Digest) (w : World) :
    TicketFrame w.st (noteMarks tx e l link w).st := by
  have hmark := (markNullifiers_frame e.asset tx.hash l w).tickets
  have hsupply : TicketFrame _ (updateSupply tx e (l.foldl (markNullifier e.asset tx.hash) w).st) :=
    (updateSupply_frame tx e _).mono fun k hk => by simp [hk]
  exact (hmark.trans hsupply).trans (markSpentLink_frame tx e link
    ((l.foldl (markNullifier e.asset tx.hash) w).mapState (updateSupply tx e))).tickets

theorem NoteRun.paid (h : NoteRun B cfg num time tx e l link w w') :
    ∃ ledger sender, noteLedger cfg num time w.st tx e = .ok ledger ∧ B.sender cfg num time tx = .ok sender ∧
      (notePayout e ledger sender).Paid tx w.st w'.st := by
  obtain ⟨ledger, sender, hl, hs, happ⟩ := h.applied
  refine ⟨ledger, sender, hl, hs, ?_⟩
  obtain ⟨w₁, htree, rfl⟩ := applyNotes_appended happ
  have hmarks := htree.calm.tickets.trans (noteMarks_tickets tx e l link w₁)
  rw [noteWrites_eq]
  by_cases hpre : ledger.isSome = true ∧ e.feeMode = shieldedFeePrepaid
  · -- the fee is burnt between the commit and the releases
    obtain ⟨t, rfl⟩ := Option.isSome_iff_exists.mp hpre.1
    have hcommit := hmarks.trans (commitOption_tickets e.asset (some t) (noteMarks tx e l link w₁).st)
    have hfee := ledgerShape_prepaid h.fee hpre.2
    have hpos := hfee.pos
    have hburn : (notePayout e (some t) sender).burned = e.sponsor := if_pos hpre
    have hne : e.sponsor ≠ 0 := by rw [hfee.sponsor]; omega
    have hsettle : settleLedger tx e (some t) (noteMarks tx e l link w₁).st =
        burnConfidentialFee (commitOption e.asset (some t) (noteMarks tx e l link w₁).st) tx e.sponsor := if_pos hpre.2
    rw [hsettle]
    generalize commitOption e.asset (some t) (noteMarks tx e l link w₁).st = s at hcommit
    refine ⟨?_, ?_, ?_, fun k hk => ?_⟩
    · unfold Payout.pay
      rw [hburn]
      apply StateDB.release_balance_congr
      apply StateDB.release_balance_congr
      simp [burnConfidentialFee, hcommit.balance]
    · rw [StateDB.release_codeSize, StateDB.release_codeSize, ← hcommit.codeSize]
      rfl
    · rw [release_storage, release_storage, hburn, if_neg hne]
      exact Function.update_self ..
    · rw [release_storage, release_storage, ← TicketFrame.ticket hcommit]
      apply Function.update_of_ne
      intro heq
      exact hk (Hash.bytes_inj (by simpa [confidentialFeeTicket] using heq))
  · have hsettle : TicketFrame w.st (settleLedger tx e ledger (noteMarks tx e l link w₁).st) := by
      cases ledger with
      | none => exact hmarks
      | some t =>
        have hmode : e.feeMode ≠ shieldedFeePrepaid := fun hm => hpre ⟨rfl, hm⟩
        simp only [settleLedger, if_neg hmode]
        exact hmarks.trans (commitOption_tickets e.asset (some t) _)
    exact Payout.paid_of_frames (if_neg hpre) hsettle Frame.rfl

theorem V6Run.paid {e : ShieldedV6Transaction} {ledger : Option ConfidentialLedgerTotals}
    (h : V6Run B cfg num time tx e ledger w w') : (v6Payout e).Paid tx w.st w'.st := by
  obtain ⟨s, htree, heq⟩ := applyV6_appended h.applied
  refine Payout.paid_of_frames rfl (htree.calm.tickets.trans (commitOption_tickets assetTKM ledger s)) ?_
  rw [heq]
  exact Frame.rfl

theorem LegacyRun.paid {e : ShieldedTransaction} {ledger : Option ConfidentialLedgerTotals}
    (h : LegacyRun B cfg num time tx e ledger w w') :
    ∃ sender, legacySender B cfg num time tx e = .ok sender ∧ (legacyPayoutOf e sender).Paid tx w.st w'.st := by
  obtain ⟨intent, sender, hs, happ⟩ := h.applied
  obtain ⟨s, t, hmark, htree, heq⟩ := applyLegacy_ok happ
  refine ⟨sender, hs, Payout.paid_of_frames rfl hmark.tickets ?_⟩
  rw [heq]
  exact htree.calm.tickets.trans (commitOption_tickets assetTKM ledger t)

end

end TkmChain
