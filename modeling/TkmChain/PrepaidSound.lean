import TkmChain.Accounts
import TkmChain.ImportSound
import TkmChain.PayoutSound

/-!
# Prepaid fees

A note that prepays the gas of its transaction is charged by the shielded rules,
which burn the fee and leave a ticket; the purchase of gas takes the ticket. No
ticket outlives its transaction, so a ticket that is found was left by the same
transaction.
-/

namespace TkmChain

open Function

variable {s t : StateDB}
  {b b' : BlockState}

/-! ## The sum of all balances -/

namespace StateDB

noncomputable def totalBalance (st : StateDB) : Nat := ∑ a ∈ accounts, (st.balance a).toNat

noncomputable def wordBalance (st : StateDB) : Wei := ∑ a ∈ accounts, st.balance a

variable {st : StateDB} {v : Int} {x : Wei}

theorem totalBalance_congr (h : t.balance = s.balance) : t.totalBalance = s.totalBalance := by
  rw [totalBalance, h, totalBalance]

theorem wordBalance_congr (h : t.balance = s.balance) : t.wordBalance = s.wordBalance := by
  rw [wordBalance, h, wordBalance]

theorem totalBalance_update (h : t.balance = Function.update st.balance a x) :
    t.totalBalance + (st.balance a).toNat = st.totalBalance + x.toNat := by
  have hmap : (fun y => (t.balance y).toNat) = Function.update (fun y => (st.balance y).toNat) a x.toNat := by
    funext y
    rw [h, apply_update (fun _ => BitVec.toNat)]
  rw [totalBalance, hmap]
  exact sum_accounts_update _ a _

theorem wordBalance_update (h : t.balance = Function.update st.balance a x) :
    t.wordBalance + st.balance a = st.wordBalance + x := by
  rw [wordBalance, h]
  exact sum_accounts_update _ a _

theorem wordBalance_subBalance : (st.subBalance a x).wordBalance + x = st.wordBalance := by
  have h : (st.subBalance a x).wordBalance + st.balance a = st.wordBalance + (st.balance a - x) := wordBalance_update rfl
  generalize (st.subBalance a x).wordBalance = n at *
  generalize st.wordBalance = m at *
  grind

theorem wordBalance_addBalance : (st.addBalance a x).wordBalance = st.wordBalance + x := by
  have h : (st.addBalance a x).wordBalance + st.balance a = st.wordBalance + (st.balance a + x) := wordBalance_update rfl
  generalize (st.addBalance a x).wordBalance = n at *
  generalize st.wordBalance = m at *
  grind

theorem wordBalance_release : (st.release a v).wordBalance = st.wordBalance := by
  unfold release
  split
  · rw [wordBalance_addBalance, wordBalance_subBalance]
  · rfl

theorem totalBalance_subBalance (h : x.toNat ≤ st.pool) :
    (st.subBalance poolAddress x).totalBalance + x.toNat = st.totalBalance := by
  have hsum : (st.subBalance poolAddress x).totalBalance + (st.balance poolAddress).toNat =
      st.totalBalance + (st.balance poolAddress - x).toNat := totalBalance_update rfl
  have hsub := pool_subBalance h
  rw [pool, subBalance_balance, update_self] at hsub
  rw [pool] at h hsub
  omega

theorem pool_add_le_totalBalance (h : a ≠ poolAddress) : st.pool + (st.balance a).toNat ≤ st.totalBalance := by
  have hle : ∑ x ∈ {poolAddress, a}, (st.balance x).toNat ≤ st.totalBalance :=
    Finset.sum_le_sum_of_subset fun x _ => mem_accounts x
  rwa [Finset.sum_pair h.symm] at hle

theorem totalBalance_release (h0 : 0 ≤ v) (h : v ≤ st.pool) (hfit : st.totalBalance < 2 ^ 256) :
    (st.release a v).totalBalance = st.totalBalance := by
  have hp : st.pool < 2 ^ 256 := (st.balance poolAddress).isLt
  have hv := toNat_ofNat_toNat h0 (by omega)
  unfold release
  split
  · generalize hx : BitVec.ofNat 256 v.toNat = x at *
    have hle : x.toNat ≤ st.pool := by omega
    have hsub := totalBalance_subBalance hle
    have hadd : ((st.subBalance poolAddress x).addBalance a x).totalBalance +
        ((st.subBalance poolAddress x).balance a).toNat = (st.subBalance poolAddress x).totalBalance +
          ((st.subBalance poolAddress x).balance a + x).toNat := totalBalance_update rfl
    have hnowrap : ((st.subBalance poolAddress x).balance a).toNat + x.toNat < 2 ^ 256 := by
      by_cases ha : a = poolAddress
      · have := pool_subBalance hle
        rw [ha]
        change (st.subBalance poolAddress x).pool + x.toNat < 2 ^ 256
        omega
      · have : st.pool + (st.balance a).toNat ≤ st.totalBalance := pool_add_le_totalBalance ha
        rw [subBalance_balance, update_of_ne ha]
        omega
    rw [BitVec.toNat_add, Nat.mod_eq_of_lt hnowrap] at hadd
    omega
  · rfl

end StateDB

/-! ## Tickets -/

def NoTickets (st : StateDB) : Prop := ∀ k, st.storage (confidentialFeeTicket k) = 0

theorem NoTickets.congr (h : NoTickets s)
    (hs : ∀ k, t.storage (confidentialFeeTicket k) = s.storage (confidentialFeeTicket k)) : NoTickets t :=
  fun k => (hs k).trans (h k)

theorem NoTickets.take (hn : NoTickets s)
    (hs : ∀ k, k ≠ h → t.storage (confidentialFeeTicket k) = s.storage (confidentialFeeTicket k)) :
    NoTickets (t.setState (confidentialFeeTicket h) 0) := by
  intro k
  by_cases hk : k = h
  · rw [hk]
    exact update_self ..
  · rw [StateDB.setState_storage, update_of_ne, hs k hk, hn k]
    intro heq
    exact hk (Hash.bytes_inj (by simpa [confidentialFeeTicket] using heq))

section
variable {tx : Tx}

theorem NoteEnvelope.feeMode_eq (h : NoteEnvelope B data e)
    (ha : cfg.isConfidentialLedger hd.number hd.time.toNat = true) : feeMode B cfg hd data = .ok e.feeMode := by
  have hoff : ¬ ¬ cfg.isConfidentialLedger hd.number hd.time.toNat = true := not_not.mpr ha
  rw [feeMode, if_neg hoff]
  cases h with
  | v3 e hp hdec =>
    have h5 : hasShieldedV5Prefix data = false := hasPrefix_false hp
    have h4 : hasShieldedV4Prefix data = false := hasPrefix_false hp
    simp [h5, h4, hdec, Except.map, Except.mapError]
  | v4 e hp hdec =>
    have h5 : hasShieldedV5Prefix data = false := hasPrefix_false hp
    simp [h5, hp, hdec, Except.map, Except.mapError]
  | v5 e hp hdec => simp [hp, hdec, Except.map, Except.mapError]

def prepaidFee (tx : Tx) : Nat := tx.gas * tx.gasFeeCap

/-- The shielded rules burnt the fee of `tx`: the pool loses the fee and pays the withdrawal, and a ticket is left. -/
structure Burnt (B : Backend) (cfg : ChainConfig) (num time : Nat) (tx : Tx) (e : ShieldedV3Transaction)
    (s t : StateDB) : Prop where
  envelope : NoteEnvelope B tx.data e
  mode : e.feeMode = shieldedFeePrepaid
  fee : PrepaidFee cfg num time tx e
  toPool : tx.toAddr = some poolAddress
  codeFree : t.codeSize poolAddress = 0
  withdrawal : 0 ≤ e.withdrawal
  covered : prepaidFee tx + e.withdrawal ≤ s.pool
  balance : t.balance = ((s.subBalance poolAddress (BitVec.ofNat 256 (prepaidFee tx))).release e.withdrawalRecipient
    e.withdrawal).balance
  ticket : t.storage (confidentialFeeTicket tx.hash) = bigToHash (prepaidFee tx)
  tickets : ∀ k, k ≠ tx.hash → t.storage (confidentialFeeTicket k) = s.storage (confidentialFeeTicket k)

theorem Payout.Paid.unburned {p : Payout} (h : p.Paid tx s t) (hp : p.burned = 0) (k : Hash) :
    t.storage (confidentialFeeTicket k) = s.storage (confidentialFeeTicket k) := by
  by_cases hk : k = tx.hash
  · rw [hk, h.ticket, if_pos hp]
  · exact h.tickets k hk

theorem NoteRun.burnt {l : List Digest}
    {link : Option Digest} (h : NoteRun B cfg num time tx e l link w w') (henv : NoteEnvelope B tx.data e)
    (hm : e.feeMode = shieldedFeePrepaid) : Burnt B cfg num time tx e w.st w'.st := by
  obtain ⟨ledger, sender, hl, _, hpaid⟩ := h.paid
  have hfee := ledgerShape_prepaid h.fee hm
  have hsome : ledger.isSome = true := by
    rw [noteLedger, if_pos hfee.active] at hl
    obtain ⟨t, _, rfl⟩ := except_map_ok.mp hl
    rfl
  have hburned : (notePayout e ledger sender).burned = prepaidFee tx := (if_pos ⟨hsome, hm⟩).trans hfee.sponsor
  have hsponsor : (notePayout e ledger sender).sponsor = 0 := if_pos ⟨hsome, hm⟩
  have hpos : prepaidFee tx ≠ 0 := Nat.ne_of_gt hfee.pos
  refine ⟨henv, hm, hfee, h.shape.toPool, ?_, h.shape.withdrawal, ?_, ?_, ?_, hpaid.tickets⟩
  · rw [hpaid.codeSize, h.facts.codeFree]
  · have hres := h.facts.reserve
    have hle := spendable_le_pool w.st e.asset
    have hs : e.sponsor = prepaidFee tx := hfee.sponsor
    omega
  · rw [hpaid.balance, Payout.pay, hburned, hsponsor]
    rfl
  · rw [hpaid.ticket, hburned, if_neg (by exact_mod_cast hpos)]

theorem Accepted.ticket_cases (h : Accepted B cfg num time tx w w') :
    (∀ k, w'.st.storage (confidentialFeeTicket k) = w.st.storage (confidentialFeeTicket k)) ∨
      ∃ e, Burnt B cfg num time tx e w.st w'.st := by
  cases h with
  | idle _ h => exact .inl h.tickets.ticket
  | v6 e ledger _ h => exact .inl (h.paid.unburned rfl)
  | legacy e ledger _ h =>
    obtain ⟨sender, _, hpaid⟩ := h.paid
    exact .inl (hpaid.unburned rfl)
  | note e l link _ henv h =>
    by_cases hm : e.feeMode = shieldedFeePrepaid
    · exact .inr ⟨e, h.burnt henv hm⟩
    · obtain ⟨ledger, sender, _, _, hpaid⟩ := h.paid
      exact .inl (hpaid.unburned (if_neg fun hp => hm hp.2))

/-! ## No ticket outlives its transaction -/

theorem checkPrepaid_ticket (h : checkPrepaid msg st = .ok u) :
    st.storage (confidentialFeeTicket msg.hash) = bigToHash (prepaidFee msg.toTx) ∧
      bigToHash (prepaidFee msg.toTx) ≠ 0 := by
  simp only [checkPrepaid, ok_rules, not_or, not_not, Nat.not_le] at h
  obtain ⟨_, _, hpos, hfits, hticket⟩ := h
  change prepaidFee msg.toTx < 2 ^ 256 at hfits
  refine ⟨hticket, fun h0 => hpos ?_⟩
  have hnat := congrArg BitVec.toNat h0
  rwa [bigToHash, Int.natAbs_natCast, BitVec.toNat_ofNat, Nat.mod_eq_of_lt hfits] at hnat

theorem runMessage_tickets (hM : M.SparesTickets) (gas : Nat) (j : Journal StateDB) (k : Hash) :
    (runMessage M cfg hd msg gas j).state.current.storage (confidentialFeeTicket k) =
      j.current.storage (confidentialFeeTicket k) := by
  unfold runMessage
  split
  · exact hM.create ..
  · rw [hM.call]
    split
    · rfl
    · exact hM.authorizations ..

theorem settledState_storage :
    (settledState coinbase msg prepaid remaining tip st).storage = st.storage := by
  unfold settledState
  split <;> rfl

theorem Purchase.noTickets (hn : NoTickets s)
    (hcases : (∀ k, t.storage (confidentialFeeTicket k) = s.storage (confidentialFeeTicket k)) ∨
      ∃ e, Burnt B cfg num time tx e s t) (hnum : num = hd.number) (htime : time = hd.time.toNat) (htx : msg.toTx = tx)
    (ht : ∀ k, t'.storage (confidentialFeeTicket k) = t.storage (confidentialFeeTicket k))
    (h : Purchase B M cfg hd msg t' u p) : NoTickets u := by
  subst hnum htime htx
  cases h with
  | fromNote hm hc hst =>
    rw [hst]
    apply NoTickets.take hn
    intro k hk
    rw [ht]
    rcases hcases with hkeep | ⟨e, hburnt⟩
    · exact hkeep k
    · exact hburnt.tickets k hk
  | fromSender mode cost hm hne hc hst =>
    rcases hcases with hkeep | ⟨e, hburnt⟩
    · rw [hst]
      exact hn.congr fun k => (ht k).trans (hkeep k)
    · -- the envelope of a burnt fee is read as prepaid
      have hmode : feeMode B cfg hd msg.data = .ok e.feeMode := hburnt.envelope.feeMode_eq hburnt.fee.active
      rw [hm, hburnt.mode] at hmode
      exact absurd (Except.ok.inj hmode) hne

theorem importTransaction_noTickets {s s' : ImportState} {r : Receipt × ExecutionResult}
    (hM : M.SparesTickets) (hn : NoTickets s.state.current)
    (h : importTransaction B M cfg coinbase hd tx s = (.ok r, s')) : NoTickets s'.state.current := by
  obtain ⟨msg, w, b, c₁, c₂, c₃, prepaid, hrun⟩ := importTransaction_run h
  have hbought : NoTickets c₂.state.current := Purchase.noTickets hn
    (processShieldedTransaction_accepted hrun.shielded).ticket_cases rfl rfl (transactionToMessage_tx hrun.message)
    (fun k => hrun.applied.stamp_frame.calm.tickets.ticket k) (buyGas_ok hrun.applied.bought)
  obtain ⟨cost, floor, _, remaining, peak, _, hst, _⟩ := executePurchased_ok hrun.applied.executed
  have hexec : NoTickets c₃.state.current := by
    refine hbought.congr fun k => ?_
    rw [hst, settledState_storage, runMessage_tickets hM]
  have hfinal : NoTickets b.state.current := by
    intro k
    rw [hrun.applied.finalised]
    rcases hM.finalise c₃.state.current k with hk | hk
    · rw [hk, hexec k]
    · exact hk
  exact hfinal.congr (importHooks_move hrun.idle (transactionToMessage_sender hrun.message) hrun.hooks).tickets

/-- The states of a chain between transactions: accepted transactions in blocks of any header, and steps that leave
the fee tickets alone, such as rewards, system calls and the start of a block. -/
inductive BetweenTxs (B : Backend) (M : Machine) (cfg : ChainConfig) : ImportState → Prop
  | start {s : ImportState} (h : NoTickets s.state.current) : BetweenTxs B M cfg s
  | accepted {s s' : ImportState} {coinbase : Address} {hd : Header} {tx : Tx} {r : Receipt × ExecutionResult}
      (hs : BetweenTxs B M cfg s) (h : importTransaction B M cfg coinbase hd tx s = (.ok r, s')) : BetweenTxs B M cfg s'
  | other {s s' : ImportState} (hs : BetweenTxs B M cfg s)
      (h : ∀ k, s'.state.current.storage (confidentialFeeTicket k) =
        s.state.current.storage (confidentialFeeTicket k)) : BetweenTxs B M cfg s'

theorem BetweenTxs.noTickets {s : ImportState} (hM : M.SparesTickets) (h : BetweenTxs B M cfg s) :
    NoTickets s.state.current := by
  induction h with
  | start h => exact h
  | accepted _ h ih => exact importTransaction_noTickets hM ih h
  | other _ h ih => exact ih.congr h

/-! ## The transaction of a prepaid note -/

theorem settleGas_prepaid (r : Rules) (limit left refund floor : Nat) :
    (settleGas r limit left refund floor true).1 = 0 := by
  unfold settleGas
  simp only [if_true]
  split
  · simp
  · rfl

theorem runMessage_balance (hM : M.Plain)
    (hto : msg.toAddr = some callee) (hauth : msg.setCodeAuthorizations = none) (hv : msg.value = 0)
    (hcode : j.current.codeSize callee = 0) :
    (runMessage M cfg hd msg gas j).state.current.balance = j.current.balance := by
  simp only [runMessage, hto, hauth, hv]
  generalize hj : j.write (fun st => st.setNonce msg.sender (st.nonce msg.sender + 1)) = j'
  have hbal : j'.current.balance = j.current.balance := by rw [← hj]; rfl
  have hcode' : j'.current.codeSize callee = 0 := by rw [← hj]; exact hcode
  rcases hM.call hd msg.sender callee msg.data gas 0 j' hcode' with h | h
  · rw [h, hbal]
  · rw [h, ← hbal]
    simp [StateDB.transfer]

theorem NoteEnvelope.hooks (henv : NoteEnvelope B tx.data e) (hidle : Idle cfg hd tx.data)
    (h : importHooks B M cfg hd tx sender b = (.ok (), b')) : b' = b := by
  have hvote : hasAddressVotePrefix tx.data = false := henv.other_magic
  have hreg : hasValidatorRegistrationPrefix tx.data = false := henv.other_magic
  have hslash : hasValidatorSlashPrefix tx.data = false := henv.other_magic
  have hexit : hasValidatorExitPrefix tx.data = false := henv.other_magic
  have hwith : hasValidatorWithdrawalPrefix tx.data = false := henv.other_magic
  simp only [importHooks, hidle.oracle, hidle.crossChain, hvote, hreg, hslash, hexit, hwith, Bool.or_self,
    Bool.and_false, Proc.runWhen_false, Proc.pure_bind] at h
  exact (Proc.pure_ok.mp h).2.symm

def BurnsFee (tx : Tx) (s t : StateDB) : Prop :=
  ∃ (recipient : Address) (withdrawal : Int), 0 ≤ withdrawal ∧ prepaidFee tx + withdrawal ≤ s.pool ∧
    t.balance = ((s.subBalance poolAddress (BitVec.ofNat 256 (prepaidFee tx))).release recipient withdrawal).balance

theorem Burnt.burnsFee (h : Burnt B cfg num time tx e s t) : BurnsFee tx s t :=
  ⟨e.withdrawalRecipient, e.withdrawal, h.withdrawal, h.covered, h.balance⟩

theorem BurnsFee.wordBalance (h : BurnsFee tx s t) :
    t.wordBalance + BitVec.ofNat 256 (prepaidFee tx) = s.wordBalance := by
  obtain ⟨recipient, withdrawal, _, _, hbal⟩ := h
  rw [StateDB.wordBalance_congr hbal, StateDB.wordBalance_release, StateDB.wordBalance_subBalance]

theorem BurnsFee.totalBalance (h : BurnsFee tx s t) (hfit : s.totalBalance < 2 ^ 256) :
    t.totalBalance + prepaidFee tx = s.totalBalance := by
  obtain ⟨recipient, withdrawal, h0, hcov, hbal⟩ := h
  have hp : s.pool < 2 ^ 256 := (s.balance poolAddress).isLt
  have hfee : (BitVec.ofNat 256 (prepaidFee tx)).toNat = prepaidFee tx := by
    rw [BitVec.toNat_ofNat, Nat.mod_eq_of_lt (by omega)]
  rw [StateDB.totalBalance_congr hbal]
  generalize BitVec.ofNat 256 (prepaidFee tx) = x at *
  have hle : x.toNat ≤ s.pool := by omega
  have hpool := StateDB.pool_subBalance hle
  have hsub := StateDB.totalBalance_subBalance hle
  rw [StateDB.totalBalance_release h0 (by omega) (by omega)]
  omega

theorem Accepted.burnt_of_ticket (h : Accepted B cfg num time tx w w')
    (hn : NoTickets w.st) (ht : w'.st.storage (confidentialFeeTicket tx.hash) ≠ 0) :
    ∃ e, Burnt B cfg num time tx e w.st w'.st := by
  rcases h.ticket_cases with hkeep | hburnt
  · exact absurd ((hkeep tx.hash).trans (hn tx.hash)) ht
  · exact hburnt

theorem Purchase.prepaid (hm : feeMode B cfg hd msg.data = .ok shieldedFeePrepaid)
    (h : Purchase B M cfg hd msg st st' p) :
    p = true ∧ checkPrepaid msg st = .ok () ∧ st' = st.setState (confidentialFeeTicket msg.hash) 0 := by
  cases h with
  | fromNote _ hc hst => exact ⟨rfl, hc, hst⟩
  | fromSender mode cost hm' hne _ _ => exact absurd (Except.ok.inj (hm'.symm.trans hm)) hne

theorem buyGas_prepaid_again (hm : feeMode B cfg hd msg.data = .ok shieldedFeePrepaid)
    (h0 : b.state.current.storage (confidentialFeeTicket msg.hash) = 0) :
    buyGas B M cfg hd msg b ≠ (.ok p, b') := by
  intro h
  obtain ⟨_, hc, _⟩ := (buyGas_ok h).prepaid hm
  obtain ⟨hticket, hne⟩ := checkPrepaid_ticket hc
  exact hne (hticket.symm.trans h0)

theorem checkPrepaid_type (h : checkPrepaid msg st = .ok u) : msg.type = .pqTkm := by
  simp only [checkPrepaid, ok_rules, not_or, not_not] at h
  obtain ⟨_, ⟨htype, _⟩, _⟩ := h
  exact htype

theorem importTransaction_prepaid {s s' : ImportState} {r : Receipt × ExecutionResult}
    (hM : M.Plain) (htx : tx.Typed) (hn : NoTickets s.state.current)
    (hm : feeMode B cfg hd tx.data = .ok shieldedFeePrepaid)
    (h : importTransaction B M cfg coinbase hd tx s = (.ok r, s')) :
    r.1.gasUsed = tx.gas ∧ r.2.usedGas = tx.gas ∧ ∃ w,
      processShieldedTransaction B cfg hd.number hd.time.toNat tx ⟨s.state.current, s.seen⟩ = (.ok (), w) ∧
      BurnsFee tx s.state.current w.st ∧ s'.state.current.balance = w.st.balance := by
  obtain ⟨msg, w, b, c₁, c₂, c₃, prepaid, hrun⟩ := importTransaction_run h
  obtain rfl := transactionToMessage_tx hrun.message
  obtain ⟨rfl, hcheck, hbought⟩ := (buyGas_ok hrun.applied.bought).prepaid hm
  have hframe : TreeFrame w.st c₁.state.current := hrun.applied.stamp_frame
  obtain ⟨hticket, hne⟩ := checkPrepaid_ticket hcheck
  rw [hframe.calm.tickets.ticket] at hticket
  obtain ⟨e, hburnt⟩ := (processShieldedTransaction_accepted hrun.shielded).burnt_of_ticket hn (hticket ▸ hne)
  obtain ⟨cost, floor, _, remaining, peak, hgas, hst, hused⟩ := executePurchased_ok hrun.applied.executed
  have hall : remaining = 0 := by
    rw [← settleGas_prepaid (rules cfg hd.number hd.time.toNat), hgas]
  have hgasUsed : r.2.usedGas = msg.gas := by rw [hused, hall, Nat.sub_zero]
  refine ⟨hrun.applied.receipt.trans hgasUsed, hgasUsed, w, hrun.shielded, hburnt.burnsFee, ?_⟩
  have hauth : msg.setCodeAuthorizations = none := by
    apply htx.authorizations
    rw [checkPrepaid_type hcheck]
    exact nofun
  have hcode : c₂.state.current.codeSize poolAddress = 0 := by
    rw [hbought]
    exact (congrFun hframe.codeSize poolAddress).trans hburnt.codeFree
  calc s'.state.current.balance = b.state.current.balance := by rw [hburnt.envelope.hooks hrun.idle hrun.hooks]
    _ = c₃.state.current.balance := by rw [hrun.applied.finalised, hM.finalise]
    _ = c₂.state.current.balance := by
      rw [hst]
      exact runMessage_balance hM hburnt.toPool hauth hburnt.fee.value hcode
    _ = w.st.balance := by
      rw [hbought]
      exact hframe.balance

theorem prepaid_fee_paid_once {s : ImportState} (hM : M.Plain) (hT : M.SparesTickets) (htx : tx.Typed)
    (hs : BetweenTxs B M cfg s) (hmsg : transactionToMessage B cfg hd tx = .ok msg)
    (hm : feeMode B cfg hd tx.data = .ok shieldedFeePrepaid) :
    -- the purchase: the fee was burnt by the same transaction, and its ticket is new and taken once
    (∀ w b b' p, processShieldedTransaction B cfg hd.number hd.time.toNat tx ⟨s.state.current, s.seen⟩ = (.ok (), w) →
      b.state.current = w.st → buyGas B M cfg hd msg b = (.ok p, b') →
      p = true ∧ BurnsFee tx s.state.current w.st ∧
        s.state.current.storage (confidentialFeeTicket tx.hash) = 0 ∧
        w.st.storage (confidentialFeeTicket tx.hash) = bigToHash (prepaidFee tx) ∧
        b'.state.current.storage (confidentialFeeTicket tx.hash) = 0 ∧
        ∀ c q c', c.state.current.storage (confidentialFeeTicket tx.hash) =
          b'.state.current.storage (confidentialFeeTicket tx.hash) → buyGas B M cfg hd msg c ≠ (.ok q, c')) ∧
    -- the whole transaction: all gas is used, the fee is all that is lost, and nobody but a withdrawal is paid
    ∀ coinbase r s', importTransaction B M cfg coinbase hd tx s = (.ok r, s') →
      s'.state.current.storage (confidentialFeeTicket tx.hash) = 0 ∧ r.1.gasUsed = tx.gas ∧ r.2.usedGas = tx.gas ∧
        (∃ w, processShieldedTransaction B cfg hd.number hd.time.toNat tx ⟨s.state.current, s.seen⟩ = (.ok (), w) ∧
          BurnsFee tx s.state.current w.st ∧ s'.state.current.balance = w.st.balance) ∧
        s'.state.current.wordBalance + BitVec.ofNat 256 (prepaidFee tx) = s.state.current.wordBalance ∧
        (s.state.current.totalBalance < 2 ^ 256 →
          s'.state.current.totalBalance + prepaidFee tx = s.state.current.totalBalance) := by
  have hn := hs.noTickets hT
  obtain rfl := transactionToMessage_tx hmsg
  constructor
  · intro w b b' p hsh hb hbuy
    obtain ⟨hp, hcheck, hst⟩ := (buyGas_ok hbuy).prepaid hm
    obtain ⟨hticket, hne⟩ := checkPrepaid_ticket hcheck
    rw [hb] at hticket
    obtain ⟨e, hburnt⟩ := (processShieldedTransaction_accepted hsh).burnt_of_ticket hn (hticket ▸ hne)
    have hgone : b'.state.current.storage (confidentialFeeTicket msg.hash) = 0 := by
      rw [hst]
      exact update_self ..
    exact ⟨hp, hburnt.burnsFee, hn _, hticket, hgone, fun c q c' hc => buyGas_prepaid_again hm (hc.trans hgone)⟩
  · intro coinbase r s' h
    obtain ⟨hgas, hused, w, hsh, hburns, hbal⟩ := importTransaction_prepaid hM htx hn hm h
    refine ⟨importTransaction_noTickets hT hn h _, hgas, hused, ⟨w, hsh, hburns, hbal⟩, ?_, fun hfit => ?_⟩
    · rw [StateDB.wordBalance_congr hbal, hburns.wordBalance]
    · rw [StateDB.totalBalance_congr hbal, hburns.totalBalance hfit]

end

/-! ## A note that pays its gas -/

def prepaidSpend : ShieldedV3Transaction := { gateSpend 5 with
  stampRoot := ⟨Vector.replicate 5 1⟩
  gasSponsorValue := some confidentialPrepaidGas
  feeMode := shieldedFeePrepaid }

def prepaidBackend : Backend := { gateBackend with decodeV3 := fun _ => some prepaidSpend }

def prepaidTx : Tx := { gateTx (Bytes.ofText shieldedV3Magic) with
  gas := confidentialPrepaidGas
  gasFeeCap := 1
  gasTipCap := 1
  publicKey := List.replicate mldsa87PublicKeySize 1 }

def prepaidHeader : Header :=
  { parentHash := 0, difficulty := 1, number := 1, time := 1, gasLimit := 7000000, baseFee := some 0,
    fits := Header.fits_one }

def prepaidBlock : ImportState where
  state := Journal.ofState { emptyState with
    balance := Function.update (fun _ => 0) poolAddress (10 ^ 9)
    storage := fun k =>
      if k = stampAddressSlot 7 ∨ k = .v3 .stampRoot prepaidSpend.stampRoot.bytes ∨
        k = assetSlot assetTKM .root prepaidSpend.anchor.bytes then 1 else 0 }
  gasPool := newGasPool confidentialPrepaidGas
  seen := ∅

theorem prepaidBlock_noTickets : NoTickets prepaidBlock.state.current := by
  intro k
  have hother : ¬ (confidentialFeeTicket k = stampAddressSlot 7 ∨
      confidentialFeeTicket k = .v3 .stampRoot prepaidSpend.stampRoot.bytes ∨
      confidentialFeeTicket k = assetSlot assetTKM .root prepaidSpend.anchor.bytes) := by
    rintro (h | h | h) <;> cases h
  exact (if_neg hother : (if _ then 1 else 0 : Hash) = 0)

theorem prepaid_fee_paid_once_spend : ∃ r s',
    importTransaction prepaidBackend transferMachine (antarticalConfig true) 0 prepaidHeader prepaidTx prepaidBlock =
      (.ok r, s') ∧ r.2.usedGas = 7000000 ∧
      s'.state.current.wordBalance + 7000000 = prepaidBlock.state.current.wordBalance := by
  obtain ⟨r, s', h⟩ := Proc.exists_of_isOk (x := importTransaction prepaidBackend transferMachine (antarticalConfig true)
    0 prepaidHeader prepaidTx) (s := prepaidBlock) (by decide +kernel)
  obtain ⟨msg, hmsg⟩ := except_exists_of_isOk
    (x := transactionToMessage prepaidBackend (antarticalConfig true) prepaidHeader prepaidTx) (by decide +kernel)
  have hpaid := (prepaid_fee_paid_once transferMachine_plain transferMachine_sparesTickets ⟨fun _ => rfl, fun _ => rfl⟩
    (.start prepaidBlock_noTickets) hmsg (by decide +kernel)).2 0 r s' h
  exact ⟨r, s', h, hpaid.2.2.1, hpaid.2.2.2.2.1⟩

end TkmChain
