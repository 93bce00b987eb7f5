import TkmChain.ImportSound
import TkmChain.PayoutSound

/-!
# Stamps guard every account

Under Antartical every path of the shielded rules runs the stamp rule on the
state the transaction finds. From that rule: an unstamped sender can only
register its own stamp, and whoever is paid, by a withdrawal or by the value of
the message, is the pool or stamped.
-/

namespace TkmChain

variable {st s t : StateDB}

section
variable {B : Backend} {tx : Tx} {w w' : World} {sender : Address}

/-! ## Where the rule runs -/

theorem processAntarticalStamp_rule
    (hp : hasAntarticalStampPrefix tx.data = true) (h : processAntarticalStamp B cfg num time tx st = (.ok (), st')) :
    ∃ sender, B.sender cfg num time tx = .ok sender ∧ validateAntarticalStampState B st sender tx = .ok () := by
  simp only [processAntarticalStamp, Proc.run_rules] at h
  obtain ⟨hbasics, sender, hs, e, he, _, _, hsponsor, _⟩ := h
  refine ⟨sender, hs, ?_⟩
  simp only [validateAntarticalStampBasics, ok_rules, not_not] at hbasics
  obtain ⟨_, _, _, ⟨hpool, hvalue⟩, _⟩ := hbasics
  simp only [toPool, Bool.and_eq_true, decide_eq_true_eq] at hpool
  rw [validateAntarticalStampState, if_pos hp]
  simp only [ok_rules, not_or, not_not]
  exact ⟨(), ⟨hpool.1.2, hvalue⟩, e, he, failIf_ok.mp hsponsor⟩

theorem processShieldedTransaction_rule (ha : cfg.isAntartical num time = true)
    (h : processShieldedTransaction B cfg num time tx w = (.ok (), w')) :
    ∃ sender, B.sender cfg num time tx = .ok sender ∧ validateAntarticalStampState B w.st sender tx = .ok () := by
  unfold processShieldedTransaction at h
  split at h
  · simp only [processShieldedV6, Proc.run_rules] at h
    obtain ⟨_, _, e, _, sender, hs, hrule, _⟩ := h
    exact ⟨sender, hs, hrule⟩
  split at h
  · simp only [processShieldedV5, Proc.run_rules] at h
    obtain ⟨_, e, _, sender, hs, hrule, _⟩ := h
    exact ⟨sender, hs, hrule⟩
  · obtain ⟨_, _, hread, h⟩ := Proc.bind_ok.mp h
    obtain ⟨_, rfl⟩ := Proc.read_ok.mp hread
    unfold processAntartical at h
    split at h
    · rename_i hp
      obtain ⟨st, hstamp, _⟩ := Proc.zoom_ok.mp h
      exact processAntarticalStamp_rule hp hstamp
    · simp only [Proc.run_rules] at h
      obtain ⟨sender, hs, hrule, _⟩ := h
      exact ⟨sender, hs, hrule⟩

/-! ## What the rule says -/

def SelfStamp (B : Backend) (tx : Tx) : Prop :=
  hasAntarticalStampPrefix tx.data = true ∧ tx.toAddr = some poolAddress ∧ tx.value = 0 ∧
    ∃ e, decodeAntarticalStamp B tx.data = .ok e ∧ e.beneficiaryPublicKey = []

theorem checkStampedSender_ok (h : checkStampedSender st sender = .ok u) : isAntarticalStamped st sender = true := by
  simp only [checkStampedSender, ok_rules, not_not] at h
  obtain ⟨_, _, h⟩ := h
  exact h

theorem addressVote_stamped
    (h : validateAddressVoteState B st sender data = .ok u) : isAntarticalStamped st sender = true := by
  simp only [validateAddressVoteState, addressVoteOwner, ok_rules, not_not] at h
  obtain ⟨_, _, _, _, _, _, _, ⟨_, h, _⟩, _⟩ := h
  exact h

theorem memberRule_ok
    (h : (do failIf (tx.toAddr ≠ some poolAddress ∨ tx.value ≠ value) text; checkStampedSender st sender) = .ok u) :
    tx.toAddr = some poolAddress ∧ isAntarticalStamped st sender = true := by
  simp only [ok_rules, not_or, not_not] at h
  obtain ⟨_, ⟨hto, _⟩, hsender⟩ := h
  exact ⟨hto, checkStampedSender_ok hsender⟩

structure StampRule (B : Backend) (st : StateDB) (sender : Address) (tx : Tx) : Prop where
  actor : isAntarticalStamped st sender = true ∨ SelfStamp B tx
  payee : 0 < tx.value → ∃ a, tx.toAddr = some a ∧ (a = poolAddress ∨ isAntarticalStamped st a = true)
  migration : ∀ e, decodeShieldedTransaction B tx.data = .ok (some e) → 0 < shieldedWithdrawalValue e →
    isAntarticalStamped st e.withdrawalRecipient = true

theorem StampRule.of_envelope (hp : hasPrefix tx.data magic = true)
    (hto : tx.toAddr = some poolAddress) (hactor : isAntarticalStamped st sender = true ∨ SelfStamp B tx)
    (hm : magic ∈ magics := by simp [magics]) (hne : magic ≠ shieldedTxMagic := by decide) :
    StampRule B st sender tx := by
  refine ⟨hactor, fun _ => ⟨poolAddress, hto, .inl rfl⟩, fun e he => ?_⟩
  rw [decodeShieldedTransaction_none hp hm hne] at he
  cases he

theorem checkEnvelopeWithdrawal_migration
    (h : checkEnvelopeWithdrawal B st tx.data = .ok u) (he : decodeShieldedTransaction B tx.data = .ok (some e))
    (hpos : 0 < shieldedWithdrawalValue e) : isAntarticalStamped st e.withdrawalRecipient = true := by
  have hno {magic : String} (hm : magic ∈ magics := by simp [magics]) (hne : magic ≠ shieldedTxMagic := by decide) :
      ¬ hasPrefix tx.data magic = true := by
    intro hp
    rw [decodeShieldedTransaction_none hp hm hne] at he
    cases he
  have h5 : ¬ hasShieldedV5Prefix tx.data = true := hno
  have h4 : ¬ hasShieldedV4Prefix tx.data = true := hno
  have h3 : ¬ hasShieldedV3Prefix tx.data = true := hno
  rw [checkEnvelopeWithdrawal, if_neg h5, if_neg h4, if_neg h3, he] at h
  have hcheck := failIf_ok.mp h
  by_contra hun
  refine hcheck ⟨?_, hun⟩
  unfold shieldedWithdrawalValue at hpos
  omega

theorem StampRule.of_ok (h : validateAntarticalStampState B st sender tx = .ok u) : StampRule B st sender tx := by
  unfold validateAntarticalStampState at h
  split at h
  · rename_i hp
    simp only [ok_rules, not_or, not_not, not_and] at h
    obtain ⟨_, ⟨hto, hvalue⟩, e, he, hsponsor⟩ := h
    refine .of_envelope hp hto ?_
    by_cases hkey : e.beneficiaryPublicKey = []
    · exact .inr ⟨hp, hto, hvalue, e, he, hkey⟩
    · exact .inl (hsponsor hkey)
  split at h
  · rename_i hp
    simp only [ok_rules, not_or, not_not] at h
    obtain ⟨_, ⟨hto, _⟩, hvote⟩ := h
    exact .of_envelope hp hto (.inl (addressVote_stamped hvote))
  split at h
  · rename_i hp
    obtain ⟨hto, hstamped⟩ := memberRule_ok h
    exact .of_envelope hp hto (.inl hstamped)
  split at h
  · rename_i hp
    obtain ⟨hto, hstamped⟩ := memberRule_ok h
    exact .of_envelope hp hto (.inl hstamped)
  split at h
  · rename_i hp
    obtain ⟨hto, hstamped⟩ := memberRule_ok h
    rcases Bool.or_eq_true_iff.mp hp with hp | hp
    · exact .of_envelope hp hto (.inl hstamped)
    · exact .of_envelope hp hto (.inl hstamped)
  · simp only [ok_rules, not_and] at h
    obtain ⟨_, hsender, _, hvalue, henv⟩ := h
    refine ⟨.inl (checkStampedSender_ok hsender), fun hpos => ?_, fun e he => checkEnvelopeWithdrawal_migration henv he⟩
    have hto := hvalue hpos
    cases htx : tx.toAddr with
    | none => simp [htx] at hto
    | some a =>
      refine ⟨a, rfl, ?_⟩
      simp only [htx, Option.all_some, Bool.and_eq_true, decide_eq_true_eq, Bool.not_eq_true'] at hto
      by_cases ha : a = poolAddress
      · exact .inl ha
      · exact .inr (by simpa [ha] using hto)

/-! ## Who is paid -/

def Spares (st : StateDB) (sender : Address) (s t : StateDB) : Prop :=
  ∀ a, a ≠ poolAddress → a ≠ sender → isAntarticalStamped st a = false → t.balance a = s.balance a

theorem Spares.trans {u : StateDB} (h : Spares st sender s t) (h' : Spares st sender t u) :
    Spares st sender s u := fun a hp hs hu => (h' a hp hs hu).trans (h a hp hs hu)

theorem Spares.of_balance (h : t.balance = s.balance) : Spares st sender s t :=
  fun a _ _ _ => congrFun h a

theorem Spares.subBalance (ha : a = poolAddress ∨ a = sender) : Spares st sender s (s.subBalance a v) := by
  intro x hp hs _
  apply Function.update_of_ne
  rintro rfl
  exact ha.elim hp hs

theorem Spares.addBalance
    (ha : a = poolAddress ∨ a = sender ∨ isAntarticalStamped st a = true) : Spares st sender s (s.addBalance a v) := by
  intro x hp hs hu
  apply Function.update_of_ne
  rintro rfl
  rcases ha with ha | ha | ha
  · exact hp ha
  · exact hs ha
  · rw [ha] at hu
    cases hu

theorem Spares.release
    (ha : 0 < v → a = sender ∨ isAntarticalStamped st a = true) : Spares st sender s (s.release a v) := by
  unfold StateDB.release
  split
  · rename_i hpos
    exact (Spares.subBalance (.inl rfl)).trans (Spares.addBalance (.inr (ha hpos)))
  · exact Spares.of_balance rfl

theorem Payout.Paid.spares {p : Payout} (h : p.Paid tx s t)
    (hr : 0 < p.withdrawal → isAntarticalStamped st p.recipient = true) (hs : 0 < p.sponsor → p.sender = sender) :
    Spares st sender s t := by
  have hpay : Spares st sender s (p.pay s) :=
    ((Spares.subBalance (.inl rfl)).trans (Spares.release fun hpos => .inr (hr hpos))).trans
      (Spares.release fun hpos => .inl (hs hpos))
  exact hpay.trans (Spares.of_balance h.balance)

theorem Accepted.spares (h : Accepted B cfg num time tx w w') (hs : B.sender cfg num time tx = .ok sender)
    (hrule : StampRule B w.st sender tx) : Spares w.st sender w.st w'.st ∧ w'.st.codeSize = w.st.codeSize := by
  cases h with
  | idle _ h => exact ⟨Spares.of_balance h.balance, h.codeSize⟩
  | v6 e ledger _ h => exact ⟨h.paid.spares h.stamped nofun, h.paid.codeSize⟩
  | note e l link _ _ h =>
    obtain ⟨ledger, a, _, ha, hpaid⟩ := h.paid
    exact ⟨hpaid.spares h.facts.stamped fun _ => Except.ok.inj (ha.symm.trans hs), hpaid.codeSize⟩
  | legacy e ledger hd h =>
    obtain ⟨a, ha, hpaid⟩ := h.paid
    refine ⟨hpaid.spares (hrule.migration e hd) fun hpos => ?_, hpaid.codeSize⟩
    -- only a V2 envelope sponsors gas, and its sender is recovered
    rw [legacySender, if_pos (h.sponsor (Int.ne_of_gt hpos)), hs] at ha
    exact (Except.ok.inj ha).symm

end

section
variable {B : Backend} {tx : Tx}

theorem runMessage_spares (hM : M.Plain)
    (hto : msg.toAddr = some callee) (hauth : msg.setCodeAuthorizations = none) (hcode : j.current.codeSize callee = 0)
    (hpay : 0 < msg.value → callee = poolAddress ∨ isAntarticalStamped st callee = true) :
    Spares st msg.sender j.current (runMessage M cfg hd msg gas j).state.current := by
  simp only [runMessage, hto, hauth]
  generalize hj : j.write (fun st => st.setNonce msg.sender (st.nonce msg.sender + 1)) = j'
  have hnonce : Spares st msg.sender j.current j'.current := by
    rw [← hj]
    exact Spares.of_balance rfl
  refine hnonce.trans ?_
  rcases hM.call hd msg.sender callee msg.data gas msg.value j' (by rw [← hj]; exact hcode) with h | h
  · exact Spares.of_balance (by rw [h])
  · rw [h]
    by_cases hv : 0 < msg.value
    · refine (Spares.subBalance (.inr rfl)).trans (Spares.addBalance ?_)
      exact (hpay hv).imp id .inr
    · obtain hv : msg.value = 0 := by omega
      rw [hv]
      exact Spares.of_balance (by simp [StateDB.transfer])

theorem Purchase.spares {p : Bool} (h : Purchase B M cfg hd msg s t p) :
    Spares st msg.sender s t ∧ t.codeSize = s.codeSize := by
  cases h with
  | fromNote _ _ hst =>
    rw [hst]
    exact ⟨Spares.of_balance rfl, rfl⟩
  | fromSender _ _ _ _ _ hst =>
    rw [hst]
    exact ⟨Spares.subBalance (.inr rfl), rfl⟩

theorem settledState_balance (hs : a ≠ msg.sender) (hc : a ≠ coinbase) :
    (settledState coinbase msg prepaid remaining tip st).balance a = st.balance a := by
  unfold settledState
  split
  · rfl
  · simp [hs, hc]

theorem unstamped_refused_and_unpaid {s s' : ImportState} {r : Receipt × ExecutionResult}
    (hM : M.Plain) (htx : tx.Typed) (ha : cfg.isAntartical hd.number hd.time.toNat = true)
    (h : importTransaction B M cfg coinbase hd tx s = (.ok r, s')) :
    ∃ sender, B.sender cfg hd.number hd.time.toNat tx = .ok sender ∧
      (isAntarticalStamped s.state.current sender = false → SelfStamp B tx) ∧
      ∀ callee, tx.toAddr = some callee → s.state.current.codeSize callee = 0 →
        ∀ a, a ≠ poolAddress → a ≠ coinbase → a ≠ sender →
          s.state.current.balance a < s'.state.current.balance a → isAntarticalStamped s.state.current a = true := by
  obtain ⟨msg, w, b, c₁, c₂, c₃, prepaid, hrun⟩ := importTransaction_run h
  have hsender := transactionToMessage_sender hrun.message
  obtain rfl := transactionToMessage_tx hrun.message
  obtain ⟨sender, hs, hok⟩ := processShieldedTransaction_rule ha hrun.shielded
  obtain rfl : sender = msg.sender := Except.ok.inj (hs.symm.trans hsender)
  have hrule := StampRule.of_ok hok
  refine ⟨msg.sender, hs, fun hun => ?_, fun callee hto hcode a hp hc hne hlt => ?_⟩
  · rcases hrule.actor with hstamped | hself
    · rw [hstamped] at hun
      cases hun
    · exact hself
  · by_contra hun
    rw [Bool.not_eq_true] at hun
    obtain ⟨hshielded, hcode₁⟩ := (processShieldedTransaction_accepted hrun.shielded).spares hs hrule
    have hframe : TreeFrame w.st c₁.state.current := hrun.applied.stamp_frame
    obtain ⟨hbought, hcode₂⟩ : Spares s.state.current msg.sender c₁.state.current c₂.state.current ∧ _ :=
      (buyGas_ok hrun.applied.bought).spares
    obtain ⟨cost, floor, _, remaining, peak, _, hst, _⟩ := executePurchased_ok hrun.applied.executed
    have hauth : msg.setCodeAuthorizations = none := by
      apply htx.authorizations
      rw [(checkMessage_private ha hrun.applied.checked).1]
      exact nofun
    have hfree : c₂.state.current.codeSize callee = 0 := by
      rw [hcode₂, hframe.codeSize, hcode₁, hcode]
    have hcall : Spares s.state.current msg.sender c₂.state.current
        (runMessage M cfg hd msg (msg.gas - cost) c₂.state).state.current := by
      refine runMessage_spares hM hto hauth hfree fun hv => ?_
      obtain ⟨a, hto', hpay⟩ := hrule.payee hv
      obtain rfl := Option.some.inj (hto'.symm.trans hto)
      exact hpay
    have hsame : s'.state.current.balance a = s.state.current.balance a := by
      calc s'.state.current.balance a = b.state.current.balance a :=
            (importHooks_move hrun.idle hsender hrun.hooks).balance a hp hne
        _ = c₃.state.current.balance a := by rw [hrun.applied.finalised, hM.finalise]
        _ = (runMessage M cfg hd msg (msg.gas - cost) c₂.state).state.current.balance a := by
          rw [hst, settledState_balance hne hc]
        _ = c₂.state.current.balance a := hcall a hp hne hun
        _ = c₁.state.current.balance a := hbought a hp hne hun
        _ = w.st.balance a := congrFun hframe.balance a
        _ = s.state.current.balance a := hshielded a hp hne hun
    rw [hsame] at hlt
    exact absurd hlt (BitVec.lt_irrefl _)

end

/-! ## A withdrawal to a stamped account -/

def payingSpend : ShieldedV3Transaction := { gateSpend 5 with
  stampRoot := ⟨Vector.replicate 5 1⟩
  withdrawalRecipient := 9 }

def payingBackend : Backend := { gateBackend with decodeV3 := fun _ => some payingSpend }

def payingTx : Tx := { gateTx (Bytes.ofText shieldedV3Magic) with
  gas := 7000000
  publicKey := List.replicate mldsa87PublicKeySize 1 }

def payingHeader : Header :=
  { parentHash := 0, difficulty := 1, number := 1, time := 1, gasLimit := 7000000, baseFee := some 0,
    fits := Header.fits_one }

def payingBlock : ImportState where
  state := Journal.ofState { emptyState with
    balance := Function.update (fun _ => 0) poolAddress 5
    storage := fun k =>
      if k = stampAddressSlot 7 ∨ k = stampAddressSlot 9 ∨ k = .v3 .stampRoot payingSpend.stampRoot.bytes ∨
        k = assetSlot assetTKM .root payingSpend.anchor.bytes then 1 else 0 }
  gasPool := newGasPool 7000000
  seen := ∅

theorem unstamped_refused_and_unpaid_spend :
    isAntarticalStamped payingBlock.state.current 9 = true ∧ ∃ r s',
      importTransaction payingBackend transferMachine (antarticalConfig false) 0 payingHeader payingTx payingBlock =
        (.ok r, s') ∧ payingBlock.state.current.balance 9 < s'.state.current.balance 9 := by
  have hrun : (importTransaction payingBackend transferMachine (antarticalConfig false) 0 payingHeader payingTx
      payingBlock).1.isOk = true ∧ payingBlock.state.current.balance 9 <
        (importTransaction payingBackend transferMachine (antarticalConfig false) 0 payingHeader payingTx
          payingBlock).2.state.current.balance 9 := by decide +kernel
  obtain ⟨r, s', h⟩ := Proc.exists_of_isOk hrun.1
  have hpaid := h ▸ hrun.2
  obtain ⟨sender, hs, _, hstamped⟩ := unstamped_refused_and_unpaid transferMachine_plain
    ⟨fun _ => rfl, fun _ => rfl⟩ (by decide) h
  obtain rfl : sender = 7 := (Except.ok.inj hs).symm
  exact ⟨hstamped poolAddress rfl rfl 9 (by decide) (by decide) (by decide) hpaid, r, s', h, hpaid⟩

end TkmChain
