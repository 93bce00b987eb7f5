import TkmChain.GatesSound
import TkmChain.Import
import TkmChain.MinerSound
import TkmChain.VoteSound

/-!
# The steps of an imported transaction

An accepted transaction is inverted into its steps and the states between them.
From Antartical on only PQ envelopes of the private protocols are executed, so
the user operation, oracle, cross-chain and private TVM hooks are never reached.
-/

namespace TkmChain

open Proc

variable {b b' : BlockState} {data : Bytes}

section
variable {B : Backend} {cfg : ChainConfig} {hd : Header} {tx : Tx}

/-! ## Inversion -/

structure ImportSteps (B : Backend) (M : Machine) (cfg : ChainConfig) (coinbase : Address) (hd : Header) (tx : Tx)
    (s s' : ImportState) (msg : Message) (w : World) (b₁ b₂ b₃ : BlockState) (receipt : Receipt)
    (result : ExecutionResult) (used : Nat) : Prop where
  message : transactionToMessage B cfg hd tx = .ok msg
  shielded : processShieldedTransaction B cfg hd.number hd.time.toNat tx ⟨s.state.current, s.seen⟩ = (.ok (), w)
  privateTVM : importPrivateTVM M cfg hd tx ⟨s.state.write fun _ => w.st, s.gasPool⟩ = (.ok (), b₁)
  applied : applyTransactionWithEVM B M cfg hd coinbase msg tx b₁ = (.ok (receipt, result), b₂)
  userOperation : userOperationHook M cfg hd tx b₂ = (.ok used, b₃)
  hooks : importHooks B M cfg hd tx msg.sender b₃ = (.ok (), s'.toBlockState)

theorem importShielded_ok (h : importShielded B cfg hd tx s = (.ok u, s')) :
    ∃ w, processShieldedTransaction B cfg hd.number hd.time.toNat tx ⟨s.state.current, s.seen⟩ = (.ok (), w) ∧
      s' = { s with state := s.state.write fun _ => w.st, seen := w.seen } := by
  simp only [importShielded, Prod.mk.injEq, except_mapError_ok] at h
  obtain ⟨hok, rfl⟩ := h
  exact ⟨_, Prod.ext hok rfl, rfl⟩

theorem importTransaction_ok (h : importTransaction B M cfg coinbase hd tx s = (.ok r, s')) :
    ∃ msg w b₁ b₂ b₃ receipt result used,
      ImportSteps B M cfg coinbase hd tx s s' msg w b₁ b₂ b₃ receipt result used ∧
      r = ({ receipt with
        gasUsed := receipt.gasUsed + used, cumulativeGasUsed := receipt.cumulativeGasUsed + used }, result) := by
  obtain ⟨msg, s₁, hmsg, h⟩ := bind_ok.mp h
  obtain ⟨_, s₂, hsh, h⟩ := bind_ok.mp h
  obtain ⟨_, s₃, htvm, h⟩ := bind_ok.mp h
  obtain ⟨⟨receipt, result⟩, s₄, happ, h⟩ := bind_ok.mp h
  obtain ⟨used, s₅, huser, h⟩ := bind_ok.mp h
  obtain ⟨_, s₆, hhooks, h⟩ := bind_ok.mp h
  obtain ⟨rfl, rfl⟩ := pure_ok.mp h
  obtain ⟨_, hread, rfl⟩ := zoom_ok.mp hmsg
  obtain ⟨hmessage, rfl⟩ := read_ok.mp hread
  obtain ⟨w, hw, rfl⟩ := importShielded_ok hsh
  obtain ⟨b₁, hb₁, rfl⟩ := zoom_ok.mp htvm
  obtain ⟨b₂, hb₂, rfl⟩ := zoom_ok.mp happ
  obtain ⟨b₃, hb₃, rfl⟩ := zoom_ok.mp huser
  obtain ⟨b₄, hb₄, rfl⟩ := zoom_ok.mp hhooks
  exact ⟨msg, w, b₁, b₂, b₃, receipt, result, used, ⟨hmessage, hw, hb₁, hb₂, hb₃, hb₄⟩, rfl⟩

structure ApplySteps (B : Backend) (M : Machine) (cfg : ChainConfig) (coinbase : Address) (hd : Header) (tx : Tx)
    (msg : Message) (b b' b₁ b₂ b₃ : BlockState) (prepaid : Bool) (receipt : Receipt) (result : ExecutionResult) :
    Prop where
  stamp : Proc.runWhen (cfg.isAntartical hd.number hd.time.toNat && hasAntarticalStampPrefix tx.data)
    (BlockState.onState (processAntarticalStamp B cfg hd.number hd.time.toNat tx)) b = (.ok (), b₁)
  checked : checkMessage B M cfg hd msg b₁.state.current = .ok ()
  bought : buyGas B M cfg hd msg b₁ = (.ok prepaid, b₂)
  executed : executePurchased B M cfg hd coinbase msg prepaid b₂ = (.ok result, b₃)
  finalised : b'.state.current = M.finalise b₃.state.current
  receipt : receipt.gasUsed = result.usedGas

theorem applyTransactionWithEVM_ok
    (h : applyTransactionWithEVM B M cfg hd coinbase msg tx b = (.ok (receipt, result), b')) :
    ∃ b₁ b₂ b₃ prepaid, ApplySteps B M cfg coinbase hd tx msg b b' b₁ b₂ b₃ prepaid receipt result := by
  obtain ⟨_, _, honly, h⟩ := bind_ok.mp h
  obtain ⟨_, rfl⟩ := read_ok.mp honly
  obtain ⟨_, b₁, hstamp, h⟩ := bind_ok.mp h
  obtain ⟨res, b₃, hexec, h⟩ := bind_ok.mp h
  obtain ⟨prepaid, b₂, hpre, hrun⟩ := bind_ok.mp hexec
  obtain ⟨_, _, hread, hbuy⟩ := bind_ok.mp hpre
  obtain ⟨hcheck, rfl⟩ := read_ok.mp hread
  simp only [finaliseTransaction, Prod.mk.injEq, Except.ok.injEq] at h
  obtain ⟨⟨rfl, rfl⟩, rfl⟩ := h
  exact ⟨b₁, b₂, b₃, prepaid, hstamp, hcheck, hbuy, hrun, rfl, rfl⟩

theorem takeGas_ok (h : takeGas gas check pay b = (.ok u, b')) :
    ∃ a, check b.state.current = .ok a ∧ b'.state.current = pay a b.state.current := by
  obtain ⟨a, _, hread, h⟩ := bind_ok.mp h
  obtain ⟨hcheck, rfl⟩ := read_ok.mp hread
  obtain ⟨_, _, hpool, hpay⟩ := bind_ok.mp h
  obtain ⟨gp, _, rfl⟩ := onPool_ok.mp hpool
  obtain rfl := modify_ok.mp hpay
  exact ⟨a, hcheck, rfl⟩

inductive Purchase (B : Backend) (M : Machine) (cfg : ChainConfig) (hd : Header) (msg : Message) (st st' : StateDB) :
    Bool → Prop
  | fromNote (hm : feeMode B cfg hd msg.data = .ok shieldedFeePrepaid) (hc : checkPrepaid msg st = .ok ())
      (hst : st' = st.setState (confidentialFeeTicket msg.hash) 0) : Purchase B M cfg hd msg st st' true
  | fromSender (mode cost : Nat) (hm : feeMode B cfg hd msg.data = .ok mode) (hne : mode ≠ shieldedFeePrepaid)
      (hc : gasCost M cfg hd msg st = .ok cost) (hst : st' = st.subBalance msg.sender (BitVec.ofNat 256 cost)) :
      Purchase B M cfg hd msg st st' false

theorem buyGas_ok (h : buyGas B M cfg hd msg b = (.ok p, b')) :
    Purchase B M cfg hd msg b.state.current b'.state.current p := by
  obtain ⟨mode, _, hread, h⟩ := bind_ok.mp h
  obtain ⟨hmode, rfl⟩ := read_ok.mp hread
  by_cases hprepaid : mode = shieldedFeePrepaid
  · rw [if_pos hprepaid] at h
    obtain ⟨_, b₁, htake, h⟩ := bind_ok.mp h
    obtain ⟨rfl, rfl⟩ := pure_ok.mp h
    obtain ⟨_, hcheck, hst⟩ := takeGas_ok htake
    exact .fromNote (hprepaid ▸ hmode) hcheck hst
  · rw [if_neg hprepaid] at h
    obtain ⟨_, b₁, htake, h⟩ := bind_ok.mp h
    obtain ⟨rfl, rfl⟩ := pure_ok.mp h
    obtain ⟨cost, hcheck, hst⟩ := takeGas_ok htake
    exact .fromSender mode cost hmode hprepaid hcheck hst

def settledState (coinbase : Address) (msg : Message) (prepaid : Bool) (remaining tip : Nat) (st : StateDB) : StateDB :=
  if prepaid then st
  else (st.addBalance msg.sender (BitVec.ofNat 256 (remaining * msg.gasPrice))).addBalance coinbase
    (BitVec.ofNat 256 ((msg.gas - remaining) * tip))

def tipOf (cfg : ChainConfig) (hd : Header) (msg : Message) : Nat :=
  if (rules cfg hd.number hd.time.toNat).isLondon then msg.gasPrice - hd.baseFee.getD 0 else msg.gasPrice

theorem settle_ok (h : settle cfg hd coinbase msg prepaid remaining peak err b = (.ok result, b')) :
    b'.state.current = settledState coinbase msg prepaid remaining (tipOf cfg hd msg) b.state.current ∧
      result.usedGas = msg.gas - remaining := by
  obtain ⟨_, _, hrefund, h⟩ := bind_ok.mp h
  obtain rfl := modify_ok.mp hrefund
  obtain ⟨_, _, hreturn, h⟩ := bind_ok.mp h
  obtain ⟨gp, _, rfl⟩ := onPool_ok.mp hreturn
  obtain ⟨_, _, hbase, h⟩ := bind_ok.mp h
  obtain ⟨_, rfl⟩ := read_ok.mp hbase
  obtain ⟨_, _, hfee, h⟩ := bind_ok.mp h
  obtain rfl := modify_ok.mp hfee
  obtain ⟨rfl, rfl⟩ := pure_ok.mp h
  refine ⟨?_, rfl⟩
  cases prepaid with
  | true => rfl
  | false => rfl

theorem executePurchased_ok (h : executePurchased B M cfg hd coinbase msg prepaid b = (.ok result, b')) :
    ∃ cost floor, checkExecution B M cfg hd msg b.state.current = .ok (cost, floor) ∧ ∃ remaining peak,
      settleGas (rules cfg hd.number hd.time.toNat) msg.gas (runMessage M cfg hd msg (msg.gas - cost) b.state).left
        (runMessage M cfg hd msg (msg.gas - cost) b.state).refund floor prepaid = (remaining, peak) ∧
      b'.state.current = settledState coinbase msg prepaid remaining (tipOf cfg hd msg)
        (runMessage M cfg hd msg (msg.gas - cost) b.state).state.current ∧
      result.usedGas = msg.gas - remaining := by
  obtain ⟨⟨cost, floor⟩, _, hread, h⟩ := bind_ok.mp h
  obtain ⟨hcheck, rfl⟩ := read_ok.mp hread
  obtain ⟨⟨left, refund, err⟩, b₁, hrun, h⟩ := bind_ok.mp h
  simp only [runInBlock, Prod.mk.injEq, Except.ok.injEq] at hrun
  obtain ⟨⟨rfl, rfl, rfl⟩, rfl⟩ := hrun
  obtain ⟨hst, hused⟩ := settle_ok h
  exact ⟨cost, floor, hcheck, _, _, rfl, hst, hused⟩

/-! ## What is executed from Antartical on -/

theorem shieldedOnlyFields_private (h : shieldedOnlyFields B tx = .ok u) :
    tx.type = .pqTkm ∧ isPrivateEnvelope tx.data = true := by
  unfold shieldedOnlyFields at h
  split at h
  · rename_i h6
    simp only [shieldedOnlyV6, ok_rules, not_or, not_not] at h
    obtain ⟨_, hpq, _⟩ := h
    exact ⟨hpq.1, by simp [isPrivateEnvelope, h6]⟩
  · simp only [ok_rules] at h
    obtain ⟨_, hpq, h⟩ := h
    refine ⟨by_contra fun hne => hpq ⟨.inl hne, .inl hne⟩, ?_⟩
    split at h
    · rename_i hval
      simp only [isValidatorProtocolEnvelope, Bool.or_eq_true] at hval
      rcases hval with ((hv | hv) | hv) | hv <;> simp [isPrivateEnvelope, hv]
    split at h
    · rename_i hstamp
      simp [isPrivateEnvelope, hstamp]
    · simp only [ok_rules] at h
      obtain ⟨_, hleg, _⟩ := h
      unfold shieldedOnlyLegacy at hleg
      split at hleg
      · rename_i h3
        simp [isPrivateEnvelope, h3]
      split at hleg
      · rename_i h5
        simp [isPrivateEnvelope, h5]
      split at hleg
      · rename_i h4
        simp [isPrivateEnvelope, h4]
      · cases hleg

theorem checkMessage_private (ha : cfg.isAntartical hd.number hd.time.toNat = true)
    (h : checkMessage B M cfg hd msg st = .ok u) : msg.type = .pqTkm ∧ isPrivateEnvelope msg.data = true := by
  simp only [checkMessage, ok_rules] at h
  obtain ⟨_, _, _, _, _, h, _⟩ := h
  simp only [validatePrivateExecutionMessage, validatePrivateExecutionFields, ok_rules] at h
  obtain ⟨_, _, h⟩ := h
  split at h
  · exact shieldedOnlyFields_private (except_mapError_ok.mp h)
  · simp only [ha, not_true_eq_false, Bool.false_eq_true, or_self, if_false, failIf_ok, not_or, not_not] at h
    exact h

def idleMagics : List String :=
  [accountAbstractionMagic, oracleObservationMagic, oracleQuorumMagic, crossChainMessageMagic, crossChainQuorumMagic,
   privateTVMMagic]

theorem idleMagics_clash : ∀ a ∈ idleMagics, ∀ b ∈ [antarticalStampMagic, addressVoteMagic, validatorRegistrationMagic,
    validatorSlashMagic, validatorExitMagic, validatorWithdrawalMagic, shieldedV3Magic, shieldedV4Magic,
    shieldedV5Magic, shieldedV6Magic], (Bytes.ofText a).isPrefixOf (Bytes.ofText b) = false ∧
      (Bytes.ofText b).isPrefixOf (Bytes.ofText a) = false := by decide

theorem idleMagics_false (hp : isPrivateEnvelope data = true) (ha : a ∈ idleMagics) :
    hasPrefix data a = false := by
  obtain ⟨b, hb, hdata⟩ := (isPrivateEnvelope_iff data).mp hp
  obtain ⟨hab, hba⟩ := idleMagics_clash a ha b hb
  rw [Bool.eq_false_iff]
  intro h
  rw [hasPrefix, List.isPrefixOf_iff_prefix] at h hdata
  rcases List.prefix_or_prefix_of_prefix h hdata with hpre | hpre
  · rw [List.isPrefixOf_iff_prefix.mpr hpre] at hab
    cases hab
  · rw [List.isPrefixOf_iff_prefix.mpr hpre] at hba
    cases hba

def Idle (cfg : ChainConfig) (hd : Header) (data : Bytes) : Prop :=
  ∀ a ∈ idleMagics, (cfg.isAntartical hd.number hd.time.toNat && hasPrefix data a) = false

theorem Idle.of_message (h : checkMessage B M cfg hd msg st = .ok u) :
    Idle cfg hd msg.data := by
  intro a ha
  cases hact : cfg.isAntartical hd.number hd.time.toNat with
  | false => rfl
  | true => exact idleMagics_false (checkMessage_private hact h).2 ha

theorem Idle.userOperation (h : Idle cfg hd tx.data) : userOperationHook M cfg hd tx = pure 0 := by
  have := h accountAbstractionMagic (by simp [idleMagics])
  simp [userOperationHook, hasAccountAbstractionPrefix, this]

theorem Idle.privateTVM (h : Idle cfg hd tx.data) : importPrivateTVM M cfg hd tx = pure () := by
  have := h privateTVMMagic (by simp [idleMagics])
  simp [importPrivateTVM, hasPrivateTVMPrefix, this, Proc.runWhen]

theorem Idle.pair (h : Idle cfg hd tx.data) (hp : p ∈ idleMagics) (hq : q ∈ idleMagics) :
    (cfg.isAntartical hd.number hd.time.toNat && (hasPrefix tx.data p || hasPrefix tx.data q)) = false := by
  rw [Bool.and_or_distrib_left, h p hp, h q hq, Bool.or_false]

theorem Idle.oracle (h : Idle cfg hd tx.data) :
    (cfg.isAntartical hd.number hd.time.toNat && hasOracleObservationPrefix tx.data) = false :=
  h.pair (by simp [idleMagics]) (by simp [idleMagics])

theorem Idle.crossChain (h : Idle cfg hd tx.data) :
    (cfg.isAntartical hd.number hd.time.toNat && hasCrossChainMessagePrefix tx.data) = false :=
  h.pair (by simp [idleMagics]) (by simp [idleMagics])

/-! ## The hooks that run -/

theorem onState_ok (h : BlockState.onState x b = (.ok u, b')) : x b.state.current = (.ok (), b'.state.current) := by
  simp only [BlockState.onState, Prod.mk.injEq, except_mapError_ok] at h
  obtain ⟨hok, rfl⟩ := h
  exact Prod.ext hok rfl

structure MemberMove (sender : Address) (s t : StateDB) : Prop where
  balance : ∀ a, a ≠ poolAddress → a ≠ sender → t.balance a = s.balance a
  tickets : ∀ k, t.storage (confidentialFeeTicket k) = s.storage (confidentialFeeTicket k)

namespace MemberMove

variable {sender : Address} {st st' : StateDB}

protected theorem rfl : MemberMove sender s s := ⟨fun _ _ _ => Eq.refl _, fun _ => Eq.refl _⟩

protected theorem trans (h : MemberMove sender s t) (h' : MemberMove sender t u) : MemberMove sender s u :=
  ⟨fun a hp hs => (h'.balance a hp hs).trans (h.balance a hp hs), fun k => (h'.tickets k).trans (h.tickets k)⟩

theorem of_frame (h : Frame K s t) (hK : ∀ k, ¬ K (confidentialFeeTicket k)) :
    MemberMove sender s t :=
  ⟨fun a _ _ => congrFun h.balance a, fun k => h.storage _ (hK k)⟩

theorem of_registry (h : Frame (fun k => k.kind = .registry) s t) : MemberMove sender s t := of_frame h fun _ => nofun

theorem subBalance (ha : a = sender ∨ a = poolAddress) :
    MemberMove sender s (s.subBalance a v) := by
  refine ⟨fun x hp hs => ?_, fun _ => Eq.refl _⟩
  apply Function.update_of_ne
  rintro rfl
  exact ha.elim hs hp

theorem addBalance : MemberMove sender s (s.addBalance sender v) :=
  ⟨fun _ _ hs => Function.update_of_ne hs _ _, fun _ => Eq.refl _⟩

theorem vote (h : processAddressVote B sender data txHash st = (.ok (), st')) :
    MemberMove sender st st' := by
  have heff {target : Address} {owner : Bytes} {active suspended : Hash} {count : Nat}
      (h : VoteEffect st st' sender target owner active count suspended) : MemberMove sender st st' := by
    refine ⟨fun a _ hs => ?_, fun k => h.frame _ nofun nofun nofun nofun⟩
    rw [h.balance, Function.update_of_ne hs]
  obtain ⟨_, _, _, ⟨_, _, _, h⟩ | ⟨_, _, h⟩⟩ := processAddressVote_effect h
  · exact heff h
  · exact heff h

variable {num time : Nat} (hs : B.sender cfg num time tx = .ok sender)
include hs

theorem registration (h : processValidatorRegistration B cfg num time tx st = (.ok (), st')) :
    MemberMove sender st st' := by
  obtain ⟨a, e, _, ha, _, _, _, _, rfl⟩ := processValidatorRegistration_iff.mp h
  obtain rfl : a = sender := Except.ok.inj (ha.symm.trans hs)
  exact (subBalance (.inl rfl)).trans (of_registry ((storeRecord_registryFrame _ _).trans (indexValidator_frame _ _)))

theorem action (h : processValidatorAction B cfg num time tx st = (.ok (), st')) : MemberMove sender st st' := by
  cases hexit : hasValidatorExitPrefix tx.data with
  | true =>
    obtain ⟨_, r, _, _, _, _, _, _, rfl⟩ := (processValidatorAction_exit_iff hexit).mp h
    exact of_registry (storeRecord_registryFrame _ _)
  | false =>
    obtain ⟨a, r, _, ha, _, _, _, _, _, _, rfl⟩ := (processValidatorAction_withdrawal_iff hexit).mp h
    obtain rfl : a = sender := Except.ok.inj (ha.symm.trans hs)
    exact ((subBalance (.inr rfl)).trans addBalance).trans (of_registry (storeRecord_registryFrame _ _))

omit hs in
theorem slash (h : processValidatorSlash B cfg num time tx st = (.ok (), st')) : MemberMove sender st st' := by
  obtain ⟨e, r, _, _, _, _, _, _, _, rfl⟩ := processValidatorSlash_iff.mp h
  have hpaid : MemberMove sender st
      (if 0 < r.stake then st.subBalance poolAddress (BitVec.ofNat 256 r.stake) else st) := by
    split
    · exact subBalance (.inr rfl)
    · exact MemberMove.rfl
  exact (hpaid.trans (of_registry (storeRecord_registryFrame _ _))).trans
    (of_frame (Frame.setState (K := fun k => k.kind = .other) rfl) fun _ => nofun)

end MemberMove

theorem importHooks_move (hidle : Idle cfg hd tx.data)
    (hs : B.sender cfg hd.number hd.time.toNat tx = .ok sender)
    (h : importHooks B M cfg hd tx sender b = (.ok (), b')) :
    MemberMove sender b.state.current b'.state.current := by
  simp only [importHooks, hidle.oracle, hidle.crossChain, runWhen_false, Proc.pure_bind, bind_ok,
    runWhen_ok] at h
  obtain ⟨_, b₁, hvote, _, b₂, hreg, _, b₃, hslash, haction⟩ := h
  have h₁ : MemberMove sender b.state.current b₁.state.current := by
    rcases hvote with ⟨_, hvote⟩ | ⟨_, rfl⟩
    · exact MemberMove.vote (onState_ok hvote)
    · exact MemberMove.rfl
  have h₂ : MemberMove sender b₁.state.current b₂.state.current := by
    rcases hreg with ⟨_, hreg⟩ | ⟨_, rfl⟩
    · exact MemberMove.registration hs (onState_ok hreg)
    · exact MemberMove.rfl
  have h₃ : MemberMove sender b₂.state.current b₃.state.current := by
    rcases hslash with ⟨_, hslash⟩ | ⟨_, rfl⟩
    · exact MemberMove.slash (onState_ok hslash)
    · exact MemberMove.rfl
  have h₄ : MemberMove sender b₃.state.current b'.state.current := by
    rcases haction with ⟨_, haction⟩ | ⟨_, rfl⟩
    · exact MemberMove.action hs (onState_ok haction)
    · exact MemberMove.rfl
  exact ((h₁.trans h₂).trans h₃).trans h₄

/-! ## The states of an accepted transaction -/

theorem transactionToMessage_sender (h : transactionToMessage B cfg hd tx = .ok msg) :
    B.sender cfg hd.number hd.time.toNat tx = .ok msg.sender := by
  simp only [transactionToMessage, ok_rules] at h
  obtain ⟨_, hs, _, _, _, _, _, _, _, _, _, _, rfl⟩ := h
  exact hs

theorem ApplySteps.stamp_frame {b₁ b₂ b₃ : BlockState} {receipt : Receipt}
    (h : ApplySteps B M cfg coinbase hd tx msg b b' b₁ b₂ b₃ prepaid receipt result) :
    TreeFrame b.state.current b₁.state.current := by
  rcases runWhen_ok.mp h.stamp with ⟨_, hstamp⟩ | ⟨_, rfl⟩
  · exact (processAntarticalStamp_frame B cfg hd.number hd.time.toNat tx).ok (onState_ok hstamp)
  · exact Frame.rfl

structure ImportRun (B : Backend) (M : Machine) (cfg : ChainConfig) (coinbase : Address) (hd : Header) (tx : Tx)
    (s s' : ImportState) (msg : Message) (w : World) (b c₁ c₂ c₃ : BlockState) (prepaid : Bool)
    (r : Receipt × ExecutionResult) : Prop where
  message : transactionToMessage B cfg hd tx = .ok msg
  shielded : processShieldedTransaction B cfg hd.number hd.time.toNat tx ⟨s.state.current, s.seen⟩ = (.ok (), w)
  applied : ApplySteps B M cfg coinbase hd tx msg ⟨s.state.write fun _ => w.st, s.gasPool⟩ b c₁ c₂ c₃ prepaid r.1 r.2
  idle : Idle cfg hd tx.data
  hooks : importHooks B M cfg hd tx msg.sender b = (.ok (), s'.toBlockState)

theorem importTransaction_run (h : importTransaction B M cfg coinbase hd tx s = (.ok r, s')) :
    ∃ msg w b c₁ c₂ c₃ prepaid, ImportRun B M cfg coinbase hd tx s s' msg w b c₁ c₂ c₃ prepaid r := by
  obtain ⟨msg, w, b₁, b₂, b₃, receipt, result, used, hsteps, rfl⟩ := importTransaction_ok h
  obtain ⟨c₁, c₂, c₃, prepaid, happ⟩ := applyTransactionWithEVM_ok hsteps.applied
  have htx := transactionToMessage_tx hsteps.message
  have hidle : Idle cfg hd tx.data := by
    have := Idle.of_message happ.checked
    rwa [htx] at this
  have htvm := hsteps.privateTVM
  rw [hidle.privateTVM] at htvm
  obtain ⟨_, rfl⟩ := pure_ok.mp htvm
  have huser := hsteps.userOperation
  rw [hidle.userOperation] at huser
  obtain ⟨rfl, rfl⟩ := pure_ok.mp huser
  exact ⟨msg, w, b₂, c₁, c₂, c₃, prepaid, hsteps.message, hsteps.shielded, happ, hidle, hsteps.hooks⟩

end

/-! ## Execution that only transfers -/

def transferMachine : Machine := { plainMachine with
  call := fun _ sender callee _ gas value j =>
    ⟨if value ≤ (j.current.balance sender).toNat then j.write fun st => st.transfer sender callee value else j, gas,
      Nat.le_refl _, 0, none⟩ }

theorem transferMachine_call : (transferMachine.call h sender callee data gas value j).state.current =
      if value ≤ (j.current.balance sender).toNat then j.current.transfer sender callee value else j.current :=
  apply_ite Journal.current _ _ _

theorem transferMachine_plain : transferMachine.Plain where
  call h sender callee data gas value j _ := by
    rw [transferMachine_call]
    split
    · exact .inr rfl
    · exact .inl rfl
  callPool h sender data gas value j _ hle := by rw [transferMachine_call, if_pos hle]
  finalise _ := rfl

theorem transferMachine_sparesTickets : transferMachine.SparesTickets where
  call h sender callee data gas value j k := by
    rw [transferMachine_call]
    split <;> rfl
  create _ _ _ _ _ _ _ := rfl
  authorizations _ _ _ _ := rfl
  finalise _ _ := .inl rfl

end TkmChain
