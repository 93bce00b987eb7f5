import TkmChain.Gates
import TkmChain.SolvencySound

/-!
# Where the gates disagree

The policy of the pool, the envelope rules and the check of the message enforce one
rule. A vote passes the first and is refused by the second as a transparent
transaction. Private TVM calls, V1/V2 migrations and, under the shielded-only
rule, self-exits pass the second and are refused by the third.
-/

namespace TkmChain

def MigrationTyped (B : Backend) : Prop := ∀ tx, B.isPQMigrationTx tx = true → tx.type ≠ .pqTkm

theorem hasPrefix_eq (ha : a ∈ magics) (h : hasPrefix data a = true) :
    ∀ b ∈ magics, hasPrefix data b = decide (b = a) := by
  intro b hb
  by_cases hab : b = a
  · rw [hab, h, decide_eq_true rfl]
  · rw [hasPrefix_false h ha hb (Ne.symm hab), decide_eq_false hab]

section
/-! ## Envelopes -/

def transparentDisabled : Err := .invalidShieldedTx "transparent transactions are disabled after privacy activation"

def hasEnvelope (cfg : ChainConfig) (num time : Nat) (tx : Tx) : Bool :=
  hasShieldedV6Prefix tx.data || hasShieldedV5Prefix tx.data || hasPrivateTVMPrefix tx.data ||
    hasAntarticalStampPrefix tx.data ||
    (cfg.isValidatorTransactionsActive num time && isValidatorProtocolEnvelope tx.data) ||
    hasShieldedV4Prefix tx.data || hasShieldedV3Prefix tx.data || hasPrefix tx.data shieldedTxMagic

def RejectedAsTransparent (B : Backend) (cfg : ChainConfig) (num time : Nat)
    (decode : Bytes → Option PrivateTVMTransaction) (tx : Tx) : Prop :=
  hasEnvelope cfg num time tx = false ∧
    validateShieldedTransactionBasics B cfg num time decode tx = .error transparentDisabled

/-- The rules of the envelope a transaction carries; those of a vote are not reached from the dispatch. -/
def versionBasics (B : Backend) (cfg : ChainConfig) (num time : Nat)
    (decode : Bytes → Option PrivateTVMTransaction) (tx : Tx) : Except Err Unit :=
  if hasAddressVotePrefix tx.data then validateAddressVoteBasics B cfg num time tx
  else validateShieldedTransactionBasics B cfg num time decode tx

theorem not_envelope_of_vote (h : hasAddressVotePrefix tx.data = true) :
    hasEnvelope cfg num time tx = false ∧ isValidatorProtocolEnvelope tx.data = false := by
  have hno := hasPrefix_eq (a := addressVoteMagic) (by simp [magics]) h
  simp only [magics, List.forall_mem_cons] at hno
  obtain ⟨h1, h3, h4, h5, h6, hstamp, -, hreg, hslash, hexit, hwd, htvm, -⟩ := hno
  have hval : isValidatorProtocolEnvelope tx.data = false := by
    simp only [isValidatorProtocolEnvelope, hasValidatorRegistrationPrefix, hasValidatorSlashPrefix,
      hasValidatorExitPrefix, hasValidatorWithdrawalPrefix, hreg, hslash, hexit, hwd]
    decide
  refine ⟨?_, hval⟩
  simp only [hasEnvelope, hval, hasShieldedV6Prefix, hasShieldedV5Prefix, hasPrivateTVMPrefix,
    hasAntarticalStampPrefix, hasShieldedV4Prefix, hasShieldedV3Prefix, h1, h3, h4, h5, h6, hstamp, htvm,
    Bool.and_false]
  decide

theorem basics_of_not_envelope (h : hasEnvelope cfg num time tx = false)
    (hvalid : validateShieldedOnlyTransaction B cfg num time tx = .ok ()) :
    validateShieldedTransactionBasics B cfg num time decode tx = checkTransparent B cfg num time tx := by
  simp only [hasEnvelope, Bool.or_eq_false_iff] at h
  obtain ⟨⟨⟨⟨⟨⟨⟨h6, h5⟩, htvm⟩, hstamp⟩, hval⟩, h4⟩, h3⟩, h1⟩ := h
  have hval' : ¬ (cfg.isValidatorTransactionsActive num time = true ∧ isValidatorProtocolEnvelope tx.data = true) := by
    simpa using hval
  have hdecode : decodeShieldedTransaction B tx.data = .ok none := by
    rw [decodeShieldedTransaction, if_neg (by simp [h1])]
  rw [validateShieldedTransactionBasics, if_neg (by simp [h6]), if_neg (by simp [h5]), hvalid]
  show (if _ then _ else _) = _
  rw [if_neg (by simp [htvm]), if_neg (by simp [hstamp]), if_neg hval', noteVersionBasics]
  simp only [h4, h3, Bool.false_eq_true, false_and, if_false, envelopeBasics, validateShieldedTransactionEnvelope,
    hdecode]
  show (Except.ok () >>= fun _ => _) = _
  cases checkTransparent B cfg num time tx <;> rfl

theorem checkTransparent_pq (hm : MigrationTyped B) (hpq : tx.type = .pqTkm)
    (hprivacy : cfg.isPrivacyCommitments num time = true) (h : hasEnvelope cfg num time tx = false) :
    checkTransparent B cfg num time tx = .error transparentDisabled := by
  simp only [hasEnvelope, Bool.or_eq_false_iff] at h
  have hval : ¬ (cfg.isValidatorTransactionsActive num time = true ∧ isValidatorProtocolEnvelope tx.data = true) := by
    simpa using h.1.1.1.2
  have hmig : ¬ (cfg.isPQMigrationAllowed num time = true ∧ B.isPQMigrationTx tx = true) :=
    fun hmig => hm tx hmig.2 hpq
  rw [checkTransparent, if_pos hprivacy, if_neg hval, if_neg hmig, transparentDisabled]

/-! ## The shielded-only rule -/

theorem validator_active (ha : cfg.isAntartical num time = true)
    (h : validateShieldedOnlyTransaction B cfg num time tx = .ok ())
    (hval : isValidatorProtocolEnvelope tx.data = true) :
    cfg.isValidatorTransactionsActive num time = true ∧ validateValidatorProtocolBasics B cfg num time tx = .ok () := by
  rw [validateShieldedOnlyTransaction, if_pos ⟨ha, hval⟩] at h
  simp only [ok_rules, not_not] at h
  obtain ⟨_, hactive, h⟩ := h
  exact ⟨hactive, h⟩

theorem shieldedOnlyFields_validator (hval : isValidatorProtocolEnvelope tx.data = true)
    (h : validateValidatorProtocolBasics B cfg num time tx = .ok ()) : shieldedOnlyFields B tx = .ok () := by
  have h6 : hasShieldedV6Prefix tx.data = false := by
    simp only [isValidatorProtocolEnvelope, Bool.or_eq_true] at hval
    rcases hval with ((hv | hv) | hv) | hv <;> exact hasPrefix_false hv
  rw [shieldedOnlyFields, if_neg (by simp [h6])]
  simp only [except_bind_ok, failIf_ok, if_pos hval, shieldedOnlyValidator]
  rw [validateValidatorProtocolBasics] at h
  by_cases hreg : hasValidatorRegistrationPrefix tx.data = true
  · rw [if_pos hreg, validateValidatorRegistrationBasics] at h
    simp only [except_bind_ok, failIf_ok, not_not, toPool, Bool.and_eq_true, decide_eq_true_eq] at h
    obtain ⟨_, _, _, hshape, e, hdecode, _⟩ := h
    obtain ⟨⟨⟨hpq, hto⟩, _⟩, hvalue⟩ := hshape
    rw [if_pos hreg]
    refine ⟨(), ?_, ?_⟩
    · simp [hpq, hto, hreg, hvalue]
    · simp only [except_bind_ok, failIf_ok, hvalue, hdecode]
      exact ⟨(), by simp, rfl⟩
  · have hzero : tx.type = .pqTkm ∧ tx.toAddr = some poolAddress ∧ tx.value = 0 ∧
        validateValidatorEnvelopeEncoding B tx.data = .ok () := by
      rw [if_neg hreg] at h
      by_cases hslash : hasValidatorSlashPrefix tx.data = true
      · rw [if_pos hslash, validateValidatorSlashBasics] at h
        simp only [except_bind_ok, failIf_ok, not_not, toPool, Bool.and_eq_true, decide_eq_true_eq] at h
        obtain ⟨_, _, _, hshape, e, hdecode, _⟩ := h
        obtain ⟨⟨⟨hpq, hto⟩, _⟩, hvalue⟩ := hshape
        refine ⟨hpq, hto, hvalue, ?_⟩
        rw [validateValidatorEnvelopeEncoding, if_neg hreg, if_pos hslash, hdecode]
        rfl
      · rw [if_neg hslash] at h
        split at h
        · rw [validateValidatorActionBasics] at h
          simp only [except_bind_ok, failIf_ok, not_not, toPool, Bool.and_eq_true, decide_eq_true_eq] at h
          obtain ⟨_, _, _, hshape, _, _, haction⟩ := h
          obtain ⟨⟨⟨hpq, hto⟩, _⟩, hvalue⟩ := hshape
          refine ⟨hpq, hto, hvalue, ?_⟩
          rw [validateValidatorEnvelopeEncoding, if_neg hreg, if_neg hslash]
          exact haction
        · cases h
    obtain ⟨hpq, hto, hvalue, hencoding⟩ := hzero
    rw [if_neg hreg]
    refine ⟨(), ?_, ?_⟩
    · simp [hpq, hto, hvalue]
    · simp only [except_bind_ok, failIf_ok, hencoding]
      exact ⟨(), by simp [hvalue], rfl⟩

theorem shieldedOnlyFields_envelope (h : shieldedOnlyFields B tx = .ok ()) :
    hasShieldedV6Prefix tx.data = true ∨ isValidatorProtocolEnvelope tx.data = true ∨
      hasAntarticalStampPrefix tx.data = true ∨ hasShieldedV3Prefix tx.data = true ∨
      hasShieldedV5Prefix tx.data = true ∨ hasShieldedV4Prefix tx.data = true := by
  by_contra hno
  simp only [not_or] at hno
  obtain ⟨h6, hval, hstamp, h3, h5, h4⟩ := hno
  rw [shieldedOnlyFields, if_neg h6] at h
  simp only [ok_rules, if_neg hval, if_neg hstamp, shieldedOnlyLegacy, if_neg h3, if_neg h5, if_neg h4] at h
  obtain ⟨_, _, _, hlegacy, _⟩ := h
  cases hlegacy

theorem shieldedOnlyLegacy_exit (h : legacyExitFields B data = some f) :
    ∃ a ∈ noteMagics, hasPrefix data a = true ∧
      ∃ g, shieldedOnlyLegacy B data = .ok g ∧ g.withdrawal = f.withdrawal := by
  rw [legacyExitFields] at h
  split at h
  · rename_i h5
    have h3 : hasShieldedV3Prefix data = false := hasPrefix_false h5
    refine ⟨_, by simp [noteMagics], h5, ?_⟩
    rw [shieldedOnlyLegacy, if_neg (by simp [h3]), if_pos h5]
    split at h
    · split at h
      · rename_i hversion
        cases h
        exact ⟨_, if_pos hversion, rfl⟩
      · cases h
    · cases h
  · rename_i h5
    split at h
    · rename_i h4
      have h3 : hasShieldedV3Prefix data = false := hasPrefix_false h4
      refine ⟨_, by simp [noteMagics], h4, ?_⟩
      rw [shieldedOnlyLegacy, if_neg (by simp [h3]), if_neg h5, if_pos h4]
      split at h
      · split at h
        · rename_i hversion
          cases h
          exact ⟨_, if_pos hversion, rfl⟩
        · cases h
      · cases h
    · split at h
      · rename_i h3
        refine ⟨_, by simp [noteMagics], h3, ?_⟩
        rw [shieldedOnlyLegacy, if_pos h3]
        split at h
        · split at h
          · rename_i hversion
            cases h
            exact ⟨_, if_pos hversion, rfl⟩
          · cases h
        · cases h
      · cases h

theorem shieldedOnlyFields_selfExit (h : selfExit B cfg num time tx = true) : shieldedOnlyFields B tx ≠ .ok () := by
  intro hfields
  rw [selfExit] at h
  split at h
  · rename_i sender _
    simp only [isShieldedLegacySelfExit, Bool.and_eq_true] at h
    obtain ⟨_, h⟩ := h
    split at h
    · cases h
    · rename_i f hf
      obtain ⟨a, ha, hdata, g, hg, hwithdrawal⟩ := shieldedOnlyLegacy_exit hf
      have h6 : hasShieldedV6Prefix tx.data = false := note_hasPrefix_false ha hdata
      have hstamp : hasAntarticalStampPrefix tx.data = false := note_hasPrefix_false ha hdata
      have hval := note_not_validator ha hdata
      rw [shieldedOnlyFields, if_neg (by simp [h6])] at hfields
      simp only [hval, hstamp, Bool.false_eq_true, if_false, ok_rules, not_or, not_not, hg, Except.ok.injEq] at hfields
      obtain ⟨_, _, g', rfl, _, ⟨_, hzero, _⟩, _⟩ := hfields
      simp only [← hwithdrawal, hzero, Option.getD_some, Bool.and_eq_true, decide_eq_true_eq, lt_irrefl] at h
      exact h.1.1.1.2
  · cases h

/-! ## The message -/

theorem isPrivateEnvelope_iff (data : Bytes) : isPrivateEnvelope data = true ↔
    ∃ a ∈ [antarticalStampMagic, addressVoteMagic, validatorRegistrationMagic, validatorSlashMagic,
      validatorExitMagic, validatorWithdrawalMagic, shieldedV3Magic, shieldedV4Magic, shieldedV5Magic,
      shieldedV6Magic], hasPrefix data a = true := by
  simp only [isPrivateEnvelope, Bool.or_eq_true, List.exists_mem_cons_iff, List.not_mem_nil, false_and, exists_false,
    or_false, or_assoc]
  rfl

theorem not_private_of_magic (ha : a = privateTVMMagic ∨ a = shieldedTxMagic)
    (h : hasPrefix data a = true) : isPrivateEnvelope data = false := by
  rw [Bool.eq_false_iff]
  intro hprivate
  obtain ⟨b, hb, hdata⟩ := (isPrivateEnvelope_iff data).mp hprivate
  have hbm : b ∈ magics := by
    simp only [List.mem_cons, List.not_mem_nil, or_false] at hb
    rcases hb with rfl | rfl | rfl | rfl | rfl | rfl | rfl | rfl | rfl | rfl <;> simp [magics]
  have ham : a ∈ magics := by rcases ha with rfl | rfl <;> simp [magics]
  obtain rfl := hasPrefix_unique ham hbm h hdata
  rcases ha with rfl | rfl <;> revert hb <;> decide

theorem vote_of_private (hprivate : isPrivateEnvelope tx.data = true) (h : hasEnvelope cfg num time tx = false)
    (hval : isValidatorProtocolEnvelope tx.data = false) : hasAddressVotePrefix tx.data = true := by
  simp only [hasEnvelope, Bool.or_eq_false_iff] at h
  simp only [isValidatorProtocolEnvelope, Bool.or_eq_false_iff] at hval
  simpa [isPrivateEnvelope, h, hval] using hprivate

theorem validatePrivateExecutionMessage_ok_iff (ha : cfg.isAntartical num time = true) (hpq : tx.type = .pqTkm)
    (hactive : isValidatorProtocolEnvelope tx.data = true → cfg.isValidatorTransactionsActive num time = true) :
    validatePrivateExecutionMessage B cfg num time tx = .ok () ↔
      if cfg.isShieldedOnly num time then shieldedOnlyFields B tx = .ok () else isPrivateEnvelope tx.data = true := by
  simp only [validatePrivateExecutionMessage, validatePrivateExecutionFields, ok_rules]
  constructor
  · rintro ⟨_, _, h⟩
    by_cases honly : cfg.isShieldedOnly num time = true
    · rw [if_pos honly] at h ⊢
      exact except_mapError_ok.mp h
    · rw [if_neg honly, if_neg (by simp [ha]), failIf_ok] at h
      rw [if_neg honly]
      by_contra hno
      exact h (.inr hno)
  · intro h
    refine ⟨(), fun hno => hno.2.2 (hactive hno.2.1), ?_⟩
    by_cases honly : cfg.isShieldedOnly num time = true
    · rw [if_pos honly] at h ⊢
      exact except_mapError_ok.mpr h
    · rw [if_neg honly] at h
      rw [if_neg honly, if_neg (by simp [ha]), failIf_ok]
      simp [hpq, h]

theorem policy_shieldedOnly (h : validatePrivateExecutionPolicy B cfg num time tx = .ok ()) :
    validateShieldedOnlyTransaction B cfg num time tx = .ok () := by
  simp only [validatePrivateExecutionPolicy, ok_rules] at h
  obtain ⟨_, h, _⟩ := h
  exact h

theorem policy_envelope (ha : cfg.isAntartical num time = true) (hpq : tx.type = .pqTkm)
    (h : validatePrivateExecutionPolicy B cfg num time tx = .ok ()) (hno : hasEnvelope cfg num time tx = false) :
    hasAddressVotePrefix tx.data = true := by
  have honly := policy_shieldedOnly h
  have hval : isValidatorProtocolEnvelope tx.data = false := by
    rw [Bool.eq_false_iff]
    intro hval
    have hactive := (validator_active ha honly hval).1
    simp [hasEnvelope, hactive, hval] at hno
  by_contra hvote
  have hparts := hno
  simp only [hasEnvelope, Bool.or_eq_false_iff] at hparts
  obtain ⟨⟨⟨⟨⟨⟨⟨h6, h5⟩, _⟩, hstamp⟩, _⟩, h4⟩, h3⟩, _⟩ := hparts
  have hkinds := hval
  simp only [isValidatorProtocolEnvelope, Bool.or_eq_false_iff] at hkinds
  obtain ⟨⟨⟨hreg, hslash⟩, hexit⟩, hwd⟩ := hkinds
  simp only [validatePrivateExecutionPolicy, ok_rules, ha, not_true_eq_false, if_false, hpq, hstamp, hvote, hreg,
    hslash, hexit, hwd, Bool.false_eq_true, and_false, or_false] at h
  obtain ⟨_, _, h⟩ := h
  have hreward : isBlockReward tx = false := by simp [isBlockReward, hpq]
  rw [hreward] at h
  have hmessage := (validatePrivateExecutionMessage_ok_iff ha hpq (by simp [hval])).mp h
  split at hmessage
  · have henvelope := shieldedOnlyFields_envelope hmessage
    simp [h6, hval, hstamp, h3, h5, h4] at henvelope
  · exact hvote (vote_of_private hmessage hno hval)

theorem rejectedAsTransparent_iff (hm : MigrationTyped B) (ha : cfg.isAntartical num time = true)
    (hprivacy : cfg.isPrivacyCommitments num time = true) (hpq : tx.type = .pqTkm)
    (h : validatePrivateExecutionPolicy B cfg num time tx = .ok ()) :
    RejectedAsTransparent B cfg num time decode tx ↔ hasAddressVotePrefix tx.data = true := by
  constructor
  · intro hrejected
    exact policy_envelope ha hpq h hrejected.1
  · intro hvote
    have hno : hasEnvelope cfg num time tx = false := (not_envelope_of_vote hvote).1
    refine ⟨hno, ?_⟩
    rw [basics_of_not_envelope hno (policy_shieldedOnly h), checkTransparent_pq hm hpq hprivacy hno]

def refusedMessage (B : Backend) (cfg : ChainConfig) (num time : Nat) (tx : Tx) : Bool :=
  if cfg.isShieldedOnly num time then selfExit B cfg num time tx
  else hasPrivateTVMPrefix tx.data || hasPrefix tx.data shieldedTxMagic

theorem message_ok_iff (hm : MigrationTyped B) (ha : cfg.isAntartical num time = true)
    (hprivacy : cfg.isPrivacyCommitments num time = true) (hpq : tx.type = .pqTkm)
    (honly : validateShieldedOnlyTransaction B cfg num time tx = .ok ())
    (hbasics : versionBasics B cfg num time decode tx = .ok ()) :
    validatePrivateExecutionMessage B cfg num time tx = .ok () ↔ refusedMessage B cfg num time tx = false := by
  rw [validatePrivateExecutionMessage_ok_iff ha hpq fun hval => (validator_active ha honly hval).1, refusedMessage]
  by_cases hcut : cfg.isShieldedOnly num time = true
  · rw [if_pos hcut, if_pos hcut]
    constructor
    · intro hfields
      rw [Bool.eq_false_iff]
      exact fun hexit => shieldedOnlyFields_selfExit hexit hfields
    · intro hexit
      by_cases hval : isValidatorProtocolEnvelope tx.data = true
      · exact shieldedOnlyFields_validator hval (validator_active ha honly hval).2
      · rw [validateShieldedOnlyTransaction, if_neg (by simp [hval]), if_neg (by simp [hcut]),
          if_neg (by simp [hexit])] at honly
        exact honly
  · rw [if_neg hcut, if_neg hcut, Bool.or_eq_false_iff]
    constructor
    · intro hprivate
      constructor
      · rw [Bool.eq_false_iff]
        intro htvm
        rw [not_private_of_magic (.inl rfl) htvm] at hprivate
        cases hprivate
      · rw [Bool.eq_false_iff]
        intro h1
        rw [not_private_of_magic (.inr rfl) h1] at hprivate
        cases hprivate
    · rintro ⟨htvm, h1⟩
      by_contra hprivate
      -- nothing is left but the verdict on transparent transactions
      have hparts := hprivate
      simp only [isPrivateEnvelope, Bool.not_eq_true, Bool.or_eq_false_iff] at hparts
      obtain ⟨⟨⟨⟨⟨⟨⟨⟨⟨hstamp, hvote⟩, hreg⟩, hslash⟩, hexit⟩, hwd⟩, h3⟩, h4⟩, h5⟩, h6⟩ := hparts
      have hno : hasEnvelope cfg num time tx = false := by
        simp [hasEnvelope, isValidatorProtocolEnvelope, *]
      rw [versionBasics, if_neg (by simp [hvote]), basics_of_not_envelope hno honly,
        checkTransparent_pq hm hpq hprivacy hno] at hbasics
      cases hbasics

end

/-- At a position with Antartical and privacy commitments active: what the policy accepts is refused as a
transparent transaction exactly if it is a vote, and the message of what the envelope rules accept is refused
exactly for private TVM and V1/V2 envelopes or, under the shielded-only rule, for self-exits. -/
theorem gates_agree_iff (B : Backend) (hm : MigrationTyped B) (decode : Bytes → Option PrivateTVMTransaction)
    (cfg : ChainConfig) (num time : Nat) (ha : cfg.isAntartical num time = true)
    (hprivacy : cfg.isPrivacyCommitments num time = true) (tx : Tx) (hpq : tx.type = .pqTkm) :
    (validatePrivateExecutionPolicy B cfg num time tx = .ok () →
      (¬ RejectedAsTransparent B cfg num time decode tx ↔ hasAddressVotePrefix tx.data = false)) ∧
    (validateShieldedOnlyTransaction B cfg num time tx = .ok () →
      versionBasics B cfg num time decode tx = .ok () →
      (validatePrivateExecutionMessage B cfg num time tx = .ok () ↔ refusedMessage B cfg num time tx = false)) := by
  constructor
  · intro h
    rw [rejectedAsTransparent_iff hm ha hprivacy hpq h, Bool.not_eq_true]
  · exact message_ok_iff hm ha hprivacy hpq

/-! ## A vote, a private spend and a self-exit -/

def gateSpend (withdrawal : Nat) : ShieldedV3Transaction where
  version := 3
  deposit := false
  anchor := ⟨Vector.replicate 5 1⟩
  nullifier := ⟨Vector.replicate 5 2⟩
  stampRoot := 0
  outputs := Vector.ofFn fun i =>
    { commitment := ⟨Vector.replicate 5 (UInt64.ofNat (i + 1))⟩, incoming := [], outgoing := [], stamp := [],
      oneTimeKey := List.replicate 40 (UInt8.ofNat (i + 1)) }
  withdrawalRecipient := if withdrawal = 0 then 0 else 7
  withdrawalValue := some withdrawal
  gasSponsorValue := some 0
  proof := [1, 0, 0, 0, 0, 0, 0, 0, 0, 0, 0, 0]
  additionalNullifiers := Vector.replicate 3 0
  inputCount := 1
  relayed := false
  validUntil := 0
  assetID := 0
  feeMode := 0

/-- Decodes a vote against account `9`, and a V3 body as a spend of as many wei as the body has bytes. -/
def gateBackend : Backend := { migrationBackend with
  decodeVote := fun _ => .ok ⟨1, false, 9, [65]⟩
  decodeV3 := fun body => some (gateSpend body.length) }

def gateTx (data : Bytes) : Tx where
  hash := 1
  hash_ne := Hash.one_ne
  type := .pqTkm
  chainId := mainnetChainID
  nonce := 0
  gasTipCap := 0
  gasFeeCap := 0
  gas := 0
  toAddr := some poolAddress
  value := 0
  data := data
  algorithm := algorithmMLDSA87
  publicKey := []

def cutConfig : ChainConfig := { antarticalConfig false with shieldedOnlyTime := some 0, shield6Time := some 0 }

theorem gateBackend_typed : MigrationTyped gateBackend := fun _ h => absurd h Bool.false_ne_true

theorem gates_agree_private_spend :
    validatePrivateExecutionMessage gateBackend cutConfig 1 1 (gateTx (Bytes.ofText shieldedV3Magic)) = .ok () :=
  ((gates_agree_iff gateBackend gateBackend_typed (fun _ => none) cutConfig 1 1 (by decide) (by decide)
    (gateTx (Bytes.ofText shieldedV3Magic)) rfl).2 (except_ok_of_isOk (by rfl)) (except_ok_of_isOk (by decide +kernel))).mpr
    (by rfl)

/-- A vote the policy accepts is refused as transparent, and a self-exit the envelope rules accept has a message that
is refused. -/
theorem vote_and_exit_refused :
    (¬ ∀ (cfg : ChainConfig) (tx : Tx), cfg.checkConfigForkOrder (fun _ => 0) = .ok () → cfg.isAntartical 1 1 = true →
      cfg.isPrivacyCommitments 1 1 = true → tx.type = .pqTkm →
      validatePrivateExecutionPolicy gateBackend cfg 1 1 tx = .ok () →
      ¬ RejectedAsTransparent gateBackend cfg 1 1 (fun _ => none) tx) ∧
    ¬ ∀ (cfg : ChainConfig) (tx : Tx), cfg.checkConfigForkOrder (fun _ => 0) = .ok () → cfg.isAntartical 1 1 = true →
      cfg.isPrivacyCommitments 1 1 = true → tx.type = .pqTkm →
      validateShieldedOnlyTransaction gateBackend cfg 1 1 tx = .ok () →
      versionBasics gateBackend cfg 1 1 (fun _ => none) tx = .ok () →
      validatePrivateExecutionMessage gateBackend cfg 1 1 tx = .ok () := by
  constructor
  · intro hclaim
    have hpolicy : validatePrivateExecutionPolicy gateBackend (antarticalConfig false) 1 1
        (gateTx (Bytes.ofText addressVoteMagic)) = .ok () := except_ok_of_isOk (by rfl)
    refine hclaim (antarticalConfig false) (gateTx (Bytes.ofText addressVoteMagic)) (except_ok_of_isOk (by rfl))
      (by decide) (by decide) rfl hpolicy ?_
    exact (rejectedAsTransparent_iff gateBackend_typed (by decide) (by decide) rfl hpolicy).mpr (by decide +kernel)
  · intro hclaim
    have hmessage := hclaim cutConfig (gateTx (Bytes.ofText shieldedV3Magic ++ [0])) (except_ok_of_isOk (by rfl))
      (by decide) (by decide) rfl (except_ok_of_isOk (by rfl)) (except_ok_of_isOk (by decide +kernel))
    have hrefused : (validatePrivateExecutionMessage gateBackend cutConfig 1 1
      (gateTx (Bytes.ofText shieldedV3Magic ++ [0]))).isOk = false := by decide
    rw [hmessage] at hrefused
    cases hrefused

end TkmChain
