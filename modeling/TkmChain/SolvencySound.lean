import TkmChain.Settlement

/-!
# Solvency of the shared pool

The pool backs three liabilities: the native ledger, the supply of pTKM and the
bonds of validators. With the confidential ledger active no sequence of accepted
operations makes them exceed the balance.
-/

namespace TkmChain

def nativeBacking (st : StateDB) : Int :=
  if (confidentialLedgerState st assetTKM).initialized then (confidentialLedgerState st assetTKM).backing else 0

structure Solvent (st : StateDB) (idx : List Address) : Prop where
  registry : RegistryOk st idx
  covered : nativeBacking st + shieldedV3AssetSupply st assetPTKM + totalStake st idx ≤ st.pool
  drawn : st.poolOverdrawn = false

def outerTransfer (sender : Address) (tx : Tx) (st : StateDB) : StateDB :=
  tx.toAddr.elim (st.subBalance sender (BitVec.ofNat 256 tx.value)) fun a =>
    (st.subBalance sender (BitVec.ofNat 256 tx.value)).addBalance a (BitVec.ofNat 256 tx.value)

def poolCredit (tx : Tx) : Nat := if tx.toAddr = some poolAddress then tx.value else 0

section
theorem outerTransfer_pool (hs : sender ≠ poolAddress) (hfit : st.pool + poolCredit tx < 2 ^ 256) :
    (outerTransfer sender tx st).pool = st.pool + poolCredit tx := by
  have hsub : (st.subBalance sender (BitVec.ofNat 256 tx.value)).pool = st.pool := StateDB.pool_subBalance_ne hs
  unfold outerTransfer poolCredit at *
  cases hto : tx.toAddr with
  | none => simpa [hto] using hsub
  | some a =>
    simp only [hto, Option.elim_some, Option.some.injEq] at hfit ⊢
    by_cases ha : a = poolAddress
    · have hv : (BitVec.ofNat 256 tx.value).toNat = tx.value := Nat.mod_eq_of_lt (by simp only [ha, if_true] at hfit; omega)
      simp only [ha, if_true] at hfit ⊢
      rw [StateDB.pool_addBalance (by omega), hsub, hv]
    · rw [StateDB.pool_addBalance_ne ha, hsub, if_neg ha, Nat.add_zero]

theorem outerTransfer_storage (sender : Address) (tx : Tx) (st : StateDB) :
    (outerTransfer sender tx st).storage = st.storage := by
  unfold outerTransfer
  cases tx.toAddr <;> rfl

theorem outerTransfer_overdrawn (hs : sender ≠ poolAddress) :
    (outerTransfer sender tx st).poolOverdrawn = st.poolOverdrawn := by
  have hsub : (st.subBalance sender (BitVec.ofNat 256 tx.value)).poolOverdrawn = st.poolOverdrawn :=
    StateDB.overdrawn_subBalance_ne hs
  unfold outerTransfer
  cases tx.toAddr with
  | none => exact hsub
  | some a => exact hsub

end

section
theorem nativeBacking_congr (h : confidentialLedgerState t assetTKM = confidentialLedgerState s assetTKM) :
    nativeBacking t = nativeBacking s := by
  rw [nativeBacking, h, nativeBacking]

theorem Solvent.gain (h : Solvent s idx) (hp : s.pool ≤ t.pool) (ho : t.poolOverdrawn = s.poolOverdrawn)
    (hs : ∀ k, ¬ Passive k → t.storage k = s.storage k) : Solvent t idx := by
  obtain ⟨hreg, htotal⟩ := h.registry.congr (t := t) fun k hk => hs k (by simp [Passive, hk])
  refine ⟨hreg, ?_, by rw [ho, h.drawn]⟩
  have := h.covered
  rw [nativeBacking_congr (native_congr hs), supply_congr (hs _ (by simp [Passive, Role.kind])), htotal]
  omega

theorem Solvent.registryMove (h : Solvent s idx) (hm : RegistryMove bond idx s t)
    (hb : nativeBacking s + shieldedV3AssetSupply s assetPTKM + totalStake s idx + bond ≤ s.pool) :
    ∃ idx', Solvent t idx' := by
  obtain ⟨idx', hreg, hsum⟩ := hm.registry
  refine ⟨idx', hreg, ?_, by rw [hm.overdrawn, h.drawn]⟩
  have hn : nativeBacking t = nativeBacking s :=
    nativeBacking_congr (ledgerState_congr fun r => hm.storage _ (by simp [ledgerSlot, Role.kind])
      (by simp [ledgerSlot, Role.kind]))
  rw [hn, supply_congr (hm.storage _ (by simp [Role.kind]) (by simp [Role.kind]))]
  omega

theorem nativeReserve_eq (hreg : RegistryOk s idx) (h : confidentialNativeReserve s = .ok reserve) :
    reserve = s.pool - totalStake s idx - shieldedV3AssetSupply s assetPTKM := by
  obtain ⟨records, hr, _, heq⟩ := nativeReserve_ok h
  obtain ⟨records', hr', hstakes, _⟩ := validatorRecords_ok hreg
  rw [hr, Except.ok.injEq] at hr'
  subst hr'
  have hsum : (records.map fun r => (r.stake : Int)).sum = (totalStake s idx : Int) := by
    rw [totalStake, ← hstakes, Nat.cast_list_sum, List.map_map]
    rfl
  omega

theorem nativeBacking_le (h : TransitionFacts s asset d w f l reserve) : nativeBacking s ≤ reserve := by
  unfold nativeBacking
  split
  · exact h.native (by assumption)
  · exact (nativeReserve_range h.reserve_ok).1

section
variable {cfg : ChainConfig} {num time : Nat} {tx : Tx} {m : Movement} (h : Settled cfg num time tx m s t)
include h

theorem Settled.credit : m.deposit ≤ poolCredit tx := by
  unfold poolCredit
  have := h.deposit
  by_cases hd : m.deposit = 0
  · omega
  · rw [if_pos (h.toPool hd)]
    omega

theorem Settled.backing (hl : m.ledger = some l)
    (hf : TransitionFacts s m.asset m.deposit m.withdrawal m.fee l reserve) :
    nativeBacking t + m.minted ≤ reserve + m.deposit - m.withdrawal - m.fee := by
  have hnat := h.effect.native
  have hle := nativeBacking_le hf
  rcases h.asset with ha | ha
  · have heq : confidentialLedgerState t assetTKM = l := by rw [hnat, Movement.native, if_pos ha, hl, Option.getD_some]
    have hcap : ledgerCap s m.asset reserve = reserve := if_neg (by rw [ha]; decide)
    have hcov := hf.covered
    rw [nativeBacking, heq, if_pos (transition_initialized hf), Movement.minted_native ha, hf.next]
    simp only [ConfidentialLedgerTotals.advance]
    omega
  · have hne : m.asset ≠ assetTKM := by rw [ha]; decide
    have heq : nativeBacking t = nativeBacking s := nativeBacking_congr (by rw [hnat, Movement.native, if_neg hne])
    have hfee := h.wrapped ha
    rw [heq, Movement.minted, if_pos ha]
    omega

end

end

/-! ## Migration withdrawals -/

def migrationOutput (recipient random : Nat) : ShieldedOutput :=
  ⟨BitVec.ofNat 256 (2002 + recipient + random), 1, [], [], List.replicate 32 0, List.replicate 12 0⟩

def migration (n : Nat) : ShieldedTransaction where
  version := shieldedTxVersionV2
  spends := [⟨BitVec.ofNat 256 (n + 1), 1, [0], []⟩]
  outputs := [migrationOutput 7 (20 * n + 1), migrationOutput 0 (20 * n + 2), migrationOutput 0 (20 * n + 3),
    migrationOutput 0 (20 * n + 4)]
  balanceCommitment := 1
  bindingSig := List.replicate 32 0
  withdrawalRecipient := 7
  withdrawalValue := some 5
  gasSponsorValue := none
  migrationOutputRandomness := [20 * n + 1, 20 * n + 2, 20 * n + 3, 20 * n + 4].map (BitVec.ofNat 256)

def migrationTx (n : Nat) : Tx where
  hash := 1
  hash_ne := Hash.one_ne
  type := .pqTkm
  chainId := mainnetChainID
  nonce := n
  gasTipCap := 0
  gasFeeCap := 0
  gas := 21000
  toAddr := some poolAddress
  value := 0
  data := Bytes.ofText shieldedTxMagic ++ List.replicate n 0
  algorithm := algorithmMLDSA87
  publicKey := []

def migrationBackend : Backend := Backend.accepting (fun body => migration body.length) 7 seven_ne_pool

def antarticalConfig (ledger : Bool) : ChainConfig where
  chainID := some mainnetChainID
  londonBlock := some 0
  privacyCommitmentTime := some 0
  quantumResistantTime := some 0
  antarticalTime := some 0
  confidentialLedgerTime := if ledger then some 0 else none

def wrappedPool (balance : Wei) : World where
  st := {
    balance := Function.update (fun _ => 0) poolAddress balance
    nonce := fun _ => 0
    codeSize := fun _ => 0
    storage := fun k =>
      if k = assetSlot assetPTKM .supply [] then 10
      else if k = stampAddressSlot 7 ∨ k = shieldedMerkleRootSlot 1 then 1
      else 0
    poolOverdrawn := false }
  seen := ∅

def migrate (ledger : Bool) (n : Nat) (w : World) : World :=
  (processShieldedTransaction migrationBackend (antarticalConfig ledger) 1 mainnetShieldedV2Time (migrationTx n) w).2

theorem migrate_ok (ledger : Bool) (n : Nat) (w : World) (h : (processShieldedTransaction migrationBackend
    (antarticalConfig ledger) 1 mainnetShieldedV2Time (migrationTx n) w).1 = .ok ()) :
    processShieldedTransaction migrationBackend (antarticalConfig ledger) 1 mainnetShieldedV2Time (migrationTx n) w =
      (.ok (), migrate ledger n w) := Prod.ext h rfl

theorem wrappedPool_registry (balance : Wei) : RegistryOk (wrappedPool balance).st [] := by
  apply registryOk_empty
  intro k hk
  have h1 : k ≠ assetSlot assetPTKM .supply [] := by rintro rfl; simp [Role.kind] at hk
  have h2 : ¬ (k = stampAddressSlot 7 ∨ k = shieldedMerkleRootSlot 1) := by
    rintro (rfl | rfl)
    · simp [stampAddressSlot, Slot.kind, Role.kind] at hk
    · simp [shieldedMerkleRootSlot, Slot.kind] at hk
  simp only [wrappedPool, if_neg h1, if_neg h2]

/-! ## Runs with the ledger active -/

/-- One operation between two states of a block. An accepted shielded transaction
is followed by its outer transfer, a validator operation is preceded by it, and a
credit is any change that takes nothing from the pool and writes none of its books. -/
inductive PoolStep (B : Backend) (cfg : ChainConfig) : World → World → Prop
  | shielded {w w' : World} {num time : Nat} {tx : Tx} {sender : Address}
      (hactive : cfg.isConfidentialLedger num time = true) (hs : B.sender cfg num time tx = .ok sender)
      (h : processShieldedTransaction B cfg num time tx w = (.ok (), w'))
      (hfit : w'.st.pool + poolCredit tx < 2 ^ 256) : PoolStep B cfg w (w'.mapState (outerTransfer sender tx))
  | registration {w : World} {st : StateDB} {num time : Nat} {tx : Tx} {sender : Address}
      (hs : B.sender cfg num time tx = .ok sender) (hfit : w.st.pool + poolCredit tx < 2 ^ 256)
      (h : processValidatorRegistration B cfg num time tx (outerTransfer sender tx w.st) = (.ok (), st)) :
      PoolStep B cfg w { w with st }
  | action {w : World} {st : StateDB} {num time : Nat} {tx : Tx}
      (h : processValidatorAction B cfg num time tx w.st = (.ok (), st)) : PoolStep B cfg w { w with st }
  | slash {w : World} {st : StateDB} {num time : Nat} {tx : Tx}
      (h : processValidatorSlash B cfg num time tx w.st = (.ok (), st)) : PoolStep B cfg w { w with st }
  | credit {w w' : World} (hp : w.st.pool ≤ w'.st.pool) (ho : w'.st.poolOverdrawn = w.st.poolOverdrawn)
      (hs : ∀ k, ¬ Passive k → w'.st.storage k = w.st.storage k) : PoolStep B cfg w w'

section
theorem Settled.solvent
    (h : Settled cfg num time tx m s t) (hactive : cfg.isConfidentialLedger num time = true) (hsol : Solvent s idx)
    (hs : sender ≠ poolAddress) (hfit : t.pool + poolCredit tx < 2 ^ 256) :
    Solvent (outerTransfer sender tx t) idx := by
  obtain ⟨hreg, htotal⟩ := hsol.registry.congr (t := t) h.effect.registry
  have hcredit := h.credit
  have hpool := h.effect.pool
  have hsup := h.effect.supply
  have hcov : nativeBacking t + shieldedV3AssetSupply t assetPTKM + totalStake t idx ≤ t.pool + poolCredit tx := by
    cases hl : m.ledger with
    | none =>
      obtain ⟨hd, hw, hf⟩ := h.active hactive hl
      have hnat : nativeBacking t = nativeBacking s :=
        nativeBacking_congr (by rw [h.effect.native, Movement.native, hl, Option.getD_none, ite_self])
      have hm : m.minted = 0 := by
        unfold Movement.minted
        split <;> omega
      have := hsol.covered
      omega
    | some l =>
      obtain ⟨reserve, hfacts⟩ := ledgerTransition_spec (h.transition l hl)
      have hback := h.backing hl hfacts
      have hres := nativeReserve_eq hsol.registry hfacts.reserve_ok
      omega
  have htransfer := outerTransfer_pool hs hfit
  have hstore := outerTransfer_storage sender tx t
  obtain ⟨hreg', htotal'⟩ := hreg.congr (t := outerTransfer sender tx t) fun k _ => congrFun hstore k
  refine ⟨hreg', ?_, ?_⟩
  · rw [htransfer, htotal', nativeBacking_congr (ledgerState_congr fun r => congrFun hstore _),
      supply_congr (congrFun hstore _)]
    omega
  · rw [outerTransfer_overdrawn hs, h.effect.overdrawn, hsol.drawn]

theorem PoolStep.solvent (h : PoolStep B cfg w w') (hsol : Solvent w.st idx) : ∃ idx', Solvent w'.st idx' := by
  cases h with
  | @shielded w₁ num time tx sender hactive hs h hfit =>
    obtain ⟨m, hm⟩ := (processShieldedTransaction_accepted h).settled
    exact ⟨idx, hm.solvent hactive hsol (B.sender_ne_pool _ _ _ _ _ hs) hfit⟩
  | @registration st num time tx sender hs hfit h =>
    have hne := B.sender_ne_pool _ _ _ _ _ hs
    have hstore := outerTransfer_storage sender tx w.st
    have hpool := outerTransfer_pool hne hfit
    have hpaid : Solvent (outerTransfer sender tx w.st) idx :=
      hsol.gain (by omega) (outerTransfer_overdrawn hne) fun k _ => congrFun hstore k
    obtain ⟨hto, hval, hmove⟩ := processValidatorRegistration_ok hpaid.registry h
    refine hpaid.registryMove hmove ?_
    -- the bond arrived with the outer transfer
    obtain ⟨_, htotal⟩ := hsol.registry.congr (t := outerTransfer sender tx w.st) fun k _ => congrFun hstore k
    have hcredit : poolCredit tx = validatorBondWei := by rw [poolCredit, if_pos hto, hval]
    have := hsol.covered
    rw [nativeBacking_congr (ledgerState_congr fun r => congrFun hstore _), supply_congr (congrFun hstore _), htotal]
    omega
  | action h =>
    obtain ⟨_, hmove⟩ := processValidatorAction_ok hsol.registry h
    exact hsol.registryMove hmove (by have := hsol.covered; omega)
  | slash h =>
    obtain ⟨_, hmove⟩ := processValidatorSlash_ok hsol.registry h
    exact hsol.registryMove hmove (by have := hsol.covered; omega)
  | credit hp ho hs => exact ⟨idx, hsol.gain hp ho hs⟩

/-- Over every run with the confidential ledger active, the pool covers the native
backing, the pTKM supply and all validator stakes, and is never overdrawn. -/
theorem pool_solvency {w₀ w : World} {idx : List Address} (h₀ : Solvent w₀.st idx)
    (hrun : Relation.ReflTransGen (PoolStep B cfg) w₀ w) : ∃ idx', Solvent w.st idx' := by
  induction hrun with
  | refl => exact ⟨idx, h₀⟩
  | tail _ hstep ih =>
    obtain ⟨_, hsol⟩ := ih
    exact hstep.solvent hsol

end

theorem pool_solvency_migration :
    ∃ idx, Solvent (outerTransfer 7 (migrationTx 0) (migrate true 0 (wrappedPool 20)).st) idx := by
  have h₀ : Solvent (wrappedPool 20).st [] := ⟨wrappedPool_registry 20, by decide +kernel, rfl⟩
  have hstep : PoolStep migrationBackend (antarticalConfig true) (wrappedPool 20)
      ((migrate true 0 (wrappedPool 20)).mapState (outerTransfer 7 (migrationTx 0))) :=
    .shielded (by decide) rfl (migrate_ok true 0 (wrappedPool 20) (by decide +kernel)) (by decide +kernel)
  exact pool_solvency h₀ (.single hstep)

/-! ## The backing of wrapped TKM -/

def legacyPayout (B : Backend) (tx : Tx) : Int :=
  match decodeShieldedTransaction B tx.data with
  | .ok (some e) => paidOut e
  | _ => 0

section
theorem nativeBacking_nonneg (st : StateDB) : 0 ≤ nativeBacking st := by
  unfold nativeBacking
  split
  · exact (ledgerState_inRange st assetTKM).backing.1
  · exact Int.le_refl 0

section
variable (h : Settled cfg num time tx m s t)
include h

theorem Settled.wrapped_covered (hl : m.ledger = some l) : shieldedV3AssetSupply t assetPTKM ≤ t.pool + poolCredit tx := by
  obtain ⟨reserve, hf⟩ := ledgerTransition_spec (h.transition l hl)
  obtain ⟨records, _, _, hres⟩ := nativeReserve_ok hf.reserve_ok
  have := stakes_nonneg records
  have := nativeBacking_nonneg t
  have := h.backing hl hf
  have := h.effect.pool
  have := h.effect.supply
  have := h.credit
  omega

theorem Settled.idle_covered (hs : shieldedV3AssetSupply s assetPTKM ≤ s.pool)
    (hz : m.deposit = 0 ∧ m.withdrawal = 0 ∧ m.fee = 0) : shieldedV3AssetSupply t assetPTKM ≤ t.pool + poolCredit tx := by
  have hm : m.minted = 0 := by
    unfold Movement.minted
    split <;> omega
  have := h.effect.pool
  have := h.effect.supply
  omega

theorem Settled.active_covered (hactive : cfg.isConfidentialLedger num time = true) (hs : shieldedV3AssetSupply s assetPTKM ≤ s.pool) :
    shieldedV3AssetSupply t assetPTKM ≤ t.pool + poolCredit tx := by
  cases hl : m.ledger with
  | some l => exact h.wrapped_covered hl
  | none => exact h.idle_covered hs (h.active hactive hl)

end

theorem NoteRun.covered {e : ShieldedV3Transaction} {l : List Digest} {link : Option Digest} {w w' : World}
    (h : NoteRun B cfg num time tx e l link w w') (hs : shieldedV3AssetSupply w.st assetPTKM ≤ w.st.pool) :
    shieldedV3AssetSupply w'.st assetPTKM ≤ w'.st.pool + poolCredit tx := by
  obtain ⟨ledger, hset⟩ := h.settled
  have hpool := hset.effect.pool
  have hsup := hset.effect.supply
  have hcredit := hset.credit
  have hres := h.facts.reserve
  by_cases ha : (noteMovement tx e ledger).asset = assetPTKM
  · have hfee := hset.wrapped ha
    rw [Movement.minted, if_pos ha] at hsup
    omega
  · have hn : normalizeAssetID e.asset ≠ assetPTKM := by
      rcases h.shape.asset with hk | hk
      · rw [hk]; decide
      · exact absurd hk ha
    rw [Movement.minted, if_neg ha] at hsup
    rw [shieldedV3SpendablePoolReserve, if_neg hn] at hres
    change (w.st.pool : Int) ≤ w'.st.pool + (e.withdrawal + e.sponsor) at hpool
    split at hres <;> omega

theorem paidOut_range (e : ShieldedTransaction) : 0 ≤ paidOut e ∧ paidOut e ≤ publicRelease e := by
  obtain ⟨hw, hs⟩ := release_nonneg e
  unfold paidOut publicRelease
  split <;> omega

theorem Accepted.covered_iff (h : Accepted B cfg num time tx w w')
    (hs : shieldedV3AssetSupply w.st assetPTKM ≤ w.st.pool) :
    shieldedV3AssetSupply w'.st assetPTKM ≤ w'.st.pool + poolCredit tx ↔
      cfg.isConfidentialLedger num time = true ∨ shieldedV3AssetSupply w.st assetPTKM + legacyPayout B tx ≤ w.st.pool := by
  -- outside the V1/V2 path the payout is zero, and the supply stays covered
  have hzero (hd : decodeShieldedTransaction B tx.data = .ok none)
      (hcov : shieldedV3AssetSupply w'.st assetPTKM ≤ w'.st.pool + poolCredit tx) :
      shieldedV3AssetSupply w'.st assetPTKM ≤ w'.st.pool + poolCredit tx ↔ cfg.isConfidentialLedger num time = true ∨
        shieldedV3AssetSupply w.st assetPTKM + legacyPayout B tx ≤ w.st.pool := by
    have hpay : legacyPayout B tx = 0 := by rw [legacyPayout, hd]
    exact iff_of_true hcov (.inr (by omega))
  cases h with
  | idle hd h =>
    refine hzero hd ?_
    have := supply_congr (h.storage (assetSlot assetPTKM .supply []) (by simp [Calm, Passive, Role.kind]))
    have := h.pool
    omega
  | note e l link hd _ h => exact hzero hd (h.covered hs)
  | v6 e ledger hd h =>
    refine hzero hd ?_
    by_cases hactive : cfg.isConfidentialLedger num time = true
    · exact h.settled.active_covered hactive hs
    · have hno : ¬ (e.deposit = true ∨ 0 < e.withdrawal) := fun hm => hactive (h.boundary hm)
      have := h.withdrawal
      refine h.settled.idle_covered hs ⟨?_, ?_, rfl⟩
      · simp only [v6Movement]
        rw [if_neg fun hd => hno (.inl hd)]
      · show e.withdrawal = 0
        omega
  | legacy e ledger hd h =>
    have hpay : legacyPayout B tx = paidOut e := by rw [legacyPayout, hd]
    by_cases hactive : cfg.isConfidentialLedger num time = true
    · exact iff_of_true (h.settled.active_covered hactive hs) (.inl hactive)
    · obtain ⟨intent, sender, hsend, happ⟩ := h.applied
      have hpool := applyLegacy_pool h.release (h.sender_ne_pool hsend) happ
      have hsup := h.settled.effect.supply
      rw [Movement.minted_native rfl] at hsup
      simp only [hactive, Bool.false_eq_true, false_or]
      have hrange := paidOut_range e
      by_cases hv : tx.value = 0
      · have : poolCredit tx = 0 := by simp [poolCredit, hv]
        omega
      · have := h.value hv
        omega

theorem outerTransfer_covered_iff (hs : sender ≠ poolAddress)
    (hfit : st.pool + poolCredit tx < 2 ^ 256) :
    shieldedV3AssetSupply (outerTransfer sender tx st) assetPTKM ≤ (outerTransfer sender tx st).pool ↔
      shieldedV3AssetSupply st assetPTKM ≤ st.pool + poolCredit tx := by
  rw [outerTransfer_pool hs hfit, supply_congr (congrFun (outerTransfer_storage sender tx st) _)]
  omega

/-- From a state whose pool covers the pTKM supply, an accepted transaction and its
outer transfer leave it covered exactly when the ledger is active or the V1/V2
payout of the transaction stays within the excess over the supply. -/
theorem wrapped_backing {w w' : World} {sender : Address} (hback : shieldedV3AssetSupply w.st assetPTKM ≤ w.st.pool)
    (hs : B.sender cfg num time tx = .ok sender) (h : processShieldedTransaction B cfg num time tx w = (.ok (), w'))
    (hfit : w'.st.pool + poolCredit tx < 2 ^ 256) :
    shieldedV3AssetSupply (outerTransfer sender tx w'.st) assetPTKM ≤ (outerTransfer sender tx w'.st).pool ↔
      cfg.isConfidentialLedger num time = true ∨ shieldedV3AssetSupply w.st assetPTKM + legacyPayout B tx ≤ w.st.pool := by
  rw [outerTransfer_covered_iff (B.sender_ne_pool _ _ _ _ _ hs) hfit]
  exact (processShieldedTransaction_accepted h).covered_iff hback

end

theorem wrapped_backing_migration :
    shieldedV3AssetSupply (outerTransfer 7 (migrationTx 0) (migrate false 0 (wrappedPool 15)).st) assetPTKM ≤
      (outerTransfer 7 (migrationTx 0) (migrate false 0 (wrappedPool 15)).st).pool :=
  (wrapped_backing (B := migrationBackend) (by decide) rfl
    (migrate_ok false 0 (wrappedPool 15) (by decide +kernel)) (by decide +kernel)).mpr (.inr (by rfl))

/-- A migration of five wei out of a pool whose ten wei all back pTKM. -/
theorem migration_takes_backing :
    (antarticalConfig false).checkConfigForkOrder migrationBackend.sha256 = .ok () ∧
      shieldedV3AssetSupply (wrappedPool 10).st assetPTKM ≤ (wrappedPool 10).st.pool ∧
      processShieldedTransaction migrationBackend (antarticalConfig false) 1 mainnetShieldedV2Time (migrationTx 0)
        (wrappedPool 10) = (.ok (), migrate false 0 (wrappedPool 10)) ∧
      ¬ shieldedV3AssetSupply (outerTransfer 7 (migrationTx 0) (migrate false 0 (wrappedPool 10)).st) assetPTKM ≤
        (outerTransfer 7 (migrationTx 0) (migrate false 0 (wrappedPool 10)).st).pool :=
  ⟨by rfl, by rfl, migrate_ok false 0 (wrappedPool 10) (by decide +kernel), by decide +kernel⟩

/-! ## The native ledger once it is open -/

/-- The worlds a chain can reach at a position, from one whose native ledger is not
open; positions never decrease, and only shielded transactions write the ledger. -/
inductive LedgerReach (B : Backend) (cfg : ChainConfig) : Nat → Nat → World → Prop
  | start {num time : Nat} {w : World} (h : (confidentialLedgerState w.st assetTKM).initialized = false) :
      LedgerReach B cfg num time w
  | tx {num time : Nat} {t : Tx} {w w' : World} (hw : LedgerReach B cfg num time w)
      (h : processShieldedTransaction B cfg num time t w = (.ok (), w')) : LedgerReach B cfg num time w'
  | other {num time num' time' : Nat} {w w' : World} (hw : LedgerReach B cfg num time w) (hn : num ≤ num')
      (ht : time ≤ time') (hs : ∀ r, w'.st.storage (ledgerSlot assetTKM r) = w.st.storage (ledgerSlot assetTKM r)) :
      LedgerReach B cfg num' time' w'

section
theorem LedgerReach.active (h : LedgerReach B cfg num time w) :
    (confidentialLedgerState w.st assetTKM).initialized = true → cfg.isConfidentialLedger num time = true := by
  induction h with
  | start h => intro hi; rw [h] at hi; cases hi
  | @tx num time _ _ _ _ h ih =>
    intro hi
    cases hc : cfg.isConfidentialLedger num time with
    | true => rfl
    | false =>
      obtain ⟨m, hm⟩ := (processShieldedTransaction_accepted h).settled
      rw [hm.effect.native, Movement.native, hm.inactive hc, Option.getD_none, ite_self] at hi
      rw [← hc, ih hi]
  | other _ hn ht hs ih =>
    intro hi
    rw [ledgerState_congr hs] at hi
    exact ChainConfig.isPrivateFork_mono hn ht (ih hi)

structure LedgerCovered (st : StateDB) (reserve : Int) : Prop where
  reserve_ok : confidentialNativeReserve st = .ok reserve
  backing : (confidentialLedgerState st assetTKM).backing ≤ reserve

theorem Settled.initialized (h : Settled cfg num time tx m s t)
    (hi : (confidentialLedgerState s assetTKM).initialized = true) :
    (confidentialLedgerState t assetTKM).initialized = true := by
  rw [h.effect.native]
  unfold Movement.native
  split
  · cases hl : m.ledger with
    | none => exact hi
    | some l =>
      obtain ⟨_, hf⟩ := ledgerTransition_spec (h.transition l hl)
      exact transition_initialized hf
  · exact hi

theorem Settled.ledger_covered (h : Settled cfg num time tx m s t) (hactive : cfg.isConfidentialLedger num time = true)
    (hi : (confidentialLedgerState s assetTKM).initialized = true) (hc : LedgerCovered s reserve)
    (hs : sender ≠ poolAddress) (hfit : t.pool + poolCredit tx < 2 ^ 256) :
    ∃ reserve', LedgerCovered (outerTransfer sender tx t) reserve' := by
  have hstore := outerTransfer_storage sender tx t
  have hpool := outerTransfer_pool hs hfit
  have hsup : shieldedV3AssetSupply (outerTransfer sender tx t) assetPTKM = shieldedV3AssetSupply s assetPTKM + m.minted := by
    rw [supply_congr (congrFun hstore _), h.effect.supply]
  have hledger : confidentialLedgerState (outerTransfer sender tx t) assetTKM = confidentialLedgerState t assetTKM :=
    ledgerState_congr fun r => congrFun hstore _
  have hnative : nativeBacking t = (confidentialLedgerState t assetTKM).backing := by
    rw [nativeBacking, if_pos (h.initialized hi)]
  have heff := h.effect.pool
  have hback : nativeBacking t ≤ reserve + (t.pool + poolCredit tx - s.pool) - m.minted := by
    cases hl : m.ledger with
    | some l =>
      obtain ⟨reserve', hf⟩ := ledgerTransition_spec (h.transition l hl)
      obtain rfl : reserve = reserve' := Except.ok.inj (hc.reserve_ok.symm.trans hf.reserve_ok)
      have := h.backing hl hf
      have := h.credit
      omega
    | none =>
      obtain ⟨hd, hw, hf⟩ := h.active hactive hl
      have hm : m.minted = 0 := by
        unfold Movement.minted
        split <;> omega
      have heq : nativeBacking t = nativeBacking s :=
        nativeBacking_congr (by rw [h.effect.native, Movement.native, hl, Option.getD_none, ite_self])
      have hold : nativeBacking s = (confidentialLedgerState s assetTKM).backing := by rw [nativeBacking, if_pos hi]
      have := hc.backing
      omega
  have hnn := nativeBacking_nonneg t
  have hrec : validatorRecords (outerTransfer sender tx t) = validatorRecords s :=
    validatorRecords_congr fun k hk => (congrFun hstore k).trans (h.effect.registry k hk)
  have hres := nativeReserve_moved hrec hc.reserve_ok (by rw [hpool, hsup]; omega)
  refine ⟨_, hres, ?_⟩
  rw [hledger, hpool, hsup]
  omega

theorem LedgerCovered.transition (h : LedgerCovered st reserve)
    (hi : (confidentialLedgerState st assetTKM).initialized = true) (hd : 0 ≤ d) (hv : 0 ≤ v)
    (hle : v ≤ (confidentialLedgerState st assetTKM).backing + d)
    (hdep : (confidentialLedgerState st assetTKM).deposited + d < 2 ^ 256)
    (hwd : (confidentialLedgerState st assetTKM).withdrawn + v < 2 ^ 256)
    (hback : (confidentialLedgerState st assetTKM).backing + d - v < 2 ^ 256) :
    ∃ l, ledgerTransition st assetTKM d v 0 = .ok l := by
  have hrange := ledgerState_inRange st assetTKM
  have hreserve := nativeReserve_range h.reserve_ok
  have hcov := h.backing
  have hin {n : Int} (h0 : 0 ≤ n) (h1 : n < 2 ^ 256) : outOfRange n = false := by
    simp only [outOfRange, bitLenAbove, Bool.or_eq_false_iff, decide_eq_false_iff_not]
    omega
  have hfees := hrange.fees
  have hdep0 := hrange.deposited
  have hwd0 := hrange.withdrawn
  have hb0 := hrange.backing
  refine ⟨(confidentialLedgerState st assetTKM).advance d v 0, ?_⟩
  simp only [ledgerTransition, ok_rules]
  refine ⟨reserve, h.reserve_ok, (), by omega, (), ?_, (), ?_, (), ?_, ?_⟩
  · rw [if_neg (by decide), ConfidentialLedgerTotals.openWith_of_initialized hi]
    omega
  · rw [hin hd (by omega), hin hv (by omega), hin (Int.le_refl 0) (by decide)]
    simp
  · rw [ConfidentialLedgerTotals.openWith_of_initialized hi]
    simp only [ConfidentialLedgerTotals.advance]
    rw [hin (by omega) hdep, hin (by omega) hwd, hin (by omega) (by omega), hin (by omega) (by omega)]
    simp
  · rw [ConfidentialLedgerTotals.openWith_of_initialized hi]

end

end TkmChain
