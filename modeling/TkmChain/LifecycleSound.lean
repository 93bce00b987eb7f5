import TkmChain.RegistryRuns

/-!
# Bonds and penalties over every run

Over every run of blocks from an empty registry: the integrity of the registry, when
penalties keep a validator out, and when an offence burns one bond only. The last two
fail for a validator that registers again.
-/

namespace TkmChain

/-! ## A validator that comes back -/

def exampleKey : Bytes := List.replicate mldsa87PublicKeySize 1

/-- Registrations name their activation by their length, evidence the two block hashes by its bytes. -/
def exampleBackend : Backend := { migrationBackend with
  decodeRegistration := fun body => .ok
    { version := 1, publicKey := exampleKey, rewardAddress := 7, activationHeight := UInt64.ofNat (720 + body.length) }
  decodeSlash := fun body => .ok
    { version := 1, validator := 7, height := 1, blockHashA := BitVec.ofNat 256 (body.headD 0).toNat,
      blockHashB := BitVec.ofNat 256 (body.getLastD 0).toNat, signatureA := [1], signatureB := [1],
      publicKey := exampleKey }
  decodeAction := fun _ => some 1 }

def exampleTx (magic : String) (body : Bytes) (value : Nat) : Tx where
  hash := 1
  hash_ne := Hash.one_ne
  type := .pqTkm
  chainId := mainnetChainID
  nonce := 0
  gasTipCap := 0
  gasFeeCap := 0
  gas := 21000
  toAddr := some poolAddress
  value
  data := Bytes.ofText magic ++ body
  algorithm := algorithmMLDSA87
  publicKey := exampleKey

def registerTx (n : Nat) : Tx := exampleTx validatorRegistrationMagic (List.replicate n 0) validatorBondWei

def slashTx (a b : UInt8) : Tx := exampleTx validatorSlashMagic [a, b] 0

def exitTx : Tx := exampleTx validatorExitMagic [] 0

def withdrawTx : Tx := exampleTx validatorWithdrawalMagic [] 0

def fundedState : StateDB where
  balance := Function.update (fun _ => 0) 7 (BitVec.ofNat 256 (2 * (validatorBondWei + validatorRegistrationFeeWei)))
  nonce := fun _ => 0
  codeSize := fun _ => 0
  storage := fun _ => 0
  poolOverdrawn := false

def exampleRegistration (num : Nat) : ValidatorRegistration where
  version := 1
  publicKey := exampleKey
  rewardAddress := 7
  activationHeight := UInt64.ofNat (720 + num)

def exampleRecord (num : Nat) : ValidatorRecord where
  version := 1
  address := 7
  publicKey := exampleKey
  rewardAddress := 7
  stake := validatorBondWei
  activationHeight := 720 + num
  registeredAt := num

def afterRegister (num : Nat) (st : StateDB) : StateDB :=
  indexValidator (storeRecord ((outerTransfer 7 (registerTx num) st).subBalance 7
    (BitVec.ofNat 256 validatorRegistrationFeeWei)) (exampleRecord num)) 7

def afterSlash (num : Nat) (a b : UInt8) (r : ValidatorRecord) (st : StateDB) : StateDB :=
  (storeRecord ((outerTransfer 7 (slashTx a b) st).subBalance poolAddress (BitVec.ofNat 256 r.stake))
    (r.slashed num)).setState (validatorEvidenceSlot (exampleBackend.keccak256 (slashTx a b).data)) 1

def exampleConfig : ChainConfig := antarticalConfig false

section
variable {num : Nat} {st : StateDB} {r : ValidatorRecord}

theorem exampleConfig_antartical (num : Nat) : ¬ exampleConfig.isAntartical num 0 = false := by
  simp [exampleConfig, antarticalConfig, ChainConfig.isAntartical, ChainConfig.isLondonTimeFork, ChainConfig.isLondon,
    isForked]

theorem recordsOf_afterRegister (hr : (exampleRecord num).Storable) :
    recordsOf (afterRegister num st) 7 = some (exampleRecord num) := by
  rw [afterRegister, recordsOf_index, recordsOf_store hr]
  exact Function.update_self ..

theorem recordsOf_afterSlash {a b : UInt8} (hr : (r.slashed num).Storable) (ha : r.address = 7) :
    recordsOf (afterSlash num a b r st) 7 = some (r.slashed num) := by
  rw [afterSlash, recordsOf_congr fun k hk => setOther_registry rfl hk, recordsOf_store hr, ← ha]
  exact Function.update_self ..

theorem stakeOf_transfer (tx : Tx) (a : Address) : stakeOf (outerTransfer 7 tx st) a = stakeOf st a :=
  stakeOf_congr fun k _ => congrFun (outerTransfer_storage 7 tx st) k

theorem registerTx_accepted (hz : recordedStake (recordsOf st 7) = 0)
    (h : validatorCount st < validatorMaxSetSize ∧
      validatorRegistrationFeeWei ≤ ((outerTransfer 7 (registerTx num) st).balance 7).toNat ∧
      ¬ (exampleRegistration num).activationHeight.toNat < (num % 2 ^ 64 + validatorActivationDelay) % 2 ^ 64 ∧
      validateValidatorRegistrationBasics exampleBackend exampleConfig num 0 (registerTx num) = .ok ())
    (hmagic : hasValidatorRegistrationPrefix (registerTx num).data = true)
    (hdecode : decodeValidatorRegistration exampleBackend (registerTx num).data = .ok (exampleRegistration num))
    (hrecord : registeredRecord num 7 (exampleRegistration num) = exampleRecord num)
    (hr : (exampleRecord num).Storable) :
    processValidatorHooks exampleBackend exampleConfig num 0 (registerTx num) (outerTransfer 7 (registerTx num) st) =
      (.ok (), afterRegister num st) := by
  obtain ⟨hroom, hfee, hdelay, hbasics⟩ := h
  rw [processValidatorHooks_eq, if_neg (exampleConfig_antartical num), if_pos hmagic]
  refine processValidatorRegistration_iff.mpr ⟨7, exampleRegistration num, hbasics, rfl, hdecode, ?_, hfee, ?_, ?_⟩
  · simp only [validateValidatorRegistrationState, ok_rules]
    refine ⟨_, hdecode, (), ?_, (), ?_, hdelay⟩
    · rw [stakeOf_transfer, ← recordedStake_recordsOf, hz]
      exact Nat.lt_irrefl 0
    · rw [validatorCount, outerTransfer_storage, ← validatorCount]
      exact Nat.not_le.mpr hroom
  · rw [hrecord]
    exact ⟨hr.pos, hr.max⟩
  · rw [hrecord, afterRegister]

def exampleEvidence (a b : UInt8) : ValidatorSlashEvidence where
  version := 1
  validator := 7
  height := 1
  blockHashA := BitVec.ofNat 256 a.toNat
  blockHashB := BitVec.ofNat 256 b.toNat
  signatureA := [1]
  signatureB := [1]
  publicKey := exampleKey

theorem slashTx_accepted (a b : UInt8) (hread : recordsOf st 7 = some r) (hkey : r.publicKey = exampleKey)
    (hstake : 0 < r.stake) (h : r.stake ≤ (outerTransfer 7 (slashTx a b) st).pool ∧
      st.storage (validatorEvidenceSlot (exampleBackend.keccak256 (slashTx a b).data)) = 0 ∧
      validateValidatorSlashBasics exampleBackend exampleConfig num 0 (slashTx a b) = .ok ())
    (hr : (r.slashed num).Storable) :
    processValidatorHooks exampleBackend exampleConfig num 0 (slashTx a b) (outerTransfer 7 (slashTx a b) st) =
      (.ok (), afterSlash num a b r st) := by
  obtain ⟨hpool, hnew, hbasics⟩ := h
  have hdecode : decodeValidatorSlash exampleBackend (slashTx a b).data = .ok (exampleEvidence a b) := rfl
  have hread' : recordsOf (outerTransfer 7 (slashTx a b) st) 7 = some r := by
    rw [recordsOf_congr fun k _ => congrFun (outerTransfer_storage 7 (slashTx a b) st) k, hread]
  have hreg : ¬ hasValidatorRegistrationPrefix (slashTx a b).data = true := Bool.false_ne_true
  have hslash : hasValidatorSlashPrefix (slashTx a b).data = true := rfl
  rw [processValidatorHooks_eq, if_neg (exampleConfig_antartical num), if_neg hreg, if_pos hslash]
  refine processValidatorSlash_iff.mpr ⟨exampleEvidence a b, r, hbasics, hdecode, recordsOf_eq_some.mp hread', hkey,
    ?_, fun _ => hpool, ⟨hr.pos, hr.max⟩, ?_⟩
  · rw [outerTransfer_storage, hnew]
  · rw [if_pos hstake]
    rfl

end

theorem exampleRecord_fits {num : Nat} (hn : num < 2 ^ 32) : (exampleRecord num).Fits :=
  ⟨by simp [exampleRecord], by simp [exampleRecord, validatorBondWei, ether], by simp only [exampleRecord]; omega,
    by simp [exampleRecord], by simp [exampleRecord], by simp only [exampleRecord]; omega, by simp [exampleRecord]⟩

theorem exampleRecords_storable : (exampleRecord 1).Storable ∧ ((exampleRecord 1).slashed 2).Storable ∧
    (exampleRecord 3).Storable ∧ ((exampleRecord 3).slashed 4).Storable :=
  have h1 := exampleRecord_fits (show 1 < 2 ^ 32 by decide)
  have h3 := exampleRecord_fits (show 3 < 2 ^ 32 by decide)
  ⟨⟨h1, by decide +kernel, by decide +kernel⟩, ⟨ValidatorRecord.slashed_fits h1, by decide +kernel, by decide +kernel⟩,
    ⟨h3, by decide +kernel, by decide +kernel⟩, ⟨ValidatorRecord.slashed_fits h3, by decide +kernel, by decide +kernel⟩⟩

def exampleState1 : StateDB := afterRegister 1 fundedState

def exampleState2 : StateDB := afterSlash 2 1 2 (exampleRecord 1) exampleState1

def exampleState3 : StateDB := afterRegister 3 exampleState2

def exampleState4 : StateDB := afterSlash 4 2 1 (exampleRecord 3) exampleState3

def exampleLog1 : List HistoryEntry := [performed 1 (registerTx 1) fundedState 7 (.register (exampleRecord 1))]

def exampleLog2 : List HistoryEntry := performed 2 (slashTx 1 2) exampleState1 7 (.slash (exampleEvidence 1 2)) :: exampleLog1

def exampleLog3 : List HistoryEntry := performed 3 (registerTx 3) exampleState2 7 (.register (exampleRecord 3)) :: exampleLog2

def exampleLog4 : List HistoryEntry := performed 4 (slashTx 2 1) exampleState3 7 (.slash (exampleEvidence 2 1)) :: exampleLog3

theorem exampleRun1 : RegistryRun exampleBackend exampleConfig 1 exampleState1 exampleLog1 := by
  have hz : recordsOf fundedState 7 = none := by rfl
  have haccepted := registerTx_accepted (by rw [hz]; rfl) (by decide +kernel) rfl rfl rfl exampleRecords_storable.1
  exact .tx (.start fun _ _ => rfl) (by decide) (by decide) (by decide) rfl (by decide) haccepted

theorem exampleRun2 : RegistryRun exampleBackend exampleConfig 2 exampleState2 exampleLog2 := by
  have hread : recordsOf exampleState1 7 = some (exampleRecord 1) := recordsOf_afterRegister exampleRecords_storable.1
  have haccepted := slashTx_accepted 1 2 hread rfl (by decide) (by decide +kernel) exampleRecords_storable.2.1
  exact .tx exampleRun1 (by decide) (by decide) (by decide) rfl (by decide +kernel) haccepted

theorem exampleRun3 : RegistryRun exampleBackend exampleConfig 3 exampleState3 exampleLog3 := by
  have hz : recordsOf exampleState2 7 = _ := recordsOf_afterSlash exampleRecords_storable.2.1 rfl
  have haccepted := registerTx_accepted (by rw [hz]; rfl) (by decide +kernel) rfl rfl rfl exampleRecords_storable.2.2.1
  exact .tx exampleRun2 (by decide) (by decide) (by decide) rfl (by decide +kernel) haccepted

theorem exampleRun4 : RegistryRun exampleBackend exampleConfig 4 exampleState4 exampleLog4 := by
  have hread : recordsOf exampleState3 7 = some (exampleRecord 3) := recordsOf_afterRegister exampleRecords_storable.2.2.1
  have haccepted := slashTx_accepted 2 1 hread rfl (by decide) (by decide +kernel) exampleRecords_storable.2.2.2
  exact .tx exampleRun3 (by decide) (by decide) (by decide) rfl (by decide +kernel) haccepted

/-! ## Integrity -/

structure RegistryIntegrity (st : StateDB) (log : List HistoryEntry) (idx : List Address) : Prop where
  count : validatorCount st = idx.length
  bound : validatorCount st ≤ validatorMaxSetSize
  distinct : idx.Nodup
  entry : ∀ i a, idx[i]? = some a → st.storage (validatorIndexSlot i) = Hash.ofBytes a.bytes ∧ a ≠ 0 ∧
    ∃ r, readValidatorRecord st a = .ok r ∧ r.address = a ∧ (r.stake = 0 ∨ r.stake = validatorBondWei)
  records : ∃ records, validatorRecords st = .ok records ∧
    (records.map (·.stake)).sum + (log.map (·.withdrawn)).sum + (log.map (·.burned)).sum = (log.map (·.paidIn)).sum

/-- Every run keeps the registry whole; its withdrawals keep the unbonding period exactly when the period of every
exit they follow ends within the range of heights. -/
theorem registry_integrity {B : Backend} {cfg : ChainConfig} {height : Nat} {st : StateDB} {log : List HistoryEntry}
    (hrun : RegistryRun B cfg height st log) :
    (∃ idx, RegistryIntegrity st log idx) ∧ (History.Unbonded log ↔ History.ExitsInRange log) := by
  obtain ⟨_, _, hist⟩ := hrun.inv.history
  obtain ⟨idx, hok, hsum⟩ := hrun.inv.registry
  refine ⟨⟨idx, hok.count, by rw [hok.count]; exact hok.bound, hok.nodup, ?_, ?_⟩, hist.unbonded_iff⟩
  · intro i a ha
    have hmem := List.mem_of_getElem? ha
    obtain ⟨r, hr, haddr, _⟩ := hok.record a hmem
    exact ⟨hok.entry i a ha, hok.nonzero a hmem, r, hr, haddr, hist.stake_eq a r (recordsOf_eq_some.mpr hr)⟩
  · obtain ⟨records, hrecords, hstakes, _⟩ := validatorRecords_ok hok
    exact ⟨records, hrecords, by rw [hstakes, ← totalStake, hsum]⟩

theorem registry_integrity_slashed : (∃ idx, RegistryIntegrity exampleState2 exampleLog2 idx) ∧ History.Unbonded exampleLog2 := by
  obtain ⟨hwhole, hunbonded⟩ := registry_integrity exampleRun2
  refine ⟨hwhole, hunbonded.mpr ?_⟩
  -- nothing is withdrawn
  have hnone : ∀ w ∈ exampleLog2, w.act ≠ .withdraw := by
    intro w hw
    rcases List.mem_cons.mp hw with rfl | hw
    · exact nofun
    · obtain rfl := List.mem_singleton.mp hw
      exact nofun
  intro l₀ w rest x hsplit hw
  exact absurd hw (hnone w (by rw [hsplit]; simp))

def exited1 : ValidatorRecord := (exampleRecord 1).exited (2 ^ 64 - 100)

theorem exited1_storable : exited1.Storable :=
  ⟨ValidatorRecord.exited_fits (exampleRecord_fits (by decide)), by decide +kernel, by decide +kernel⟩

def exitedState : StateDB := storeRecord (outerTransfer 7 exitTx exampleState1) exited1

def withdrawnState : StateDB :=
  storeRecord (((outerTransfer 7 withdrawTx exitedState).subBalance poolAddress
    (BitVec.ofNat 256 validatorBondWei)).addBalance 7 (BitVec.ofNat 256 validatorBondWei)) (exited1.closed (2 ^ 64 - 99))

def exitedLog : List HistoryEntry := performed (2 ^ 64 - 100) exitTx exampleState1 7 .exit :: exampleLog1

theorem exited_run : RegistryRun exampleBackend exampleConfig (2 ^ 64 - 100) exitedState exitedLog := by
  have hread : recordsOf (outerTransfer 7 exitTx exampleState1) 7 = some (exampleRecord 1) := by
    rw [recordsOf_congr fun k _ => congrFun (outerTransfer_storage 7 exitTx exampleState1) k]
    exact recordsOf_afterRegister exampleRecords_storable.1
  have hprocess : processValidatorHooks exampleBackend exampleConfig (2 ^ 64 - 100) 0 exitTx
      (outerTransfer 7 exitTx exampleState1) = (.ok (), exitedState) := by
    rw [processValidatorHooks_eq, if_neg (exampleConfig_antartical _), if_neg (by decide), if_neg (by decide),
      if_pos (by decide)]
    exact (processValidatorAction_exit_iff (by decide)).mpr ⟨7, exampleRecord 1, by decide +kernel, rfl,
      recordsOf_eq_some.mp hread, ⟨by decide, rfl⟩, rfl, ⟨exited1_storable.pos, exited1_storable.max⟩, rfl⟩
  exact .tx exampleRun1 (by decide) (by decide) (by decide) rfl (by decide +kernel) hprocess

theorem withdrawn_run : RegistryRun exampleBackend exampleConfig (2 ^ 64 - 99) withdrawnState
    (performed (2 ^ 64 - 99) withdrawTx exitedState 7 .withdraw :: exitedLog) := by
  have hread : recordsOf (outerTransfer 7 withdrawTx exitedState) 7 = some exited1 := by
    rw [recordsOf_congr fun k _ => congrFun (outerTransfer_storage 7 withdrawTx exitedState) k, exitedState,
      recordsOf_store exited1_storable]
    exact Function.update_self ..
  have hprocess : processValidatorHooks exampleBackend exampleConfig (2 ^ 64 - 99) 0 withdrawTx
      (outerTransfer 7 withdrawTx exitedState) = (.ok (), withdrawnState) := by
    rw [processValidatorHooks_eq, if_neg (exampleConfig_antartical _), if_neg (by decide), if_neg (by decide),
      if_pos (by decide)]
    exact (processValidatorAction_withdrawal_iff (by decide)).mpr ⟨7, exited1, by decide +kernel, rfl,
      recordsOf_eq_some.mp hread, by decide, ⟨by decide, by decide, by decide⟩, rfl, by decide +kernel,
      ⟨by decide +kernel, by decide +kernel⟩, rfl⟩
  exact .tx exited_run (by decide) (by decide) (by decide) rfl (by decide +kernel) hprocess

/-- The bond of the late exit is withdrawn in the next block. -/
theorem late_exit_withdrawn : ∃ st log, RegistryRun exampleBackend exampleConfig (2 ^ 64 - 99) st log ∧
    ¬ History.Unbonded log := by
  refine ⟨_, _, withdrawn_run, fun hu => ?_⟩
  obtain ⟨x, ⟨p, hp, _, rfl⟩, hend⟩ := hu [] _ exitedLog rfl rfl
  obtain rfl := Option.some.inj hp
  revert hend
  decide

/-! ## Penalties -/

/-- Penalties keep their validator out exactly when every registration starts behind the penalties before it; then no
record in the state is active while a penalty of its validator runs. -/
theorem penalties_keep_out {B : Backend} {cfg : ChainConfig} {height : Nat} {st : StateDB} {log : List HistoryEntry}
    (hrun : RegistryRun B cfg height st log) :
    (KeptOut log ↔ ClearOfPenalties log) ∧
      (ClearOfPenalties log → ∀ a r, readValidatorRecord st a = .ok r → ∀ p ∈ log, p.Penalises a →
        ∀ k, p.height ≤ k → k < p.height + validatorUnbondingPeriod → r.activeAt k = false) := by
  obtain ⟨_, _, hist⟩ := hrun.inv.history
  refine ⟨hist.keptOut_iff, ?_⟩
  intro hclear a r hr p hp hpen k hfrom hto
  exact (hist.outOfPenalties hclear a r (recordsOf_eq_some.mpr hr)).inactive hp hpen hfrom hto

theorem penalties_keep_out_slashed : ((exampleRecord 1).slashed 2).activeAt 800 = false := by
  have hclear : ClearOfPenalties exampleLog2 := ⟨⟨trivial, nofun⟩, nofun⟩
  have hread : recordsOf exampleState2 7 = some ((exampleRecord 1).slashed 2) := recordsOf_afterSlash exampleRecords_storable.2.1 rfl
  exact (penalties_keep_out exampleRun2).2 hclear 7 _ (recordsOf_eq_some.mp hread) _ (List.mem_cons_self ..)
    ⟨rfl, Or.inr ⟨_, rfl⟩⟩ 800 (by decide) (by decide)

/-- Registered again in the block after the slash, the validator is active 721 blocks after it. -/
theorem slashed_active_again : ∃ st log r p, RegistryRun exampleBackend exampleConfig 3 st log ∧
    readValidatorRecord st 7 = .ok r ∧ p ∈ log ∧ p.Penalises 7 ∧ p.height ≤ 723 ∧
    723 < p.height + validatorUnbondingPeriod ∧ r.activeAt 723 = true := by
  have hread : recordsOf exampleState3 7 = some (exampleRecord 3) := recordsOf_afterRegister exampleRecords_storable.2.2.1
  exact ⟨exampleState3, exampleLog3, exampleRecord 3,
    performed 2 (slashTx 1 2) exampleState1 7 (.slash (exampleEvidence 1 2)), exampleRun3, recordsOf_eq_some.mp hread, by simp [exampleLog3, exampleLog2], ⟨rfl, Or.inr ⟨_, rfl⟩⟩, by decide, by decide, by decide⟩

/-! ## Burned bonds -/

/-- One offence burns one bond, if its validator does not register over a slashed record, or if everyone reports the
offence in the same words. -/
theorem offence_burns_once {B : Backend} {cfg : ChainConfig} {height : Nat} {st : StateDB} {log : List HistoryEntry}
    (hrun : RegistryRun B cfg height st log) (o : Offence)
    (hone : (∀ en ∈ log, en.RegistersUnslashed o.validator) ∨
      ∀ x ∈ log, ∀ y ∈ log, o.chargedBy x = true → o.chargedBy y = true → x.data = y.data) :
    log.countP o.burnedBy ≤ 1 := by
  have hinv := hrun.inv
  obtain ⟨_, _, hist⟩ := hinv.history
  apply countP_le_one
  rcases hone with hreg | hsame
  · exact hist.burned_once hinv.names o hreg
  · refine hinv.fresh.imp_of_mem fun {x y} hx hy hne hboth => ?_
    have hcharged : ∀ z, o.burnedBy z = true → o.chargedBy z = true := fun z hz => (Bool.and_eq_true _ _ ▸ hz).1
    have hxc := hcharged x hboth.1
    have hyc := hcharged y hboth.2
    obtain ⟨e, he, _⟩ := Offence.chargedBy_slash hxc
    obtain ⟨e', he', _⟩ := Offence.chargedBy_slash hyc
    exact hne ⟨e, he⟩ ⟨e', he'⟩ (hsame x hx y hy hxc hyc)

def exampleOffence : Offence := ⟨7, 1, 1, 2⟩

theorem offence_burns_once_slashed : exampleLog2.countP exampleOffence.burnedBy ≤ 1 := by
  refine offence_burns_once exampleRun2 exampleOffence (Or.inl ?_)
  intro en hen _ r hact old hold
  rcases List.mem_cons.mp hen with rfl | hen
  · cases hact
  · obtain rfl := List.mem_singleton.mp hen
    have hnone : recordsOf fundedState 7 = none := by rfl
    rw [performed, hnone] at hold
    cases hold

/-- The same two attestations, reported in the other order, burn the bond of the next registration. -/
theorem offence_burns_twice : ∃ st log, RegistryRun exampleBackend exampleConfig 4 st log ∧
    log.countP exampleOffence.burnedBy = 2 := by
  refine ⟨exampleState4, exampleLog4, exampleRun4, ?_⟩
  have hfirst : recordsOf exampleState1 7 = some (exampleRecord 1) := recordsOf_afterRegister exampleRecords_storable.1
  have hsecond : recordsOf exampleState3 7 = some (exampleRecord 3) := recordsOf_afterRegister exampleRecords_storable.2.2.1
  simp only [exampleLog4, exampleLog3, exampleLog2, exampleLog1, performed, hfirst, hsecond]
  rfl

end TkmChain
