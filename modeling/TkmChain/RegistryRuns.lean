import TkmChain.Lifecycle
import TkmChain.SolvencySound

/-!
# Runs of the validator registry

The records in storage move as the abstract life cycle says: an accepted validator
transaction performs one act on one validator, so every run of blocks from an empty
registry follows a history.
-/

namespace TkmChain

open Function

variable {B : Backend} {cfg : ChainConfig} {num time : Nat} {tx : Tx} {st st' : StateDB}

/-! ## The records in storage -/

def recordsOf (st : StateDB) : Validators := fun a => (readValidatorRecord st a).toOption

theorem recordsOf_eq_some : recordsOf st a = some r ↔ readValidatorRecord st a = .ok r := by
  unfold recordsOf
  cases readValidatorRecord st a with
  | error e => simp [Except.toOption]
  | ok q => simp [Except.toOption]

theorem recordedStake_recordsOf : recordedStake (recordsOf st a) = stakeOf st a := by
  unfold recordsOf stakeOf
  cases readValidatorRecord st a <;> rfl

theorem recordsOf_congr (hs : ∀ k, k.kind = .registry → st'.storage k = st.storage k) :
    recordsOf st' = recordsOf st := by
  funext a
  rw [recordsOf, readValidatorRecord_congr (hs _ rfl) (hs _ rfl) fun i _ => hs _ rfl, ← recordsOf]

theorem recordsOf_store (hr : r.Storable) :
    recordsOf (storeRecord st r) = Function.update (recordsOf st) r.address (some r) := by
  funext a
  by_cases ha : a = r.address
  · rw [ha, update_self]
    exact recordsOf_eq_some.mpr (readValidatorRecord_store hr.fits.sized hr.pos hr.max)
  · rw [update_of_ne ha, recordsOf, readValidatorRecord_store_other ha, ← recordsOf]

theorem recordsOf_index : recordsOf (indexValidator st a) = recordsOf st := by
  funext b
  simp only [recordsOf, indexValidator]
  split
  · rfl
  · exact congrArg _ (readValidatorRecord_appendIndex st a b)

/-- The registry is well formed again after the record `r` was written, and the total stake moved with its stake. -/
structure Rewrites (idx : List Address) (st st' : StateDB) (r : ValidatorRecord) : Prop where
  records : recordsOf st' = Function.update (recordsOf st) r.address (some r)
  registry : ∃ idx', RegistryOk st' idx' ∧
    totalStake st' idx' + stakeOf st r.address = totalStake st idx + r.stake

theorem stakeOf_congr (hs : ∀ k, k.kind = .registry → st'.storage k = st.storage k) : stakeOf st' a = stakeOf st a := by
  rw [← recordedStake_recordsOf, ← recordedStake_recordsOf, recordsOf_congr hs]

theorem Rewrites.of_paid (paid : StateDB) (hok : RegistryOk st idx)
    (hs : ∀ k, k.kind = .registry → paid.storage k = st.storage k)
    (hw : RegistryOk paid idx → stakeOf paid r.address = stakeOf st r.address → Rewrites idx paid st' r) :
    Rewrites idx st st' r := by
  obtain ⟨hpaid, htotal⟩ := hok.congr hs
  obtain ⟨hrec, idx', hok', hsum⟩ := hw hpaid (stakeOf_congr hs)
  rw [recordsOf_congr hs] at hrec
  rw [stakeOf_congr hs, htotal] at hsum
  exact ⟨hrec, idx', hok', hsum⟩

theorem Rewrites.store (hok : RegistryOk st idx) (hr : r.Storable) (ha : r.address ∈ idx) :
    Rewrites idx st (storeRecord st r) r :=
  ⟨recordsOf_store hr, idx, hok.store hr ha⟩

theorem Rewrites.register (hok : RegistryOk st idx) (hr : r.Storable) (h0 : r.address ≠ 0)
    (hz : stakeOf st r.address = 0) (hb : idx.length < validatorMaxSetSize) :
    Rewrites idx st (indexValidator (storeRecord st r) r.address) r := by
  obtain ⟨idx', hok', hsum⟩ := hok.register hr h0 hz hb
  exact ⟨by rw [recordsOf_index, recordsOf_store hr], idx', hok', by omega⟩

theorem setOther_registry (hk : k.kind = .other) (hj : j.kind = .registry) :
    (st.setState k x).storage j = st.storage j := by
  have hne : j ≠ k := by rintro rfl; rw [hj] at hk; cases hk
  exact update_of_ne hne _ _

theorem Rewrites.setOther (hw : Rewrites idx st st' r) (hk : k.kind = .other) :
    Rewrites idx st (st'.setState k x) r := by
  have hs : ∀ j : Slot, j.kind = .registry → (st'.setState k x).storage j = st'.storage j :=
    fun j hj => setOther_registry hk hj
  obtain ⟨hrec, idx', hok', hsum⟩ := hw
  obtain ⟨hok'', htotal⟩ := hok'.congr hs
  exact ⟨by rw [recordsOf_congr hs, hrec], idx', hok'', by rw [htotal, hsum]⟩

/-! ## What an accepted transaction does -/

structure Performs (B : Backend) (num : Nat) (tx : Tx) (idx : List Address) (st st' : StateDB) (a : Address)
    (act : ValidatorAct) : Prop where
  next : ∃ r, act.next num (recordsOf st a) = some r ∧ r.address = a ∧ Rewrites idx st st' r
  evidence : ∀ e, act = .slash e → e.validator = a ∧
    st.storage (validatorEvidenceSlot (B.keccak256 tx.data)) = 0 ∧
    st'.storage (validatorEvidenceSlot (B.keccak256 tx.data)) ≠ 0
  kept : ∀ x, st.storage (validatorEvidenceSlot x) ≠ 0 → st'.storage (validatorEvidenceSlot x) ≠ 0

section

theorem evidence_not_registry (x : Hash) : (validatorEvidenceSlot x).kind ≠ .registry := nofun

section
variable (hn : num < 2 ^ 64) (hok : RegistryOk st idx)
include hn hok

theorem registration_performs (h : processValidatorRegistration B cfg num time tx st = (.ok (), st')) :
    ∃ sender e, B.sender cfg num time tx = .ok sender ∧ decodeValidatorRegistration B tx.data = .ok e ∧
      Performs B num tx idx st st' sender (.register (registeredRecord num sender e)) := by
  obtain ⟨sender, e, hbasics, hsend, he, hstate, _, hc, rfl⟩ := processValidatorRegistration_iff.mp h
  obtain ⟨_, _, hver, h0⟩ := validatorRegistrationBasics_ok hsend he hbasics
  simp only [validateValidatorRegistrationState, ok_rules, he, Except.ok.injEq] at hstate
  obtain ⟨_, rfl, _, hzero, _, hroom, hdelay⟩ := hstate
  rw [hok.count] at hroom
  rw [Nat.mod_eq_of_lt hn] at hdelay
  have hz : stakeOf st sender = 0 := by omega
  have hr : (registeredRecord num sender e).Storable := ⟨registeredRecord_fits hver, hc.1, hc.2⟩
  refine ⟨sender, e, hsend, he, ⟨registeredRecord num sender e, ?_, rfl, ?_⟩, (fun _ h => by cases h),
    fun x hx => ?_⟩
  · rw [ValidatorAct.next, recordedStake_recordsOf, if_pos ⟨hz, rfl, rfl, rfl, Nat.le_of_not_lt hdelay⟩]
  · refine Rewrites.of_paid (st.subBalance sender (BitVec.ofNat 256 validatorRegistrationFeeWei)) hok
      (fun k _ => rfl) fun hpaid hsame => ?_
    exact Rewrites.register hpaid hr h0 (hsame.trans hz) (Nat.lt_of_not_le hroom)
  · rwa [(indexValidator_frame _ _).storage _ (evidence_not_registry x),
      storeRecord_storage (evidence_not_registry x)]

theorem exit_performs (hx : hasValidatorExitPrefix tx.data = true)
    (h : processValidatorAction B cfg num time tx st = (.ok (), st')) :
    ∃ sender, B.sender cfg num time tx = .ok sender ∧ Performs B num tx idx st st' sender .exit := by
  obtain ⟨sender, r, _, hsend, hread, hstate, _, hc, rfl⟩ := (processValidatorAction_exit_iff hx).mp h
  obtain ⟨hmem, haddr, hfits⟩ := hok.of_read hread
  refine ⟨sender, hsend, ⟨r.exited num, ?_, haddr, ?_⟩, nofun, fun x hx => ?_⟩
  · rw [recordsOf_eq_some.mpr hread, ValidatorAct.next, if_pos ⟨Nat.pos_of_ne_zero hstate.1, hstate.2⟩,
      ValidatorRecord.exited, Nat.mod_eq_of_lt hn]
  · exact Rewrites.store hok ⟨ValidatorRecord.exited_fits hfits, hc.1, hc.2⟩ (haddr.symm ▸ hmem)
  · rwa [storeRecord_storage (evidence_not_registry x)]

theorem withdrawal_performs (hx : hasValidatorExitPrefix tx.data = false)
    (h : processValidatorAction B cfg num time tx st = (.ok (), st')) :
    ∃ sender, B.sender cfg num time tx = .ok sender ∧ Performs B num tx idx st st' sender .withdraw := by
  obtain ⟨sender, r, _, hsend, hread, _, hstate, _, _, hc, rfl⟩ := (processValidatorAction_withdrawal_iff hx).mp h
  obtain ⟨hmem, haddr, hfits⟩ := hok.of_read hread
  rw [Nat.mod_eq_of_lt hn] at hstate
  refine ⟨sender, hsend, ⟨r.closed num, ?_, haddr, ?_⟩, nofun, fun x hx => ?_⟩
  · rw [recordsOf_eq_some.mpr hread, ValidatorAct.next, if_pos ⟨Nat.pos_of_ne_zero hstate.1, hstate.2⟩,
      ValidatorRecord.closed, Nat.mod_eq_of_lt hn]
  · refine Rewrites.of_paid ((st.subBalance poolAddress (BitVec.ofNat 256 r.stake)).addBalance sender
      (BitVec.ofNat 256 r.stake)) hok (fun k _ => rfl) fun hpaid _ => ?_
    exact Rewrites.store hpaid ⟨ValidatorRecord.closed_fits hfits, hc.1, hc.2⟩ (haddr.symm ▸ hmem)
  · rwa [storeRecord_storage (evidence_not_registry x)]

theorem slash_performs (h : processValidatorSlash B cfg num time tx st = (.ok (), st')) :
    ∃ e, decodeValidatorSlash B tx.data = .ok e ∧ Performs B num tx idx st st' e.validator (.slash e) := by
  obtain ⟨e, r, _, he, hread, _, hnew, _, hc, rfl⟩ := processValidatorSlash_iff.mp h
  obtain ⟨hmem, haddr, hfits⟩ := hok.of_read hread
  have hpaid : ∀ k, (if 0 < r.stake then st.subBalance poolAddress (BitVec.ofNat 256 r.stake) else st).storage k =
      st.storage k := fun k => by split <;> rfl
  refine ⟨e, he, ⟨r.slashed num, ?_, haddr, ?_⟩, ?_, fun x hx => ?_⟩
  · rw [recordsOf_eq_some.mpr hread, ValidatorAct.next, ValidatorRecord.slashed, Nat.mod_eq_of_lt hn]
  · refine Rewrites.setOther (Rewrites.of_paid _ hok (fun k _ => hpaid k) fun hok' _ => ?_) rfl
    exact Rewrites.store hok' ⟨ValidatorRecord.slashed_fits hfits, hc.1, hc.2⟩ (haddr.symm ▸ hmem)
  · rintro _ ⟨⟩
    exact ⟨rfl, hnew, by rw [StateDB.setState_storage, update_self]; exact tx.hash_ne⟩
  · rw [StateDB.setState_storage]
    by_cases heq : validatorEvidenceSlot x = validatorEvidenceSlot (B.keccak256 tx.data)
    · rw [heq, update_self]
      exact tx.hash_ne
    · rwa [update_of_ne heq, storeRecord_storage (evidence_not_registry x), hpaid]

end

variable (B cfg num time tx) in
def validatorAct : Option (Address × ValidatorAct) :=
  if cfg.isAntartical num time = false then none
  else if hasValidatorRegistrationPrefix tx.data then
    match B.sender cfg num time tx, decodeValidatorRegistration B tx.data with
    | .ok sender, .ok e => some (sender, .register (registeredRecord num sender e))
    | _, _ => none
  else if hasValidatorSlashPrefix tx.data then
    match decodeValidatorSlash B tx.data with
    | .ok e => some (e.validator, .slash e)
    | .error _ => none
  else if hasValidatorExitPrefix tx.data || hasValidatorWithdrawalPrefix tx.data then
    match B.sender cfg num time tx with
    | .ok sender => some (sender, if hasValidatorExitPrefix tx.data then .exit else .withdraw)
    | .error _ => none
  else none

theorem processValidatorHooks_eq : processValidatorHooks B cfg num time tx =
    if cfg.isAntartical num time = false then pure ()
    else if hasValidatorRegistrationPrefix tx.data then processValidatorRegistration B cfg num time tx
    else if hasValidatorSlashPrefix tx.data then processValidatorSlash B cfg num time tx
    else if hasValidatorExitPrefix tx.data || hasValidatorWithdrawalPrefix tx.data then
      processValidatorAction B cfg num time tx
    else pure () := by
  unfold processValidatorHooks
  cases cfg.isAntartical num time with
  | false => rfl
  | true =>
    simp only [Bool.true_and, Bool.true_eq_false, if_false]
    by_cases hreg : hasValidatorRegistrationPrefix tx.data = true
    · have hslash : hasValidatorSlashPrefix tx.data = false := hasPrefix_false hreg
      have hexit : hasValidatorExitPrefix tx.data = false := hasPrefix_false hreg
      have hwith : hasValidatorWithdrawalPrefix tx.data = false := hasPrefix_false hreg
      rw [hreg, hslash, hexit, hwith]
      simp only [Proc.runWhen_true, Bool.or_self, Proc.runWhen_false, Proc.pure_bind, Proc.bind_unit, if_true]
    · rw [if_neg hreg, eq_false_of_ne_true hreg, Proc.runWhen_false, Proc.pure_bind]
      by_cases hslash : hasValidatorSlashPrefix tx.data = true
      · have hexit : hasValidatorExitPrefix tx.data = false := hasPrefix_false hslash
        have hwith : hasValidatorWithdrawalPrefix tx.data = false := hasPrefix_false hslash
        rw [hslash, hexit, hwith]
        simp only [Proc.runWhen_true, Bool.or_self, Proc.runWhen_false, Proc.bind_unit, if_true]
      · rw [if_neg hslash, eq_false_of_ne_true hslash, Proc.runWhen_false, Proc.pure_bind, Proc.runWhen]

theorem processValidatorHooks_performs (hn : num < 2 ^ 64) (hok : RegistryOk st idx)
    (h : processValidatorHooks B cfg num time tx st = (.ok (), st')) :
    match validatorAct B cfg num time tx with
    | none => st' = st
    | some (a, act) => Performs B num tx idx st st' a act := by
  rw [processValidatorHooks_eq] at h
  unfold validatorAct
  split at h
  · rename_i hact
    rw [if_pos hact]
    exact (Proc.pure_ok.mp h).2.symm
  rename_i hact
  rw [if_neg hact]
  split at h
  · rename_i hreg
    obtain ⟨sender, e, hsend, he, hperf⟩ := registration_performs hn hok h
    rw [if_pos hreg, hsend, he]
    exact hperf
  rename_i hreg
  rw [if_neg hreg]
  split at h
  · rename_i hslash
    obtain ⟨e, he, hperf⟩ := slash_performs hn hok h
    rw [if_pos hslash, he]
    exact hperf
  rename_i hslash
  rw [if_neg hslash]
  split at h
  · rename_i hany
    rw [if_pos hany]
    cases hexit : hasValidatorExitPrefix tx.data with
    | true =>
      obtain ⟨sender, hsend, hperf⟩ := exit_performs hn hok hexit h
      rw [hsend]
      exact hperf
    | false =>
      obtain ⟨sender, hsend, hperf⟩ := withdrawal_performs hn hok hexit h
      rw [hsend]
      exact hperf
  · rename_i hany
    rw [if_neg hany]
    exact (Proc.pure_ok.mp h).2.symm

end

/-! ## Runs -/

def performed (num : Nat) (tx : Tx) (st : StateDB) (a : Address) (act : ValidatorAct) : HistoryEntry where
  height := num
  validator := a
  act := act
  data := tx.data
  before := recordsOf st a

def historyEntry (B : Backend) (cfg : ChainConfig) (num time : Nat) (tx : Tx) (st : StateDB) : Option HistoryEntry :=
  (validatorAct B cfg num time tx).map fun p => performed num tx st p.1 p.2

/-- The runs of blocks from an empty registry. An accepted transaction moves its value and runs the validator hooks;
whatever else a block does leaves the registry and the evidence log alone. -/
inductive RegistryRun (B : Backend) (cfg : ChainConfig) : Nat → StateDB → List HistoryEntry → Prop
  | start {st : StateDB} (hempty : ∀ k, k.kind = .registry → st.storage k = 0) : RegistryRun B cfg 0 st []
  | tx {height num time : Nat} {t : Tx} {st st' : StateDB} {log : List HistoryEntry} {sender : Address}
    (hrun : RegistryRun B cfg height st log) (hle : height ≤ num) (hpos : 0 < num) (hlt : num < 2 ^ 64)
    (hsend : B.sender cfg num time t = .ok sender) (hfunds : t.value ≤ (st.balance sender).toNat)
    (h : processValidatorHooks B cfg num time t (outerTransfer sender t st) = (.ok (), st')) :
    RegistryRun B cfg num st' ((historyEntry B cfg num time t st).toList ++ log)
  | other {height : Nat} {st st' : StateDB} {log : List HistoryEntry} (hrun : RegistryRun B cfg height st log)
    (hreg : ∀ k, k.kind = .registry → st'.storage k = st.storage k)
    (hev : ∀ x, st'.storage (validatorEvidenceSlot x) = st.storage (validatorEvidenceSlot x)) :
    RegistryRun B cfg height st' log

def isSlash (en : HistoryEntry) : Prop := ∃ e, en.act = .slash e

/-- What a run keeps: the records are those of a history, the registry is well formed, its stakes are what was paid in
and not taken out, and no two slashes carried the same data. -/
structure RegistryInv (B : Backend) (height : Nat) (st : StateDB) (log : List HistoryEntry) : Prop where
  history : ∃ h ≤ height, History h (recordsOf st) log
  registry : ∃ idx, RegistryOk st idx ∧
    totalStake st idx + (log.map (·.withdrawn)).sum + (log.map (·.burned)).sum = (log.map (·.paidIn)).sum
  names : History.NamesOffender log
  marked : ∀ en ∈ log, isSlash en → st.storage (validatorEvidenceSlot (B.keccak256 en.data)) ≠ 0
  fresh : log.Pairwise fun x y => isSlash x → isSlash y → x.data ≠ y.data

section
variable {log : List HistoryEntry}

theorem RegistryInv.start (hempty : ∀ k, k.kind = .registry → st.storage k = 0) : RegistryInv B 0 st [] := by
  have hok := registryOk_empty hempty
  have hnone : recordsOf st = fun _ => none := by
    funext a
    cases ha : recordsOf st a with
    | none => rfl
    | some r => exact absurd (hok.indexed a r (recordsOf_eq_some.mp ha)) (List.not_mem_nil)
  exact ⟨⟨0, le_rfl, hnone ▸ .start⟩, ⟨[], hok, rfl⟩, nofun, nofun, List.Pairwise.nil⟩

theorem RegistryInv.congr (hinv : RegistryInv B height st log)
    (hreg : ∀ k, k.kind = .registry → st'.storage k = st.storage k)
    (hev : ∀ x, st'.storage (validatorEvidenceSlot x) = st.storage (validatorEvidenceSlot x)) :
    RegistryInv B height st' log := by
  obtain ⟨idx, hok, hsum⟩ := hinv.registry
  obtain ⟨hok', htotal⟩ := hok.congr hreg
  refine ⟨?_, ⟨idx, hok', by rw [htotal, hsum]⟩, hinv.names, ?_, hinv.fresh⟩
  · rw [recordsOf_congr hreg]
    exact hinv.history
  · intro en hen hs
    rw [hev]
    exact hinv.marked en hen hs

theorem RegistryInv.mono (hinv : RegistryInv B height st log) (hle : height ≤ num) : RegistryInv B num st log := by
  obtain ⟨h, hh, hist⟩ := hinv.history
  exact ⟨⟨h, hh.trans hle, hist⟩, hinv.registry, hinv.names, hinv.marked, hinv.fresh⟩

theorem RegistryInv.act {a : Address} {act : ValidatorAct} (hinv : RegistryInv B num st log) (hpos : 0 < num)
    (hlt : num < 2 ^ 64) (hp : ∀ idx, RegistryOk st idx → Performs B num tx idx st st' a act) :
    RegistryInv B num st' (performed num tx st a act :: log) := by
  obtain ⟨idx, hok, hsum⟩ := hinv.registry
  obtain ⟨⟨r, hnext, rfl, hrec, idx', hok', hmove⟩, hevidence, hkept⟩ := hp idx hok
  obtain ⟨h, hle, hist⟩ := hinv.history
  refine ⟨⟨num, le_rfl, ?_⟩, ⟨idx', hok', ?_⟩, ?_, ?_, ?_⟩
  · rw [hrec]
    exact @History.accept _ _ _ (performed num tx st r.address act) _ hist hle hpos hlt rfl hnext
  · have hbalance : r.stake + (performed num tx st r.address act).withdrawn +
        (performed num tx st r.address act).burned = stakeOf st r.address + (performed num tx st r.address act).paidIn :=
      recordedStake_recordsOf ▸ HistoryEntry.stake_balance hnext
    simp only [List.map_cons, List.sum_cons]
    omega
  · intro en hen e he
    rcases List.mem_cons.mp hen with rfl | hen
    · exact (hevidence e he).1.symm
    · exact hinv.names en hen e he
  · intro en hen hs
    rcases List.mem_cons.mp hen with rfl | hen
    · obtain ⟨e, he⟩ := hs
      exact (hevidence e he).2.2
    · exact hkept _ (hinv.marked en hen hs)
  · refine List.pairwise_cons.mpr ⟨?_, hinv.fresh⟩
    rintro y hy ⟨e, he⟩ hs heq
    exact hinv.marked y hy hs (heq ▸ (hevidence e he).2.1)

theorem RegistryRun.inv (hrun : RegistryRun B cfg height st log) : RegistryInv B height st log := by
  induction hrun with
  | start hempty => exact .start hempty
  | other _ hreg hev ih => exact ih.congr hreg hev
  | @tx height num time t st st' log sender _ hle hpos hlt _ _ h ih =>
    have hstore := outerTransfer_storage sender t st
    have hpaid : RegistryInv B num (outerTransfer sender t st) log :=
      (ih.mono hle).congr (fun k _ => congrFun hstore k) fun x => congrFun hstore _
    have hentry (a : Address) (act : ValidatorAct) :
        performed num t st a act = performed num t (outerTransfer sender t st) a act := by
      rw [performed, performed, recordsOf_congr fun k _ => congrFun hstore k]
    obtain ⟨idx, hok, _⟩ := hpaid.registry
    have hstep := fun idx (hok : RegistryOk _ idx) => processValidatorHooks_performs hlt hok h
    unfold historyEntry
    cases hact : validatorAct B cfg num time t with
    | none =>
      have hsame := hstep idx hok
      rw [hact] at hsame
      exact hsame ▸ hpaid
    | some p =>
      rw [Option.map_some, hentry]
      exact hpaid.act hpos hlt fun idx hok => by have := hstep idx hok; rwa [hact] at this

end

end TkmChain
