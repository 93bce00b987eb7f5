import TkmChain.Ledger

/-!
# Conservation of the confidential ledger

What a transition checks and computes (`ledgerTransition_spec`), what a commit
leaves to be read back (`ledgerState_commit`), and the accounting identity over
every history of transitions.
-/

namespace TkmChain

variable {l : ConfidentialLedgerTotals}

theorem assetSlot_inj {r s : Role} {k l : Bytes} :
    assetSlot a r k = assetSlot b s l ↔ normalizeAssetID a = normalizeAssetID b ∧ r = s ∧ k = l := by
  unfold assetSlot
  by_cases ha : normalizeAssetID a = assetTKM
  · by_cases hb : normalizeAssetID b = assetTKM
    · simp [ha, hb]
    · simp [ha, hb, Ne.symm hb]
  · by_cases hb : normalizeAssetID b = assetTKM
    · simp [ha, hb]
    · simp [ha, hb]

theorem ledgerSlot_inj {r s : LedgerRole} :
    ledgerSlot a r = ledgerSlot b s ↔ normalizeAssetID a = normalizeAssetID b ∧ r = s := by
  simp [ledgerSlot, assetSlot_inj]

theorem outOfRange_false (h : ¬ outOfRange n = true) : 0 ≤ n ∧ n < 2 ^ 256 := by
  simp only [outOfRange, bitLenAbove, Bool.or_eq_true, decide_eq_true_eq, not_or] at h
  omega

namespace ConfidentialLedgerTotals

structure InRange (l : ConfidentialLedgerTotals) : Prop where
  opening : 0 ≤ l.openingBacking ∧ l.openingBacking < 2 ^ 256
  deposited : 0 ≤ l.deposited ∧ l.deposited < 2 ^ 256
  withdrawn : 0 ≤ l.withdrawn ∧ l.withdrawn < 2 ^ 256
  fees : 0 ≤ l.feesBurned ∧ l.feesBurned < 2 ^ 256
  backing : 0 ≤ l.backing ∧ l.backing < 2 ^ 256

def Conserved (l : ConfidentialLedgerTotals) : Prop :=
  l.openingBacking + l.deposited = l.withdrawn + l.feesBurned + l.backing

theorem openWith_conserved (hc : l.Conserved)
    (hz : l.initialized = false → l.deposited = 0 ∧ l.withdrawn = 0 ∧ l.feesBurned = 0) :
    (l.openWith reserve).Conserved := by
  unfold openWith
  split
  · exact hc
  · rename_i h
    obtain ⟨hd, hw, hf⟩ := hz (by simpa using h)
    simp only [Conserved]
    omega

theorem advance_conserved (hc : l.Conserved) (d w f : Int) : (l.advance d w f).Conserved := by
  simp only [Conserved, advance] at hc ⊢
  omega

section
variable (l : ConfidentialLedgerTotals) (r : Int)

@[simp] theorem openWith_initialized :
    (l.openWith r).initialized = true := by
  unfold openWith; split
  · assumption
  · rfl

@[simp] theorem openWith_deposited :
    (l.openWith r).deposited = l.deposited := by unfold openWith; split <;> rfl

@[simp] theorem openWith_withdrawn :
    (l.openWith r).withdrawn = l.withdrawn := by unfold openWith; split <;> rfl

@[simp] theorem openWith_feesBurned :
    (l.openWith r).feesBurned = l.feesBurned := by unfold openWith; split <;> rfl

end

theorem openWith_of_initialized (h : l.initialized = true) (r : Int) : l.openWith r = l := by simp [openWith, h]

end ConfidentialLedgerTotals

theorem slotValue_range (h : Hash) : 0 ≤ (h.toNat : Int) ∧ (h.toNat : Int) < 2 ^ 256 := by
  have := h.isLt
  omega

theorem ledgerState_inRange (st : StateDB) (asset : Nat) : (confidentialLedgerState st asset).InRange :=
  ⟨slotValue_range _, slotValue_range _, slotValue_range _, slotValue_range _, slotValue_range _⟩

/-! ## The reserve -/

theorem subtractStakes_ok : ∀ {l : List ValidatorRecord} {a b : Int}, subtractStakes a l = .ok b →
    b = a - (l.map fun r => (r.stake : Int)).sum
  | [], a, b, h => by
    simp only [subtractStakes, Except.ok.injEq] at h
    simp [h]
  | r :: l, a, b, h => by
    simp only [subtractStakes, ok_rules] at h
    obtain ⟨_, _, h⟩ := h
    rw [subtractStakes_ok h, List.map_cons, List.sum_cons]
    omega

theorem subtractStakes_shift : ∀ {l : List ValidatorRecord} {a b : Int} (c : Int), subtractStakes a l = .ok b →
    subtractStakes (a + c) l = .ok (b + c)
  | [], a, b, c, h => by
    simp only [subtractStakes, Except.ok.injEq] at h ⊢
    omega
  | r :: l, a, b, c, h => by
    simp only [subtractStakes, ok_rules] at h ⊢
    obtain ⟨u, hr, h⟩ := h
    refine ⟨u, hr, ?_⟩
    have := subtractStakes_shift c h
    rwa [show a - r.stake + c = a + c - r.stake by omega] at this

theorem stakes_nonneg (l : List ValidatorRecord) : 0 ≤ (l.map fun r => (r.stake : Int)).sum := by
  induction l with
  | nil => simp
  | cons r l ih => rw [List.map_cons, List.sum_cons]; omega

theorem supply_nonneg (st : StateDB) (asset : Nat) :
    0 ≤ shieldedV3AssetSupply st asset ∧ shieldedV3AssetSupply st asset < 2 ^ 256 :=
  slotValue_range _

theorem pool_lt (st : StateDB) : (st.pool : Int) < 2 ^ 256 := (slotValue_range _).2

theorem nativeReserve_ok (h : confidentialNativeReserve st = .ok reserve) :
    ∃ records, validatorRecords st = .ok records ∧ 0 ≤ reserve ∧
      reserve = st.pool - (records.map fun r => (r.stake : Int)).sum - shieldedV3AssetSupply st assetPTKM := by
  simp only [confidentialNativeReserve, ok_rules] at h
  obtain ⟨records, hr, a, ha, _, hneg, rfl⟩ := h
  rw [subtractStakes_ok ha] at hneg ⊢
  exact ⟨records, hr, by omega, rfl⟩

theorem nativeReserve_moved (hr : validatorRecords st' = validatorRecords st)
    (h : confidentialNativeReserve st = .ok reserve)
    (hnn : 0 ≤ reserve + (st'.pool - st.pool) - (shieldedV3AssetSupply st' assetPTKM - shieldedV3AssetSupply st assetPTKM)) :
    confidentialNativeReserve st' = .ok (reserve + (st'.pool - st.pool) -
      (shieldedV3AssetSupply st' assetPTKM - shieldedV3AssetSupply st assetPTKM)) := by
  simp only [confidentialNativeReserve, ok_rules] at h ⊢
  obtain ⟨records, hrec, a, ha, u, hneg, rfl⟩ := h
  have hshift := subtractStakes_shift ((st'.pool : Int) - st.pool) ha
  rw [show (st.pool : Int) + (st'.pool - st.pool) = st'.pool by omega] at hshift
  exact ⟨records, hr ▸ hrec, _, hshift, u, by omega, by omega⟩

theorem nativeReserve_range (h : confidentialNativeReserve st = .ok reserve) : 0 ≤ reserve ∧ reserve < 2 ^ 256 := by
  obtain ⟨records, _, hnn, hr⟩ := nativeReserve_ok h
  have := stakes_nonneg records
  have := (supply_nonneg st assetPTKM).1
  have := pool_lt st
  omega

/-! ## One transition -/

def ledgerCap (st : StateDB) (asset : Nat) (reserve : Int) : Int :=
  if asset = assetPTKM then shieldedV3AssetSupply st asset else reserve

theorem ledgerCap_range (h : confidentialNativeReserve st = .ok reserve)
    (asset : Nat) : 0 ≤ ledgerCap st asset reserve ∧ ledgerCap st asset reserve < 2 ^ 256 := by
  unfold ledgerCap
  split
  · exact supply_nonneg st asset
  · exact nativeReserve_range h

structure TransitionFacts (st : StateDB) (asset : Nat) (d w f : Int) (l : ConfidentialLedgerTotals)
    (reserve : Int) : Prop where
  reserve_ok : confidentialNativeReserve st = .ok reserve
  native : (confidentialLedgerState st assetTKM).initialized = true →
    (confidentialLedgerState st assetTKM).backing ≤ reserve
  covered : ((confidentialLedgerState st asset).openWith (ledgerCap st asset reserve)).backing ≤
    ledgerCap st asset reserve
  deposit : 0 ≤ d
  withdrawal : 0 ≤ w
  fee : 0 ≤ f
  next : l = ((confidentialLedgerState st asset).openWith (ledgerCap st asset reserve)).advance d w f
  range : l.InRange

theorem ledgerTransition_spec
    (h : ledgerTransition st asset d w f = .ok l) : ∃ reserve, TransitionFacts st asset d w f l reserve := by
  simp only [ledgerTransition, ok_rules] at h
  obtain ⟨reserve, hres, _, hnat, _, hcov, _, hval, _, hrange, rfl⟩ := h
  change ¬ (ledgerCap st asset reserve < 0 ∨ ledgerCap st asset reserve <
    ((confidentialLedgerState st asset).openWith (ledgerCap st asset reserve)).backing) at hcov
  simp only [not_or] at hval hrange hcov
  obtain ⟨hd, hw, hf⟩ := hval
  obtain ⟨h1, h2, h3, h4⟩ := hrange
  have hcap := ledgerCap_range hres asset
  refine ⟨reserve, hres, ?_, ?_, (outOfRange_false hd).1, (outOfRange_false hw).1, (outOfRange_false hf).1, rfl, ?_⟩
  · intro hi
    have := not_and.mp hnat hi
    omega
  · omega
  · refine ⟨?_, outOfRange_false h1, outOfRange_false h2, outOfRange_false h3, outOfRange_false h4⟩
    change 0 ≤ ((confidentialLedgerState st asset).openWith (ledgerCap st asset reserve)).openingBacking ∧ _
    unfold ConfidentialLedgerTotals.openWith
    split
    · exact (ledgerState_inRange st asset).opening
    · exact hcap

/-! ## Reading a commit back -/

theorem bigToHash_toNat (h : 0 ≤ v ∧ v < 2 ^ 256) : ((bigToHash v).toNat : Int) = v := by
  have hv : v.natAbs < 2 ^ 256 := by omega
  rw [bigToHash, BitVec.toNat_ofNat, Nat.mod_eq_of_lt hv]
  omega

theorem commitLedger_storage (st : StateDB) (asset : Nat) (l : ConfidentialLedgerTotals) (k : Slot) :
    (commitLedger st asset l).storage k =
      if k = ledgerSlot asset .initialized then bigToHash 1
      else if k = ledgerSlot asset .backing then bigToHash l.backing
      else if k = ledgerSlot asset .fees then bigToHash l.feesBurned
      else if k = ledgerSlot asset .withdrawn then bigToHash l.withdrawn
      else if k = ledgerSlot asset .deposited then bigToHash l.deposited
      else if k = ledgerSlot asset .opening then bigToHash l.openingBacking
      else st.storage k := by
  simp only [commitLedger, StateDB.setStates, List.foldl, StateDB.setState_storage, Function.update_apply]

theorem commitLedger_frame (h : ∀ r, k ≠ ledgerSlot asset r) : (commitLedger st asset l).storage k = st.storage k := by
  rw [commitLedger_storage]
  simp only [h, if_false]

theorem ledgerState_commit (hr : l.InRange) (hi : l.initialized = true)
    (st : StateDB) (h : normalizeAssetID asset' = normalizeAssetID asset) :
    confidentialLedgerState (commitLedger st asset l) asset' = l := by
  cases l
  simp only [confidentialLedgerState, commitLedger_storage, ledgerSlot_inj, h, true_and, reduceCtorEq, if_true,
    if_false, ConfidentialLedgerTotals.mk.injEq]
  refine ⟨bigToHash_toNat hr.opening, bigToHash_toNat hr.deposited, bigToHash_toNat hr.withdrawn,
    bigToHash_toNat hr.fees, bigToHash_toNat hr.backing, ?_⟩
  simpa [bigToHash] using hi.symm

theorem ledgerState_congr (h : ∀ r, st'.storage (ledgerSlot asset r) = st.storage (ledgerSlot asset r)) :
    confidentialLedgerState st' asset = confidentialLedgerState st asset := by
  simp only [confidentialLedgerState, h]

theorem ledgerState_commit_other (h : normalizeAssetID asset' ≠ normalizeAssetID asset) :
    confidentialLedgerState (commitLedger st asset l) asset' = confidentialLedgerState st asset' := by
  apply ledgerState_congr
  intro r
  apply commitLedger_frame
  intro r' hr
  exact h (ledgerSlot_inj.mp hr).1

theorem updateLedger_ok : updateLedger asset d w f st = (.ok (), st') ↔
      ∃ l, ledgerTransition st asset d w f = .ok l ∧ st' = commitLedger st asset l := by
  simp only [updateLedger, Proc.run_rules]
  exact exists_congr fun l => and_congr_right fun _ => eq_comm

theorem updateLedger_atomic (asset : Nat) (d w f : Int) : Proc.Atomic (updateLedger asset d w f) :=
  Proc.Atomic.read_bind fun _ => (Proc.Total.modify _).atomic

/-! ## Histories -/

/-- One event of a ledger history: an attempted transition of some asset, or any
change of the state outside the ledger slots. -/
inductive LedgerStep : StateDB → StateDB → Prop
  | transition {st st' : StateDB} (r : Except Err Unit) (asset : Nat) (d w f : Int)
      (h : updateLedger asset d w f st = (r, st')) : LedgerStep st st'
  | other {st st' : StateDB} (h : ∀ asset r, st'.storage (ledgerSlot asset r) = st.storage (ledgerSlot asset r)) :
      LedgerStep st st'

namespace ConfidentialLedgerTotals

@[mk_iff] structure Balanced (l : ConfidentialLedgerTotals) : Prop where
  conserved : l.Conserved
  fresh : l.initialized = false → l.deposited = 0 ∧ l.withdrawn = 0 ∧ l.feesBurned = 0

structure Grows (l l' : ConfidentialLedgerTotals) : Prop where
  opening : l.initialized = true → l'.initialized = true ∧ l'.openingBacking = l.openingBacking
  deposited : l.deposited ≤ l'.deposited
  withdrawn : l.withdrawn ≤ l'.withdrawn
  fees : l.feesBurned ≤ l'.feesBurned

theorem Grows.refl (l : ConfidentialLedgerTotals) : l.Grows l :=
  ⟨fun h => ⟨h, rfl⟩, Int.le_refl _, Int.le_refl _, Int.le_refl _⟩

theorem Grows.trans {a b c : ConfidentialLedgerTotals} (hab : a.Grows b) (hbc : b.Grows c) : a.Grows c := by
  refine ⟨?_, Int.le_trans hab.deposited hbc.deposited, Int.le_trans hab.withdrawn hbc.withdrawn,
    Int.le_trans hab.fees hbc.fees⟩
  intro ha
  obtain ⟨hb, hab⟩ := hab.opening ha
  obtain ⟨hc, hbc⟩ := hbc.opening hb
  exact ⟨hc, hbc.trans hab⟩

end ConfidentialLedgerTotals

section
variable (h : TransitionFacts st asset d w f l reserve)
include h

theorem transition_grows : (confidentialLedgerState st asset).Grows l := by
  have hd := h.deposit
  have hw := h.withdrawal
  have hf := h.fee
  rw [h.next]
  refine ⟨?_, ?_, ?_, ?_⟩
  · intro hi
    rw [ConfidentialLedgerTotals.openWith_of_initialized hi]
    exact ⟨hi, rfl⟩
  · simp only [ConfidentialLedgerTotals.advance, ConfidentialLedgerTotals.openWith_deposited]
    omega
  · simp only [ConfidentialLedgerTotals.advance, ConfidentialLedgerTotals.openWith_withdrawn]
    omega
  · simp only [ConfidentialLedgerTotals.advance, ConfidentialLedgerTotals.openWith_feesBurned]
    omega

theorem transition_initialized : l.initialized = true := by
  rw [h.next]
  exact ConfidentialLedgerTotals.openWith_initialized _ _

theorem transition_balanced (hb : (confidentialLedgerState st asset).Balanced) :
    l.Balanced := by
  refine ⟨?_, fun hi => absurd (transition_initialized h) (by simp [hi])⟩
  rw [h.next]
  exact ConfidentialLedgerTotals.advance_conserved
    (ConfidentialLedgerTotals.openWith_conserved hb.conserved hb.fresh) d w f

end

theorem updateLedger_reads_back (h : updateLedger asset d w f st = (.ok (), st')) :
    ledgerTransition st asset d w f = .ok (confidentialLedgerState st' asset) := by
  obtain ⟨l, hl, rfl⟩ := updateLedger_ok.mp h
  obtain ⟨reserve, hf⟩ := ledgerTransition_spec hl
  rw [ledgerState_commit hf.range (transition_initialized hf) st rfl, hl]

theorem normalize_eq_state (h : normalizeAssetID a = normalizeAssetID b) (st : StateDB) :
    confidentialLedgerState st a = confidentialLedgerState st b := by
  have (r : LedgerRole) : ledgerSlot a r = ledgerSlot b r := ledgerSlot_inj.mpr ⟨h, rfl⟩
  simp only [confidentialLedgerState, this]

theorem LedgerStep.keeps (h : LedgerStep st st') (asset : Nat) (hb : (confidentialLedgerState st asset).Balanced) :
    (confidentialLedgerState st' asset).Balanced ∧
      (confidentialLedgerState st asset).Grows (confidentialLedgerState st' asset) := by
  cases h with
  | other h =>
    rw [ledgerState_congr (h asset)]
    exact ⟨hb, .refl _⟩
  | transition r asset' d w f h =>
    cases r with
    | error e =>
      rw [updateLedger_atomic asset' d w f _ _ _ h]
      exact ⟨hb, .refl _⟩
    | ok u =>
      obtain ⟨l, hl, rfl⟩ := updateLedger_ok.mp h
      obtain ⟨reserve, hf⟩ := ledgerTransition_spec hl
      by_cases hn : normalizeAssetID asset = normalizeAssetID asset'
      · rw [ledgerState_commit hf.range (transition_initialized hf) st hn]
        rw [normalize_eq_state hn] at hb ⊢
        exact ⟨transition_balanced hf hb, transition_grows hf⟩
      · rw [ledgerState_commit_other hn]
        exact ⟨hb, .refl _⟩

theorem LedgerStep.run_keeps (h : Relation.ReflTransGen LedgerStep st st') (asset : Nat)
    (hb : (confidentialLedgerState st asset).Balanced) :
    (confidentialLedgerState st' asset).Balanced ∧
      (confidentialLedgerState st asset).Grows (confidentialLedgerState st' asset) := by
  induction h with
  | refl => exact ⟨hb, .refl _⟩
  | tail _ hstep ih =>
    obtain ⟨hb', hg⟩ := hstep.keeps asset ih.1
    exact ⟨hb', ih.2.trans hg⟩

theorem balanced_of_empty (h : ∀ r, st.storage (ledgerSlot asset r) = 0) :
    (confidentialLedgerState st asset).Balanced := by
  simp [confidentialLedgerState, h, ConfidentialLedgerTotals.balanced_iff, ConfidentialLedgerTotals.Conserved]

/-- Over every history from empty slots the totals of an asset balance and fit
their slots, the opening value is fixed once set, the cumulative totals only grow,
a committed transition reads back exactly, and a failed one writes nothing. -/
theorem ledger_conservation {st₀ st st' : StateDB} (h₀ : ∀ asset r, st₀.storage (ledgerSlot asset r) = 0)
    (hrun : Relation.ReflTransGen LedgerStep st₀ st) (hrun' : Relation.ReflTransGen LedgerStep st st')
    (asset : Nat) :
    (confidentialLedgerState st asset).Conserved ∧ (confidentialLedgerState st asset).InRange ∧
      (confidentialLedgerState st asset).Grows (confidentialLedgerState st' asset) ∧
      (∀ d w f t, updateLedger asset d w f st = (.ok (), t) →
        ledgerTransition st asset d w f = .ok (confidentialLedgerState t asset)) ∧
      ∀ d w f e t, updateLedger asset d w f st = (.error e, t) → t = st := by
  have hb := (LedgerStep.run_keeps hrun asset (balanced_of_empty (h₀ asset))).1
  refine ⟨hb.conserved, ledgerState_inRange st asset, (LedgerStep.run_keeps hrun' asset hb).2, ?_, ?_⟩
  · intro d w f t h
    exact updateLedger_reads_back h
  · intro d w f e t h
    exact updateLedger_atomic asset d w f st e t h

def fundedPool : StateDB where
  balance := Function.update (fun _ => 0) poolAddress 10
  nonce := fun _ => 0
  codeSize := fun _ => 0
  storage := fun _ => 0
  poolOverdrawn := false

def depositThenWithdraw : StateDB :=
  (updateLedger assetTKM 0 3 1 ((updateLedger assetTKM 5 0 0 fundedPool).2.addBalance poolAddress 5)).2

theorem ledger_conservation_depositThenWithdraw :
    confidentialLedgerState depositThenWithdraw assetTKM = ⟨10, 5, 3, 1, 11, true⟩ ∧
      (confidentialLedgerState depositThenWithdraw assetTKM).Conserved := by
  refine ⟨by decide +kernel, ?_⟩
  have deposit : LedgerStep fundedPool (updateLedger assetTKM 5 0 0 fundedPool).2 :=
    .transition _ assetTKM 5 0 0 rfl
  have paid : LedgerStep (updateLedger assetTKM 5 0 0 fundedPool).2
      ((updateLedger assetTKM 5 0 0 fundedPool).2.addBalance poolAddress 5) := .other fun _ _ => rfl
  exact (ledger_conservation (fun _ _ => rfl)
    (((Relation.ReflTransGen.single deposit).tail paid).tail (.transition _ assetTKM 0 3 1 rfl)) .refl assetTKM).1

end TkmChain
