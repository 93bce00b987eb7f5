import TkmChain.LedgerSound
import TkmChain.TreesSound

/-!
# What an accepted note transaction has checked

`NoteRun` gathers, for V3, V4 and V5 alike, the facts an accepted transaction
establishes before it writes and the writes themselves.
-/

namespace TkmChain

variable {e : ShieldedV3Transaction}
  {t : NoteTexts} {nullifiers : Except Err (List Digest)} {st : StateDB} {w w' : World}

/-! ## Envelope prefixes -/

def magics : List String :=
  [shieldedTxMagic, shieldedV3Magic, shieldedV4Magic, shieldedV5Magic, shieldedV6Magic, antarticalStampMagic,
   addressVoteMagic, validatorRegistrationMagic, validatorSlashMagic, validatorExitMagic, validatorWithdrawalMagic,
   privateTVMMagic]

theorem magics_exclusive : ∀ a ∈ magics, ∀ b ∈ magics, a ≠ b →
    (Bytes.ofText a).isPrefixOf (Bytes.ofText b) = false := by decide

theorem hasPrefix_unique (ha : a ∈ magics) (hb : b ∈ magics)
    (h : hasPrefix data a = true) (h' : hasPrefix data b = true) : a = b := by
  by_contra hne
  rw [hasPrefix, List.isPrefixOf_iff_prefix] at h h'
  rcases List.prefix_or_prefix_of_prefix h h' with hp | hp
  · have := magics_exclusive a ha b hb hne
    rw [List.isPrefixOf_iff_prefix.mpr hp] at this
    cases this
  · have := magics_exclusive b hb a ha (Ne.symm hne)
    rw [List.isPrefixOf_iff_prefix.mpr hp] at this
    cases this

theorem hasPrefix_false (h : hasPrefix data a = true)
    (ha : a ∈ magics := by simp [magics]) (hb : b ∈ magics := by simp [magics]) (hne : a ≠ b := by decide) :
    hasPrefix data b = false := by
  cases h' : hasPrefix data b with
  | false => rfl
  | true => exact absurd (hasPrefix_unique ha hb h h') hne

def noteMagics : List String := [shieldedV3Magic, shieldedV4Magic, shieldedV5Magic]

theorem note_hasPrefix_false (ha : a ∈ noteMagics) (h : hasPrefix data a = true)
    (hb : b ∈ magics := by simp [magics]) (hne : b ∉ noteMagics := by decide) : hasPrefix data b = false := by
  have hmem : a ∈ magics := by
    simp only [noteMagics, List.mem_cons, List.not_mem_nil, or_false] at ha
    rcases ha with rfl | rfl | rfl <;> simp [magics]
  exact hasPrefix_false h hmem hb fun hab => hne (hab ▸ ha)

theorem note_not_validator (ha : a ∈ noteMagics) (h : hasPrefix data a = true) :
    isValidatorProtocolEnvelope data = false := by
  simp only [isValidatorProtocolEnvelope, Bool.or_eq_false_iff]
  exact ⟨⟨⟨note_hasPrefix_false ha h, note_hasPrefix_false ha h⟩, note_hasPrefix_false ha h⟩, note_hasPrefix_false ha h⟩

/-! ## Nullifier lists -/

theorem checkNullifiers_ok :
    ∀ {l seen : List Digest} {i : Nat}, checkNullifiers count i seen l = .ok u →
      (l.take (count - i)).Nodup ∧ ∀ n ∈ l.take (count - i), n ∉ seen
  | [], _, _, _ => by simp
  | n :: l, seen, i, h => by
    simp only [checkNullifiers, ok_rules] at h
    obtain ⟨_, _, h⟩ := h
    split at h
    · rename_i hi
      simp only [ok_rules] at h
      obtain ⟨_, hn, h⟩ := h
      obtain ⟨ihd, ihs⟩ := checkNullifiers_ok h
      obtain ⟨k, hk⟩ : ∃ k, count - i = k + 1 := ⟨count - i - 1, by omega⟩
      have hk' : count - (i + 1) = k := by omega
      rw [hk'] at ihd ihs
      rw [hk, List.take_succ_cons]
      refine ⟨List.nodup_cons.mpr ⟨fun hm => ihs n hm (by simp), ihd⟩, ?_⟩
      intro m hm
      rcases List.mem_cons.mp hm with rfl | hm
      · exact fun hs => hn (.inr hs)
      · exact fun hs => ihs m hm (by simp [hs])
    · rename_i hi
      have : count - i = 0 := by omega
      simp [this]

structure NullifierFacts (slots : Nat) (deposit : Bool) (inputCount : Nat) (all l : List Digest) : Prop where
  eq : l = all.take (effectiveCount deposit inputCount)
  nodup : l.Nodup
  count : effectiveCount deposit inputCount ≤ slots
  deposit : deposit = true → l = []

theorem noteNullifiers_ok {slots inputCount : Nat} {deposit : Bool}
    (h : noteNullifiers slots deposit inputCount all = .ok l) : NullifierFacts slots deposit inputCount all l := by
  simp only [noteNullifiers, ok_rules] at h
  obtain ⟨_, hc, _, hl, rfl⟩ := h
  simp only [not_or, not_not] at hc
  refine ⟨rfl, (checkNullifiers_ok hl).1, by omega, ?_⟩
  intro hd
  have h0 : effectiveCount deposit inputCount = 0 := by simpa [hd] using hc.2.symm
  rw [h0, List.take_zero]

theorem effectiveCount_min (deposit : Bool) (c : Nat) :
    effectiveCount deposit (min c inputSlots) = min (effectiveCount deposit c) inputSlots := by
  have hs : inputSlots = 4 := rfl
  unfold effectiveCount
  by_cases hc : c = 0
  · subst hc; cases deposit <;> simp [hs]
  · have hm : min c inputSlots ≠ 0 := by omega
    simp [hc, hm]

theorem shieldedV5AsV4_nullifiers {e : ShieldedV5Transaction}
    (h : shieldedV5Nullifiers e = .ok all) (hl : shieldedV4Nullifiers (shieldedV5AsV4 e) = .ok l) :
    l = all.take inputSlots := by
  have h5 := (noteNullifiers_ok h).eq
  have h4 := (noteNullifiers_ok hl).eq
  have hc : effectiveCount (shieldedV5AsV4 e).deposit (shieldedV5AsV4 e).inputCount =
      min (effectiveCount e.deposit e.inputCount) inputSlots := effectiveCount_min e.deposit e.inputCount
  rw [h4, h5, hc, List.take_take, Nat.min_comm]
  have hlen : (e.nullifier :: e.additionalNullifiers.toList).length = inputSlots := by simp [inputSlots]
  change List.take _ (e.nullifier :: e.additionalNullifiers.toList) = _
  rw [List.take_append_of_le_length (by rw [hlen]; exact Nat.min_le_left _ _)]

/-! ## Envelope facts -/

structure NoteShape (tx : Tx) (e : ShieldedV3Transaction) : Prop where
  asset : e.asset = assetTKM ∨ e.asset = assetPTKM
  withdrawal : 0 ≤ e.withdrawal
  sponsor : 0 ≤ e.sponsor
  deposit : e.deposit = true → e.withdrawal = 0 ∧ e.sponsor = 0
  spend : e.deposit = false → tx.value = 0
  wrapped : e.asset = assetPTKM → e.sponsor = 0
  toPool : tx.toAddr = some poolAddress

theorem isSupportedAsset_cases {a : Nat} (h : isSupportedAsset a = true) :
    normalizeAssetID a = assetTKM ∨ normalizeAssetID a = assetPTKM := by
  simpa [isSupportedAsset] using h

theorem validValues_nonneg (h : e.validValues = true) : 0 ≤ e.withdrawal ∧ 0 ≤ e.sponsor := by
  simp only [ShieldedV3Transaction.validValues, Bool.and_eq_true, decide_eq_true_eq] at h
  exact ⟨h.1.2, h.2⟩

section
theorem noteBasics_shape {digests : List (Digest × String)} (hto : tx.toAddr = some poolAddress)
    (h : noteBasics B cfg num time t tx e nullifiers refs digests = .ok u) : NoteShape tx e := by
  simp only [noteBasics, ok_rules] at h
  obtain ⟨_, hasset, _, hvalid, _, _, _, _, _, _, _, _, _, _, _, _, _, hdep, _, hspend, _, _, _, _, _, hwrap, _⟩ := h
  obtain ⟨hw, hs⟩ := validValues_nonneg (not_not.mp hvalid)
  refine ⟨isSupportedAsset_cases (not_not.mp hasset), hw, hs, ?_, ?_, ?_, hto⟩
  · intro hd
    simp only [hd, true_and, not_or, not_not] at hdep
    omega
  · intro hd
    simp only [hd, Bool.false_eq_true, not_false_eq_true, true_and, not_or, not_not] at hspend
    exact hspend.1
  · intro ha
    simp only [ha, true_and, not_not] at hwrap
    exact hwrap

theorem noteBasics_fee {digests : List (Digest × String)}
    (h : noteBasics B cfg num time t tx e nullifiers refs digests = .ok u) :
    validateConfidentialLedgerShape cfg num time tx e.deposit e.sponsor e.feeMode e.asset = .ok () := by
  simp only [noteBasics, ok_rules] at h
  obtain ⟨_, _, _, _, _, hfee, _⟩ := h
  exact hfee

theorem noteDomain_toPool (h : noteDomain cfg num time t tx = .ok u) : tx.toAddr = some poolAddress := by
  simp only [noteDomain, ok_rules, not_or, not_not] at h
  obtain ⟨_, _, _, hto, _⟩ := h
  exact hto.2

theorem v5Shape_shape {e : ShieldedV5Transaction} (hto : tx.toAddr = some poolAddress)
    (h : v5Shape B cfg num time tx e = .ok u) : NoteShape tx e.toShieldedV3Transaction := by
  simp only [v5Shape, ok_rules] at h
  obtain ⟨_, hasset, _, _, _, _, _, _, _, _, _, _, _, _, _, hdep, _, hspend, _, _, _, hwrap, _⟩ := h
  obtain ⟨ha, hv⟩ := not_not.mp hasset
  obtain ⟨hw, hs⟩ := validValues_nonneg hv
  refine ⟨isSupportedAsset_cases ha, hw, hs, ?_, ?_, ?_, hto⟩
  · intro hd
    simp only [hd, true_and, not_or, not_not] at hdep
    exact ⟨hdep.2.2.2.2.2.2, hdep.2.2.2.2.2.1⟩
  · intro hd
    simp only [hd, Bool.false_eq_true, not_false_eq_true, true_and, not_or, not_not] at hspend
    exact hspend.1
  · intro ha
    simp only [ha, true_and, not_not] at hwrap
    exact hwrap

theorem v5Shape_fee {e : ShieldedV5Transaction} (h : v5Shape B cfg num time tx e = .ok u) :
    validateConfidentialLedgerShape cfg num time tx e.deposit e.sponsor e.feeMode e.asset = .ok () := by
  simp only [v5Shape, ok_rules] at h
  obtain ⟨_, _, _, hfee, _⟩ := h
  exact hfee

/-! ## State facts -/

structure NoteStateFacts (st : StateDB) (tx : Tx) (e : ShieldedV3Transaction) (nullifiers : List Digest)
    (link : Option Digest) : Prop where
  unspent : ∀ n ∈ nullifiers, st.storage (nullifierSlot e.asset n) = 0
  unlinked : e.deposit = false → ∀ tag ∈ link, st.storage (linkTagSlot e.asset tag) = 0
  minted : e.asset = assetPTKM → e.deposit = true → shieldedV3AssetSupply st assetPTKM + tx.value < 2 ^ 256
  burned : e.asset = assetPTKM → e.deposit = false → e.withdrawal ≤ shieldedV3AssetSupply st assetPTKM
  backed : e.asset = assetPTKM → shieldedV3AssetSupply st assetPTKM ≤ st.pool
  reserve : e.withdrawal + e.sponsor ≤ shieldedV3SpendablePoolReserve st e.asset
  codeFree : st.codeSize poolAddress = 0
  stamped : 0 < e.withdrawal → isAntarticalStamped st e.withdrawalRecipient = true

theorem checkUnspent_ok :
    checkUnspent st asset text l = .ok u ↔ ∀ n ∈ l, st.storage (nullifierSlot asset n) = 0 := by
  simp only [checkUnspent, checkAll_ok, failIf_ok, not_not]

theorem checkWrapped_ok (h : checkWrapped st tx e = .ok u) : shieldedV3AssetSupply st assetPTKM ≤ st.pool ∧
      (e.deposit = true → shieldedV3AssetSupply st assetPTKM + tx.value < 2 ^ 256) ∧
      (e.deposit = false → e.withdrawal ≤ shieldedV3AssetSupply st assetPTKM) := by
  simp only [checkWrapped, ok_rules] at h
  obtain ⟨_, hb, h⟩ := h
  have hnn := (supply_nonneg st assetPTKM).1
  refine ⟨by omega, ?_, ?_⟩
  · intro hd
    simp only [hd, if_true, failIf_ok, bitLenAbove, decide_eq_true_eq] at h
    omega
  · intro hd
    simp only [hd, Bool.false_eq_true, if_false, failIf_ok] at h
    omega

theorem validateNoteState_facts {t : StateTexts} {link : Option Digest}
    (hl : nullifiers = .ok l) (hdep : e.deposit = true → l = [])
    (h : validateNoteState t st tx e nullifiers link = .ok u) : NoteStateFacts st tx e l link := by
  simp only [validateNoteState, hl, ok_rules, checkWhen_ok, checkUnspent_ok, Except.ok.injEq] at h
  obtain ⟨_, hcode, _, _, _, hstamp, _, rfl, _, hspend, _, _, _, hwrap, _, hres, _⟩ := h
  have hw (ha : e.asset = assetPTKM) := checkWrapped_ok (hwrap (by simpa using ha))
  refine ⟨?_, ?_, fun ha => (hw ha).2.1, fun ha => (hw ha).2.2, fun ha => (hw ha).1, ?_, not_not.mp hcode,
    fun hpos => not_not.mp fun hno => hstamp ⟨hpos, hno⟩⟩
  · intro n hn
    cases hd : e.deposit with
    | true => rw [hdep hd] at hn; cases hn
    | false =>
      obtain ⟨_, hun, _⟩ := hspend (by simp [hd])
      exact hun n hn
  · intro hd tag htag
    obtain ⟨_, _, _, hlink, _⟩ := hspend (by simp [hd])
    by_contra hne
    exact hlink ⟨tag, htag, hne⟩
  · have := not_or.mp hres
    omega

/-! ## Accepted transactions -/

structure NoteRun (B : Backend) (cfg : ChainConfig) (num time : Nat) (tx : Tx) (e : ShieldedV3Transaction)
    (nullifiers : List Digest) (link : Option Digest) (w w' : World) : Prop where
  shape : NoteShape tx e
  fee : validateConfidentialLedgerShape cfg num time tx e.deposit e.sponsor e.feeMode e.asset = .ok ()
  nodup : nullifiers.Nodup
  facts : NoteStateFacts w.st tx e nullifiers link
  applied : ∃ ledger sender, noteLedger cfg num time w.st tx e = .ok ledger ∧
    B.sender cfg num time tx = .ok sender ∧ applyNotes B tx e nullifiers link ledger sender w = (.ok (), w')

theorem processShieldedV3_ok (h : processShieldedV3 B cfg num time tx w = (.ok (), w')) :
    ∃ e l, decodeShieldedV3Transaction B tx.data = .ok (some e) ∧ shieldedV3Nullifiers e = .ok l ∧
      NoteRun B cfg num time tx e l none w w' := by
  simp only [processShieldedV3, Proc.run_rules] at h
  obtain ⟨e, he, hst, l, hl, _, ledger, hled, _, _, _, sender, hsend, hrun⟩ := h
  simp only [shieldedV3Basics, ok_rules] at he
  obtain ⟨_, _, _, hdom, _, hdec, _, hsome, _, _, _, hbasics, rfl⟩ := he
  subst hsome
  have hn := noteNullifiers_ok hl
  exact ⟨_, l, hdec, hl, noteBasics_shape (noteDomain_toPool hdom) hbasics, noteBasics_fee hbasics, hn.nodup,
    validateNoteState_facts hl hn.deposit hst, ledger, sender, hled, hsend, hrun⟩

theorem processShieldedV4_ok (h : processShieldedV4 B cfg num time tx w = (.ok (), w')) :
    ∃ e l, decodeShieldedV4Transaction B tx.data = .ok (some e) ∧ shieldedV4Nullifiers e = .ok l ∧
      NoteRun B cfg num time tx e.toShieldedV3Transaction l (some e.linkTag) w w' := by
  simp only [processShieldedV4, Proc.run_rules] at h
  obtain ⟨e, he, hst, l, hl, _, ledger, hled, _, _, _, sender, hsend, hrun⟩ := h
  simp only [shieldedV4Basics, ok_rules] at he
  obtain ⟨_, _, _, hdom, _, hdec, _, hsome, _, _, _, hbasics, rfl⟩ := he
  subst hsome
  have hn := noteNullifiers_ok hl
  exact ⟨_, l, hdec, hl, noteBasics_shape (noteDomain_toPool hdom) hbasics, noteBasics_fee hbasics, hn.nodup,
    validateNoteState_facts hl hn.deposit hst, ledger, sender, hled, hsend, hrun⟩

theorem validateShieldedV5State_facts {e : ShieldedV5Transaction}
    (hl : shieldedV5Nullifiers e = .ok l) (h : validateShieldedV5State st tx e = .ok u) :
    NoteStateFacts st tx e.toShieldedV3Transaction l (some e.linkTag) := by
  simp only [validateShieldedV5State, ok_rules, hl, Except.ok.injEq, checkUnspent_ok] at h
  obtain ⟨_, h4, _, rfl, hrest⟩ := h
  have hn := noteNullifiers_ok hl
  obtain ⟨l4, hl4⟩ : ∃ l4, shieldedV4Nullifiers (shieldedV5AsV4 e) = .ok l4 := by
    simp only [validateShieldedV4State, validateNoteState, ok_rules] at h4
    obtain ⟨_, _, _, _, _, _, l4, hl4, _⟩ := h4
    exact ⟨l4, hl4⟩
  have hdep : (shieldedV5AsV4 e).deposit = true → l4 = [] := (noteNullifiers_ok hl4).deposit
  have hf := validateNoteState_facts hl4 hdep h4
  have htake := shieldedV5AsV4_nullifiers hl hl4
  refine ⟨?_, hf.unlinked, hf.minted, hf.burned, hf.backed, hf.reserve, hf.codeFree, hf.stamped⟩
  intro n hmem
  rw [← List.take_append_drop inputSlots l, List.mem_append, ← htake] at hmem
  rcases hmem with hmem | hmem
  · exact hf.unspent n hmem
  · exact hrest n hmem

theorem toPool_toAddr (h : toPool cfg tx = true) : tx.toAddr = some poolAddress := by
  simp only [toPool, Bool.and_eq_true, decide_eq_true_eq] at h
  exact h.1.2

theorem processShieldedV5_ok (h : processShieldedV5 B cfg num time tx w = (.ok (), w')) :
    ∃ e l, decodeShieldedV5Transaction B tx.data = .ok (some e) ∧ shieldedV5Nullifiers e = .ok l ∧
      NoteRun B cfg num time tx e.toShieldedV3Transaction l (some e.linkTag) w w' := by
  simp only [processShieldedV5, Proc.run_rules] at h
  obtain ⟨e, he, _, _, _, hst, l, hl, _, ledger, hled, _, _, _, sender, hsend, hrun⟩ := h
  simp only [shieldedV5Basics, ok_rules] at he
  obtain ⟨_, _, _, _, _, hdec, _, hsome, _, _, _, _, _, _, _, hpool, _, hshape, rfl⟩ := he
  subst hsome
  exact ⟨_, l, hdec, hl, v5Shape_shape (toPool_toAddr (not_not.mp hpool)) hshape, v5Shape_fee hshape,
    (noteNullifiers_ok hl).nodup, validateShieldedV5State_facts hl hst, ledger, sender, hled, hsend, hrun⟩

end

end TkmChain
