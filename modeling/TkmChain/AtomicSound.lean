import TkmChain.SolvencySound

/-!
# Failed transactions

Every version but V1/V2 checks before it writes, or reverts to a snapshot, so a
failure leaves the world as it was. The V1/V2 path writes as it goes: a failure is
clean exactly when it comes before the first write.
-/

namespace TkmChain

open Proc

variable {out : ShieldedOutput} {w : World}
  {ledger : Option ConfidentialLedgerTotals} {rest : List ShieldedSpend}

theorem onState_atomic (hx : Atomic x) : Atomic (World.onState x) :=
  Atomic.zoom (fun _ => rfl) hx

section
variable (B : Backend) (cfg : ChainConfig) (num time : Nat) (tx : Tx)

theorem applyNotes_atomic (e : ShieldedV3Transaction) (l : List Digest) (link : Option Digest)
    (ledger : Option ConfidentialLedgerTotals) (sender : Address) :
    Atomic (applyNotes B tx e l link ledger sender) :=
  (onState_atomic (Atomic.orRevert _)).bind_total fun _ => Total.modify _

theorem processShieldedV3_atomic : Atomic (processShieldedV3 B cfg num time tx) := by
  unfold processShieldedV3
  repeat refine Atomic.read_bind fun _ => ?_
  exact applyNotes_atomic B tx _ _ none _ _

theorem processShieldedV4_atomic : Atomic (processShieldedV4 B cfg num time tx) := by
  unfold processShieldedV4
  repeat refine Atomic.read_bind fun _ => ?_
  exact applyNotes_atomic B tx _ _ _ _ _

theorem processShieldedV5_atomic : Atomic (processShieldedV5 B cfg num time tx) := by
  unfold processShieldedV5
  repeat refine Atomic.read_bind fun _ => ?_
  exact applyNotes_atomic B tx _ _ _ _ _

theorem processShieldedV6Binding_atomic (sender : Address) (e : ShieldedV6Transaction) :
    Atomic (processShieldedV6Binding B tx sender e) := by
  unfold processShieldedV6Binding
  repeat refine Atomic.read_bind fun _ => ?_
  refine (Atomic.orRevert _).bind_total fun current => ?_
  refine (Total.modify _).bind fun _ => ?_
  exact (Total.modify _).bind fun _ => Total.modify _

theorem applyV6_atomic (e : ShieldedV6Transaction) (ledger : Option ConfidentialLedgerTotals) :
    Atomic (applyV6 B tx e ledger) := by
  refine (onState_atomic (Atomic.orRevert _)).bind_total fun _ => ?_
  refine (Total.modify _).bind fun _ => ?_
  exact (Total.modify _).bind fun _ => Total.modify _

theorem processShieldedV6_atomic : Atomic (processShieldedV6 B cfg num time tx) := by
  unfold processShieldedV6
  repeat refine Atomic.read_bind fun _ => ?_
  refine Atomic.ite (onState_atomic (processShieldedV6Binding_atomic B tx _ _)) ?_
  refine Atomic.read_bind fun _ => ?_
  refine Atomic.read_bind fun _ => ?_
  refine Atomic.read_bind fun _ => ?_
  refine Atomic.read_bind fun _ => ?_
  refine Atomic.read_bind fun ledger => ?_
  exact applyV6_atomic B tx _ ledger

section
variable (h : hasPrefix tx.data shieldedTxMagic = false)
include h

theorem processLegacyTransaction_atomic :
    Atomic (processLegacyTransaction B cfg num time tx) := by
  intro w e w' hrun
  have henv : validateShieldedTransactionEnvelope B cfg num time tx = (checkTransparent B cfg num time tx).map fun _ => none := by
    simp [validateShieldedTransactionEnvelope, decodeShieldedTransaction, h]
  rw [processLegacyTransaction, bind_error] at hrun
  rcases hrun with hrun | ⟨r, u, hread, hrun⟩
  · exact (read_error.mp hrun).2.symm
  · rw [read_ok, henv, except_map_ok] at hread
    obtain ⟨⟨_, _, rfl⟩, rfl⟩ := hread
    cases hrun

theorem processNoteVersion_atomic :
    Atomic (processNoteVersion B cfg num time tx) :=
  (processShieldedV4_atomic B cfg num time tx).ite ((processShieldedV3_atomic B cfg num time tx).ite
    (processLegacyTransaction_atomic B cfg num time tx h))

theorem processShieldedTransaction_atomic :
    Atomic (processShieldedTransaction B cfg num time tx) := by
  have hnote := processNoteVersion_atomic B cfg num time tx h
  refine Atomic.ite (Atomic.read_bind fun _ => processShieldedV6_atomic B cfg num time tx) ?_
  refine Atomic.ite (Atomic.read_bind fun _ => processShieldedV5_atomic B cfg num time tx) ?_
  refine Atomic.read_bind fun _ => Atomic.ite ?_ hnote
  refine Atomic.ite (onState_atomic (processAntarticalStamp_atomic B cfg num time tx)) ?_
  refine Atomic.read_bind fun sender => Atomic.read_bind fun _ => ?_
  exact Atomic.ite (Total.pure _).atomic (Atomic.ite (Total.pure _).atomic hnote)

end

end

/-! ## The first write of the V1/V2 path -/

structure SpendReached (B : Backend) (cfg : ChainConfig) (num time : Nat) (tx : Tx) (w : World)
    (e : ShieldedTransaction) (ledger : Option ConfidentialLedgerTotals) (intent : Hash) (sender : Address)
    (s : ShieldedSpend) : Prop where
  envelope : validateShieldedTransactionEnvelope B cfg num time tx = .ok (some e)
  totals : legacyLedger cfg num time w.st e = .ok ledger
  release : checkRelease w.st e = .ok ()
  intended : B.intentV1 tx e = .ok intent
  recovered : legacySender B cfg num time tx e = .ok sender
  first : e.spends.head? = some s
  spend : checkSpendState B cfg num time tx e sender intent 0 s w = .ok ()

def LegacyWrites (B : Backend) (cfg : ChainConfig) (num time : Nat) (tx : Tx) (w : World) : Prop :=
  ∃ e ledger intent sender s, SpendReached B cfg num time tx w e ledger intent sender s ∧
    (isShieldedDeposit e tx.value = true →
      ∀ out ∈ e.outputs.head?, w.st.storage (shieldedCommitmentSlot out.commitment) = 0)

/-- The rules in front of the V1/V2 path: the shielded-only cutoff and, after
Antartical, the stamp rule. -/
structure LegacyGate (B : Backend) (cfg : ChainConfig) (num time : Nat) (tx : Tx) (w : World) : Prop where
  shieldedOnly : validateShieldedOnlyTransaction B cfg num time tx = .ok ()
  stamped : cfg.isAntartical num time = true → ∃ sender, B.sender cfg num time tx = .ok sender ∧
    validateAntarticalStampState B w.st sender tx = .ok ()

def Stays (k : Slot) (s t : StateDB) : Prop := s.storage k ≠ 0 → t.storage k ≠ 0

namespace Stays

instance : Std.Refl (Stays k) := ⟨fun _ h => h⟩

instance : IsTrans StateDB (Stays k) := ⟨fun _ _ _ h h' hk => h' (h hk)⟩

instance : Std.Refl fun w w' : World => Stays k w.st w'.st := ⟨fun _ h => h⟩

instance : IsTrans World fun w w' => Stays k w.st w'.st := ⟨fun _ _ _ h h' hk => h' (h hk)⟩

theorem of_eq (h : t.storage k = s.storage k) : Stays k s t := by
  intro hk
  rw [h]
  exact hk

theorem setState (hv : v ≠ 0) : Stays k s (s.setState j v) := by
  intro hk
  rw [StateDB.setState_storage, Function.update_apply]
  split
  · exact hv
  · exact hk

end Stays

def legacyTail (B : Backend) (tx : Tx) (e : ShieldedTransaction) (ledger : Option ConfidentialLedgerTotals)
    (sender : Address) : Proc World Err Unit := do
  Proc.modify fun w => w.mapState fun st =>
    (st.release e.withdrawalRecipient (shieldedWithdrawalValue e)).release sender (shieldedGasSponsorValue e)
  World.onState (Proc.each (processOutput B tx.hash) e.outputs)
  Proc.modify fun w => w.mapState fun st => ledger.elim st (commitLedger st assetTKM)

def gatedLegacy (B : Backend) (cfg : ChainConfig) (num time : Nat) (tx : Tx) : Proc World Err Unit := do
  Proc.read fun _ => validateShieldedOnlyTransaction B cfg num time tx
  if cfg.isAntartical num time then do
    let sender ← Proc.read fun _ => B.sender cfg num time tx
    Proc.read fun w => validateAntarticalStampState B w.st sender tx
    processLegacyTransaction B cfg num time tx
  else processLegacyTransaction B cfg num time tx

section
variable {tx : Tx} {e : ShieldedTransaction}

theorem applyLegacy_eq (ledger : Option ConfidentialLedgerTotals) (intent : Hash) (sender : Address) :
    applyLegacy B cfg num time tx e ledger intent sender =
      (processSpends B cfg num time tx e sender intent 0 e.spends >>= fun _ => legacyTail B tx e ledger sender) := rfl

theorem markSpend_stays (s : ShieldedSpend) (w : World) : Stays (.v1 r key) w.st (markSpend tx e s w).st := by
  unfold markSpend
  split
  · exact fun h => h
  · exact Stays.setState tx.hash_ne

theorem processSpends_stays (sender : Address) (intent : Hash) : ∀ i l,
    Moves (fun w w' : World => Stays (.v1 r key) w.st w'.st) (processSpends B cfg num time tx e sender intent i l)
  | _, [] => Moves.pure ()
  | i, s :: l => Moves.read_bind fun _ =>
      Moves.bind (Moves.modify (markSpend_stays s)) fun _ => processSpends_stays sender intent (i + 1) l

theorem processOutput_stays (hr : r = .nullifier ∨ r = .commitment) (hp : out.payloadHash ≠ 0) :
    Moves (Stays (.v1 r key)) (processOutput B tx.hash out) := by
  have hnot : ¬ MerkleSlot (.v1 r key) := by rcases hr with rfl | rfl <;> simp [MerkleSlot]
  have hleaf : Moves (Stays (.v1 r key)) (appendShieldedMerkleLeaf B out.commitment tx.hash) :=
    (appendShieldedMerkleLeaf_frame B out.commitment tx.hash).mono fun s t h => Stays.of_eq (h.storage _ hnot)
  exact Moves.read_bind fun _ => Moves.bind (Moves.modify fun _ => Stays.setState hp) fun _ => hleaf

theorem legacyTail_stays (hr : r = .nullifier ∨ r = .commitment) (hp : ∀ out ∈ e.outputs, out.payloadHash ≠ 0)
    (ledger : Option ConfidentialLedgerTotals) (sender : Address) :
    Moves (fun w w' : World => Stays (.v1 r key) w.st w'.st) (legacyTail B tx e ledger sender) := by
  refine Moves.bind (Moves.modify fun w => ?_) fun _ => ?_
  · apply Stays.of_eq
    show ((w.st.release _ _).release _ _).storage _ = _
    rw [release_storage, release_storage]
  refine Moves.bind (Moves.zoom (Moves.each_mem fun out hm => processOutput_stays hr (hp out hm))
    fun _ _ h => h) fun _ => Moves.modify fun w => ?_
  apply Stays.of_eq
  have hkind : ¬ (Slot.v1 r key).kind = .ledger := by rcases hr with rfl | rfl <;> simp [Slot.kind]
  exact (commitOption_frame assetTKM ledger w.st).storage _ hkind

theorem checkOutputs_payload : ∀ {l : List ShieldedOutput} {i : Nat} {seen : List Hash},
    checkOutputs i seen l = .ok u → ∀ out ∈ l, out.payloadHash ≠ 0
  | [], _, _, _ => by simp
  | out :: l, i, seen, h => by
    simp only [checkOutputs, ok_rules] at h
    obtain ⟨_, _, _, _, _, hp, _, _, _, _, _, _, _, _, h⟩ := h
    exact List.forall_mem_cons.mpr ⟨hp, checkOutputs_payload h⟩

structure EnvelopeFacts (tx : Tx) (e : ShieldedTransaction) : Prop where
  payloads : ∀ out ∈ e.outputs, out.payloadHash ≠ 0
  outputs : e.outputs ≠ []
  values : PublicValues tx e

theorem envelope_facts (h : validateShieldedTransactionEnvelope B cfg num time tx = .ok (some e)) :
    EnvelopeFacts tx e := by
  unfold validateShieldedTransactionEnvelope at h
  split at h
  · cases h
  · simp only [except_map_ok, reduceCtorEq, and_false, exists_false] at h
  · simp only [except_map_ok, Option.some.injEq] at h
    obtain ⟨_, h, rfl⟩ := h
    simp only [checkEnvelope, ok_rules] at h
    obtain ⟨_, _, _, _, _, henv, _, hval, _⟩ := h
    simp only [validateShieldedEnvelope, ok_rules, not_not] at henv
    obtain ⟨_, _, _, _, _, _, _, hout, _, _, _, _, _, _, _, _, _, _, _, _, hpay⟩ := henv
    refine ⟨checkOutputs_payload hpay, ?_, checkPublicValues_ok hval⟩
    intro hempty
    rw [hempty] at hout
    cases hout

theorem processSpends_cons
    (hc : checkSpendState B cfg num time tx e sender intent i s w = .ok ()) (rest : List ShieldedSpend) :
    processSpends B cfg num time tx e sender intent i (s :: rest) w =
      processSpends B cfg num time tx e sender intent (i + 1) rest (markSpend tx e s w) := by
  rw [processSpends, bind_apply, Proc.read, hc]
  rfl

theorem applyLegacy_marked (hf : EnvelopeFacts tx e) (hs : e.spends = s :: rest)
    (hd : isShieldedDeposit e tx.value = false) (hc : checkSpendState B cfg num time tx e sender intent 0 s w = .ok ()) :
    (applyLegacy B cfg num time tx e ledger intent sender w).2.st.storage (shieldedNullifierSlot s.nullifier) ≠ 0 := by
  have hmark : (markSpend tx e s w).st.storage (shieldedNullifierSlot s.nullifier) ≠ 0 := by
    simpa [markSpend, hd, World.mapState, World.mark] using tx.hash_ne
  have hmoves : Moves (fun w w' : World => Stays (shieldedNullifierSlot s.nullifier) w.st w'.st)
      (processSpends B cfg num time tx e sender intent 1 rest >>= fun _ => legacyTail B tx e ledger sender) :=
    Moves.bind (processSpends_stays sender intent 1 rest) fun _ => legacyTail_stays (.inl rfl) hf.payloads ledger sender
  have heq : applyLegacy B cfg num time tx e ledger intent sender w =
      (processSpends B cfg num time tx e sender intent 1 rest >>= fun _ => legacyTail B tx e ledger sender)
        (markSpend tx e s w) := by
    rw [applyLegacy_eq, hs, bind_apply, processSpends_cons hc, bind_apply]
  rw [heq]
  exact hmoves _ hmark

theorem applyLegacy_deposit (hf : EnvelopeFacts tx e) (hs : e.spends = [s])
    (hd : isShieldedDeposit e tx.value = true) (hc : checkSpendState B cfg num time tx e sender intent 0 s w = .ok ()) :
    applyLegacy B cfg num time tx e ledger intent sender w =
      (World.onState (Proc.each (processOutput B tx.hash) e.outputs) >>= fun _ =>
        Proc.modify fun w => w.mapState fun st => ledger.elim st (commitLedger st assetTKM)) w := by
  have hzero := hf.values.value (isShieldedDeposit_ok hd).1
  obtain ⟨hw0, hs0⟩ := release_nonneg e
  have hw : ¬ 0 < shieldedWithdrawalValue e := by unfold publicRelease at hzero; omega
  have hg : ¬ 0 < shieldedGasSponsorValue e := by unfold publicRelease at hzero; omega
  have hmark : markSpend tx e s w = w := by rw [markSpend, if_pos hd]
  rw [applyLegacy_eq, hs, bind_apply, processSpends_cons hc, hmark]
  simp only [processSpends, pure, legacyTail, bind_apply, Proc.modify, World.mapState, StateDB.release, if_neg hw,
    if_neg hg]

theorem processOutput_exists (h : st.storage (shieldedCommitmentSlot out.commitment) ≠ 0) :
    processOutput B tx.hash out st = (.error (.invalidShieldedTx "commitment already exists"), st) := by
  simp only [processOutput, bind_apply, Proc.read, failIf, if_pos h]

theorem processOutput_recorded (hp : out.payloadHash ≠ 0)
    (h : st.storage (shieldedCommitmentSlot out.commitment) = 0) :
    (processOutput B tx.hash out st).2.storage (shieldedCommitmentSlot out.commitment) ≠ 0 := by
  have hleaf := appendShieldedMerkleLeaf_frame B out.commitment tx.hash
    (st.setState (shieldedCommitmentSlot out.commitment) out.payloadHash)
  have hnot : ¬ MerkleSlot (shieldedCommitmentSlot out.commitment) := by simp [MerkleSlot, shieldedCommitmentSlot]
  simp only [processOutput, bind_apply, Proc.read, Proc.modify, failIf, h, not_true_eq_false, ne_eq, if_false]
  rw [hleaf.storage _ hnot, StateDB.setState_storage, Function.update_self]
  exact hp

theorem applyLegacy_deposit_first {s : ShieldedSpend} {rest : List ShieldedOutput} (hf : EnvelopeFacts tx e)
    (hs : e.spends = [s]) (hd : isShieldedDeposit e tx.value = true)
    (hc : checkSpendState B cfg num time tx e sender intent 0 s w = .ok ()) (ho : e.outputs = out :: rest) :
    (w.st.storage (shieldedCommitmentSlot out.commitment) ≠ 0 →
      (applyLegacy B cfg num time tx e ledger intent sender w).2 = w) ∧
    (w.st.storage (shieldedCommitmentSlot out.commitment) = 0 →
      (applyLegacy B cfg num time tx e ledger intent sender w).2.st.storage (shieldedCommitmentSlot out.commitment) ≠ 0) := by
  have hp : ∀ o ∈ out :: rest, o.payloadHash ≠ 0 := ho ▸ hf.payloads
  rw [applyLegacy_deposit hf hs hd hc, ho]
  refine ⟨fun h => ?_, fun h => ?_⟩
  · simp only [bind_apply, World.onState, Proc.zoom, Proc.each, processOutput_exists h]
  · have hrest : Moves (Stays (shieldedCommitmentSlot out.commitment)) (Proc.each (processOutput B tx.hash) rest) :=
      Moves.each_mem fun o hm => processOutput_stays (.inr rfl) (hp o (by simp [hm]))
    have hfirst : (processOutput B tx.hash out w.st).2.storage (shieldedCommitmentSlot out.commitment) ≠ 0 :=
      processOutput_recorded (hp out (by simp)) h
    have hall : (Proc.each (processOutput B tx.hash) (out :: rest) w.st).2.storage
        (shieldedCommitmentSlot out.commitment) ≠ 0 := by
      rw [Proc.each, bind_apply]
      split
      · rename_i heq
        rw [heq] at hfirst
        exact hrest _ hfirst
      · rename_i heq
        rw [heq] at hfirst
        exact hfirst
    have hcommit : Moves (fun w w' : World => Stays (shieldedCommitmentSlot out.commitment) w.st w'.st)
        (Proc.modify fun w => w.mapState fun st => ledger.elim st (commitLedger st assetTKM) : Proc World Err Unit) :=
      Moves.modify fun w => Stays.of_eq ((commitOption_frame assetTKM ledger w.st).storage _
        (by simp [shieldedCommitmentSlot, Slot.kind]))
    rw [bind_apply]
    split
    · rename_i heq
      exact hcommit _ (by rw [← congrArg (fun p => p.2.st) heq]; exact hall)
    · rename_i heq
      rw [← congrArg (fun p => p.2.st) heq]
      exact hall

theorem checkSpendState_unspent (hd : isShieldedDeposit e tx.value = false)
    (h : checkSpendState B cfg num time tx e sender intent i s w = .ok ()) :
    w.st.storage (shieldedNullifierSlot s.nullifier) = 0 := by
  simp only [checkSpendState, hd, Bool.false_eq_true, if_false, ok_rules, not_false_eq_true, true_and, not_not] at h
  obtain ⟨_, _, _, _, _, hs, _⟩ := h
  exact hs

theorem applyLegacy_stopped (hs : e.spends = s :: rest)
    (hc : checkSpendState B cfg num time tx e sender intent 0 s w = .error err) :
    applyLegacy B cfg num time tx e ledger intent sender w = (.error err, w) := by
  rw [applyLegacy_eq, hs, bind_apply, processSpends, bind_apply, Proc.read, hc]

theorem applyLegacy_clean_iff (hf : EnvelopeFacts tx e) (hs : e.spends = s :: rest) :
    (applyLegacy B cfg num time tx e ledger intent sender w).2 = w ↔
      ¬ (checkSpendState B cfg num time tx e sender intent 0 s w = .ok () ∧ (isShieldedDeposit e tx.value = true →
        ∀ out ∈ e.outputs.head?, w.st.storage (shieldedCommitmentSlot out.commitment) = 0)) := by
  cases hc : checkSpendState B cfg num time tx e sender intent 0 s w with
  | error err =>
    rw [applyLegacy_stopped hs hc]
    simp
  | ok u =>
    cases hd : isShieldedDeposit e tx.value with
    | false =>
      have hold := checkSpendState_unspent hd hc
      have hnew : (applyLegacy B cfg num time tx e ledger intent sender w).2.st.storage _ ≠ 0 :=
        applyLegacy_marked hf hs hd hc
      refine iff_of_false (fun heq => hnew ?_) (by simp)
      rw [heq]
      exact hold
    | true =>
      obtain ⟨_, t, ht⟩ := isShieldedDeposit_ok hd
      obtain ⟨rfl, rfl⟩ : s = t ∧ rest = [] := by simpa [hs] using ht
      obtain ⟨out, outs, ho⟩ := List.exists_cons_of_ne_nil hf.outputs
      obtain ⟨hknown, hnew⟩ : (_ → (applyLegacy B cfg num time tx e ledger intent sender w).2 = w) ∧ _ :=
        applyLegacy_deposit_first hf ht hd hc ho
      by_cases hz : w.st.storage (shieldedCommitmentSlot out.commitment) = 0
      · refine iff_of_false (fun heq => hnew hz ?_) (by simp [ho, hz])
        rw [heq]
        exact hz
      · exact iff_of_true (hknown hz) (by simpa [ho] using hz)

theorem processLegacyTransaction_clean_iff (h : processLegacyTransaction B cfg num time tx w = (.error err, w')) :
    w' = w ↔ ¬ LegacyWrites B cfg num time tx w := by
  rw [processLegacyTransaction, bind_error, read_error] at h
  rcases h with ⟨henv, rfl⟩ | ⟨r, u, hread, h⟩
  · refine iff_of_true rfl ?_
    rintro ⟨_, _, _, _, _, hr, _⟩
    rw [hr.envelope] at henv
    cases henv
  obtain ⟨henv, rfl⟩ := read_ok.mp hread
  cases r with
  | none => cases h
  | some e =>
    have hf := envelope_facts henv
    obtain ⟨s, rest, hs⟩ := List.exists_cons_of_ne_nil hf.values.spends
    -- the envelope, and with it every value of the checks, is determined by the input
    have hw : LegacyWrites B cfg num time tx w ↔ ∃ ledger intent sender,
        SpendReached B cfg num time tx w e ledger intent sender s ∧ (isShieldedDeposit e tx.value = true →
          ∀ out ∈ e.outputs.head?, w.st.storage (shieldedCommitmentSlot out.commitment) = 0) := by
      constructor
      · rintro ⟨e', ledger, intent, sender, t, hr, hout⟩
        obtain rfl : e = e' := by simpa [henv] using hr.envelope
        obtain rfl : s = t := by simpa [hs] using hr.first
        exact ⟨ledger, intent, sender, hr, hout⟩
      · rintro ⟨ledger, intent, sender, hr, hout⟩
        exact ⟨e, ledger, intent, sender, s, hr, hout⟩
    simp only [bind_error, read_error, read_ok] at h
    rcases h with ⟨hl, rfl⟩ | ⟨ledger, _, ⟨hl, rfl⟩, h⟩
    · exact iff_of_true rfl (by rw [hw]; rintro ⟨_, _, _, hr, _⟩; simp [hr.totals] at hl)
    rcases h with ⟨hrel, rfl⟩ | ⟨_, _, ⟨hrel, rfl⟩, h⟩
    · exact iff_of_true rfl (by rw [hw]; rintro ⟨_, _, _, hr, _⟩; simp [hr.release] at hrel)
    rcases h with ⟨hi, rfl⟩ | ⟨intent, _, ⟨hi, rfl⟩, h⟩
    · exact iff_of_true rfl (by rw [hw]; rintro ⟨_, _, _, hr, _⟩; simp [hr.intended] at hi)
    rcases h with ⟨hsend, rfl⟩ | ⟨sender, _, ⟨hsend, rfl⟩, h⟩
    · exact iff_of_true rfl (by rw [hw]; rintro ⟨_, _, _, hr, _⟩; simp [hr.recovered] at hsend)
    have hclean : (applyLegacy B cfg num time tx e ledger intent sender w).2 = w ↔ _ := applyLegacy_clean_iff hf hs
    rw [h] at hclean
    rw [hclean, hw, not_iff_not]
    constructor
    · rintro ⟨hc, hout⟩
      exact ⟨ledger, intent, sender, ⟨henv, hl, hrel, hi, hsend, by simp [hs], hc⟩, hout⟩
    · rintro ⟨ledger', intent', sender', hr, hout⟩
      obtain rfl : intent = intent' := by simpa [hi] using hr.intended
      obtain rfl : sender = sender' := by simpa [hsend] using hr.recovered
      exact ⟨hr.spend, hout⟩

theorem envelope_magic (h : validateShieldedTransactionEnvelope B cfg num time tx = .ok (some e)) :
    hasPrefix tx.data shieldedTxMagic = true := by
  by_contra hp
  simp [validateShieldedTransactionEnvelope, decodeShieldedTransaction, hp, except_map_ok] at h

theorem dispatch_legacy (hp : hasPrefix tx.data shieldedTxMagic = true) :
    processShieldedTransaction B cfg num time tx = gatedLegacy B cfg num time tx := by
  have h6 : hasShieldedV6Prefix tx.data = false := hasPrefix_false hp
  have h5 : hasShieldedV5Prefix tx.data = false := hasPrefix_false hp
  have h4 : hasShieldedV4Prefix tx.data = false := hasPrefix_false hp
  have h3 : hasShieldedV3Prefix tx.data = false := hasPrefix_false hp
  have hs : hasAntarticalStampPrefix tx.data = false := hasPrefix_false hp
  have ht : hasPrivateTVMPrefix tx.data = false := hasPrefix_false hp
  have hv : isValidatorProtocolEnvelope tx.data = false := by
    simp only [isValidatorProtocolEnvelope, Bool.or_eq_false_iff]
    exact ⟨⟨⟨hasPrefix_false hp, hasPrefix_false hp⟩, hasPrefix_false hp⟩, hasPrefix_false hp⟩
  have hnote : processNoteVersion B cfg num time tx = processLegacyTransaction B cfg num time tx := by
    simp [processNoteVersion, h4, h3]
  have hgate : (do
      validateShieldedOnlyTransaction B cfg num time tx
      checkWhen (cfg.isValidatorTransactionsActive num time && isValidatorProtocolEnvelope tx.data)
        (validateValidatorProtocolBasics B cfg num time tx)
      failIf (hasShieldedV4Prefix tx.data ∧ ¬ (cfg.isAntartical num time ∧ cfg.isPrivacyCommitments num time))
        (Err.invalidShieldedTx "Shield4 is not active until Antartical")) =
      validateShieldedOnlyTransaction B cfg num time tx := by
    simp only [hv, h4, Bool.and_false, checkWhen, Bool.false_eq_true, false_and, if_false, failIf]
    cases validateShieldedOnlyTransaction B cfg num time tx <;> rfl
  unfold processShieldedTransaction
  rw [if_neg (by simp [h6]), if_neg (by simp [h5]), hgate]
  simp only [processAntartical, hs, ht, hv, hnote, Bool.false_eq_true, if_false, gatedLegacy]

/-- A failed transaction leaves the world as it was exactly when it is not a V1/V2
transaction that has passed every check in front of its first write. -/
theorem shielded_failure_clean_iff {w w' : World} {err : Err}
    (h : processShieldedTransaction B cfg num time tx w = (.error err, w')) :
    w' = w ↔ ¬ (LegacyGate B cfg num time tx w ∧ LegacyWrites B cfg num time tx w) := by
  by_cases hp : hasPrefix tx.data shieldedTxMagic = true
  · rw [dispatch_legacy hp, gatedLegacy, bind_error, read_error] at h
    rcases h with ⟨honly, rfl⟩ | ⟨_, _, hread, h⟩
    · exact iff_of_true rfl fun hg => by simp [hg.1.shieldedOnly] at honly
    obtain ⟨honly, rfl⟩ := read_ok.mp hread
    by_cases ha : cfg.isAntartical num time = true
    · simp only [ha, if_true, bind_error, read_error, read_ok] at h
      rcases h with ⟨hs, rfl⟩ | ⟨sender, _, ⟨hs, rfl⟩, h⟩
      · refine iff_of_true rfl fun hg => ?_
        obtain ⟨_, hsend, _⟩ := hg.1.stamped ha
        simp [hsend] at hs
      rcases h with ⟨hst, rfl⟩ | ⟨_, _, ⟨hst, rfl⟩, h⟩
      · refine iff_of_true rfl fun hg => ?_
        obtain ⟨sender', hsend, hok⟩ := hg.1.stamped ha
        obtain rfl : sender = sender' := by simpa [hs] using hsend
        simp [hok] at hst
      have hgate : LegacyGate B cfg num time tx w := ⟨honly, fun _ => ⟨sender, hs, hst⟩⟩
      rw [processLegacyTransaction_clean_iff h]
      simp [hgate]
    · rw [if_neg ha] at h
      have hgate : LegacyGate B cfg num time tx w := ⟨honly, fun hc => absurd hc ha⟩
      rw [processLegacyTransaction_clean_iff h]
      simp [hgate]
  · refine iff_of_true ?_ ?_
    · exact processShieldedTransaction_atomic B cfg num time tx (by simpa using hp) w err w' h
    · rintro ⟨_, _, _, _, _, _, hr, _⟩
      exact hp (envelope_magic hr.envelope)

end

def unknownRoot : World := (wrappedPool 20).mapState fun st => st.setState (shieldedMerkleRootSlot 1) 0

def knownCommitment : World := (wrappedPool 20).mapState fun st => st.setState (shieldedCommitmentSlot 2004) 1

theorem shielded_failure_clean_iff_unknownRoot : migrate false 0 unknownRoot = unknownRoot := by
  have hrun : processShieldedTransaction migrationBackend (antarticalConfig false) 1 mainnetShieldedV2Time (migrationTx 0)
      unknownRoot = (.error (.invalidShieldedTx "unknown shielded note root"), migrate false 0 unknownRoot) :=
    Prod.ext (by rfl) rfl
  apply (shielded_failure_clean_iff hrun).mpr
  rintro ⟨_, e, ledger, intent, sender, s, hr, _⟩
  obtain rfl : migration 0 = e := Option.some.inj (Except.ok.inj (Eq.trans (by rfl) hr.envelope))
  obtain rfl : (⟨1, 1, [0], []⟩ : ShieldedSpend) = s := Option.some.inj hr.first
  obtain rfl : 1 = intent := Except.ok.inj hr.intended
  obtain rfl : 7 = sender := Except.ok.inj hr.recovered
  exact absurd hr.spend (by decide)

theorem migration_fails_dirty :
    (processShieldedTransaction migrationBackend (antarticalConfig false) 1 mainnetShieldedV2Time (migrationTx 0)
        knownCommitment).1 = .error (.invalidShieldedTx "commitment already exists") ∧
      (migrate false 0 knownCommitment).st.pool = 15 ∧
      migrate false 0 knownCommitment ≠ knownCommitment := by
  have hpool : (migrate false 0 knownCommitment).st.pool = 15 := by rfl
  refine ⟨by decide, hpool, fun h => ?_⟩
  rw [h] at hpool
  exact absurd hpool (by decide +kernel)

end TkmChain
