import TkmChain.NullifierSound
import TkmChain.RegistrySound

/-!
# What an accepted transaction does to the books

The books are the pool balance, the supply of pTKM, the native ledger and the
validator registry. Every accepted transaction is one `Movement` of them,
whatever its version.
-/

namespace TkmChain

open Proc

variable {B : Backend} {cfg : ChainConfig} {num time : Nat} {tx : Tx} {ledger : Option ConfidentialLedgerTotals}
  {w w' : World}
variable {a b : Address} {m : Movement}

theorem assetTKM_ne : assetTKM ≠ assetPTKM := by decide

def Passive (k : Slot) : Prop := k.kind ≠ .supply ∧ k.kind ≠ .ledger ∧ k.kind ≠ .registry

def Calm (k : Slot) : Prop := Passive k ∧ k.kind ≠ .ticket

theorem Frame.passive (h : Frame Calm s t) : Frame Passive s t := h.mono fun _ hk => hk.1

theorem TreeFrame.calm (h : TreeFrame s t) : Frame Calm s t :=
  h.mono fun k hk => by simp [Calm, Passive, hk]

structure Pays (v : Int) (s t : StateDB) : Prop where
  pool : (s.pool : Int) ≤ t.pool + v
  overdrawn : t.poolOverdrawn = s.poolOverdrawn
  storage : ∀ k, ¬ Passive k → t.storage k = s.storage k

namespace Pays

variable {s t : StateDB} {v x : Int}

theorem of_frame (h : Frame Passive s t) : Pays 0 s t :=
  ⟨by rw [h.pool]; omega, h.poolOverdrawn, h.storage⟩

theorem trans (h : Pays v s t) (h' : Pays x t u) : Pays (v + x) s u :=
  ⟨by have := h.pool; have := h'.pool; omega, h'.overdrawn.trans h.overdrawn,
    fun k hk => (h'.storage k hk).trans (h.storage k hk)⟩

theorem release (h0 : 0 ≤ v) (h : v ≤ s.pool) : Pays v s (s.release a v) := by
  obtain ⟨hp, ho⟩ := StateDB.pool_release (a := a) h0 h
  refine ⟨?_, ho, fun k _ => congrFun (release_storage s a v) k⟩
  split at hp <;> omega

theorem burn (h0 : 0 ≤ v) (h : v ≤ s.pool) (tx : Tx) : Pays v s (burnConfidentialFee s tx v) := by
  have hp : s.pool < 2 ^ 256 := (s.balance poolAddress).isLt
  have hv := StateDB.toNat_ofNat_toNat h0 (by omega)
  have hle : (BitVec.ofNat 256 v.toNat).toNat ≤ s.pool := by omega
  have hsub := StateDB.pool_subBalance hle
  refine ⟨?_, StateDB.overdrawn_subBalance hle, fun k hk => ?_⟩
  · change (s.pool : Int) ≤ (s.subBalance poolAddress (BitVec.ofNat 256 v.toNat)).pool + v
    omega
  · apply Function.update_of_ne
    rintro rfl
    exact hk (by simp [Passive, confidentialFeeTicket, Slot.kind, Role.kind])

theorem releases (hv : 0 ≤ v) (hx : 0 ≤ x) (h : v + x ≤ s.pool) : Pays (v + x) s ((s.release a v).release b x) := by
  have h1 : Pays v s (s.release a v) := release hv (by omega)
  have hp := h1.pool
  exact h1.trans (release hx (by omega))

end Pays

/-! ## Writing the books -/

def commitOption (asset : Nat) (ledger : Option ConfidentialLedgerTotals) (st : StateDB) : StateDB :=
  ledger.elim st (commitLedger st asset)

theorem commitLedger_ledgerFrame (st : StateDB) (asset : Nat) (l : ConfidentialLedgerTotals) :
    Frame (fun k => k.kind = .ledger) st (commitLedger st asset l) := by
  apply Frame.setStates
  simp [ledgerSlot, Role.kind]

theorem commitOption_frame (asset : Nat) (ledger : Option ConfidentialLedgerTotals) (st : StateDB) :
    Frame (fun k => k.kind = .ledger) st (commitOption asset ledger st) := by
  cases ledger with
  | none => exact Frame.rfl
  | some l => exact commitLedger_ledgerFrame st asset l

theorem updateSupply_frame (tx : Tx) (e : ShieldedV3Transaction) (st : StateDB) :
    Frame (fun k => k.kind = .supply) st (updateSupply tx e st) := by
  unfold updateSupply
  split
  · exact Frame.setState (by simp [Role.kind])
  · exact Frame.rfl

theorem markNullifiers_frame (asset : Nat) (h : Hash) :
    ∀ (l : List Digest) (w : World), Frame Calm w.st (l.foldl (markNullifier asset h) w).st
  | [], _ => Frame.rfl
  | n :: l, w => by
    have hn : Frame Calm w.st (markNullifier asset h w n).st :=
      Frame.setState (by simp [Calm, Passive, NoteSpend.nullifierSlot_kind])
    exact hn.trans (markNullifiers_frame asset h l _)

theorem markSpentLink_frame (tx : Tx) (e : ShieldedV3Transaction) (link : Option Digest) (w : World) :
    Frame Calm w.st (if e.deposit then w else link.elim w fun tag => markLink e.asset tx.hash tag w).st := by
  split
  · exact Frame.rfl
  · cases link with
    | none => exact Frame.rfl
    | some tag => exact Frame.setState (by simp [Calm, Passive, NoteSpend.linkTagSlot_kind])

theorem supply_congr (h : t.storage (assetSlot asset .supply []) = s.storage (assetSlot asset .supply [])) :
    shieldedV3AssetSupply t asset = shieldedV3AssetSupply s asset := by
  rw [shieldedV3AssetSupply, h, shieldedV3AssetSupply]

/-- What a transaction moves: a deposit, a withdrawal and a fee of an asset, with
the ledger totals it commits. -/
structure Movement where
  asset : Nat
  (deposit withdrawal fee : Int)
  ledger : Option ConfidentialLedgerTotals

namespace Movement

def minted (m : Movement) : Int := if m.asset = assetPTKM then m.deposit - m.withdrawal else 0

def native (m : Movement) (s : StateDB) : ConfidentialLedgerTotals :=
  if m.asset = assetTKM then m.ledger.getD (confidentialLedgerState s assetTKM)
  else confidentialLedgerState s assetTKM

structure Effect (m : Movement) (s t : StateDB) : Prop where
  pool : (s.pool : Int) ≤ t.pool + (m.withdrawal + m.fee)
  overdrawn : t.poolOverdrawn = s.poolOverdrawn
  supply : shieldedV3AssetSupply t assetPTKM = shieldedV3AssetSupply s assetPTKM + m.minted
  native : confidentialLedgerState t assetTKM = m.native s
  registry : ∀ k, k.kind = .registry → t.storage k = s.storage k

def Readable (m : Movement) : Prop := ∀ l ∈ m.ledger, l.InRange ∧ l.initialized = true

end Movement

theorem native_commitOption (ha : m.asset = assetTKM ∨ m.asset = assetPTKM) (hr : m.Readable)
    (st : StateDB) : confidentialLedgerState (commitOption m.asset m.ledger st) assetTKM = m.native st := by
  unfold Movement.native
  cases hl : m.ledger with
  | none => simp [commitOption]
  | some l =>
    obtain ⟨hrange, hinit⟩ := hr l hl
    rcases ha with ha | ha
    · rw [if_pos ha, ha, Option.getD_some]
      show confidentialLedgerState (commitLedger st assetTKM l) assetTKM = l
      exact ledgerState_commit hrange hinit st rfl
    · have hne : m.asset ≠ assetTKM := by rw [ha]; decide
      rw [if_neg hne, ha]
      show confidentialLedgerState (commitLedger st assetPTKM l) assetTKM = _
      exact ledgerState_commit_other (by decide)

theorem native_congr (h : ∀ k, ¬ Passive k → t.storage k = s.storage k) :
    confidentialLedgerState t assetTKM = confidentialLedgerState s assetTKM :=
  ledgerState_congr fun r => h _ (by simp [Passive, ledgerSlot, Role.kind])

structure Movement.Prepared (m : Movement) (v : Int) (s t : StateDB) : Prop where
  pool : (s.pool : Int) ≤ t.pool + v
  overdrawn : t.poolOverdrawn = s.poolOverdrawn
  supply : shieldedV3AssetSupply t assetPTKM = shieldedV3AssetSupply s assetPTKM + m.minted
  storage : ∀ k, k.kind = .ledger ∨ k.kind = .registry → t.storage k = s.storage k

theorem Pays.prepared (h : Pays v s t) (hm : m.minted = 0) : m.Prepared v s t := by
  refine ⟨h.pool, h.overdrawn, ?_, fun k hk => h.storage k ?_⟩
  · rw [hm, supply_congr (h.storage _ (by simp [Passive, Role.kind]))]
    omega
  · rcases hk with hk | hk <;> simp [Passive, hk]

theorem Movement.Prepared.effect {v x : Int} {s b t : StateDB} (h : m.Prepared v s b)
    (ha : m.asset = assetTKM ∨ m.asset = assetPTKM) (hr : m.Readable) (hp : Pays x (commitOption m.asset m.ledger b) t)
    (hv : v + x = m.withdrawal + m.fee) : m.Effect s t := by
  have hc := commitOption_frame m.asset m.ledger b
  have hpool := h.pool
  have hpaid := hp.pool
  rw [hc.pool] at hpaid
  refine ⟨by omega, ?_, ?_, ?_, ?_⟩
  · rw [hp.overdrawn, hc.poolOverdrawn, h.overdrawn]
  · rw [← h.supply]
    exact supply_congr ((hp.storage _ (by simp [Passive, Role.kind])).trans (hc.storage _ (by simp [Role.kind])))
  · have hb : confidentialLedgerState b assetTKM = confidentialLedgerState s assetTKM :=
      ledgerState_congr fun r => h.storage _ (by simp [ledgerSlot, Role.kind])
    rw [native_congr hp.storage, native_commitOption ha hr, Movement.native, Movement.native, hb]
  · intro k hk
    rw [hp.storage k (by simp [Passive, hk]), hc.storage k (by simp [hk]), h.storage k (.inr hk)]

/-! ## V3, V4 and V5 -/

def noteMovement (tx : Tx) (e : ShieldedV3Transaction) (ledger : Option ConfidentialLedgerTotals) : Movement where
  asset := e.asset
  deposit := if e.deposit then tx.value else 0
  withdrawal := e.withdrawal
  fee := e.sponsor
  ledger := ledger

theorem updateSupply_supply (hs : NoteShape tx e) (hf : NoteStateFacts st tx e l link)
    (ledger : Option ConfidentialLedgerTotals)
    (hst : shieldedV3AssetSupply s assetPTKM = shieldedV3AssetSupply st assetPTKM) :
    shieldedV3AssetSupply (updateSupply tx e s) assetPTKM =
      shieldedV3AssetSupply s assetPTKM + (noteMovement tx e ledger).minted := by
  have hnn := supply_nonneg st assetPTKM
  by_cases ha : e.asset = assetPTKM
  · have hset (v : Int) (hv : 0 ≤ v ∧ v < 2 ^ 256) :
        shieldedV3AssetSupply (setShieldedV3AssetSupply s assetPTKM v) assetPTKM = v := by
      rw [shieldedV3AssetSupply, setShieldedV3AssetSupply, StateDB.setState_storage, Function.update_self]
      exact bigToHash_toNat hv
    simp only [updateSupply, Movement.minted, noteMovement, ha, if_true]
    cases hd : e.deposit with
    | true =>
      have hm := hf.minted ha hd
      have hw := (hs.deposit hd).1
      simp only [if_true]
      rw [hset _ (by omega)]
      omega
    | false =>
      have hb := hf.burned ha hd
      have hw := hs.withdrawal
      simp only [Bool.false_eq_true, if_false]
      rw [hset _ (by omega)]
      omega
  · simp [updateSupply, Movement.minted, noteMovement, ha]

theorem settleLedger_pays {tx : Tx} {e : ShieldedV3Transaction} {ledger : Option ConfidentialLedgerTotals}
    {st : StateDB} (hw : 0 ≤ e.withdrawal) (hs : 0 ≤ e.sponsor)
    (hp : e.withdrawal + e.sponsor ≤ st.pool) :
    Pays (e.withdrawal + e.sponsor) (commitOption e.asset ledger st)
      (((settleLedger tx e ledger st).release a e.withdrawal).release b (publicSponsor e ledger)) := by
  have hpool := (commitOption_frame e.asset ledger st).pool
  cases ledger with
  | none =>
    simp only [publicSponsor, Option.isSome_none, Bool.false_eq_true, false_and, if_false]
    exact Pays.releases hw hs hp
  | some l =>
    simp only [settleLedger, publicSponsor, Option.isSome_some, true_and]
    change (commitLedger st e.asset l).pool = _ at hpool
    show Pays _ (commitLedger st e.asset l) _
    split
    · have hburn : Pays e.sponsor (commitLedger st e.asset l) (burnConfidentialFee (commitLedger st e.asset l) tx e.sponsor) :=
        Pays.burn hs (by omega) tx
      have hb := hburn.pool
      have hrel := hburn.trans (Pays.releases (a := a) (b := b) (x := 0) hw (Int.le_refl 0) (by omega))
      rwa [Int.add_zero, Int.add_comm] at hrel
    · exact Pays.releases hw hs (by omega)

def noteMarks (tx : Tx) (e : ShieldedV3Transaction) (l : List Digest) (link : Option Digest) (w : World) : World :=
  let w := (l.foldl (markNullifier e.asset tx.hash) w).mapState (updateSupply tx e)
  if e.deposit then w else link.elim w fun tag => markLink e.asset tx.hash tag w

theorem noteWrites_eq (tx : Tx) (e : ShieldedV3Transaction) (l : List Digest) (link : Option Digest)
    (ledger : Option ConfidentialLedgerTotals) (sender : Address) (w : World) :
    (noteWrites tx e l link ledger sender w).st =
      ((settleLedger tx e ledger (noteMarks tx e l link w).st).release e.withdrawalRecipient e.withdrawal).release sender
        (publicSponsor e ledger) := rfl

section
variable {e : ShieldedV3Transaction} {l : List Digest}
variable {st : StateDB}

theorem noteMarks_prepared (hs : NoteShape tx e) (hf : NoteStateFacts st tx e l link) (hw : Frame Passive st w.st) :
    (noteMovement tx e ledger).Prepared 0 st (noteMarks tx e l link w).st := by
  have hmark := hw.trans (markNullifiers_frame e.asset tx.hash l w).passive
  have hsup := updateSupply_frame tx e (l.foldl (markNullifier e.asset tx.hash) w).st
  have hlink : Frame Passive _ (noteMarks tx e l link w).st := (markSpentLink_frame tx e link
    ((l.foldl (markNullifier e.asset tx.hash) w).mapState (updateSupply tx e))).passive
  have heq := supply_congr (hmark.storage (assetSlot assetPTKM .supply []) (by simp [Passive, Role.kind]))
  refine ⟨?_, ?_, ?_, ?_⟩
  · rw [hlink.pool]
    change (st.pool : Int) ≤ (updateSupply tx e _).pool + 0
    rw [hsup.pool, hmark.pool]
    omega
  · rw [hlink.poolOverdrawn]
    exact hsup.poolOverdrawn.trans hmark.poolOverdrawn
  · rw [supply_congr (hlink.storage _ (by simp [Passive, Role.kind])), ← heq]
    exact updateSupply_supply hs hf ledger heq
  · intro k hk
    have hnp : ¬ Passive k := by rcases hk with hk | hk <;> simp [Passive, hk]
    have hns : ¬ k.kind = .supply := by rcases hk with hk | hk <;> simp [hk]
    rw [hlink.storage k hnp]
    exact (hsup.storage k hns).trans (hmark.storage k hnp)

theorem noteWrites_effect (hs : NoteShape tx e) (hf : NoteStateFacts st tx e l link)
    (hr : (noteMovement tx e ledger).Readable) (hp : e.withdrawal + e.sponsor ≤ st.pool) (hw : Frame Passive st w.st)
    (sender : Address) : (noteMovement tx e ledger).Effect st (noteWrites tx e l link ledger sender w).st := by
  have hpre : (noteMovement tx e ledger).Prepared 0 st (noteMarks tx e l link w).st := noteMarks_prepared hs hf hw
  have hpool := hpre.pool
  rw [noteWrites_eq]
  refine hpre.effect hs.asset hr (settleLedger_pays hs.withdrawal hs.sponsor ?_) (Int.zero_add _)
  omega

end

/-! ## V6 and V1/V2 -/

def v6Movement (tx : Tx) (e : ShieldedV6Transaction) (ledger : Option ConfidentialLedgerTotals) : Movement where
  asset := assetTKM
  deposit := if e.deposit then tx.value else 0
  withdrawal := e.withdrawal
  fee := 0
  ledger := ledger

theorem Movement.minted_native (h : m.asset = assetTKM) : m.minted = 0 := by
  have : m.asset ≠ assetPTKM := by rw [h]; decide
  rw [Movement.minted, if_neg this]

section
variable {e : ShieldedV6Transaction}

theorem applyV6_appended (h : applyV6 B tx e ledger w = (.ok (), w')) :
    ∃ s, TreeFrame w.st s ∧ w'.st = (commitOption assetTKM ledger s).release e.withdrawalRecipient e.withdrawal := by
  simp only [applyV6, run_rules] at h
  obtain ⟨w₁, happ, rfl⟩ := h
  have hmoves : Moves (fun w w' : World => TreeFrame w.st w'.st) (World.onState (Proc.orRevert do
      Proc.each (fun out => shieldedV6AppendOutput B out tx.hash) e.outputs
      Proc.each (fun input : ShieldedV6Input => shieldedV6AppendKeyImage B input.keyImage tx.hash) e.inputs)) :=
    Moves.zoom (Moves.orRevert (Moves.bind
      (Moves.each (fun out => shieldedV6AppendOutput_frame B out tx.hash) _) fun _ =>
        Moves.each (fun input : ShieldedV6Input => shieldedV6AppendKeyImage_frame B input.keyImage tx.hash) _))
      fun _ _ h => h
  refine ⟨w₁.st, hmoves.ok happ, ?_⟩
  show (commitOption assetTKM ledger (e.inputs.foldl _ w₁).st).release _ _ = _
  rw [markInputs_st]

theorem applyV6_effect (h0 : 0 ≤ e.withdrawal) (hp : e.withdrawal ≤ w.st.pool) (hr : (v6Movement tx e ledger).Readable)
    (h : applyV6 B tx e ledger w = (.ok (), w')) : (v6Movement tx e ledger).Effect w.st w'.st := by
  obtain ⟨s, htree, heq⟩ := applyV6_appended h
  have hframe := htree.calm.passive
  have hpre := (Pays.of_frame hframe).prepared (m := v6Movement tx e ledger) (Movement.minted_native rfl)
  refine hpre.effect (.inl rfl) hr ?_ (Int.zero_add _)
  show Pays (e.withdrawal + 0) (commitOption assetTKM ledger s) _
  rw [heq, Int.add_zero]
  apply Pays.release h0
  rw [(commitOption_frame _ _ s).pool, hframe.pool]
  exact hp

end

def legacyMovement (e : ShieldedTransaction) (ledger : Option ConfidentialLedgerTotals) : Movement where
  asset := assetTKM
  deposit := 0
  withdrawal := publicRelease e
  fee := 0
  ledger := ledger

theorem markSpend_frame (tx : Tx) (e : ShieldedTransaction) (s : ShieldedSpend) (w : World) :
    Frame Calm w.st (markSpend tx e s w).st := by
  unfold markSpend
  split
  · exact Frame.rfl
  · exact Frame.setState (by simp [Calm, Passive, shieldedNullifierSlot, Slot.kind])

instance (K : Slot → Prop) : Std.Refl fun w w' : World => Frame K w.st w'.st := ⟨fun _ => Frame.rfl⟩

instance (K : Slot → Prop) : IsTrans World fun w w' => Frame K w.st w'.st := ⟨fun _ _ _ => Frame.trans⟩

theorem processSpends_frame (B : Backend) (cfg : ChainConfig) (num time : Nat) (tx : Tx) (e : ShieldedTransaction)
    (sender : Address) (intent : Hash) : ∀ i l, Moves (fun w w' : World => Frame Calm w.st w'.st)
      (processSpends B cfg num time tx e sender intent i l)
  | _, [] => Moves.pure ()
  | i, s :: l => Moves.read_bind fun _ =>
      Moves.bind (Moves.modify (markSpend_frame tx e s)) fun _ =>
        processSpends_frame B cfg num time tx e sender intent (i + 1) l

theorem release_nonneg (e : ShieldedTransaction) : 0 ≤ shieldedWithdrawalValue e ∧ 0 ≤ shieldedGasSponsorValue e :=
  ⟨Int.le_max_left .., Int.le_max_left ..⟩

section
variable {e : ShieldedTransaction}
variable {intent : Hash} {sender : Address}

theorem applyLegacy_ok (h : applyLegacy B cfg num time tx e ledger intent sender w = (.ok (), w')) :
    ∃ s t, Frame Calm w.st s ∧ TreeFrame ((s.release e.withdrawalRecipient (shieldedWithdrawalValue e)).release sender
      (shieldedGasSponsorValue e)) t ∧ w'.st = commitOption assetTKM ledger t := by
  simp only [applyLegacy, run_rules] at h
  obtain ⟨w₁, hspend, w₂, hout, rfl⟩ := h
  have hmoves : Moves (fun w w' : World => TreeFrame w.st w'.st)
      (World.onState (Proc.each (processOutput B tx.hash) e.outputs)) :=
    Moves.zoom (Moves.each (processOutput_frame B tx.hash) _) fun _ _ h => h
  exact ⟨w₁.st, w₂.st, (processSpends_frame B cfg num time tx e sender intent 0 _).ok hspend, hmoves.ok hout, rfl⟩

theorem applyLegacy_effect (hp : publicRelease e ≤ w.st.pool) (hr : (legacyMovement e ledger).Readable)
    (h : applyLegacy B cfg num time tx e ledger intent sender w = (.ok (), w')) :
    (legacyMovement e ledger).Effect w.st w'.st := by
  obtain ⟨s, t, hmark, happ, heq⟩ := applyLegacy_ok h
  obtain ⟨hw, hs⟩ := release_nonneg e
  have hrel : Pays (publicRelease e) s ((s.release e.withdrawalRecipient (shieldedWithdrawalValue e)).release sender
      (shieldedGasSponsorValue e)) := Pays.releases hw hs (by rw [hmark.pool]; exact hp)
  have hpays := ((Pays.of_frame hmark.passive).trans hrel).trans (Pays.of_frame happ.calm.passive)
  refine (hpays.prepared (Movement.minted_native rfl)).effect (.inl rfl) hr (x := 0) ?_ ?_
  · rw [heq]
    exact Pays.of_frame Frame.rfl
  · show 0 + publicRelease e + 0 + 0 = publicRelease e + 0
    omega

def paidOut (e : ShieldedTransaction) : Int :=
  (if e.withdrawalRecipient = poolAddress then 0 else shieldedWithdrawalValue e) + shieldedGasSponsorValue e

theorem applyLegacy_pool (hp : publicRelease e ≤ w.st.pool) (hs : shieldedGasSponsorValue e ≠ 0 → sender ≠ poolAddress)
    (h : applyLegacy B cfg num time tx e ledger intent sender w = (.ok (), w')) :
    (w'.st.pool : Int) = w.st.pool - paidOut e := by
  obtain ⟨s, t, hmark, happ, heq⟩ := applyLegacy_ok h
  obtain ⟨hw0, hs0⟩ := release_nonneg e
  have hle : shieldedWithdrawalValue e + shieldedGasSponsorValue e ≤ s.pool := by rw [hmark.pool]; exact hp
  obtain ⟨h1, _⟩ := StateDB.pool_release (a := e.withdrawalRecipient) hw0
    (show shieldedWithdrawalValue e ≤ s.pool by omega)
  have hle2 : shieldedGasSponsorValue e ≤ (s.release e.withdrawalRecipient (shieldedWithdrawalValue e)).pool := by
    split at h1 <;> omega
  obtain ⟨h2, _⟩ := StateDB.pool_release (a := sender) hs0 hle2
  rw [heq, (commitOption_frame assetTKM ledger t).pool, happ.pool, h2, h1, ← hmark.pool, paidOut]
  by_cases hz : shieldedGasSponsorValue e = 0
  · rw [hz]
    split <;> split <;> omega
  · rw [if_neg (hs hz)]
    split <;> omega

end

/-! ## The cases of an accepted transaction -/

structure V6Run (B : Backend) (cfg : ChainConfig) (num time : Nat) (tx : Tx) (e : ShieldedV6Transaction)
    (ledger : Option ConfidentialLedgerTotals) (w w' : World) : Prop where
  withdrawal : 0 ≤ e.withdrawal
  boundary : e.deposit = true ∨ 0 < e.withdrawal → cfg.isConfidentialLedger num time = true
  deposit : e.deposit = true → e.withdrawal = 0
  toPool : tx.toAddr = some poolAddress
  codeFree : w.st.codeSize poolAddress = 0
  stamped : 0 < e.withdrawal → isAntarticalStamped w.st e.withdrawalRecipient = true
  totals : v6Ledger w.st tx e = .ok ledger
  applied : applyV6 B tx e ledger w = (.ok (), w')

structure LegacyRun (B : Backend) (cfg : ChainConfig) (num time : Nat) (tx : Tx) (e : ShieldedTransaction)
    (ledger : Option ConfidentialLedgerTotals) (w w' : World) : Prop where
  totals : legacyLedger cfg num time w.st e = .ok ledger
  release : publicRelease e ≤ w.st.pool
  value : tx.value ≠ 0 → publicRelease e = 0
  sponsor : shieldedGasSponsorValue e ≠ 0 → e.version = shieldedTxVersionV2
  applied : ∃ intent sender, legacySender B cfg num time tx e = .ok sender ∧
    applyLegacy B cfg num time tx e ledger intent sender w = (.ok (), w')

theorem LegacyRun.sender_ne_pool
    (h : LegacyRun B cfg num time tx e ledger w w') (hs : legacySender B cfg num time tx e = .ok sender)
    (hne : shieldedGasSponsorValue e ≠ 0) : sender ≠ poolAddress := by
  rw [legacySender, if_pos (h.sponsor hne), except_mapError_ok] at hs
  exact B.sender_ne_pool _ _ _ _ _ hs

inductive NoteEnvelope (B : Backend) (data : Bytes) : ShieldedV3Transaction → Prop
  | v3 (e : ShieldedV3Transaction) (hp : hasShieldedV3Prefix data = true)
      (hd : decodeShieldedV3Transaction B data = .ok (some e)) : NoteEnvelope B data e
  | v4 (e : ShieldedV4Transaction) (hp : hasShieldedV4Prefix data = true)
      (hd : decodeShieldedV4Transaction B data = .ok (some e)) : NoteEnvelope B data e.toShieldedV3Transaction
  | v5 (e : ShieldedV5Transaction) (hp : hasShieldedV5Prefix data = true)
      (hd : decodeShieldedV5Transaction B data = .ok (some e)) : NoteEnvelope B data e.toShieldedV3Transaction

theorem NoteEnvelope.other_magic {B : Backend} {data : Bytes} {e : ShieldedV3Transaction} {b : String}
    (h : NoteEnvelope B data e) (hb : b ∈ magics := by simp [magics]) (hne : b ∉ noteMagics := by decide) :
    hasPrefix data b = false := by
  cases h with
  | v3 e hp _ => exact note_hasPrefix_false (by simp [noteMagics]) hp hb hne
  | v4 e hp _ => exact note_hasPrefix_false (by simp [noteMagics]) hp hb hne
  | v5 e hp _ => exact note_hasPrefix_false (by simp [noteMagics]) hp hb hne

inductive Accepted (B : Backend) (cfg : ChainConfig) (num time : Nat) (tx : Tx) (w w' : World) : Prop
  | idle (hd : decodeShieldedTransaction B tx.data = .ok none) (h : Frame Calm w.st w'.st)
  | note (e : ShieldedV3Transaction) (l : List Digest) (link : Option Digest)
      (hd : decodeShieldedTransaction B tx.data = .ok none) (henv : NoteEnvelope B tx.data e)
      (h : NoteRun B cfg num time tx e l link w w')
  | v6 (e : ShieldedV6Transaction) (ledger : Option ConfidentialLedgerTotals)
      (hd : decodeShieldedTransaction B tx.data = .ok none) (h : V6Run B cfg num time tx e ledger w w')
  | legacy (e : ShieldedTransaction) (ledger : Option ConfidentialLedgerTotals)
      (hd : decodeShieldedTransaction B tx.data = .ok (some e)) (h : LegacyRun B cfg num time tx e ledger w w')

theorem decodeShieldedTransaction_none (h : hasPrefix tx.data magic = true)
    (hm : magic ∈ magics := by simp [magics]) (hne : magic ≠ shieldedTxMagic := by decide) :
    decodeShieldedTransaction B tx.data = .ok none := by
  have : hasPrefix tx.data shieldedTxMagic = false := hasPrefix_false h hm (by simp [magics]) hne
  simp [decodeShieldedTransaction, this]

theorem v6Boundary_ok (h : v6Boundary B cfg num time tx e = .ok u) :
    0 ≤ e.withdrawal ∧ (e.deposit = true ∨ 0 < e.withdrawal → cfg.isConfidentialLedger num time = true) ∧
      (e.deposit = true → e.withdrawal = 0) := by
  simp only [v6Boundary, ok_rules] at h
  obtain ⟨_, _, _, hw, _, hb, h⟩ := h
  refine ⟨by omega, fun hm => ?_, fun hd => ?_⟩
  · by_contra hc
    exact hb ⟨hm, hc⟩
  · simp only [hd, if_true, ok_rules, not_or, not_not] at h
    obtain ⟨_, hdep, _⟩ := h
    exact hdep.2.2.1

theorem shieldedV6Basics_ok (h : shieldedV6Basics B cfg num time tx = .ok e)
    (hv : e.version ≠ shieldedV6BindingVersion) :
    tx.toAddr = some poolAddress ∧ ∃ u, v6Boundary B cfg num time tx e = .ok u := by
  simp only [shieldedV6Basics, ok_rules] at h
  obtain ⟨_, _, _, _, _, hto, _, _, _, _, e', _, h⟩ := h
  refine ⟨not_not.mp (not_or.mp hto).2, ?_⟩
  -- the transfer rules of both schedules begin with the boundary
  have htransfer {bound : Bool} {u : Unit} (ht : v6Transfer B cfg num time bound tx e' = .ok u) (he : e' = e) :
      ∃ u, v6Boundary B cfg num time tx e = .ok u := by
    simp only [v6Transfer, ok_rules] at ht
    obtain ⟨u, hb, _⟩ := ht
    exact ⟨u, he ▸ hb⟩
  split at h
  · simp only [ok_rules] at h
    obtain ⟨_, _, h⟩ := h
    split at h
    · rename_i hbinding
      simp only [ok_rules] at h
      obtain ⟨_, _, _, _, rfl⟩ := h
      exact absurd hbinding hv
    · simp only [ok_rules] at h
      obtain ⟨_, _, _, ht, he⟩ := h
      exact htransfer ht he
  · simp only [ok_rules] at h
    obtain ⟨_, _, _, ht, he⟩ := h
    exact htransfer ht he

theorem processShieldedV6_ok (hp : hasShieldedV6Prefix tx.data = true)
    (h : processShieldedV6 B cfg num time tx w = (.ok (), w')) : Accepted B cfg num time tx w w' := by
  have hd : decodeShieldedTransaction B tx.data = .ok none := decodeShieldedTransaction_none hp
  simp only [processShieldedV6, run_rules] at h
  obtain ⟨hcode, e, he, sender, _, _, h⟩ := h
  rw [failIf_ok, not_not] at hcode
  by_cases hv : e.version = shieldedV6BindingVersion
  · rw [if_pos hv] at h
    have hmoves : Moves (fun w w' : World => TreeFrame w.st w'.st)
        (World.onState (processShieldedV6Binding B tx sender e)) :=
      Moves.zoom (processShieldedV6Binding_frame B tx sender e) fun _ _ h => h
    exact .idle hd (TreeFrame.calm (hmoves.ok h))
  · simp only [if_neg hv, run_rules, failIf_ok] at h
    obtain ⟨hstamp, _, _, _, ledger, hl, happ⟩ := h
    obtain ⟨hto, _, hb⟩ := shieldedV6Basics_ok he hv
    obtain ⟨hw, hb, hdep⟩ := v6Boundary_ok hb
    exact .v6 e ledger hd ⟨hw, hb, hdep, hto, hcode, fun hpos => not_not.mp fun hno => hstamp ⟨hpos, hno⟩, hl, happ⟩

structure PublicValues (tx : Tx) (e : ShieldedTransaction) : Prop where
  value : tx.value ≠ 0 → publicRelease e = 0
  sponsor : shieldedGasSponsorValue e ≠ 0 → e.version = shieldedTxVersionV2
  spends : e.spends ≠ []

theorem isShieldedDeposit_ok (h : isShieldedDeposit e value = true) :
    value ≠ 0 ∧ ∃ s, e.spends = [s] := by
  simp only [isShieldedDeposit, Bool.and_eq_true, decide_eq_true_eq] at h
  obtain ⟨hv, h⟩ := h
  refine ⟨by omega, ?_⟩
  split at h
  · rename_i s hs
    exact ⟨s, hs⟩
  · cases h

theorem checkPublicValues_ok (h : checkPublicValues cfg time tx e = .ok u) :
    PublicValues tx e := by
  obtain ⟨hw0, hs0⟩ := release_nonneg e
  simp only [checkPublicValues, ok_rules] at h
  obtain ⟨_, _, _, _, _, hdep, h⟩ := h
  have hsplit : (0 < shieldedWithdrawalValue e → tx.value = 0) ∧
      (0 < shieldedGasSponsorValue e → e.version = shieldedTxVersionV2 ∧ tx.value = 0) ∧
      ¬ (tx.value = 0 ∧ e.spends = []) := by
    split at h
    · simp only [ok_rules, checkWhen_ok, decide_eq_true_eq] at h
      obtain ⟨_, hval, _, _, _, _, _, _, _, hc, _, _, hne⟩ := h
      refine ⟨fun _ => by simpa using (not_or.mp hval).2, fun hpos => ?_, hne⟩
      obtain ⟨_, _, _, hver, _⟩ := hc hpos
      simp only [not_or, not_not] at hver
      exact ⟨hver.1, hver.2.2.1⟩
    · rename_i hnw
      simp only [ok_rules, checkWhen_ok, decide_eq_true_eq] at h
      obtain ⟨_, _, _, hc, _, _, hne⟩ := h
      refine ⟨fun hpos => absurd hpos hnw, fun hpos => ?_, hne⟩
      obtain ⟨_, _, _, hver, _⟩ := hc hpos
      simp only [not_or, not_not] at hver
      exact ⟨hver.1, hver.2.2.1⟩
  obtain ⟨hw, hs, hne⟩ := hsplit
  refine ⟨fun hv => ?_, fun hz => (hs (by omega)).1, fun hempty => ?_⟩
  · have hw : ¬ 0 < shieldedWithdrawalValue e := fun hpos => hv (hw hpos)
    have hs : ¬ 0 < shieldedGasSponsorValue e := fun hpos => hv (hs hpos).2
    unfold publicRelease
    omega
  · have hv : tx.value ≠ 0 := fun hv => hne ⟨hv, hempty⟩
    by_cases hd : isShieldedDeposit e tx.value = true
    · obtain ⟨_, s, hsp⟩ := isShieldedDeposit_ok hd
      rw [hsp] at hempty
      cases hempty
    · exact hdep ⟨hv, hd⟩

theorem processLegacyTransaction_ok (h : processLegacyTransaction B cfg num time tx w = (.ok (), w')) :
    Accepted B cfg num time tx w w' := by
  simp only [processLegacyTransaction, run_rules] at h
  obtain ⟨r, henv, h⟩ := h
  unfold validateShieldedTransactionEnvelope at henv
  split at henv
  · cases henv
  · rename_i hd
    simp only [except_map_ok] at henv
    obtain ⟨_, _, rfl⟩ := henv
    obtain ⟨_, rfl⟩ := pure_ok.mp h
    exact .idle hd Frame.rfl
  · rename_i e hd
    simp only [except_map_ok] at henv
    obtain ⟨_, henv, rfl⟩ := henv
    simp only [run_rules] at h
    obtain ⟨ledger, hl, hrel, intent, _, sender, hs, happ⟩ := h
    simp only [checkEnvelope, ok_rules] at henv
    obtain ⟨_, _, _, _, _, _, _, hval, _⟩ := henv
    have hpub := checkPublicValues_ok hval
    rw [checkRelease, failIf_ok] at hrel
    exact .legacy e ledger hd ⟨hl, by omega, hpub.value, hpub.sponsor, intent, sender, hs, happ⟩

theorem processNoteVersion_ok (h : processNoteVersion B cfg num time tx w = (.ok (), w')) :
    Accepted B cfg num time tx w w' := by
  unfold processNoteVersion at h
  split at h
  · rename_i hp
    obtain ⟨e, l, hdec, _, hrun⟩ := processShieldedV4_ok h
    exact .note _ l _ (decodeShieldedTransaction_none hp.1) (.v4 e hp.1 hdec) hrun
  split at h
  · rename_i hp
    obtain ⟨e, l, hdec, _, hrun⟩ := processShieldedV3_ok h
    exact .note _ l _ (decodeShieldedTransaction_none hp.1) (.v3 e hp.1 hdec) hrun
  · exact processLegacyTransaction_ok h

theorem decodeShieldedTransaction_validator (h : isValidatorProtocolEnvelope tx.data = true) :
    decodeShieldedTransaction B tx.data = .ok none := by
  simp only [isValidatorProtocolEnvelope, Bool.or_eq_true] at h
  rcases h with ((h | h) | h) | h <;>
    exact decodeShieldedTransaction_none h

theorem processAntartical_ok (h : processAntartical B cfg num time tx w = (.ok (), w')) :
    Accepted B cfg num time tx w w' := by
  unfold processAntartical at h
  split at h
  · rename_i hp
    have hmoves : Moves (fun w w' : World => TreeFrame w.st w'.st)
        (World.onState (processAntarticalStamp B cfg num time tx)) :=
      Moves.zoom (processAntarticalStamp_frame B cfg num time tx) fun _ _ h => h
    exact .idle (decodeShieldedTransaction_none hp) (TreeFrame.calm (hmoves.ok h))
  · simp only [run_rules] at h
    obtain ⟨_, _, _, h⟩ := h
    split at h
    · rename_i hp
      obtain ⟨_, rfl⟩ := pure_ok.mp h
      exact .idle (decodeShieldedTransaction_none hp) Frame.rfl
    split at h
    · rename_i hp
      obtain ⟨_, rfl⟩ := pure_ok.mp h
      exact .idle (decodeShieldedTransaction_validator hp) Frame.rfl
    · exact processNoteVersion_ok h

theorem processShieldedTransaction_accepted (h : processShieldedTransaction B cfg num time tx w = (.ok (), w')) :
    Accepted B cfg num time tx w w' := by
  unfold processShieldedTransaction at h
  split at h
  · rename_i hp
    simp only [run_rules] at h
    obtain ⟨_, h⟩ := h
    exact processShieldedV6_ok hp h
  split at h
  · rename_i hp
    simp only [run_rules] at h
    obtain ⟨_, h⟩ := h
    obtain ⟨e, l, hdec, _, hrun⟩ := processShieldedV5_ok h
    exact .note _ l _ (decodeShieldedTransaction_none hp) (.v5 e hp hdec) hrun
  · simp only [run_rules] at h
    obtain ⟨_, h⟩ := h
    split at h
    · exact processAntartical_ok h
    · exact processNoteVersion_ok h

/-! ## One movement for every version -/

/-- An accepted transaction as a movement: the totals committed are those of a
transition, and with the ledger active no public value passes it by. -/
structure Settled (cfg : ChainConfig) (num time : Nat) (tx : Tx) (m : Movement) (s t : StateDB) : Prop where
  effect : m.Effect s t
  asset : m.asset = assetTKM ∨ m.asset = assetPTKM
  deposit : 0 ≤ m.deposit ∧ m.deposit ≤ tx.value
  toPool : m.deposit ≠ 0 → tx.toAddr = some poolAddress
  withdrawal : 0 ≤ m.withdrawal
  fee : 0 ≤ m.fee
  wrapped : m.asset = assetPTKM → m.fee = 0
  transition : ∀ l ∈ m.ledger, ledgerTransition s m.asset m.deposit m.withdrawal m.fee = .ok l
  active : cfg.isConfidentialLedger num time = true → m.ledger = none →
    m.deposit = 0 ∧ m.withdrawal = 0 ∧ m.fee = 0
  inactive : cfg.isConfidentialLedger num time = false → m.ledger = none

theorem readable_of_transition
    (h : ∀ l ∈ m.ledger, ledgerTransition s m.asset m.deposit m.withdrawal m.fee = .ok l) : m.Readable := by
  intro l hl
  obtain ⟨reserve, hf⟩ := ledgerTransition_spec (h l hl)
  exact ⟨hf.range, transition_initialized hf⟩

theorem spendable_le_pool (st : StateDB) (asset : Nat) : shieldedV3SpendablePoolReserve st asset ≤ st.pool := by
  have := (supply_nonneg st assetPTKM).1
  unfold shieldedV3SpendablePoolReserve
  split
  · omega
  · split <;> omega

section
variable {e : ShieldedV3Transaction} {l : List Digest}

theorem applyNotes_appended (h : applyNotes B tx e l link ledger sender w = (.ok (), w')) :
    ∃ w₁, TreeFrame w.st w₁.st ∧ w' = noteWrites tx e l link ledger sender w₁ := by
  simp only [applyNotes, run_rules] at h
  obtain ⟨w₁, hout, rfl⟩ := h
  have hmoves : Moves (fun w w' : World => TreeFrame w.st w'.st)
      (World.onState (Proc.orRevert (Proc.each (appendOutput B e.asset tx.hash) e.outputs.toList))) :=
    Moves.zoom (Moves.orRevert (Moves.each (appendOutput_frame B e.asset tx.hash) _)) fun _ _ h => h
  exact ⟨w₁, hmoves.ok hout, rfl⟩

theorem NoteRun.settled (h : NoteRun B cfg num time tx e l link w w') :
    ∃ ledger, Settled cfg num time tx (noteMovement tx e ledger) w.st w'.st := by
  obtain ⟨ledger, sender, hl, _, happ⟩ := h.applied
  have htr : ∀ t ∈ ledger, ledgerTransition w.st e.asset (if e.deposit then tx.value else 0) e.withdrawal e.sponsor =
      .ok t := by
    unfold noteLedger at hl
    split at hl
    · obtain ⟨t, ht, rfl⟩ := except_map_ok.mp hl
      simpa using ht
    · cases hl
      simp
  have hshape := h.shape
  have hpool : e.withdrawal + e.sponsor ≤ w.st.pool := by
    have := h.facts.reserve
    have := spendable_le_pool w.st e.asset
    omega
  refine ⟨ledger, ?_, hshape.asset, ?_, fun _ => hshape.toPool, hshape.withdrawal, hshape.sponsor, hshape.wrapped, htr,
    ?_, ?_⟩
  · obtain ⟨w₁, htree, rfl⟩ := applyNotes_appended happ
    exact noteWrites_effect hshape h.facts (readable_of_transition htr) hpool htree.calm.passive sender
  · show 0 ≤ (if e.deposit then (tx.value : Int) else 0) ∧ (if e.deposit then (tx.value : Int) else 0) ≤ tx.value
    split <;> omega
  · intro hact hnone
    rw [noteLedger, if_pos hact] at hl
    obtain ⟨t, _, rfl⟩ := except_map_ok.mp hl
    cases hnone
  · intro hact
    rw [noteLedger, hact] at hl
    cases hl
    rfl

end

section
variable {e : ShieldedV6Transaction} (h : V6Run B cfg num time tx e ledger w w')
include h

theorem V6Run.transition :
    ∀ t ∈ ledger, ledgerTransition w.st assetTKM (if e.deposit then tx.value else 0) e.withdrawal 0 = .ok t := by
  have hl := h.totals
  unfold v6Ledger at hl
  split at hl
  · obtain ⟨t, ht, rfl⟩ := except_map_ok.mp hl
    simpa using except_mapError_ok.mp ht
  · cases hl
    simp

theorem V6Run.closed (hnone : ledger = none) : e.deposit = false ∧ e.withdrawal = 0 := by
  have hl := h.totals
  unfold v6Ledger at hl
  split at hl
  · obtain ⟨t, _, rfl⟩ := except_map_ok.mp hl
    cases hnone
  · rename_i hno
    simp only [not_or, Bool.not_eq_true] at hno
    have := h.withdrawal
    exact ⟨hno.1, by omega⟩

theorem V6Run.covered : e.withdrawal ≤ w.st.pool := by
  cases hc : ledger with
  | none =>
    have := (h.closed hc).2
    omega
  | some t =>
    obtain ⟨reserve, hf⟩ := ledgerTransition_spec (h.transition t hc)
    have hcov := hf.covered
    have hback := hf.range.backing.1
    have hcap : ledgerCap w.st assetTKM reserve = reserve := if_neg (by decide)
    obtain ⟨records, _, _, hres⟩ := nativeReserve_ok hf.reserve_ok
    have := stakes_nonneg records
    have := (supply_nonneg w.st assetPTKM).1
    rw [hf.next] at hback
    simp only [ConfidentialLedgerTotals.advance] at hback
    cases hd : e.deposit with
    | true =>
      have := h.deposit hd
      omega
    | false =>
      simp only [hd, Bool.false_eq_true, if_false] at hback
      omega

theorem V6Run.settled :
    Settled cfg num time tx (v6Movement tx e ledger) w.st w'.st := by
  refine ⟨applyV6_effect h.withdrawal h.covered (readable_of_transition h.transition) h.applied, .inl rfl, ?_,
    fun _ => h.toPool, h.withdrawal, Int.le_refl 0, fun hc => absurd hc assetTKM_ne, h.transition, fun _ hnone => ?_,
    fun hact => ?_⟩
  · show 0 ≤ (if e.deposit then (tx.value : Int) else 0) ∧ (if e.deposit then (tx.value : Int) else 0) ≤ tx.value
    split <;> omega
  · obtain ⟨hd, hw⟩ := h.closed hnone
    exact ⟨by simp [v6Movement, hd], hw, rfl⟩
  · show ledger = none
    have hl := h.totals
    have hno : ¬ (e.deposit = true ∨ 0 < e.withdrawal) := fun hm => by simp [h.boundary hm] at hact
    rw [v6Ledger, if_neg hno] at hl
    cases hl
    rfl

end

theorem LegacyRun.settled
    (h : LegacyRun B cfg num time tx e ledger w w') : Settled cfg num time tx (legacyMovement e ledger) w.st w'.st := by
  have hl := h.totals
  obtain ⟨intent, sender, _, happ⟩ := h.applied
  have htr : ∀ t ∈ ledger, ledgerTransition w.st assetTKM 0 (publicRelease e) 0 = .ok t := by
    unfold legacyLedger at hl
    split at hl
    · obtain ⟨t, ht, rfl⟩ := except_map_ok.mp hl
      simpa using ht
    · cases hl
      simp
  obtain ⟨hw0, hs0⟩ := release_nonneg e
  refine ⟨applyLegacy_effect h.release (readable_of_transition htr) happ, .inl rfl, ⟨Int.le_refl 0, Int.natCast_nonneg _⟩,
    fun hc => absurd rfl hc, Int.add_nonneg hw0 hs0, Int.le_refl 0,
    fun hc => absurd hc assetTKM_ne, htr, fun hact hnone => ?_, fun hact => ?_⟩
  · rw [legacyLedger, if_pos hact] at hl
    obtain ⟨t, _, rfl⟩ := except_map_ok.mp hl
    cases hnone
  · rw [legacyLedger, hact] at hl
    cases hl
    rfl

theorem Accepted.settled (h : Accepted B cfg num time tx w w') : ∃ m, Settled cfg num time tx m w.st w'.st := by
  cases h with
  | idle _ h =>
    let m : Movement := ⟨assetTKM, 0, 0, 0, none⟩
    have heff : m.Effect w.st w'.st := ((Pays.of_frame h.passive).prepared (Movement.minted_native rfl)).effect (.inl rfl)
      nofun (Pays.of_frame Frame.rfl) rfl
    exact ⟨m, heff, .inl rfl, ⟨Int.le_refl 0, Int.natCast_nonneg _⟩, fun hc => absurd rfl hc, Int.le_refl 0,
      Int.le_refl 0, fun _ => rfl, nofun, fun _ _ => ⟨rfl, rfl, rfl⟩, fun _ => rfl⟩
  | note e l link _ _ h =>
    obtain ⟨ledger, hs⟩ := h.settled
    exact ⟨_, hs⟩
  | v6 e ledger _ h => exact ⟨_, h.settled⟩
  | legacy e ledger _ h => exact ⟨_, h.settled⟩

end TkmChain
