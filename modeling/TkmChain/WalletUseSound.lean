import TkmChain.WalletScanSound
import TkmChain.WalletSelectionSound

/-!
# When a wallet can be used

Against a node that serves one state the scan is a walk over the outputs of the accumulator.
It ends when no output of the wallet carries a note that does not open it. Then a payment is
selected unless a note of amount zero stands among the notes or the amount does not fit.
-/

namespace TkmChain.Shielded6

open List

section
variable {𝔾 : Type} [AddCommGroup 𝔾]

/-! ## Nodes -/

structure Snapshot where
  headHash : Hash
  headNumber : Nat
  accumulator : Hash
  views : List OutputView
  pending : List Hash

structure Honest (C : Curve 𝔾) (chain : Nat) (history : List (Tx × ShieldedV6Transaction)) (s : Snapshot) (node : Node) :
    Prop where
  chainID : node.chainID = .ok chain
  head : node.head = .ok (s.headHash, s.headNumber)
  status : node.status = .ok ⟨some chain, true, s.views.length, (spentImages history).length, s.accumulator⟩
  spentKeyImages : Pages.Serves shieldedV6KeyImagePage node.spentKeyImages (spentImages history)
  pendingKeyImages : node.pendingKeyImages = .ok s.pending
  walletOutputs : Pages.Serves shieldedV6WalletPage node.walletOutputs s.views
  endStatus : node.endStatus = node.status
  endHead : node.endHead = .ok s.headHash
  headHash_ne : s.headHash ≠ 0
  pending_valid : ∀ image ∈ s.pending, ∃ p, C.setBytes image = some p ∧ p ≠ 0
  outputs : s.views.map (fun v => (v.output, v.outputPosition)) = positionedOutputs history
  canonical : ∀ (i : Nat) (v : OutputView), s.views[i]? = some v → v.accumulatorIndex = i ∧ v.blockHash ≠ 0 ∧ v.transactionHash ≠ 0

/-! ## Unspent notes -/

variable (C : Curve 𝔾) (lib : WalletLibrary C) (keys : WalletKeys C)

open Classical in
noncomputable def ownedNote (position index : Nat) (output : ShieldedV6Output) : Option Note :=
  if h : ∃ note, Owns C lib keys position index output note then some h.choose else none

noncomputable def unspentNotes (history : List (Tx × ShieldedV6Transaction)) (pending : List Hash) : List Note :=
  (positionedOutputs history).zipIdx.filterMap fun p =>
    (ownedNote C lib keys p.1.2 p.2 p.1.1).filter fun note => keyImage C lib note ∉ spentImages history ++ pending

variable {C lib keys}
  {history : List (Tx × ShieldedV6Transaction)} {s : Snapshot} {node : Node}

theorem owns_of_ownedNote (h : ownedNote C lib keys position index output = some note) :
    Owns C lib keys position index output note := by
  rw [ownedNote] at h
  split at h
  · rename_i howns
    cases h
    exact howns.choose_spec
  · cases h

theorem view_output (hnode : Honest C keys.chainID history s node) {i : Nat} {view : OutputView}
    (hi : s.views[i]? = some view) :
    (positionedOutputs history)[i]? = some (view.output, view.outputPosition) := by
  rw [← hnode.outputs, getElem?_map, hi]
  rfl

theorem map_filterMap_sublist {α β γ : Type} {f : α → Option β} {g : β → γ} {k : α → γ}
    (h : ∀ a b, f a = some b → g b = k a) (xs : List α) : ((xs.filterMap f).map g).Sublist (xs.map k) := by
  induction xs with
  | nil => exact List.Sublist.slnil
  | cons x xs ih =>
    rw [filterMap_cons, map_cons]
    cases hx : f x with
    | none => exact ih.cons _
    | some y =>
      rw [map_cons, h x y hx]
      exact ih.cons_cons _

theorem mem_unspentNotes {pending : List Hash} (h : note ∈ unspentNotes C lib keys history pending) :
    ∃ position index output, Owns C lib keys position index output note := by
  obtain ⟨p, -, hp⟩ := mem_filterMap.mp h
  exact ⟨_, _, _, owns_of_ownedNote (Option.filter_eq_some_iff.mp hp).1⟩

theorem unspentNotes_fromWallet (pending : List Hash) :
    FromWallet keys.chainID (unspentNotes C lib keys history pending) where
  chain_ne := keys.chainID_ne
  chainID note hmem := by
    obtain ⟨_, _, _, _, _, _, -, -, rfl⟩ := mem_unspentNotes hmem
    rfl
  assetID note hmem := by
    obtain ⟨_, _, _, _, _, plaintext, -, hcarries, rfl⟩ := mem_unspentNotes hmem
    exact hcarries.assetID
  amount_lt note hmem := by
    obtain ⟨_, _, _, _, _, plaintext, -, -, rfl⟩ := mem_unspentNotes hmem
    exact plaintext.amount.isLt
  nodup := by
    have hindices := map_filterMap_sublist (g := Note.index) (k := Prod.snd) (f := fun p : (ShieldedV6Output × Nat) × Nat =>
      (ownedNote C lib keys p.1.2 p.2 p.1.1).filter fun note => keyImage C lib note ∉ spentImages history ++ pending)
      (by
        intro p note hp
        obtain ⟨_, _, _, -, -, rfl⟩ := owns_of_ownedNote (Option.filter_eq_some_iff.mp hp).1
        rfl) (positionedOutputs history).zipIdx
    refine hindices.nodup ?_
    rw [zipIdx_map_snd]
    exact nodup_range'

variable [DecidableEq 𝔾]

theorem scanOutput_ownedNote (hw : Wellformed C output) (horder : groupOrder • C.generators.G = 0)
    (h : Harmless C lib keys position output) :
    scanOutput C lib keys position index output = .ok (ownedNote C lib keys position index output) := by
  rw [ownedNote]
  split
  · rename_i howns
    exact (scanOutput_owns hw horder).mpr howns.choose_spec
  · rename_i hnone
    obtain ⟨found, hfound⟩ : ∃ found, scanOutput C lib keys position index output = .ok found :=
      (scanOutput_harmless hw horder).mpr h
    cases found with
    | none => exact hfound
    | some note => exact absurd ⟨note, (scanOutput_owns hw horder).mp hfound⟩ hnone

/-! ## The scan -/

section
variable {images : List Hash} (hvalid : ∀ image ∈ images, ∃ p, C.setBytes image = some p ∧ p ≠ 0)
include hvalid

theorem walk_spentImage (hnodup : images.Nodup) (hnew : ∀ image ∈ images, image ∉ spent) (i : Nat) :
    Pages.walk (spentImage C) i images spent = .ok (images.reverse ++ spent) := by
  induction images generalizing i spent with
  | nil => rfl
  | cons image rest ih =>
    obtain ⟨⟨p, hp⟩, hrest⟩ := forall_mem_cons.mp hvalid
    obtain ⟨hnotin, hnodup⟩ := nodup_cons.mp hnodup
    obtain ⟨himage, hnew⟩ := forall_mem_cons.mp hnew
    have hdecode : decodePoint C image false = .ok p := decodePoint_false_ok.mpr hp
    have hfresh : ∀ other ∈ rest, other ∉ image :: spent := by
      intro other hmem hin
      cases mem_cons.mp hin with
      | inl heq => exact hnotin (heq ▸ hmem)
      | inr hin => exact hnew other hmem hin
    have hwalk := ih hrest hnodup hfresh (i + 1)
    simp only [Pages.walk, spentImage, validateKeyImage, failIf, hdecode, Except.isOk, Except.toBool, Bool.true_eq_false,
      if_false, if_neg himage, bind, Except.bind, pure, Except.pure, hwalk, reverse_cons, append_assoc,
      cons_append, nil_append]

theorem walk_pendingImage (i : Nat) :
    Pages.walk (pendingImage C) i images spent = .ok (images.reverse ++ spent) := by
  induction images generalizing i spent with
  | nil => rfl
  | cons image rest ih =>
    obtain ⟨⟨p, hp⟩, hrest⟩ := forall_mem_cons.mp hvalid
    have hdecode : decodePoint C image false = .ok p := decodePoint_false_ok.mpr hp
    have hwalk : Pages.walk (pendingImage C) (i + 1) rest (image :: spent) = .ok (rest.reverse ++ image :: spent) :=
      ih hrest (i + 1)
    simp only [Pages.walk, pendingImage, validateKeyImage, failIf, hdecode, Except.isOk, Except.toBool, Bool.true_eq_false,
      if_false, bind, Except.bind, pure, Except.pure, hwalk, reverse_cons, append_assoc, cons_append,
      nil_append]

end

noncomputable def unspentNote (C : Curve 𝔾) (lib : WalletLibrary C) (keys : WalletKeys C) (spent : List Hash) (index : Nat)
    (view : OutputView) : Option ShieldedV6OwnedNote :=
  ((ownedNote C lib keys view.outputPosition index view.output).filter fun note => keyImage C lib note ∉ spent).map
    fun note => ⟨note, view.transactionHash, view.blockNumber⟩

theorem scanView_unspentNote {view : OutputView} (hw : Wellformed C view.output) (horder : groupOrder • C.generators.G = 0)
    (hcanonical : view.accumulatorIndex = index ∧ view.blockHash ≠ 0 ∧ view.transactionHash ≠ 0)
    (h : Harmless C lib keys view.outputPosition view.output) :
    scanView C lib keys spent index view = .ok (unspentNote C lib keys spent index view) := by
  obtain ⟨rfl, hblock, htx⟩ := hcanonical
  have hrecord : ¬ (view.accumulatorIndex ≠ view.accumulatorIndex ∨ view.blockHash = 0 ∨ view.transactionHash = 0) :=
    not_or.mpr ⟨not_not.mpr rfl, not_or.mpr ⟨hblock, htx⟩⟩
  have hsize : ¬ (view.output.encryptedNote = [] ∨ shieldedV6MaxCiphertext < view.output.encryptedNote.length) :=
    not_or.mpr ⟨hw.size.1, Nat.not_lt.mpr hw.size.2⟩
  simp only [scanView, failIf, if_neg hrecord, if_neg hsize, scanOutput_ownedNote hw horder h, Except.mapError, bind,
    Except.bind, unspentNote]
  cases hnote : ownedNote C lib keys view.outputPosition view.accumulatorIndex view.output with
  | none => rfl
  | some note =>
    have himage := (owns_of_ownedNote hnote).deriveKeyImage hw horder
    by_cases hspent : keyImage C lib note ∈ spent
    · simp [himage, hspent, pure, Except.pure]
    · simp [himage, hspent, pure, Except.pure]

theorem harmless_of_scanView (hw : Wellformed C view.output)
    (horder : groupOrder • C.generators.G = 0) (h : scanView C lib keys spent index view = .ok found) :
    Harmless C lib keys view.outputPosition view.output := by
  simp only [scanView, ok_rules] at h
  obtain ⟨-, -, -, -, found, hfound, -⟩ := h
  exact (scanOutput_harmless hw horder).mp ⟨found, hfound⟩

def scannedImages (history : List (Tx × ShieldedV6Transaction)) (s : Snapshot) : List Hash :=
  s.pending.reverse ++ (spentImages history).reverse

section
variable (hnode : Honest C keys.chainID history s node) (hnodup : (spentImages history).Nodup)
  (hvalid : ∀ image ∈ spentImages history, ∃ p, C.setBytes image = some p ∧ p ≠ 0)
include hnode hnodup hvalid

theorem scanShieldedV6_eq :
    scanShieldedV6 C lib keys node =
      (Pages.walk (Pages.collect (scanView C lib keys (scannedImages history s))) 0 s.views []).map
        fun notes => ⟨s.views.length, s.accumulator, s.headHash, s.headNumber, (notes.map (·.note.amount)).sum, notes⟩ := by
  have hspent : Pages.walk (spentImage C) 0 (spentImages history) [] = .ok ((spentImages history).reverse ++ []) :=
    walk_spentImage hvalid hnodup (fun _ _ => not_mem_nil) 0
  have hpending : Pages.walk (pendingImage C) 0 s.pending (spentImages history).reverse = .ok (scannedImages history s) :=
    walk_pendingImage hnode.pending_valid 0
  have hreply (text : String → String) : (Except.ok s.pending).mapError text = .ok s.pending := rfl
  rw [append_nil] at hspent
  simp only [scanShieldedV6, hnode.chainID, hnode.head, hnode.endStatus, hnode.status, hnode.pendingKeyImages, hnode.endHead,
    Pages.fetchAll_eq_walk (by decide) (hnode.spentKeyImages.mapError _), hspent, hpending,
    Pages.fetchAll_eq_walk (by decide) (hnode.walletOutputs.mapError _), failIf, hnode.headHash_ne, hreply, bind,
    Except.bind, ne_eq, not_true_eq_false, Bool.true_eq_false, or_self, if_false]
  cases Pages.walk (Pages.collect (scanView C lib keys (scannedImages history s))) 0 s.views [] with
  | error e => rfl
  | ok notes => rfl

theorem scanShieldedV6_harmless (hw : ∀ p ∈ positionedOutputs history, Wellformed C p.1) (horder : groupOrder • C.generators.G = 0)
    {result : ShieldedV6ScanResult} (h : scanShieldedV6 C lib keys node = .ok result) :
    ∀ p ∈ positionedOutputs history, Harmless C lib keys p.2 p.1 := by
  rw [scanShieldedV6_eq hnode hnodup hvalid, except_map_ok] at h
  obtain ⟨notes, hwalk, -⟩ := h
  intro p hp
  rw [← hnode.outputs, mem_map] at hp
  obtain ⟨view, hview, rfl⟩ := hp
  obtain ⟨i, hi⟩ := mem_iff_getElem?.mp hview
  obtain ⟨found, hfound⟩ := Pages.item_of_walk_collect hwalk hi
  exact harmless_of_scanView (hw _ (mem_of_getElem? (view_output hnode hi))) horder hfound

theorem scanShieldedV6_unspent (hw : ∀ p ∈ positionedOutputs history, Wellformed C p.1) (horder : groupOrder • C.generators.G = 0)
    (h : ∀ p ∈ positionedOutputs history, Harmless C lib keys p.2 p.1) :
    ∃ result, scanShieldedV6 C lib keys node = .ok result ∧
      result.notes.map (·.note) = unspentNotes C lib keys history s.pending := by
  have hitem : ∀ i view, s.views[i]? = some view → scanView C lib keys (scannedImages history s) (0 + i) view =
      .ok (unspentNote C lib keys (scannedImages history s) (0 + i) view) := by
    intro i view hi
    have hmem := mem_of_getElem? (view_output hnode hi)
    rw [Nat.zero_add]
    exact scanView_unspentNote (hw _ hmem) horder (hnode.canonical i view hi) (h _ hmem)
  have hwalk := Pages.walk_collect (unspentNote C lib keys (scannedImages history s)) 0 [] hitem
  rw [scanShieldedV6_eq hnode hnodup hvalid, hwalk]
  refine ⟨_, rfl, ?_⟩
  rw [nil_append, map_filterMap, unspentNotes, ← hnode.outputs, zipIdx_map, filterMap_map]
  apply filterMap_congr
  intro p _
  have himages (image : Hash) : image ∈ scannedImages history s ↔ image ∈ spentImages history ++ s.pending := by
    simp [scannedImages, or_comm]
  simp only [unspentNote, Option.map_map, himages, Function.comp_def]
  exact Option.map_id'

end

end

/-- A wallet can scan and pay if and only if each output addressed to it carries a note that opens it, and, when it has a
positive note, none of its unspent notes is zero and what its notes cover fits 128 bits. -/
theorem wallet_usable_iff {𝔾 : Type} [AddCommGroup 𝔾] [DecidableEq 𝔾] (C : Curve 𝔾) (lib : WalletLibrary C)
    (keys : WalletKeys C) (B : Backend) (hB : CurveBackend B C) (horder : groupOrder • C.generators.G = 0) {w₀ w : World}
    {history : List (Tx × ShieldedV6Transaction)} (hstart : ∀ r key, w₀.st.storage (.v6 r key) = 0)
    (hsteps : V6Steps B w₀ history w) {s : Snapshot} {node : Node} (hnode : Honest C keys.chainID history s node) :
    (∃ result, scanShieldedV6 C lib keys node = .ok result ∧
        ∀ amount, 0 < amount → Covered (unspentNotes C lib keys history s.pending) amount →
          ∃ chosen, selectShieldedV6Notes result.notes amount = .ok chosen) ↔
      (∀ p ∈ positionedOutputs history, Harmless C lib keys p.2 p.1) ∧
        ((∀ note ∈ unspentNotes C lib keys history s.pending, note.amount = 0) ∨
          (∀ note ∈ unspentNotes C lib keys history s.pending, 0 < note.amount) ∧
            ∀ amount, Covered (unspentNotes C lib keys history s.pending) amount → amount < 2 ^ 128) := by
  obtain ⟨-, himages⟩ := hsteps.keep (Accumulator.nil hstart) (KeyImages.nil hstart)
  rw [nil_append] at himages
  have hnodup : (spentImages history).Nodup := spentRecords_images history ▸ himages.nodup
  have hvalid : ∀ image ∈ spentImages history, ∃ p, C.setBytes image = some p ∧ p ≠ 0 := by
    rw [← spentRecords_images]
    intro image hmem
    obtain ⟨record, hrecord, rfl⟩ := mem_map.mp hmem
    exact hB.point (himages.valid record hrecord)
  have hw := positionedOutputs_wellformed hB hsteps
  constructor
  · rintro ⟨result, hscan, hselect⟩
    have hharmless := scanShieldedV6_harmless hnode hnodup hvalid hw horder hscan
    refine ⟨hharmless, ?_⟩
    obtain ⟨result', hscan', hnotes⟩ := scanShieldedV6_unspent hnode hnodup hvalid hw horder hharmless
    obtain rfl : result = result' := Except.ok.inj (hscan.symm.trans hscan')
    by_cases hzero : ∀ note ∈ unspentNotes C lib keys history s.pending, note.amount = 0
    · exact .inl hzero
    · -- a positive note can be paid with, so the selection has looked at all notes
      obtain ⟨note, hnote⟩ := not_forall.mp hzero
      obtain ⟨hmem, hne⟩ := Classical.not_imp.mp hnote
      have hpos := Nat.pos_of_ne_zero hne
      have hcovered : Covered (unspentNotes C lib keys history s.pending) note.amount :=
        ⟨[note], singleton_sublist.mpr hmem, by simp [shieldedV6MaxInputs], by simpa using hpos, by simp⟩
      obtain ⟨chosen, hchosen⟩ := hselect note.amount hpos hcovered
      refine .inr ⟨hnotes ▸ (selectShieldedV6Notes_pos hchosen).2, ?_⟩
      intro amount hcovered
      by_cases hamount : amount = 0
      · rw [hamount]
        decide
      · obtain ⟨chosen, hchosen⟩ := hselect amount (Nat.pos_of_ne_zero hamount) hcovered
        exact (selectShieldedV6Notes_pos hchosen).1
  · rintro ⟨hharmless, hamounts⟩
    obtain ⟨result, hscan, hnotes⟩ := scanShieldedV6_unspent hnode hnodup hvalid hw horder hharmless
    refine ⟨result, hscan, ?_⟩
    intro amount hpos hcovered
    cases hamounts with
    | inl hzero =>
      -- no positive note covers a positive amount
      obtain ⟨chosen, hsub, -, hchosen, hsum⟩ := hcovered
      have hnil : chosen = [] := by
        apply eq_nil_iff_forall_not_mem.mpr
        intro note hmem
        exact (hchosen note hmem).ne' (hzero note (hsub.subset hmem))
      rw [hnil, map_nil, sum_nil] at hsum
      omega
    | inr h =>
      exact selectShieldedV6Notes_covered hnotes (unspentNotes_fromWallet s.pending) h.1 hpos (h.2 amount hcovered) hcovered

/-! ## Numbers modulo the order -/

structure Residue where
  val : Fin groupOrder
  deriving DecidableEq

namespace Residue

instance : Zero Residue := ⟨⟨0⟩⟩

instance : Add Residue := ⟨fun a b => ⟨a.val + b.val⟩⟩

instance : Neg Residue := ⟨fun a => ⟨-a.val⟩⟩

instance : Sub Residue := ⟨fun a b => ⟨a.val - b.val⟩⟩

instance : SMul ℕ Residue := ⟨fun n a => ⟨Fin.ofNat groupOrder (n * a.val)⟩⟩

instance : SMul ℤ Residue where
  smul n a := match n with
    | .ofNat n => n • a
    | .negSucc n => -((n + 1) • a)

def toFin (a : Residue) : Fin groupOrder := a.val

open Fin.CommRing in
theorem toFin_nsmul (n : ℕ) (a : Residue) : toFin (n • a) = n • toFin a := by
  rw [nsmul_eq_mul]
  apply Fin.ext
  change n * a.val.val % groupOrder = (n % groupOrder) * a.val.val % groupOrder
  rw [Nat.mod_mul_mod]

theorem toFin_zsmul (n : ℤ) (a : Residue) : toFin (n • a) = n • toFin a := by
  cases n with
  | ofNat n => exact (toFin_nsmul n a).trans (natCast_zsmul _ n).symm
  | negSucc n => exact (congrArg Neg.neg (toFin_nsmul (n + 1) a)).trans (negSucc_zsmul _ n).symm

instance : AddCommGroup Residue :=
  Function.Injective.addCommGroup toFin (fun ⟨_⟩ ⟨_⟩ h => congrArg mk h) rfl (fun _ _ => rfl) (fun _ => rfl) (fun _ _ => rfl)
    (fun a n => toFin_nsmul n a) fun a n => toFin_zsmul n a

end Residue

def residue (n : Nat) : Residue := ⟨Fin.ofNat groupOrder n⟩

def scalarHash (n : Nat) : Hash := Hash.ofBytes (Bytes.be 32 n).reverse

def residueCurve : Curve Residue where
  setBytes h := if h.toNat < groupOrder then some (residue h.toNat) else none
  bytes p := BitVec.ofNat 256 p.val
  setBytes_bytes p := by
    have hlt := p.val.isLt
    have hbytes : (BitVec.ofNat 256 p.val.val).toNat = p.val.val := by
      rw [BitVec.toNat_ofNat]
      exact Nat.mod_eq_of_lt (hlt.trans (by decide))
    rw [hbytes, if_pos hlt]
    exact congrArg (fun v => some (Residue.mk v)) (Fin.ext (Nat.mod_eq_of_lt hlt))
  generators := ⟨residue 1, residue 2⟩
  verifyAggregate _ _ _ := true

def residueLibrary : WalletLibrary residueCurve where
  tweakMaterial _ _ position _ := scalarHash (position % 2 + 1)
  outputAAD _ _ _ := []
  aeadOpen _ _ _ _ ciphertext _ := some ciphertext
  decodeNote
    | [amount, position] => some ⟨shield6NoteVersion, List.replicate nonceSizeX 0, amount :: position :: List.replicate 16 0⟩
    | _ => none
  decodePlaintext
    | amount :: position :: _ => some ⟨shield6NoteVersion, mainnetChainID, assetTKM, position.toNat,
        BitVec.ofNat 128 amount.toNat, scalarHash (2 ^ 64 + 1), scalarHash 1, scalarHash 1⟩
    | _ => none
  hashToPoint _ := residue 1
  tweak_found _ _ position := by
    refine ⟨0, by decide, position % 2 + 1, ?_, by omega⟩
    cases Nat.mod_two_eq_zero_or_one position with
    | inl h => rw [h]; decide +kernel
    | inr h => rw [h]; decide +kernel
  hashToPoint_free _ secret hne hlt h := by
    have hval : secret * 1 % groupOrder = 0 := congrArg (fun r : Residue => r.val.val) h
    rw [Nat.mul_one, Nat.mod_eq_of_lt hlt] at hval
    exact hne hval

def residueKeys : WalletKeys residueCurve where
  chainID := mainnetChainID
  spendSecret := scalarHash 1
  viewSecret := scalarHash 1
  spendPublic := 1
  spend := 1
  view := 1
  chainID_ne := by decide
  spend_ok := by decide +kernel
  view_ok := by decide +kernel
  spendPublic_eq := by decide +kernel
  spend_free := by decide +kernel
  view_free p h := by rwa [one_nsmul] at h

def residueOutput (position amount : Nat) (note : Bytes) : ShieldedV6Output where
  oneTimeKey := BitVec.ofNat 256 (position + 2)
  ephemeralKey := 1
  commitment := BitVec.ofNat 256 (1 + 2 * amount + 2 ^ 64)
  amountLimbs := (BitVec.ofNat 256 (1 + 2 * amount), 1)
  encryptedNote := note

def foreignOutputs : Nat → List ShieldedV6Output
  | 0 => [residueOutput 0 5 [255]]
  | _ => [residueOutput 0 5 [5, 0], residueOutput 1 0 [0, 1]]

def foreignEnvelope (n : Nat) : ShieldedV6Transaction where
  version := 6
  assetID := assetTKM
  deposit := true
  depositMask := scalarHash ((n + 1) * (2 ^ 64 + 1))
  withdrawalRecipient := 0
  withdrawalValue := none
  inputs := []
  outputs := foreignOutputs n
  rangeProof := [194, 1, 1]
  recipients := none
  binding := none
  validUntil := 0

def residueBackend : Backend := { ringBackend with
  decodeV6 := fun body => some (foreignEnvelope body.length)
  validPublicKey := fun key => (decodePoint residueCurve key false).isOk
  validCommitment := fun key => (decodePoint residueCurve key false).isOk
  verifyRange128 := fun outputs proof => verifyRangeProof128 residueCurve (outputs.map fun o => ⟨o.1, o.2.1, o.2.2⟩) proof
  verifyDeposit := fun outputs amount mask => verifyDepositCommitment residueCurve outputs amount mask
  verifyBalance128 := verifyCommitmentBalance128 residueCurve }

theorem residueBackend_curve : CurveBackend residueBackend residueCurve :=
  ⟨fun _ => rfl, fun _ _ => rfl, fun _ _ _ => rfl, fun _ _ _ => rfl⟩

def foreignHistory (n : Nat) : List (Tx × ShieldedV6Transaction) := [(ringTx n 5, foreignEnvelope n)]

def foreignSnapshot (n : Nat) : Snapshot where
  headHash := 1
  headNumber := 1
  accumulator := 0
  views := (foreignOutputs n).zipIdx.map fun p => ⟨p.2, p.2, 1, 1, 1, p.1⟩
  pending := []

def foreignNode (n : Nat) : Node where
  chainID := .ok mainnetChainID
  head := .ok (1, 1)
  status := .ok ⟨some mainnetChainID, true, (foreignSnapshot n).views.length, 0, 0⟩
  spentKeyImages _ _ := .ok []
  pendingKeyImages := .ok []
  walletOutputs start limit := .ok (((foreignSnapshot n).views.drop start).take limit)
  endStatus := .ok ⟨some mainnetChainID, true, (foreignSnapshot n).views.length, 0, 0⟩
  endHead := .ok 1

theorem foreignNode_honest (n : Nat) :
    Honest residueCurve residueKeys.chainID (foreignHistory n) (foreignSnapshot n) (foreignNode n) where
  chainID := rfl
  head := rfl
  status := rfl
  spentKeyImages start limit hpos _ hlength := by
    have hnil : (spentImages (foreignHistory n)).length = 0 := rfl
    omega
  pendingKeyImages := rfl
  walletOutputs _ _ _ _ _ := rfl
  endStatus := rfl
  endHead := rfl
  headHash_ne := (by decide : (1 : Hash) ≠ 0)
  pending_valid := nofun
  outputs := by
    simp only [foreignSnapshot, map_map, positionedOutputs, foreignHistory, flatMap_singleton]
    exact map_id _
  canonical i v h := by
    simp only [foreignSnapshot, getElem?_map, getElem?_zipIdx, Option.map_map, Option.map_eq_some_iff] at h
    obtain ⟨output, -, rfl⟩ := h
    exact ⟨Nat.zero_add i, (by decide : (1 : Hash) ≠ 0), (by decide : (1 : Hash) ≠ 0)⟩

theorem foreign_start (r : V6Role) (key : Bytes) : (wrappedPool 20).st.storage (.v6 r key) = 0 := by
  have hasset : assetSlot assetPTKM .supply [] = .v3Asset assetPTKM .supply [] := by decide
  simp [wrappedPool, hasset, stampAddressSlot, shieldedMerkleRootSlot]

theorem foreign_accepted (n : Nat) (hd : decodeShieldedV6Transaction residueBackend (ringTx n 5).data = .ok (some (foreignEnvelope n)))
    (h : (processShieldedV6 residueBackend ringConfig 1 mainnetShieldedV2Time (ringTx n 5) (wrappedPool 20)).1.isOk = true) :
    ∃ w, V6Steps residueBackend (wrappedPool 20) (foreignHistory n) w :=
  ⟨_, .accepted ringConfig 1 mainnetShieldedV2Time (.refl _) hd (Proc.ok_of_isOk h)⟩

theorem scan_foreign_malformed : scanShieldedV6 residueCurve residueLibrary residueKeys (foreignNode 0) =
    .error "scan Shield6 output 0: shield6: invalid wallet output" := by
  decide +kernel

theorem wallet_usable_iff_foreign : ¬ ((∀ p ∈ positionedOutputs (foreignHistory 0),
      Harmless residueCurve residueLibrary residueKeys p.2 p.1) ∧
    ((∀ note ∈ unspentNotes residueCurve residueLibrary residueKeys (foreignHistory 0) [], note.amount = 0) ∨
      (∀ note ∈ unspentNotes residueCurve residueLibrary residueKeys (foreignHistory 0) [], 0 < note.amount) ∧
        ∀ amount, Covered (unspentNotes residueCurve residueLibrary residueKeys (foreignHistory 0) []) amount →
          amount < 2 ^ 128)) := by
  intro h
  obtain ⟨w, hsteps⟩ := foreign_accepted 0 rfl (by decide +kernel)
  obtain ⟨result, hscan, -⟩ := (wallet_usable_iff residueCurve residueLibrary residueKeys residueBackend residueBackend_curve
    (by decide +kernel) foreign_start hsteps (foreignNode_honest 0)).mpr h
  rw [scan_foreign_malformed] at hscan
  cases hscan

def foreignNote (position amount : Nat) : Note :=
  ⟨mainnetChainID, assetTKM, position, amount, scalarHash (2 ^ 64 + 1), (scalarHash 1, scalarHash 1), position + 2⟩

/-- Deposits of others whose note cannot be read, or of nothing, are accepted. The first stops the scan of the wallet it
is addressed to, the second every payment of the wallet. -/
theorem foreign_outputs_disable :
    (∃ w, V6Steps residueBackend (wrappedPool 20) (foreignHistory 0) w) ∧
      Honest residueCurve residueKeys.chainID (foreignHistory 0) (foreignSnapshot 0) (foreignNode 0) ∧
      scanShieldedV6 residueCurve residueLibrary residueKeys (foreignNode 0) =
        .error "scan Shield6 output 0: shield6: invalid wallet output" ∧
    (∃ w, V6Steps residueBackend (wrappedPool 20) (foreignHistory 1) w) ∧
      Honest residueCurve residueKeys.chainID (foreignHistory 1) (foreignSnapshot 1) (foreignNode 1) ∧
      ∃ result, scanShieldedV6 residueCurve residueLibrary residueKeys (foreignNode 1) = .ok result ∧
        result.notes.map (·.note) = [foreignNote 0 5, foreignNote 1 0] ∧
        selectShieldedV6Notes result.notes 5 = .error "invalid Shield6 spendable note" := by
  refine ⟨foreign_accepted 0 rfl (by decide +kernel), foreignNode_honest 0, scan_foreign_malformed,
    foreign_accepted 1 rfl (by decide +kernel), foreignNode_honest 1,
    ⟨2, 0, 1, 1, 5, [⟨foreignNote 0 5, 1, 1⟩, ⟨foreignNote 1 0, 1, 1⟩]⟩, by decide +kernel, rfl, by decide +kernel⟩

end TkmChain.Shielded6
