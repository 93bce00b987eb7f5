import TkmChain.KeyImageSound
import TkmChain.RingCTSound
import TkmChain.WalletScan

/-!
# What a wallet finds

An output belongs to a wallet when its key is the wallet's key moved by a tweak of the shared
point. The scan fails on such an output when its note does not open it, and it finds the notes
of all others. Consensus sees to the points and the limbs of outputs, not to their notes.
-/

namespace TkmChain.Shielded6

open List

section
variable {𝔾 : Type} [AddCommGroup 𝔾] (C : Curve 𝔾) (lib : WalletLibrary C) (keys : WalletKeys C)

/-! ## Notes of a wallet -/

def IsTweak (material : Nat → Hash) (tweak : Nat) : Prop :=
  ∃ counter < 2 ^ 32, decodeScalar (material counter) = .ok tweak ∧ tweak ≠ 0 ∧
    ∀ earlier < counter, ∀ t, decodeScalar (material earlier) = .ok t → t = 0

/-- The key of the output is the wallet's, moved by the tweak of the point it shares with the sender. -/
structure Addressed (position : Nat) (output : ShieldedV6Output) (shared : Hash) (tweak : Nat) : Prop where
  shared_eq : ∃ ephemeral, C.setBytes output.ephemeralKey = some ephemeral ∧ shared = C.bytes (keys.view • ephemeral)
  tweak_eq : IsTweak (lib.tweakMaterial shared keys.chainID position) tweak
  oneTimeKey : output.oneTimeKey = C.bytes ((keys.spend + tweak) • C.generators.G)

def Commits (mask : Hash) (amount : Nat) (encoded : Hash) : Prop :=
  ∃ scalar, decodeScalar mask = .ok scalar ∧ C.bytes (C.generators.commit scalar amount) = encoded

def Encrypts (shared : Hash) (position : Nat) (output : ShieldedV6Output) (plaintext : NotePlaintext) : Prop :=
  ∃ encrypted bytes, lib.decodeNote output.encryptedNote = some encrypted ∧ encrypted.version = shield6NoteVersion ∧
    encrypted.nonce.length = nonceSizeX ∧ aeadOverhead ≤ encrypted.ciphertext.length ∧
    lib.aeadOpen shared keys.chainID position encrypted.nonce encrypted.ciphertext
      (lib.outputAAD keys.chainID position output) = some bytes ∧ lib.decodePlaintext bytes = some plaintext

structure Carries (shared : Hash) (position : Nat) (output : ShieldedV6Output) (plaintext : NotePlaintext) : Prop where
  encrypts : Encrypts C lib keys shared position output plaintext
  version : plaintext.version = shield6NoteVersion
  chainID : plaintext.chainID = keys.chainID
  outputPosition : plaintext.outputPosition = position
  assetID : plaintext.assetID = assetTKM
  commitment : Commits C plaintext.mask plaintext.amount.toNat output.commitment
  low : Commits C plaintext.limbMasks.1 (plaintext.amount.toNat % 2 ^ 64) output.amountLimbs.1
  high : Commits C plaintext.limbMasks.2 (plaintext.amount.toNat / 2 ^ 64) output.amountLimbs.2

def ownNote (tweak index : Nat) (plaintext : NotePlaintext) : Note where
  chainID := keys.chainID
  assetID := plaintext.assetID
  index := index
  amount := plaintext.amount.toNat
  mask := plaintext.mask
  limbMasks := plaintext.limbMasks
  spendSecret := (keys.spend + tweak) % groupOrder

def Owns (position index : Nat) (output : ShieldedV6Output) (note : Note) : Prop :=
  ∃ shared tweak plaintext, Addressed C lib keys position output shared tweak ∧
    Carries C lib keys shared position output plaintext ∧ note = ownNote C keys tweak index plaintext

def Harmless (position : Nat) (output : ShieldedV6Output) : Prop :=
  ∀ shared tweak, Addressed C lib keys position output shared tweak →
    ∃ plaintext, Carries C lib keys shared position output plaintext

structure Wellformed (output : ShieldedV6Output) : Prop where
  size : output.encryptedNote ≠ [] ∧ output.encryptedNote.length ≤ shieldedV6MaxCiphertext
  oneTimeKey : ∃ p, C.setBytes output.oneTimeKey = some p ∧ p ≠ 0
  ephemeralKey : ∃ p, C.setBytes output.ephemeralKey = some p ∧ p ≠ 0
  commitment : ∃ p, C.setBytes output.commitment = some p ∧ p ≠ 0
  limbs : ∃ low high, C.setBytes output.amountLimbs.1 = some low ∧ C.setBytes output.amountLimbs.2 = some high ∧
    output.commitment = C.bytes (low + two64Scalar • high)

/-! ## One output -/

variable {C lib keys}
  {plaintext : NotePlaintext} {note : Note}

theorem searchTweak_ok (h : searchTweak material fuel counter = .ok tweak) :
    ∃ later, counter ≤ later ∧ later < counter + fuel ∧ decodeScalar (material later) = .ok tweak ∧ tweak ≠ 0 ∧
      ∀ earlier, counter ≤ earlier → earlier < later → ∀ t, decodeScalar (material earlier) = .ok t → t = 0 := by
  induction fuel generalizing counter with
  | zero => cases h
  | succ fuel ih =>
    rw [searchTweak] at h
    -- either this counter yields the tweak, or it yields no scalar but zero
    have hnext (hzero : ∀ t, decodeScalar (material counter) = .ok t → t = 0)
        (hrest : searchTweak material fuel (counter + 1) = .ok tweak) :
        ∃ later, counter ≤ later ∧ later < counter + (fuel + 1) ∧ decodeScalar (material later) = .ok tweak ∧ tweak ≠ 0 ∧
          ∀ earlier, counter ≤ earlier → earlier < later → ∀ t, decodeScalar (material earlier) = .ok t → t = 0 := by
      obtain ⟨later, hle, hlt, hok, hne, hearlier⟩ := ih hrest
      refine ⟨later, by omega, by omega, hok, hne, ?_⟩
      intro earlier hfrom hto
      by_cases heq : earlier = counter
      · rw [heq]
        exact hzero
      · exact hearlier earlier (by omega) hto
    cases hscalar : decodeScalar (material counter) with
    | error e =>
      rw [hscalar] at h
      exact hnext (by rw [hscalar]; nofun) h
    | ok t =>
      simp only [hscalar] at h
      split at h
      · cases h
        exact ⟨counter, le_refl _, by omega, hscalar, ‹_›, fun earlier hfrom hto => absurd hfrom (by omega)⟩
      · refine hnext ?_ h
        intro t' ht'
        rw [hscalar] at ht'
        cases ht'
        exact not_not.mp ‹_›

theorem searchTweak_found (hle : counter ≤ later)
    (hlt : later < counter + fuel) (hok : decodeScalar (material later) = .ok t) (hne : t ≠ 0) :
    ∃ tweak, searchTweak material fuel counter = .ok tweak := by
  induction fuel generalizing counter with
  | zero => omega
  | succ fuel ih =>
    rw [searchTweak]
    by_cases heq : counter = later
    · rw [heq, hok]
      exact ⟨t, if_pos hne⟩
    · have hrest : ∃ tweak, searchTweak material fuel (counter + 1) = .ok tweak := ih (by omega) (by omega)
      cases decodeScalar (material counter) with
      | error e => exact hrest
      | ok scalar =>
        by_cases hscalar : scalar ≠ 0
        · exact ⟨scalar, if_pos hscalar⟩
        · simp only [if_neg hscalar]
          exact hrest

theorem IsTweak.unique (h : IsTweak material t) (h' : IsTweak material t') : t = t' := by
  obtain ⟨c, -, hok, hne, hearlier⟩ := h
  obtain ⟨c', -, hok', hne', hearlier'⟩ := h'
  obtain hlt | rfl | hlt := Nat.lt_trichotomy c c'
  · exact absurd (hearlier' c hlt t hok) hne
  · exact Except.ok.inj (hok.symm.trans hok')
  · exact absurd (hearlier c' hlt t' hok') hne'

theorem outputTweak_ok :
    outputTweak C lib shared chainID position = .ok tweak ↔ IsTweak (lib.tweakMaterial shared chainID position) tweak := by
  have hok {t : Nat} (h : outputTweak C lib shared chainID position = .ok t) :
      IsTweak (lib.tweakMaterial shared chainID position) t := by
    obtain ⟨counter, -, hlt, hscalar, hne, hearlier⟩ := searchTweak_ok h
    exact ⟨counter, by omega, hscalar, hne, fun earlier hto => hearlier earlier (Nat.zero_le _) hto⟩
  refine ⟨hok, fun h => ?_⟩
  obtain ⟨counter, hlt, t, hscalar, hne⟩ := lib.tweak_found shared chainID position
  obtain ⟨t', ht'⟩ := searchTweak_found (Nat.zero_le counter) (by omega : counter < 0 + 2 ^ 32) hscalar hne
  rw [h.unique (hok ht')]
  exact ht'

theorem exists_isTweak (lib : WalletLibrary C) (shared : Hash) (chainID position : Nat) :
    ∃ tweak, IsTweak (lib.tweakMaterial shared chainID position) tweak := by
  obtain ⟨counter, hlt, t, hscalar, hne⟩ := lib.tweak_found shared chainID position
  obtain ⟨tweak, htweak⟩ := searchTweak_found (Nat.zero_le counter) (by omega : counter < 0 + 2 ^ 32) hscalar hne
  exact ⟨tweak, outputTweak_ok.mp htweak⟩

theorem Addressed.secret (h : Addressed C lib keys position output shared tweak) (hw : Wellformed C output)
    (horder : groupOrder • C.generators.G = 0) :
    ((keys.spend + tweak) % groupOrder) • C.generators.G ≠ 0 ∧
      output.oneTimeKey = C.bytes (((keys.spend + tweak) % groupOrder) • C.generators.G) := by
  have hmod : ((keys.spend + tweak) % groupOrder) • C.generators.G = (keys.spend + tweak) • C.generators.G :=
    (nsmul_eq_mod_nsmul _ horder).symm
  obtain ⟨p, hp, hne⟩ := hw.oneTimeKey
  rw [h.oneTimeKey, C.setBytes_bytes, Option.some_inj] at hp
  rw [hmod, hp]
  exact ⟨hne, hp ▸ h.oneTimeKey⟩

theorem decryptNote_ok : decryptNote C lib keys shared position output = .ok plaintext ↔
    Encrypts C lib keys shared position output plaintext ∧ plaintext.version = shield6NoteVersion ∧
      plaintext.chainID = keys.chainID ∧ plaintext.outputPosition = position ∧ plaintext.assetID = assetTKM := by
  simp only [decryptNote, Encrypts, ok_rules, not_or, not_not, Nat.not_lt]
  constructor
  · rintro ⟨encrypted, hnote, _, ⟨hversion, hnonce, hsize⟩, bytes, hopen, _, hplain, _, hlabels, rfl⟩
    exact ⟨⟨encrypted, bytes, hnote, hversion, hnonce, hsize, hopen, hplain⟩, hlabels⟩
  · rintro ⟨⟨encrypted, bytes, hnote, hversion, hnonce, hsize, hopen, hplain⟩, hlabels⟩
    exact ⟨encrypted, hnote, (), ⟨hversion, hnonce, hsize⟩, bytes, hopen, plaintext, hplain, (), hlabels, rfl⟩

theorem checkLimb_ok :
    checkLimb C mask amount limb = .ok u ↔ Commits C mask amount limb := by
  simp only [checkLimb, Commits, ok_rules, not_not]

theorem commitment128_ok {amount : BitVec 128} :
    commitment128 C amount.toNat mask = .ok encoded ↔ Commits C mask amount.toNat encoded := by
  have hlt := amount.isLt
  have hrange : ¬ ((amount.toNat : Int) < 0 ∨ 2 ^ 128 ≤ (amount.toNat : Int)) := by omega
  simp only [commitment128, Commits, ok_rules, hrange, not_false_eq_true, exists_const, true_and]

variable [DecidableEq 𝔾]

theorem decodePoint_false_ok : decodePoint C encoded false = .ok p ↔ C.setBytes encoded = some p ∧ p ≠ 0 := by
  simp only [decodePoint, ok_rules, true_and]
  constructor
  · rintro ⟨_, hbytes, _, hne, rfl⟩
    exact ⟨hbytes, hne⟩
  · rintro ⟨hbytes, hne⟩
    exact ⟨p, hbytes, (), hne, rfl⟩

theorem checkOpening_ok {u : Unit} (hw : Wellformed C output) : checkOpening C plaintext output = .ok u ↔
    Commits C plaintext.mask plaintext.amount.toNat output.commitment ∧
      Commits C plaintext.limbMasks.1 (plaintext.amount.toNat % 2 ^ 64) output.amountLimbs.1 ∧
      Commits C plaintext.limbMasks.2 (plaintext.amount.toNat / 2 ^ 64) output.amountLimbs.2 := by
  obtain ⟨low, high, hlow, hhigh, hcombined⟩ := hw.limbs
  have hlimbs : combineAmountLimbs C output.amountLimbs.1 output.amountLimbs.2 = .ok output.commitment := by
    simp [combineAmountLimbs, decodePoint, hlow, hhigh, orFail, failIf, hcombined, bind, Except.bind, pure, Except.pure]
  simp only [checkOpening, ok_rules, not_not, commitment128_ok, checkLimb_ok, hlimbs]
  constructor
  · rintro ⟨_, hcommitment, _, rfl, _, hlow, _, hhigh, -⟩
    exact ⟨hcommitment, hlow, hhigh⟩
  · rintro ⟨hcommitment, hlow, hhigh⟩
    exact ⟨_, hcommitment, (), rfl, (), hlow, (), hhigh, _, rfl, rfl⟩

theorem openOutput_ok (h : Addressed C lib keys position output shared tweak) (hw : Wellformed C output)
    (horder : groupOrder • C.generators.G = 0) :
    openOutput C lib keys shared tweak position index output = .ok note ↔
      ∃ plaintext, Carries C lib keys shared position output plaintext ∧ note = ownNote C keys tweak index plaintext := by
  obtain ⟨p, hp⟩ := hw.commitment
  obtain ⟨hpoint, hkey⟩ := h.secret hw horder
  have hsecret : (keys.spend + tweak) % groupOrder ≠ 0 := by
    intro hzero
    rw [hzero, zero_nsmul] at hpoint
    exact hpoint rfl
  simp only [openOutput, ok_rules, not_not, decodePoint_false_ok, decryptNote_ok, checkOpening_ok hw, keys.spend_ok]
  constructor
  · rintro ⟨_, -, plaintext, ⟨hnote, hversion, hchain, hposition, hasset⟩, _, ⟨hcommitment, hlow, hhigh⟩, _, hspend, _, -,
      _, -, rfl⟩
    cases hspend
    exact ⟨plaintext, ⟨hnote, hversion, hchain, hposition, hasset, hcommitment, hlow, hhigh⟩, rfl⟩
  · rintro ⟨plaintext, hcarries, rfl⟩
    exact ⟨p, hp, plaintext, ⟨hcarries.encrypts, hcarries.version, hcarries.chainID, hcarries.outputPosition,
      hcarries.assetID⟩, (), ⟨hcarries.commitment, hcarries.low, hcarries.high⟩, keys.spend, rfl, (), hsecret, (),
      hkey.symm, rfl⟩

theorem scanOutput_eq (hw : Wellformed C output) (hp : C.setBytes output.ephemeralKey = some ephemeral)
    (ht : IsTweak (lib.tweakMaterial (C.bytes (keys.view • ephemeral)) keys.chainID position) tweak) (index : Nat) :
    scanOutput C lib keys position index output =
      if C.bytes ((keys.spend + tweak) • C.generators.G) ≠ output.oneTimeKey then .ok none
      else (openOutput C lib keys (C.bytes (keys.view • ephemeral)) tweak position index output).map some := by
  obtain ⟨hnonempty, hsize⟩ := hw.size
  have hnote : ¬ (output.encryptedNote = [] ∨ 4096 < output.encryptedNote.length) :=
    not_or.mpr ⟨hnonempty, Nat.not_lt.mpr hsize⟩
  have hne : ephemeral ≠ 0 := by
    obtain ⟨p, hp', hne⟩ := hw.ephemeralKey
    rw [Option.some.inj (hp.symm.trans hp')]
    exact hne
  have hephemeral : decodePoint C output.ephemeralKey false = .ok ephemeral := decodePoint_false_ok.mpr ⟨hp, hne⟩
  have hshared : ¬ keys.view • ephemeral = 0 := fun hzero => hne (keys.view_free ephemeral hzero)
  have hspend : decodePoint C keys.spendPublic false = .ok (keys.spend • C.generators.G) :=
    decodePoint_false_ok.mpr ⟨by rw [keys.spendPublic_eq, C.setBytes_bytes], keys.spend_free⟩
  simp only [scanOutput, failIf, if_neg hnote, hephemeral, keys.view_ok, if_neg hshared, outputTweak_ok.mpr ht, hspend,
    Except.mapError, bind, Except.bind, add_nsmul, pure, Except.pure]

theorem scanOutput_addressed (h : Addressed C lib keys position output shared tweak) (hw : Wellformed C output) (index : Nat) :
    scanOutput C lib keys position index output =
      (openOutput C lib keys shared tweak position index output).map some := by
  obtain ⟨ephemeral, hp, rfl⟩ := h.shared_eq
  rw [scanOutput_eq hw hp h.tweak_eq, if_neg (not_not.mpr h.oneTimeKey.symm)]

theorem scanOutput_foreign (h : ∀ shared tweak, ¬ Addressed C lib keys position output shared tweak)
    (hw : Wellformed C output) (index : Nat) : scanOutput C lib keys position index output = .ok none := by
  obtain ⟨ephemeral, hp, -⟩ := hw.ephemeralKey
  obtain ⟨tweak, ht⟩ := exists_isTweak lib (C.bytes (keys.view • ephemeral)) keys.chainID position
  rw [scanOutput_eq hw hp ht, if_pos]
  intro hkey
  exact h _ tweak ⟨⟨ephemeral, hp, rfl⟩, ht, hkey.symm⟩

section
variable (hw : Wellformed C output) (horder : groupOrder • C.generators.G = 0)
include hw horder

theorem scanOutput_owns :
    scanOutput C lib keys position index output = .ok (some note) ↔ Owns C lib keys position index output note := by
  constructor
  · intro h
    by_cases haddressed : ∃ shared tweak, Addressed C lib keys position output shared tweak
    · obtain ⟨shared, tweak, ha⟩ := haddressed
      rw [scanOutput_addressed ha hw, except_map_ok] at h
      obtain ⟨_, hopen, hnote⟩ := h
      cases hnote
      obtain ⟨plaintext, hcarries, rfl⟩ := (openOutput_ok ha hw horder).mp hopen
      exact ⟨shared, tweak, plaintext, ha, hcarries, rfl⟩
    · rw [scanOutput_foreign (fun shared tweak ha => haddressed ⟨shared, tweak, ha⟩) hw] at h
      cases h
  · rintro ⟨shared, tweak, plaintext, ha, hcarries, rfl⟩
    rw [scanOutput_addressed ha hw, except_map_ok]
    exact ⟨_, (openOutput_ok ha hw horder).mpr ⟨plaintext, hcarries, rfl⟩, rfl⟩

theorem scanOutput_harmless :
    (∃ found, scanOutput C lib keys position index output = .ok found) ↔ Harmless C lib keys position output := by
  constructor
  · rintro ⟨found, hfound⟩ shared tweak ha
    rw [scanOutput_addressed ha hw, except_map_ok] at hfound
    obtain ⟨_, hopen, -⟩ := hfound
    obtain ⟨plaintext, hcarries, -⟩ := (openOutput_ok ha hw horder).mp hopen
    exact ⟨plaintext, hcarries⟩
  · intro h
    by_cases haddressed : ∃ shared tweak, Addressed C lib keys position output shared tweak
    · obtain ⟨shared, tweak, ha⟩ := haddressed
      obtain ⟨plaintext, hcarries⟩ := h shared tweak ha
      exact ⟨_, (scanOutput_owns hw horder).mpr ⟨shared, tweak, plaintext, ha, hcarries, rfl⟩⟩
    · exact ⟨none, scanOutput_foreign (fun shared tweak ha => haddressed ⟨shared, tweak, ha⟩) hw index⟩

end

/-! ## Key images -/

def keyImage (C : Curve 𝔾) (lib : WalletLibrary C) (note : Note) : Hash :=
  C.bytes (note.spendSecret • lib.hashToPoint (C.bytes (note.spendSecret • C.generators.G)))

theorem Owns.deriveKeyImage (h : Owns C lib keys position index output note) (hw : Wellformed C output)
    (horder : groupOrder • C.generators.G = 0) :
    deriveKeyImage C lib output.oneTimeKey note.spendSecret = .ok (keyImage C lib note) := by
  obtain ⟨shared, tweak, plaintext, ha, -, rfl⟩ := h
  obtain ⟨hpoint, hkey⟩ := ha.secret hw horder
  have hlt : (keys.spend + tweak) % groupOrder < groupOrder := Nat.mod_lt _ (by decide)
  simp only [ownNote, keyImage]
  generalize (keys.spend + tweak) % groupOrder = secret at hpoint hkey hlt ⊢
  have hsecret : secret ≠ 0 := by
    rintro rfl
    exact hpoint (zero_nsmul _)
  have hpublic : decodePoint C output.oneTimeKey false = .ok (secret • C.generators.G) :=
    decodePoint_false_ok.mpr ⟨by rw [hkey, C.setBytes_bytes], hpoint⟩
  have himage : decodePoint C (C.bytes (secret • lib.hashToPoint (C.bytes (secret • C.generators.G)))) false =
      .ok (secret • lib.hashToPoint (C.bytes (secret • C.generators.G))) :=
    decodePoint_false_ok.mpr ⟨C.setBytes_bytes _, lib.hashToPoint_free _ _ hsecret hlt⟩
  simp [Shielded6.deriveKeyImage, hpublic, himage, failIf, hsecret, Except.mapError, bind, Except.bind, pure, Except.pure]

/-! ## What consensus checks -/

structure CurveBackend (B : Backend) (C : Curve 𝔾) : Prop where
  validPublicKey : ∀ key, B.validPublicKey key = (decodePoint C key false).isOk
  verifyRange128 : ∀ outputs proof,
    B.verifyRange128 outputs proof = verifyRangeProof128 C (outputs.map fun o => ⟨o.1, o.2.1, o.2.2⟩) proof
  verifyDeposit : ∀ outputs amount mask, B.verifyDeposit outputs amount mask = verifyDepositCommitment C outputs amount mask
  verifyBalance128 : ∀ pseudoOutputs outputs value,
    B.verifyBalance128 pseudoOutputs outputs value = verifyCommitmentBalance128 C pseudoOutputs outputs value

theorem CurveBackend.point (hB : CurveBackend B C) (h : B.validPublicKey key = true) :
    ∃ p, C.setBytes key = some p ∧ p ≠ 0 := by
  rw [hB.validPublicKey] at h
  obtain ⟨p, hp⟩ := except_exists_of_isOk h
  exact ⟨p, decodePoint_false_ok.mp hp⟩

theorem checkV6Outputs_ok (h : checkV6Outputs B i seen outputs = .ok ()) : ∀ output ∈ outputs,
      (output.encryptedNote ≠ [] ∧ output.encryptedNote.length ≤ shieldedV6MaxCiphertext) ∧
        B.validPublicKey output.oneTimeKey = true ∧ B.validPublicKey output.ephemeralKey = true := by
  induction outputs generalizing i seen with
  | nil => simp
  | cons output rest ih =>
    simp only [checkV6Outputs, ok_rules, not_or, not_not, Nat.not_lt] at h
    obtain ⟨-, ⟨-, -, -, hnonempty, hsize⟩, -, hkey, -, hephemeral, -, -, hrest⟩ := h
    exact forall_mem_cons.mpr ⟨⟨⟨hnonempty, hsize⟩, hkey, hephemeral⟩, ih hrest⟩

theorem decodePoints_ne_zero {what : String} {encoded : List Hash} {points : List 𝔾}
    (h : decodePoints C what i encoded = .ok points) : ∀ e ∈ encoded, ∃ p, C.setBytes e = some p ∧ p ≠ 0 := by
  induction encoded generalizing i points with
  | nil => simp
  | cons e rest ih =>
    simp only [decodePoints, ok_rules] at h
    obtain ⟨p, hp, others, hothers, -⟩ := h
    exact forall_mem_cons.mpr ⟨⟨p, decodePoint_false_ok.mp hp⟩, ih hothers⟩

theorem validateShieldedV6Proof_commitments (hB : CurveBackend B C)
    (hd : decodeShieldedV6Transaction B tx.data = .ok (some e)) (hv : e.version ≠ shieldedV6BindingVersion)
    (h : validateShieldedV6Proof B tx = .ok ()) (hmem : output ∈ e.outputs) :
    (∃ p, C.setBytes output.commitment = some p ∧ p ≠ 0) ∧
      combineAmountLimbs C output.amountLimbs.1 output.amountLimbs.2 = .ok output.commitment := by
  simp only [validateShieldedV6Proof, hd, if_neg hv, ok_rules, checkWhen_ok] at h
  obtain ⟨-, hrange, hsum⟩ := h
  have houtput := mem_map_of_mem (f := (·.commitment)) hmem
  constructor
  · split at hsum
    · simp only [ok_rules, hB.verifyDeposit, verifyDepositCommitment] at hsum
      obtain ⟨-, -, points, hpoints, -⟩ := hsum
      exact decodePoints_ne_zero hpoints _ houtput
    · simp only [ok_rules, hB.verifyBalance128, verifyCommitmentBalance128] at hsum
      obtain ⟨-, -, -, -, -, -, points, hpoints, -⟩ := hsum
      exact decodePoints_ne_zero hpoints _ houtput
  · have hproof := hrange (decide_eq_true (ne_nil_of_mem hmem))
    simp only [ok_rules, hB.verifyRange128, verifyRangeProof128, map_map] at hproof
    obtain ⟨-, -, ⟨⟩, hlimbs, -⟩ := hproof
    exact checkLimbs_ok hlimbs _ (mem_map_of_mem hmem)

theorem processShieldedV6_wellformed (hB : CurveBackend B C) (hd : decodeShieldedV6Transaction B tx.data = .ok (some e))
    (h : processShieldedV6 B cfg num time tx w = (.ok (), w')) : ∀ output ∈ e.outputs, Wellformed C output := by
  simp only [processShieldedV6, Proc.run_rules] at h
  obtain ⟨_, e', he, sender, _, _, h⟩ := h
  obtain ⟨hd', hcases⟩ := shieldedV6Basics_cases he
  obtain rfl : e' = e := Option.some.inj (Except.ok.inj (hd'.symm.trans hd))
  intro output hmem
  cases hcases with
  | inl hbinding =>
    rw [hbinding.2.2] at hmem
    cases hmem
  | inr htransfer =>
    obtain ⟨hv, bound, htransfer⟩ := htransfer
    simp only [if_neg hv, Proc.run_rules] at h
    obtain ⟨_, hproof, -⟩ := h
    simp only [v6Transfer, if_pos (ne_nil_of_mem hmem), ok_rules] at htransfer
    obtain ⟨-, -, -, -, -, -, ⟨⟩, houtputs, -⟩ := htransfer
    obtain ⟨hsize, hkey, hephemeral⟩ := checkV6Outputs_ok houtputs output hmem
    obtain ⟨hcommitment, hcombined⟩ := validateShieldedV6Proof_commitments hB hd hv hproof hmem
    simp only [combineAmountLimbs, ok_rules] at hcombined
    obtain ⟨low, hlow, high, hhigh, hbytes⟩ := hcombined
    exact ⟨hsize, hB.point hkey, hB.point hephemeral, hcommitment, low, high, decodePoint_ok hlow, decodePoint_ok hhigh,
      hbytes.symm⟩

def positionedOutputs (history : List (Tx × ShieldedV6Transaction)) : List (ShieldedV6Output × Nat) :=
  history.flatMap fun p => p.2.outputs.zipIdx

theorem positionedOutputs_wellformed (hB : CurveBackend B C) (h : V6Steps B w history w') :
    ∀ p ∈ positionedOutputs history, Wellformed C p.1 := by
  induction h with
  | refl => simp [positionedOutputs]
  | @accepted _ _ history tx e cfg num time _ hd hrun ih =>
    intro p hp
    rw [positionedOutputs, flatMap_append, mem_append, flatMap_singleton] at hp
    cases hp with
    | inl hp => exact ih p hp
    | inr hp =>
      have hmem : p.1 ∈ e.outputs := by
        have hfst := mem_map_of_mem (f := Prod.fst) hp
        rwa [zipIdx_map_fst] at hfst
      exact processShieldedV6_wellformed hB hd hrun p.1 hmem
  | rejected cfg num time _ hrun ih => exact ih
  | other _ hkept ih => exact ih

end

end TkmChain.Shielded6
