import TkmChain.Pages
import TkmChain.RingCT
import TkmChain.ShieldedChecks

/-!
# The Shield6 wallet

The wallet reads all outputs of the accumulator in pages, tries its view key on each of them
and opens those that are addressed to it. What it finds unspent it selects for payments.
-/

namespace TkmChain.Shielded6

def errInvalidWalletOutput : String := "shield6: invalid wallet output"

def errInvalidRing : String := "shield6: ring must contain exactly 16 valid members"

def shield6NoteVersion : Nat := 1

def nonceSizeX : Nat := 24

def aeadOverhead : Nat := 16

structure EncryptedNote where
  version : Nat
  (nonce ciphertext : Bytes)

structure NotePlaintext where
  (version chainID assetID outputPosition : Nat)
  amount : BitVec 128
  mask : Hash
  limbMasks : Hash × Hash

structure Note where
  (chainID assetID index amount : Nat)
  mask : Hash
  limbMasks : Hash × Hash
  spendSecret : Nat
  deriving DecidableEq

section
variable {𝔾 : Type} [AddCommGroup 𝔾]

structure WalletLibrary (C : Curve 𝔾) where
  tweakMaterial : Hash → Nat → Nat → Nat → Hash
  outputAAD : Nat → Nat → ShieldedV6Output → Bytes
  aeadOpen : Hash → Nat → Nat → Bytes → Bytes → Bytes → Option Bytes
  decodeNote : Bytes → Option EncryptedNote
  decodePlaintext : Bytes → Option NotePlaintext
  hashToPoint : Hash → 𝔾
  /-- One of the counters yields a canonical scalar. -/
  tweak_found : ∀ shared chainID position, ∃ counter < 2 ^ 32, ∃ tweak,
    decodeScalar (tweakMaterial shared chainID position counter) = .ok tweak ∧ tweak ≠ 0
  /-- Hashes are points of the order of the group. -/
  hashToPoint_free : ∀ key secret, secret ≠ 0 → secret < groupOrder → secret • hashToPoint key ≠ 0

/-- Keys as they are derived from a seed. The secrets are not zero, so they annihilate no point. -/
structure WalletKeys (C : Curve 𝔾) where
  chainID : Nat
  (spendSecret viewSecret spendPublic : Hash)
  (spend view : Nat)
  chainID_ne : chainID ≠ 0
  spend_ok : decodeScalar spendSecret = .ok spend
  view_ok : decodeScalar viewSecret = .ok view
  spendPublic_eq : spendPublic = C.bytes (spend • C.generators.G)
  spend_free : spend • C.generators.G ≠ 0
  view_free : ∀ p : 𝔾, view • p = 0 → p = 0

variable [DecidableEq 𝔾] (C : Curve 𝔾) (lib : WalletLibrary C) (keys : WalletKeys C)

/-! ## Outputs -/

def searchTweak (material : Nat → Hash) : Nat → Nat → Except String Nat
  | 0, _ => .error errInvalidWalletOutput
  | fuel + 1, counter =>
    match decodeScalar (material counter) with
    | .ok tweak => if tweak ≠ 0 then .ok tweak else searchTweak material fuel (counter + 1)
    | .error _ => searchTweak material fuel (counter + 1)

def outputTweak (shared : Hash) (chainID position : Nat) : Except String Nat :=
  searchTweak (lib.tweakMaterial shared chainID position) (2 ^ 32) 0

def decryptNote (shared : Hash) (position : Nat) (output : ShieldedV6Output) : Except String NotePlaintext := do
  let aad := lib.outputAAD keys.chainID position output
  let encrypted ← orFail (lib.decodeNote output.encryptedNote) errInvalidWalletOutput
  failIf (encrypted.version ≠ shield6NoteVersion ∨ encrypted.nonce.length ≠ nonceSizeX ∨
    encrypted.ciphertext.length < aeadOverhead) errInvalidWalletOutput
  let bytes ← orFail (lib.aeadOpen shared keys.chainID position encrypted.nonce encrypted.ciphertext aad)
    errInvalidWalletOutput
  let plaintext ← orFail (lib.decodePlaintext bytes) errInvalidWalletOutput
  failIf (plaintext.version ≠ shield6NoteVersion ∨ plaintext.chainID ≠ keys.chainID ∨
    plaintext.outputPosition ≠ position ∨ plaintext.assetID ≠ assetTKM) errInvalidWalletOutput
  return plaintext

def checkLimb (mask : Hash) (amount : Nat) (limb : Hash) : Except String Unit := do
  let scalar ← (decodeScalar mask).mapError fun _ => errInvalidWalletOutput
  failIf (C.bytes (C.generators.commit scalar amount) ≠ limb) errInvalidWalletOutput

def checkOpening (plaintext : NotePlaintext) (output : ShieldedV6Output) : Except String Unit := do
  let commitment ← (commitment128 C plaintext.amount.toNat plaintext.mask).mapError fun _ => errInvalidWalletOutput
  failIf (commitment ≠ output.commitment) errInvalidWalletOutput
  checkLimb C plaintext.limbMasks.1 (plaintext.amount.toNat % 2 ^ 64) output.amountLimbs.1
  checkLimb C plaintext.limbMasks.2 (plaintext.amount.toNat / 2 ^ 64) output.amountLimbs.2
  let combined ← (combineAmountLimbs C output.amountLimbs.1 output.amountLimbs.2).mapError fun _ => errInvalidWalletOutput
  failIf (combined ≠ output.commitment) errInvalidWalletOutput

def openOutput (shared : Hash) (tweak position index : Nat) (output : ShieldedV6Output) : Except String Note := do
  let _ ← (decodePoint C output.commitment false).mapError fun _ => errInvalidWalletOutput
  let plaintext ← decryptNote C lib keys shared position output
  checkOpening C plaintext output
  let spend ← (decodeScalar keys.spendSecret).mapError fun _ => errInvalidWalletOutput
  let secret := (spend + tweak) % groupOrder
  failIf (secret = 0) errInvalidWalletOutput
  failIf (C.bytes (secret • C.generators.G) ≠ output.oneTimeKey) errInvalidWalletOutput
  return ⟨keys.chainID, plaintext.assetID, index, plaintext.amount.toNat, plaintext.mask, plaintext.limbMasks, secret⟩

def scanOutput (position index : Nat) (output : ShieldedV6Output) : Except String (Option Note) := do
  failIf (output.encryptedNote = [] ∨ 4096 < output.encryptedNote.length) errInvalidWalletOutput
  let ephemeral ← (decodePoint C output.ephemeralKey false).mapError fun _ => errInvalidWalletOutput
  let view ← (decodeScalar keys.viewSecret).mapError fun _ => errInvalidWalletOutput
  failIf (view • ephemeral = 0) errInvalidWalletOutput
  let shared := C.bytes (view • ephemeral)
  let tweak ← outputTweak C lib shared keys.chainID position
  let spendPublic ← (decodePoint C keys.spendPublic false).mapError fun _ => errInvalidWalletOutput
  if C.bytes (spendPublic + tweak • C.generators.G) ≠ output.oneTimeKey then return none
  else (openOutput C lib keys shared tweak position index output).map some

def deriveKeyImage (publicKey : Hash) (secret : Nat) : Except String Hash := do
  let point ← (decodePoint C publicKey false).mapError fun _ => errInvalidRing
  failIf (secret = 0) errInvalidRing
  failIf (C.bytes (secret • C.generators.G) ≠ C.bytes point) errInvalidRing
  let image := C.bytes (secret • lib.hashToPoint (C.bytes point))
  let _ ← (decodePoint C image false).mapError fun _ => errInvalidRing
  return image

/-! ## The node -/

structure OutputView where
  (accumulatorIndex outputPosition blockNumber : Nat)
  (blockHash transactionHash : Hash)
  output : ShieldedV6Output

structure Status where
  chainID : Option Nat
  active : Bool
  (outputCount spentKeyImageCount : Nat)
  accumulator : Hash

structure Node where
  chainID : Except String Nat
  head : Except String (Hash × Nat)
  status : Except String Status
  spentKeyImages : Nat → Nat → Except String (List Hash)
  pendingKeyImages : Except String (List Hash)
  walletOutputs : Nat → Nat → Except String (List OutputView)
  endStatus : Except String Status
  endHead : Except String Hash

structure ShieldedV6OwnedNote where
  note : Note
  transactionHash : Hash
  blockNumber : Nat
  deriving DecidableEq

structure ShieldedV6ScanResult where
  outputCount : Nat
  (accumulatorRoot headHash : Hash)
  (headNumber balanceWei : Nat)
  notes : List ShieldedV6OwnedNote
  deriving DecidableEq

def shieldedV6WalletPage : Nat := 64

def shieldedV6KeyImagePage : Nat := 256

/-! ## The scan -/

def validateKeyImage (image : Hash) (text : String) : Except String Unit :=
  failIf ((decodePoint C image false).isOk = false) text

def spentImage (index : Nat) (image : Hash) (spent : List Hash) : Except String (List Hash) := do
  validateKeyImage C image s!"malformed public Shield6 key image at {index}"
  failIf (image ∈ spent) s!"duplicate public Shield6 key image at {index}"
  return image :: spent

def pendingImage (index : Nat) (image : Hash) (spent : List Hash) : Except String (List Hash) := do
  validateKeyImage C image s!"malformed pending Shield6 key image at {index}"
  return image :: spent

def scanView (spent : List Hash) (index : Nat) (view : OutputView) : Except String (Option ShieldedV6OwnedNote) := do
  failIf (view.accumulatorIndex ≠ index ∨ view.blockHash = 0 ∨ view.transactionHash = 0)
    s!"noncanonical Shield6 output record at {index}"
  failIf (view.output.encryptedNote = [] ∨ shieldedV6MaxCiphertext < view.output.encryptedNote.length)
    s!"malformed Shield6 output {index}: encrypted note size is invalid"
  let found ← (scanOutput C lib keys view.outputPosition view.accumulatorIndex view.output).mapError
    fun e => s!"scan Shield6 output {index}: {e}"
  match found with
  | none => return none
  | some note => do
    let image ← (deriveKeyImage C lib view.output.oneTimeKey note.spendSecret).mapError
      fun e => s!"derive Shield6 key image for output {index}: {e}"
    return if image ∈ spent then none else some ⟨note, view.transactionHash, view.blockNumber⟩

def scanShieldedV6 (node : Node) : Except String ShieldedV6ScanResult := do
  let chain ← node.chainID
  failIf (chain ≠ keys.chainID) "Shield6 wallet chain ID mismatch"
  let head ← node.head
  failIf (head.1 = 0) "Shield6 chain head unavailable"
  let status ← node.status
  failIf (status.chainID ≠ some keys.chainID) "Shield6 node chain ID mismatch"
  failIf (status.active = false) "Shield6 is not active on this chain"
  let spent ← Pages.fetchAll shieldedV6KeyImagePage status.spentKeyImageCount
    (fun start limit => (node.spentKeyImages start limit).mapError
      fun e => s!"fetch public Shield6 key-image page at {start}: {e}")
    (fun start => s!"incomplete public Shield6 key-image page at {start}")
    (spentImage C) status.spentKeyImageCount 0 []
  let pending ← node.pendingKeyImages.mapError fun e => s!"fetch public pending Shield6 key images: {e}"
  let spent ← Pages.walk (pendingImage C) 0 pending spent
  let notes ← Pages.fetchAll shieldedV6WalletPage status.outputCount
    (fun start limit => (node.walletOutputs start limit).mapError
      fun e => s!"fetch Shield6 wallet output page at {start}: {e}")
    (fun start => s!"incomplete Shield6 output page at {start}")
    (Pages.collect (scanView C lib keys spent)) status.outputCount 0 []
  let endStatus ← node.endStatus
  let endHead ← node.endHead
  failIf (endStatus.active = false ∨ endStatus.chainID ≠ some keys.chainID ∨
      endStatus.accumulator ≠ status.accumulator ∨ endStatus.outputCount ≠ status.outputCount ∨
      endStatus.spentKeyImageCount ≠ status.spentKeyImageCount ∨ endHead ≠ head.1)
    "chain changed during Shield6 scan; retry from the new canonical head"
  return ⟨status.outputCount, status.accumulator, head.1, head.2, (notes.map (·.note.amount)).sum, notes⟩

end

/-! ## Selection -/

structure Candidates where
  notes : List Note
  single : Option Note
  chainID : Nat

def addCandidate (amount : Nat) (found : Candidates) (note : Note) : Except String Candidates := do
  failIf (note.chainID = 0 ∨ note.assetID ≠ assetTKM ∨ note.amount = 0 ∨ 2 ^ 128 ≤ note.amount)
    "invalid Shield6 spendable note"
  failIf (found.chainID ≠ 0 ∧ found.chainID ≠ note.chainID) "Shield6 notes belong to different chains"
  failIf (note.index ∈ found.notes.map (·.index)) "duplicate Shield6 spendable note"
  let better : Bool := amount ≤ note.amount ∧ ∀ single ∈ found.single, note.amount < single.amount
  return ⟨found.notes ++ [note], if better then some note else found.single, note.chainID⟩

def coverAmount (amount : Nat) : Nat → Nat → List Note → Option (List Note × Nat)
  | 0, _, _ => none
  | _ + 1, _, [] => none
  | inputs + 1, total, note :: rest =>
    if amount ≤ total + note.amount then some ([note], total + note.amount)
    else (coverAmount amount inputs (total + note.amount) rest).map fun (chosen, total) => (note :: chosen, total)

def chooseShieldedV6Notes (amount : Nat) (found : Candidates) : Except String (List Note × Nat) :=
  match found.single with
  | some single => .ok ([single], single.amount)
  | none => orFail (coverAmount amount shieldedV6MaxInputs 0 (found.notes.insertionSort fun a b => b.amount ≤ a.amount))
      "Shield6 spendable notes cannot cover the amount within the 16-input limit; fund or consolidate notes"

def selectShieldedV6Notes (notes : List ShieldedV6OwnedNote) (amount : Nat) : Except String (List Note × Nat) := do
  failIf (amount = 0 ∨ 2 ^ 128 ≤ amount) "Shield6 payment amount must be positive and fit 128 bits"
  let found ← (notes.map (·.note)).foldlM (addCandidate amount) ⟨[], none, 0⟩
  chooseShieldedV6Notes amount found

end TkmChain.Shielded6
