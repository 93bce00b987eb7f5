import TkmChain.Config
import TkmChain.Script

/-!
# Automatic note preparation of the payout prover

A payment can spend four notes, with Shield5 sixteen. When more are needed, the prover first
pays the largest ones to itself in a transaction that it keeps in its journal until the
output is seen on the chain.
-/

namespace TkmChain.Prover

def inputSlots : Nat := 4

def shield5InputSlots : Nat := 16

def maxSendWei : Nat := 5000000 * 10 ^ 18

def walletGas : Nat := 7000000

def pqTkmTxType : UInt8 := 0x06

def shieldInputLimit (version : Nat) : Nat := if version = 5 then shield5InputSlots else inputSlots

structure OwnedNote where
  commitment : BitVec 320
  valueWei : Nat
  deriving DecidableEq

inductive Boundary where
  | privatePayment
  | publicShielding
  | publicUnshielding
  deriving DecidableEq

structure Envelope where
  deposit : Bool
  (withdrawalValue gasSponsorValue : Nat)
  withdrawalRecipient : Address
  feeMode : Nat
  deriving DecidableEq

/-- A transaction; `version` is that of its envelope's header, `envelope` its decoding. -/
structure NativeTx where
  type : UInt8
  toAddr : Option Address
  value : Nat
  hash : String
  version : Option Nat
  envelope : Option Envelope
  deriving DecidableEq

def shieldedPoolAddress : Address := 0xf7

/-! ## The journal -/

structure PayoutRequest where
  (requestID poolWallet toAddr : String)
  /-- Nothing stands for a number that is not finite. -/
  amountAntd : Option ℚ
  (amountWei nonce gasPriceWei recipientCode : String)

inductive RecordStatus where
  | waiting
  | processing
  | signed
  | other (text : String)
  deriving DecidableEq

structure RequestRecord where
  signedTransaction : String
  request : PayoutRequest
  status : RecordStatus
  (txHash error noteID : String)

structure NotePreparationRecord where
  privacyBoundary : Boundary
  chainID : Nat
  signer : Address
  (txHash signedTransaction : String)
  deriving DecidableEq

structure RequestDB where
  requests : String → Option RequestRecord
  notePreparation : Option NotePreparationRecord

/-- What a call does: it changes its copy of the journal, writes the copy to disk, or hands a
transaction to the node, for a request or to prepare notes. -/
inductive Act where
  | assign (db : RequestDB)
  | write (renamed : Bool)
  | send (request : Option String) (tx : NativeTx)

inductive Failure where
  | error (text : String)
  | pending (hash : String) (boundary : Boundary)
  deriving DecidableEq

def Failure.wrap (context : String) : Failure → Failure
  | .error text => .error (context ++ text)
  | .pending hash boundary => .pending hash boundary

/-- The outcome of `writeRequestDB`; it can fail after the new file is in place. -/
inductive Written where
  | done
  | failed (renamed : Bool) (text : String)

def Written.renamed : Written → Bool
  | .done => true
  | .failed renamed _ => renamed

def Written.result : Written → Except Failure Unit
  | .done => .ok ()
  | .failed _ text => .error (.error text)

abbrev Prog := Script Act Failure

def call {α : Type} (x : Except String α) : Prog α := Script.lift (x.mapError .error)

def refuseIf (bad : Prop) [Decidable bad] (text : String) : Prog Unit := Script.stopIf bad (.error text)

def assign (db : RequestDB) : Prog Unit := Script.act (.assign db) (.ok ())

def writeRequestDB (written : Written) : Prog Unit := Script.act (.write written.renamed) written.result

/-! ## Libraries, keys and the node -/

structure Recipient where
  addressHex : String

structure Library where
  hexDecode : String → Except String Bytes
  hexDigits : Bytes → String
  unmarshalBinary : Bytes → Except String NativeTx
  decodePaymentCode : String → Nat → Except String Recipient
  addressHex : Address → String
  equalFold : String → String → Bool
  trimSpace : String → String
  /-- Numbers in decimal, and in hexadecimal after `0x`. -/
  (parseBigFlexible setString : String → Option Int)
  isValidAddress : String → Bool

def Library.hexEncode (lib : Library) (raw : Bytes) : String := "0x" ++ lib.hexDigits raw

structure Identity where
  chainID : Nat
  address : Address
  code : String

structure Config where
  autoPublicFunding : Bool
  (autoPublicFundingLimitWei prepaidFeeLimitWei : String)

structure Receipt where
  blockNumber : Nat
  blockHash : Hash
  successful : Bool

inductive Lookup where
  | found (receipt : Receipt)
  | notFound
  | failed (text : String)

/-- What the node, the keystore and the disk answer during a call. -/
structure Replies where
  shieldVersion : Nat
  chainID : Except String Nat
  signerIdentity : Nat → Except String Identity
  transactionReceipt : String → Lookup
  headerByNumber : Nat → Except String Hash
  (rescan scan : Except String (List OwnedNote))
  (suggestGasPrice balanceAt nonceAt pendingNonceAt : Except String Nat)
  confidentialLedger : Except String Bool
  build : Nat → Recipient → Nat → Bool → Except String NativeTx
  buildPrepaidPayment : Recipient → Nat → Nat → Int → Except String NativeTx
  signTx : NativeTx → Except String (NativeTx × Except String Bytes)
  sendTransaction : NativeTx → Option String
  transactionByHash : String → Bool
  (writeReverted writeConfirmed writePreparation writeSigned : Written)

variable (lib : Library) (replies : Replies)

def submitNativeRecord (request : Option String) (txHash signedTransaction : String) : Prog String := do
  let raw ← call (lib.hexDecode signedTransaction)
  let tx ← call (lib.unmarshalBinary raw)
  refuseIf (tx.type ≠ pqTkmTxType ∨ (tx.version ≠ some 3 ∧ tx.version ≠ some 4 ∧ tx.version ≠ some 5))
    "refusing to rebroadcast a saved non-Shield3/Shield4/Shield5 payout"
  refuseIf (tx.hash ≠ txHash) "saved native payout hash mismatch"
  Script.act (.send request tx) (match replies.sendTransaction tx with
    | none => .ok ()
    -- a lost reply must not create a new payment
    | some e => if replies.transactionByHash tx.hash then .ok () else .error (.error e))
  return tx.hash

/-! ## Plans -/

def errInsufficientPrivateFunds : String :=
  "insufficient confirmed private funds; explicitly authorize public shielding to create notes from public balances"

def sortedValues (notes : List OwnedNote) : List Nat := (notes.map (·.valueWei)).insertionSort (· ≥ ·)

def nativeNoteCapacityWithLimit (notes : List OwnedNote) (fee inputLimit : Nat) : Except String Nat := do
  failIf (inputLimit ≠ inputSlots ∧ inputLimit ≠ shield5InputSlots) "unsupported private input limit"
  failIf (¬ (notes.map (·.commitment)).Nodup ∨ ∃ note ∈ notes, 2 ^ 256 ≤ note.valueWei)
    "invalid or duplicate confirmed note"
  return min (((sortedValues notes).take inputLimit).sum - fee) maxSendWei

def privateNotePreparationWithLimit (notes : List OwnedNote) (target inputLimit : Nat) : Except String (Option Nat) := do
  failIf (target = 0 ∨ maxSendWei < target) "invalid private note target"
  let capacity ← nativeNoteCapacityWithLimit notes 0 inputLimit
  if target ≤ capacity then return none
  else
    failIf ((notes.map (·.valueWei)).sum < target) errInsufficientPrivateFunds
    return some capacity

def requirePreparedNoteCapacityWithLimit (notes : List OwnedNote) (target inputLimit : Nat) : Except String Unit := do
  failIf (target = 0) "invalid note preparation target"
  let capacity ← nativeNoteCapacityWithLimit notes 0 inputLimit
  failIf (capacity < target) "spendable note total is below the requested payout target"

def publicFundingAmount (notes : List OwnedNote) (target : Nat) (limitText : String) : Except String Nat := do
  let limit ← orFail (lib.setString limitText)
    "automatic public funding requires an explicit positive per-deposit limit up to 5000000 TKM"
  failIf (limit ≤ 0 ∨ maxSendWei < limit)
    "automatic public funding requires an explicit positive per-deposit limit up to 5000000 TKM"
  failIf (target = 0 ∨ maxSendWei < target) "invalid funding target"
  failIf (∃ note ∈ notes, note.valueWei = 0 ∨ maxSendWei < note.valueWei) "invalid private note value"
  let total := (notes.map (·.valueWei)).sum
  failIf (target ≤ total) "public funding is unnecessary"
  failIf (limit < (target - total : Nat)) "public funding exceeds the authorized per-deposit limit"
  return target - total

def planPreparation (cfg : Config) (notes : List OwnedNote) (target inputLimit : Nat) :
    Except String (Option (Nat × Bool)) :=
  match privateNotePreparationWithLimit notes target inputLimit with
  | .ok amount => .ok (amount.map (·, false))
  | .error e =>
    if e = errInsufficientPrivateFunds ∧ cfg.autoPublicFunding = true then
      (publicFundingAmount lib notes target cfg.autoPublicFundingLimitWei).map fun amount => some (amount, true)
    else .error e

def validatePrivatePreparation (tx : NativeTx) : Except String Unit := do
  failIf (tx.type ≠ pqTkmTxType ∨ tx.toAddr ≠ some shieldedPoolAddress ∨ tx.value ≠ 0)
    "note preparation must not publish principal"
  match tx.envelope with
  | some e =>
    failIf ((tx.version ≠ some 3 ∧ tx.version ≠ some 4) ∨ e.deposit = true ∨ e.withdrawalValue ≠ 0 ∨
        e.gasSponsorValue ≠ 0 ∨ e.withdrawalRecipient ≠ 0)
      "note preparation cannot use public funding, withdrawals or private gas refunds"
  | none => .error "note preparation cannot use public funding, withdrawals or private gas refunds"

def shieldedPaymentMetadata (tx : NativeTx) : Except String (Boundary × Nat) :=
  match tx.envelope with
  | none => .error "invalid shielded transaction"
  | some e =>
    if e.deposit then .ok (.publicShielding, e.feeMode)
    else if 0 < e.withdrawalValue then .ok (.publicUnshielding, e.feeMode)
    else .ok (.privatePayment, e.feeMode)

def validatePublicFunding (tx : NativeTx) (amount : Nat) : Except String Unit :=
  failIf (shieldedPaymentMetadata tx ≠ .ok (.publicShielding, 0) ∨ tx.value ≠ amount)
    "unexpected public funding transaction"

/-! ## Preparation -/

def confirmPreparation (id : Identity) (target version : Nat) (db : RequestDB) (saved : NotePreparationRecord) :
    Prog RequestDB := do
  refuseIf (saved.chainID ≠ id.chainID ∨ saved.signer ≠ id.address)
    "saved note preparation belongs to a different chain or signing account"
  match replies.transactionReceipt saved.txHash with
  | .notFound =>
    let _ ← (submitNativeRecord lib replies none saved.txHash saved.signedTransaction).mapError
      (.wrap "rebroadcast private note preparation: ")
    Script.fail (.pending saved.txHash saved.privacyBoundary)
  | .failed e => Script.fail (.error e)
  | .found receipt =>
    let head ← call (replies.headerByNumber receipt.blockNumber)
    if head ≠ receipt.blockHash then Script.fail (.pending saved.txHash saved.privacyBoundary)
    else
      let cleared := { db with notePreparation := none }
      if receipt.successful = false then
        assign cleared
        writeRequestDB replies.writeReverted
        Script.fail (.error "private note consolidation reverted; balances will be rescanned on retry")
      else
        let notes ← call (replies.rescan.mapError fun e =>
          s!"confirmed note preparation {saved.txHash}; rescan failed: {e}")
        call ((requirePreparedNoteCapacityWithLimit notes target (shieldInputLimit version)).mapError fun e =>
          s!"confirmed note preparation {saved.txHash} is not spendable; refusing duplicate funding: {e}")
        assign cleared
        writeRequestDB replies.writeConfirmed
        return cleared

def submitPreparation (id : Identity) (version : Nat) (db : RequestDB) (amount : Nat) (deposit : Bool) :
    Prog RequestDB := do
  let price ← call replies.suggestGasPrice
  let balance ← call replies.balanceAt
  let fee := price * walletGas
  refuseIf (balance < fee * 2 + if deposit then amount else 0)
    "public balance must cover authorized shielding plus gas for preparation and payout"
  let confirmed ← call replies.nonceAt
  let pending ← call replies.pendingNonceAt
  refuseIf (confirmed ≠ pending) "waiting for earlier signer transactions before automatic note consolidation"
  let self ← call (lib.decodePaymentCode id.code id.chainID)
  refuseIf (version ≠ 4 ∧ version ≠ 3) "unsupported private note version"
  let tx ← call (replies.build version self amount deposit)
  call (if deposit then validatePublicFunding tx amount else validatePrivatePreparation tx)
  let (signed, encoded) ← call (replies.signTx tx)
  let raw ← call encoded
  let saved : NotePreparationRecord :=
    { privacyBoundary := if deposit then .publicShielding else .privatePayment
      chainID := id.chainID
      signer := id.address
      txHash := signed.hash
      signedTransaction := lib.hexEncode raw }
  assign { db with notePreparation := some saved }
  writeRequestDB replies.writePreparation
  let _ ← submitNativeRecord lib replies none saved.txHash saved.signedTransaction
  Script.fail (.pending saved.txHash saved.privacyBoundary)

def settlePreparation (id : Identity) (target version : Nat) (db : RequestDB) : Prog RequestDB :=
  match db.notePreparation with
  | none => pure db
  | some saved => confirmPreparation lib replies id target version db saved

def preparePrivateNotes (cfg : Config) (id : Identity) (target version : Nat) (db : RequestDB) : Prog RequestDB := do
  let db ← settlePreparation lib replies id target version db
  let notes ← call replies.scan
  let plan ← call (planPreparation lib cfg notes target (shieldInputLimit version))
  match plan with
  | none => return db
  | some (amount, deposit) => submitPreparation lib replies id version db amount deposit

end TkmChain.Prover
