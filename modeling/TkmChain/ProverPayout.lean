import TkmChain.NotePreparation
import TkmChain.Run

/-!
# Payouts of the prover

A payout is signed once, saved in the journal and handed to the node; a retry hands over the
saved transaction again. A call can crash anywhere, and a panic inside it is recovered by a
handler that also writes the journal.
-/

namespace TkmChain.Prover

variable (lib : Library) (cfg : Config) (replies : Replies)

def confidentialPrepaidGas : Nat := 7000000

def validatePayoutRequest (req : PayoutRequest) : Except String Unit := do
  failIf (req.requestID.utf8ByteSize < 8) "requestId is required"
  failIf (lib.isValidAddress req.toAddr = false) s!"invalid to address {req.toAddr.quote}"
  failIf (lib.isValidAddress req.poolWallet = false) s!"invalid poolWallet address {req.poolWallet.quote}"
  failIf (¬ ∃ amount ∈ req.amountAntd, 0 < amount) "amountAntd must be positive"

def payoutReplacementRequested (req : PayoutRequest) : Bool :=
  lib.trimSpace req.nonce ≠ "" ∨ lib.trimSpace req.gasPriceWei ≠ ""

def checkAmount (value : Option Int) : Except String Nat := do
  let v ← orFail value "Shield3/Shield4/Shield5 amount must be positive and at most 5,000,000 TKM"
  failIf (v ≤ 0 ∨ maxSendWei < v) "Shield3/Shield4/Shield5 amount must be positive and at most 5,000,000 TKM"
  return v.toNat

def nativeAmount (raw : String) : Except String Nat := checkAmount (lib.parseBigFlexible raw)

def prepaidBudget : Except String (Option (Int × Nat)) :=
  if cfg.prepaidFeeLimitWei = "" then return none
  else do
    let active ← replies.confidentialLedger
    failIf (active = false) "prepaid note fees are not active"
    let limit ← orFail (lib.setString cfg.prepaidFeeLimitWei) "invalid configured prepaid fee budget"
    failIf (limit ≤ 0 ∨ 2 ^ 256 ≤ limit) "invalid configured prepaid fee budget"
    let price ← replies.suggestGasPrice
    let fee := price * confidentialPrepaidGas
    failIf (fee = 0 ∨ limit < fee) "prepaid payout fee exceeds authorized budget"
    return some (limit, fee)

def buildPayout (recipient : Recipient) (amount version : Nat) : Option (Int × Nat) → Except String NativeTx
  | some (limit, _) => replies.buildPrepaidPayment recipient amount version limit
  | none =>
    if version = 5 ∨ version = 4 ∨ version = 3 then replies.build version recipient amount false
    else .error "unsupported native shield version"

def processNativePayout (req : PayoutRequest) (db : RequestDB) (version : Nat) : Prog String := do
  refuseIf (payoutReplacementRequested lib req = true) "native payout retries must reuse the original signed transaction"
  let amount ← call (nativeAmount lib req.amountWei)
  let chain ← call replies.chainID
  let id ← call (replies.signerIdentity chain)
  let recipient ← call (lib.decodePaymentCode req.recipientCode chain)
  refuseIf (lib.equalFold recipient.addressHex req.toAddr = false ∨
      lib.equalFold (lib.addressHex id.address) req.poolWallet = false)
    "payout account or recipient code does not match request"
  let budget ← call (prepaidBudget lib cfg replies)
  let target := amount + (budget.map (·.2)).getD 0
  let db ← preparePrivateNotes lib replies cfg id target version db
  let tx ← call (buildPayout replies recipient amount version budget)
  let (signed, encoded) ← call (replies.signTx tx)
  let raw ← call encoded
  let record : RequestRecord :=
    { signedTransaction := lib.hexEncode raw
      request := req
      status := .signed
      txHash := signed.hash
      error := ""
      noteID := "" }
  assign { db with requests := Function.update db.requests req.requestID (some record) }
  writeRequestDB replies.writeSigned
  submitNativeRecord lib replies (some req.requestID) record.txHash record.signedTransaction

def payout (req : PayoutRequest) (db : RequestDB) : Prog String :=
  let fresh : Prog String :=
    if replies.shieldVersion = 0 then
      Script.fail (.error
        "Shield3/Shield4/Shield5 native verifier is not active or reachable; refusing legacy payout fallback")
    else processNativePayout lib cfg replies req db replies.shieldVersion
  match db.requests req.requestID with
  | none => fresh
  | some record =>
    if record.signedTransaction ≠ "" then
      submitNativeRecord lib replies (some req.requestID) record.txHash record.signedTransaction
    else if record.txHash ≠ "" ∧ payoutReplacementRequested lib req = false then return record.txHash
    else if record.status = .processing then Script.fail (.error "request is already processing")
    else fresh

/-! ## Calls, crashes and panics -/

/-- The journal on disk, the copy of the current call and the transactions handed over. -/
structure World where
  (disk memory : RequestDB)
  sent : List (Option String × NativeTx)

def World.start (db : RequestDB) : World := ⟨db, db, []⟩

def exec (w : World) : Act → World
  | .assign db => { w with memory := db }
  | .write renamed => if renamed then { w with disk := w.memory } else w
  | .send request tx => { w with sent := (request, tx) :: w.sent }

def panicRecord (req : PayoutRequest) : RequestRecord where
  signedTransaction := ""
  request := req
  status := .waiting
  txHash := ""
  error := "internal prover error before transaction construction"
  noteID := ""

def recordError (w : World) (req : PayoutRequest) (renamed : Bool) : World :=
  let db := { w.memory with requests := Function.update w.memory.requests req.requestID (some (panicRecord req)) }
  exec (exec w (.assign db)) (.write renamed)

/-- How a call ends: on its own, in a crash or in a panic after some of its acts. -/
inductive Ending where
  | returns
  | crash (acts : Nat)
  | panic (acts : Nat) (renamed : Bool)

structure Call where
  req : PayoutRequest
  replies : Replies
  ending : Ending

def stopped (w : World) (c : Call) : World :=
  match validatePayoutRequest lib c.req with
  | .error _ => w
  | .ok () =>
    let acts := (payout lib cfg c.replies c.req w.disk).acts
    let w := { w with memory := w.disk }
    match c.ending with
    | .returns => acts.foldl exec w
    | .crash n => (acts.take n).foldl exec w
    | .panic n _ => (acts.take n).foldl exec w

/-- `ProcessPayout`. Panics are recovered once the request is found valid. -/
def processPayout (w : World) (c : Call) : World :=
  match validatePayoutRequest lib c.req, c.ending with
  | .ok (), .panic _ renamed => recordError (stopped lib cfg w c) c.req renamed
  | _, _ => stopped lib cfg w c

end TkmChain.Prover
