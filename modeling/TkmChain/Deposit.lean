import TkmChain.ProverPayout

/-!
# Deposits of the prover

A deposit is signed, submitted and followed until its note can be spent. Its record and its
note are kept in two files, and a repeated call brings them up to date.
-/

namespace TkmChain.Prover

def merkleDepth : Nat := 32

/-- The status of notes, records and responses; `none` is the empty text. -/
inductive DepositStatus where
  | none
  | processing
  | waiting
  | pending
  | available
  deriving DecidableEq

structure ShieldedNote where
  version : Nat
  (id commitment ownerSecret noteRandomness noteValueWei assetID : String)
  (merklePath merklePathIndex : List String)
  (merkleRoot createdTxHash createdAt source : String)
  status : DepositStatus
  deriving DecidableEq

def ShieldedNote.empty : ShieldedNote := ⟨0, "", "", "", "", "", "", [], [], "", "", "", "", .none⟩

structure DepositRequest where
  requestID : String
  amountAntd : Option ℚ
  (amountWei ownerSecret : String)
  createdAt : Option String

structure DepositRecord where
  request : DepositRequest
  status : DepositStatus
  (txHash error noteID commitment amountWei : String)

structure DepositResponse where
  txHash : String
  status : DepositStatus
  (noteID commitment amountWei error : String)
  deriving DecidableEq

def DepositResponse.empty : DepositResponse := ⟨"", .none, "", "", "", ""⟩

/-- The files, and the transactions for which the node has reported a successful receipt. -/
structure DepositState where
  deposits : String → Option DepositRecord
  notes : List ShieldedNote
  reported : List String

/-! ## Answers -/

structure DepositLibrary extends Library where
  formatFloat : ℚ → ℚ
  parseDecimalBig : String → Option Int
  fieldElement : Hash → String

structure CommitmentPath where
  found : Bool
  root : String
  merklePath : List Hash
  merklePathIndex : List Nat

structure Built where
  (hash commitment ownerSecret noteRandomness noteValueWei assetID : String)

inductive SyncReply where
  | failed (text : String)
  | nil
  | receipt (txHash : String) (successful : Bool)

structure DepositReplies where
  shieldVersion : Nat
  (randomID now : String)
  writeProcessing : Written
  chainID : Except String Nat
  submitVersion : Nat
  build : Nat → Except String Built
  sendTransactionSync : SyncReply
  commitmentPath : Except String CommitmentPath
  (readNotes writeNotes : Option String)
  writeRecord : Written

variable (lib : DepositLibrary) (replies : DepositReplies)

def nativeDepositAmount (req : DepositRequest) : Except String Nat :=
  if lib.trimSpace req.amountWei ≠ "" then nativeAmount lib.toLibrary req.amountWei
  else
    match req.amountAntd with
    | some amount =>
      if 0 < amount then checkAmount (some ⌊lib.formatFloat amount * 10 ^ 18⌋)
      else .error "deposit amount must be positive"
    | none => .error "deposit amount must be positive"

/-! ## Notes -/

def finalizeNoteWitness (note : ShieldedNote) (txHash : String) : ShieldedNote :=
  let note := { note with createdTxHash := txHash }
  if 4 ≤ note.version then { note with status := .available }
  else
    match replies.commitmentPath with
    | .error _ => { note with status := .pending }
    | .ok path =>
      if path.found = false ∨ path.merklePath.length ≠ merkleDepth ∨ path.merklePathIndex.length ≠ merkleDepth then
        { note with status := .pending }
      else
        { note with
          merkleRoot := path.root
          merklePath := path.merklePath.map lib.fieldElement
          merklePathIndex := path.merklePathIndex.map toString
          status := .available }

def appendOrReplaceNote (note : ShieldedNote) : List ShieldedNote → List ShieldedNote
  | [] => [note]
  | other :: rest =>
    if (note.id ≠ "" ∧ other.id = note.id) ∨
        (note.commitment ≠ "" ∧ lib.equalFold other.commitment note.commitment = true) then note :: rest
    else other :: appendOrReplaceNote note rest

/-! ## Records -/

def depositRecordResponse (record : DepositRecord) : DepositResponse :=
  ⟨record.txHash, record.status, record.noteID, record.commitment, lib.trimSpace record.amountWei, record.error⟩

def recordDeposit (s : DepositState) (req : DepositRequest) (note : ShieldedNote) (amountWei : Nat) (txHash : String)
    (status : DepositStatus) (error : String) : DepositState :=
  let record : DepositRecord :=
    { request := req
      status := if status = .none then .waiting else status
      txHash := txHash
      error := error
      noteID := note.id
      commitment := note.commitment
      amountWei := toString amountWei }
  if replies.writeRecord.renamed then { s with deposits := Function.update s.deposits req.requestID (some record) } else s

def noteOf (record : DepositRecord) (note : ShieldedNote) : Bool :=
  if record.noteID ≠ "" then note.id = record.noteID else lib.equalFold note.commitment record.commitment

def replaceNote (record : DepositRecord) (finalized : ShieldedNote) : List ShieldedNote → List ShieldedNote
  | [] => []
  | note :: rest => if noteOf lib record note then finalized :: rest else note :: replaceNote record finalized rest

def refreshDepositRecord (s : DepositState) (req : DepositRequest) (record : DepositRecord) (amountWei : Nat) :
    DepositResponse × DepositState :=
  let resp := depositRecordResponse lib record
  if record.commitment = "" ∨ record.status = .available then (resp, s)
  else
    match replies.readNotes with
    | some _ => (resp, s)
    | none =>
      match s.notes.find? (noteOf lib record) with
      | none => (resp, s)
      | some note =>
        let finalized := finalizeNoteWitness lib replies note record.txHash
        if finalized.status = note.status ∧ finalized.merkleRoot = note.merkleRoot then (resp, s)
        else
          match replies.writeNotes with
          | some _ => (resp, s)
          | none =>
            let s := { s with notes := replaceNote lib record finalized s.notes }
            (⟨record.txHash, finalized.status, finalized.id, finalized.commitment, resp.amountWei, ""⟩,
              recordDeposit replies s req finalized amountWei record.txHash finalized.status "")

/-! ## Submission -/

def Built.note (b : Built) (req : DepositRequest) (version : Nat) : ShieldedNote :=
  ⟨version, "deposit-" ++ req.requestID, b.commitment, b.ownerSecret, b.noteRandomness, b.noteValueWei, b.assetID, [],
    [], "", b.hash, req.createdAt.getD "", "deposit", .pending⟩

def signDeposit : Except String Built := do
  let _ ← replies.chainID
  failIf (replies.submitVersion = 0)
    "Shield3/Shield4/Shield5 native verifier is not active or reachable; refusing legacy deposit fallback"
  if replies.submitVersion = 5 ∨ replies.submitVersion = 4 ∨ replies.submitVersion = 3 then
    replies.build replies.submitVersion
  else .error "unsupported native shield version"

/-- The transaction hash and the note, with an error when no receipt came back. -/
def buildSignSubmitDeposit (req : DepositRequest) : String × ShieldedNote × Option String :=
  match signDeposit replies with
  | .error e => ("", .empty, some e)
  | .ok built =>
    let note := built.note req replies.submitVersion
    match replies.sendTransactionSync with
    | .failed e => (built.hash, note, some e)
    | .nil => (built.hash, note, some "nil receipt")
    | .receipt txHash _ => (txHash, finalizeNoteWitness lib replies note txHash, none)

/-- The successful receipts that the node reports during a submission. -/
def reports : List String :=
  match signDeposit replies, replies.sendTransactionSync with
  | .ok _, .receipt txHash true => [txHash]
  | _, _ => []

def submitDeposit (s : DepositState) (req : DepositRequest) (amountWei : Nat) :
    DepositResponse × Option String × DepositState :=
  let (txHash, note, error) := buildSignSubmitDeposit lib replies req
  let s := { s with reported := reports replies ++ s.reported }
  let resp : DepositResponse := ⟨txHash, note.status, note.id, note.commitment, toString amountWei, ""⟩
  match error with
  | some e =>
    if txHash ≠ "" ∧ note.id ≠ "" then
      let s := if replies.readNotes = none ∧ replies.writeNotes = none then
        { s with notes := appendOrReplaceNote lib note s.notes } else s
      (resp, some e, recordDeposit replies s req note amountWei txHash note.status e)
    else (resp, some e, recordDeposit replies s req note amountWei "" .waiting e)
  | none =>
    match replies.readNotes, replies.writeNotes with
    | some e, _ => (.empty, some e, recordDeposit replies s req note amountWei txHash .pending e)
    | none, some e => (.empty, some e, recordDeposit replies s req note amountWei txHash .pending e)
    | none, none =>
      let s := { s with notes := appendOrReplaceNote lib note s.notes }
      (resp, none, recordDeposit replies s req note amountWei txHash note.status "")

def checkDeposit (req : DepositRequest) : Except String Nat := do
  failIf (replies.shieldVersion = 0)
    "Shield3/Shield4/Shield5 native verifier is not active or reachable; refusing legacy deposit fallback"
  let amountWei ← nativeDepositAmount lib req
  failIf (lib.trimSpace req.ownerSecret ≠ "" ∧ lib.parseDecimalBig (lib.trimSpace req.ownerSecret) = none)
    "ownerSecret must be a decimal BN254 field element"
  return amountWei

def startDeposit (s : DepositState) (req : DepositRequest) (amountWei : Nat) :
    DepositResponse × Option String × DepositState :=
  let record : DepositRecord := ⟨req, .processing, "", "", "", "", toString amountWei⟩
  let s' := { s with deposits := Function.update s.deposits req.requestID (some record) }
  match replies.writeProcessing with
  | .failed renamed e => (.empty, some e, if renamed then s' else s)
  | .done => submitDeposit lib replies s' req amountWei

def namedRequest (req : DepositRequest) : DepositRequest :=
  { req with
    requestID := if lib.trimSpace req.requestID = "" then "deposit-" ++ replies.randomID else req.requestID
    createdAt := some (req.createdAt.getD replies.now) }

def processDeposit (s : DepositState) (req : DepositRequest) : DepositResponse × Option String × DepositState :=
  let req := namedRequest lib replies req
  match checkDeposit lib replies req with
  | .error e => (.empty, some e, s)
  | .ok amountWei =>
    match s.deposits req.requestID with
    | none => startDeposit lib replies s req amountWei
    | some record =>
      if record.txHash ≠ "" then
        let (resp, s) := refreshDepositRecord lib replies s req record amountWei
        (resp, none, s)
      else if record.status = .processing then
        (depositRecordResponse lib record, some "deposit request is already processing", s)
      else startDeposit lib replies s req amountWei

end TkmChain.Prover
