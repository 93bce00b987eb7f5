import TkmChain.Config
import TkmChain.Table

/-!
# The transaction bucket

Wallets leave batches of signed shielded transactions with the node. A batch reserves a
range of nonces of its sender; a scheduler moves its transactions into the pool, at most
ten at a time, and follows them on the canonical chain.
-/

namespace TkmChain.Eth

def transactionBucketWindowSize : Nat := 10

def transactionBucketMaxTransactions : Nat := 10000

def transactionBucketMaxRawBytes : Nat := 256 * 1024 * 1024

def transactionBucketMaxRawTxBytes : Nat := 128 * 1024

def second : Nat := 10 ^ 9

def transactionBucketActiveTTL : Nat := 60 * 60 * second

def transactionBucketRetryInterval : Nat := 10 * second

def transactionBucketRetention : Nat := 7 * 24 * 60 * 60 * second

inductive EntryStatus where
  | queued
  | submitted
  | confirmed
  | failed
  | canceled
  deriving DecidableEq

inductive BatchState where
  | receiving
  | processing
  | completed
  | canceled
  | expired
  | failed
  deriving DecidableEq

def BatchState.text : BatchState → String
  | .receiving => "receiving"
  | .processing => "processing"
  | .completed => "completed"
  | .canceled => "canceled"
  | .expired => "expired"
  | .failed => "failed"

structure Entry where
  (index nonce : Nat)
  hash : Hash
  raw : Bytes
  status : EntryStatus
  error : String
  lastAttempt : Nat
  deriving DecidableEq

/-- Entries are received in order: the list is indexed by `Index`. -/
structure Batch where
  (id cancelTokenHash : String)
  fromAddr : Address
  (baseNonce expectedCount rawBytes : Nat)
  state : BatchState
  error : String
  (createdAt updatedAt expiresAt completedAt : Nat)
  emailMessage : Bool
  entries : List Entry

def Batch.receivedCount (b : Batch) : Nat := b.entries.length

def Batch.active (b : Batch) : Bool := b.state = .receiving ∨ b.state = .processing

structure TransactionBucket where
  batches : Table Batch.id

/-! ## The node -/

structure SignedTx where
  chainId : Nat
  type : UInt8
  nonce : UInt64
  hash : Hash
  data : Bytes

def pqTkmTxType : UInt8 := 0x06

structure Header where
  (number time : Nat)

structure Core where
  unmarshalBinary : Bytes → Except String SignedTx
  /-- The encrypted data of the spends, or nothing for data without an envelope. -/
  decodeShieldedTransaction : Bytes → Except String (Option (List Bytes))
  validateShieldedTransactionBasics : Header → SignedTx → Except String Unit
  sender : Header → SignedTx → Except String Address
  /-- The kind of an EmailVM action. -/
  decodeEmailVMAction : Bytes → Option String
  bucketTokenHash : String → String

structure Backend where
  chainId : Option Nat
  currentHeader : Option Header
  canonicalNonce : Address → Except String Nat
  poolNonce : Address → Nat
  (poolTransaction canonicalTransaction : Hash → Bool)
  submitTransaction : SignedTx → Option String
  /-- The pool after the submission of a transaction. -/
  submitted : Hash → Bool
  canonical_le_pool : ∀ a n, canonicalNonce a = .ok n → n ≤ poolNonce a

variable (core : Core) (node : Backend)

def isEmailMessageTransaction (tx : SignedTx) : Bool :=
  match core.decodeShieldedTransaction tx.data with
  | .ok (some [data]) => core.decodeEmailVMAction data = some "message"
  | _ => false

def validateRawTransaction (raw : Bytes) : Except String (SignedTx × Address) := do
  failIf (raw = [] ∨ transactionBucketMaxRawTxBytes < raw.length)
    s!"raw transaction must contain between 1 and {transactionBucketMaxRawTxBytes} bytes"
  let tx ← (core.unmarshalBinary raw).mapError fun e => "decode raw transaction: " ++ e
  let head ← orFail node.currentHeader "canonical chain head is unavailable"
  failIf (node.chainId ≠ some tx.chainId) "raw transaction has the wrong chain ID"
  failIf (tx.type ≠ pqTkmTxType) "transaction bucket accepts only locally signed PQ transactions"
  let envelope ← (core.decodeShieldedTransaction tx.data).mapError fun e => "decode shielded transaction: " ++ e
  failIf (envelope = none) "transaction bucket accepts only shielded transactions"
  core.validateShieldedTransactionBasics head tx
  let sender ← (core.sender head tx).mapError fun e => "recover PQ transaction sender: " ++ e
  return (tx, sender)

def permanentTransactionBucketError (err : Option String) : Bool :=
  match err with
  | none => false
  | some message =>
    ["invalid shielded transaction", "nullifier already spent", "invalid pq transaction",
      "invalid transaction signature", "intrinsic gas too low"].any fun text => text.toList <:+: message.toLower.toList

/-! ## Scheduling -/

def errConsumed : String := "reserved nonce was consumed by a different canonical transaction"

def errExpired : String := "transaction batch expired before every signed transaction was received"

def consumed (canonicalNonce : Nat) (entry : Entry) : Bool :=
  entry.status ≠ .canceled ∧ entry.status ≠ .failed ∧ node.canonicalTransaction entry.hash = false ∧
    entry.nonce < canonicalNonce

def refreshEntry (canonicalNonce : Nat) (entry : Entry) : Entry :=
  if entry.status = .canceled ∨ entry.status = .failed then entry
  else if node.canonicalTransaction entry.hash then
    if entry.status ≠ .confirmed then { entry with status := .confirmed, error := "" } else entry
  else
    -- a reorganisation dropped the transaction; it is resubmitted below
    let entry := if entry.status = .confirmed then { entry with status := .queued } else entry
    if entry.nonce < canonicalNonce then { entry with status := .failed, error := errConsumed }
    else if node.poolTransaction entry.hash ∧ entry.status ≠ .submitted then
      { entry with status := .submitted, error := "" }
    else if entry.status = .submitted ∧ node.poolTransaction entry.hash = false then { entry with status := .queued }
    else entry

def refresh (now canonicalNonce : Nat) (b : Batch) : Batch :=
  let b' := { b with entries := b.entries.map (refreshEntry node canonicalNonce) }
  if b.entries.any (consumed node canonicalNonce) then
    { b' with state := .failed, error := errConsumed, completedAt := now / second }
  else b'

structure Promotion where
  batch : Batch
  entries : List Entry
  changed : Bool

def Promotion.push (entry : Entry) (changed : Bool) (p : Promotion) : Promotion :=
  { p with entries := entry :: p.entries, changed := changed || p.changed }

def promote (now : Nat) (inflight index : Nat) (b : Batch) : List Entry → Promotion
  | [] => ⟨b, [], false⟩
  | entry :: rest =>
    if transactionBucketWindowSize ≤ inflight then ⟨b, entry :: rest, false⟩
    else if entry.status ≠ .queued ∨ entry.raw = [] then (promote now inflight (index + 1) b rest).push entry false
    else if 0 < entry.lastAttempt ∧ (now : Int) - entry.lastAttempt * second < transactionBucketRetryInterval then
      ⟨b, entry :: rest, false⟩
    else
      match core.unmarshalBinary entry.raw with
      | .error e =>
        let error := "decode persisted transaction: " ++ e
        ⟨{ b with state := .failed, error := error, completedAt := now / second },
          { entry with status := .failed, error := error } :: rest, true⟩
      | .ok tx =>
        let entry := { entry with lastAttempt := now / second }
        let submitErr := node.submitTransaction tx
        if node.submitted entry.hash then
          (promote now (inflight + 1) (index + 1) { b with error := "" } rest).push
            { entry with status := .submitted, error := "" } true
        else if permanentTransactionBucketError submitErr then
          let error := submitErr.getD ""
          ⟨{ b with
              state := .failed
              error := s!"transaction {index} permanently rejected: {error}"
              completedAt := now / second
              rawBytes := b.rawBytes - entry.raw.length },
            { entry with status := .failed, error := error, raw := [] } :: rest, true⟩
        else
          let error := submitErr.getD "transaction is waiting in the node local tracker"
          ⟨{ b with error := s!"transaction {index} is waiting for txpool admission: {error}" },
            { entry with error := error } :: rest, true⟩

def Batch.cancelQueued (b : Batch) (error : String) : Batch :=
  { b with
    entries := b.entries.map fun entry =>
      if entry.status = .queued then { entry with status := .canceled, error := error, raw := [] } else entry
    rawBytes := b.rawBytes - ((b.entries.filter (·.status = .queued)).map (·.raw.length)).sum }

def Batch.count (b : Batch) (status : EntryStatus) : Nat := b.entries.countP (·.status = status)

def Batch.settle (b : Batch) (now : Nat) : Batch :=
  if b.count .confirmed = b.expectedCount then
    { b with
      state := .completed
      error := ""
      completedAt := if b.completedAt = 0 then now / second else b.completedAt }
  else { b with state := if b.receivedCount = b.expectedCount then .processing else .receiving }

def scheduleBatchLocked (now : Nat) (b : Batch) : Batch :=
  match node.canonicalNonce b.fromAddr with
  | .error e => { b with error := e }
  | .ok canonicalNonce =>
    let refreshed := refresh node now canonicalNonce b
    let changed : Bool := refreshed.entries ≠ b.entries
    if refreshed.state = .canceled ∨ refreshed.state = .expired ∨ refreshed.state = .failed then
      if changed then { refreshed with updatedAt := now / second } else refreshed
    else if refreshed.expiresAt ≤ now / second ∧ refreshed.receivedCount < refreshed.expectedCount then
      { refreshed.cancelQueued errExpired with
        state := .expired, error := errExpired, completedAt := now / second, updatedAt := now / second }
    else
      let p := promote core node now (refreshed.count .submitted) 0 refreshed refreshed.entries
      let promoted : Batch := { p.batch with entries := p.entries }
      if promoted.state = .failed then { promoted with updatedAt := now / second }
      else
        let settled := promoted.settle now
        if changed || p.changed then { settled with updatedAt := now / second } else settled

/-! ## Calls -/

def TransactionBucket.totalRawBytesLocked (s : TransactionBucket) : Nat := (s.batches.rows.map (·.rawBytes)).sum

def TransactionBucket.activeOf (s : TransactionBucket) (address : Address) : List Batch :=
  s.batches.rows.filter fun b => b.fromAddr = address ∧ b.active

def validateNewBatchLocked (active : List Batch) (expected : Nat) (emailMessage : Bool) : Except String Unit := do
  checkAll (fun b =>
    failIf (emailMessage = false ∨ b.emailMessage = false ∨ expected ≠ 1 ∨ b.expectedCount ≠ 1)
      s!"sender already has active transaction batch {b.id}") active
  failIf (transactionBucketWindowSize ≤ active.length)
    s!"sender already has {active.length} unconfirmed EmailVM messages; wait for one canonical block"

def nextSenderNonceLocked (active : List Batch) (poolNonce : Nat) : Nat :=
  active.foldl (fun nonce b => max nonce (b.baseNonce + b.expectedCount)) poolNonce

structure QueueResult where
  batchID : String
  index : Nat
  txHash : Hash
  nonce : Nat
  status : EntryStatus
  submitted : Bool
  deriving DecidableEq

def queueResult (b : Batch) (entry : Entry) : QueueResult :=
  ⟨b.id, entry.index, entry.hash, entry.nonce, entry.status, entry.status = .submitted ∨ entry.status = .confirmed⟩

structure Begin where
  (batchID cancelToken : String)
  fromAddr : Address
  (baseNonce expectedCount windowSize expiresAt : Nat)
  firstTransaction : Option QueueResult

def newBatch (now : Nat) (id token : String) (expected : Nat) (raw : Bytes) : Except String Batch := do
  failIf (expected = 0 ∨ transactionBucketMaxTransactions < expected)
    s!"transaction batch count must be between 1 and {transactionBucketMaxTransactions}"
  let (tx, sender) ← validateRawTransaction core node raw
  let baseNonce := tx.nonce.toNat
  failIf (2 ^ 64 - 1 - baseNonce < expected) "transaction batch nonce range overflows uint64"
  return {
    id := id
    cancelTokenHash := core.bucketTokenHash token
    fromAddr := sender
    baseNonce := baseNonce
    expectedCount := expected
    rawBytes := raw.length
    state := if expected = 1 then .processing else .receiving
    error := ""
    createdAt := now / second
    updatedAt := now / second
    expiresAt := (now + transactionBucketActiveTTL) / second
    completedAt := 0
    emailMessage := expected = 1 ∧ isEmailMessageTransaction core tx
    entries := [⟨0, baseNonce, tx.hash, raw, .queued, "", 0⟩] }

def TransactionBucket.accepts (s : TransactionBucket) (b : Batch) : Except String Unit := do
  let active := s.activeOf b.fromAddr
  validateNewBatchLocked active b.expectedCount b.emailMessage
  let current := nextSenderNonceLocked active (node.poolNonce b.fromAddr)
  failIf (current ≠ b.baseNonce)
    s!"first transaction nonce is stale: have {b.baseNonce}, want {current}; rebuild the first proof"
  failIf (transactionBucketMaxRawBytes < s.totalRawBytesLocked + b.rawBytes)
    "transaction bucket storage limit reached; retry after queued batches confirm"

def TransactionBucket.begin (s : TransactionBucket) (now : Nat) (id token : String) (persisted : Except String Unit)
    (expected : Nat) (raw : Bytes) : Except String Begin × TransactionBucket :=
  match newBatch core node now id token expected raw with
  | .error e => (.error e, s)
  | .ok batch =>
    match s.accepts node batch with
    | .error e => (.error e, s)
    | .ok () =>
      match persisted with
      | .error e => (.error e, ⟨s.batches.erase id⟩)
      | .ok () =>
        let b := scheduleBatchLocked core node now batch
        (if b.state = .failed then .error b.error
          else .ok ⟨id, token, b.fromAddr, b.baseNonce, expected, transactionBucketWindowSize, b.expiresAt,
            b.entries.head?.map (queueResult b)⟩,
          ⟨s.batches.put b⟩)

/-- What `queue` finds: the entry stored before, or the batch with the new entry. -/
inductive Queued where
  | existing (b : Batch) (entry : Entry)
  | added (b : Batch)

def TransactionBucket.enqueue (s : TransactionBucket) (now : Nat) (batchID : String) (index : Nat)
    (raw : Bytes) : Except String Queued := do
  let (tx, sender) ← validateRawTransaction core node raw
  let b ← orFail (s.batches.get batchID) "transaction batch not found"
  failIf (b.expiresAt ≤ now / second) "transaction batch has expired"
  failIf (b.state = .completed ∨ b.state = .canceled ∨ b.state = .expired ∨ b.state = .failed)
    s!"transaction batch is {b.state.text}"
  failIf (sender ≠ b.fromAddr) "raw transaction sender does not match the batch sender"
  failIf (b.expectedCount ≤ index) "transaction batch index is out of range"
  let expectedNonce := b.baseNonce + index
  failIf (tx.nonce.toNat ≠ expectedNonce)
    s!"raw transaction nonce {tx.nonce.toNat} does not match reserved nonce {expectedNonce}"
  match b.entries[index]? with
  | some entry =>
    failIf (entry.hash ≠ tx.hash) "transaction batch index already contains a different transaction"
    return .existing b entry
  | none =>
    failIf (index ≠ b.receivedCount) s!"transaction batch requires index {b.receivedCount} next"
    failIf (transactionBucketMaxRawBytes < s.totalRawBytesLocked + raw.length)
      "transaction bucket storage limit reached; retry after queued batches confirm"
    return .added { b with
      entries := b.entries ++ [⟨index, tx.nonce.toNat, tx.hash, raw, .queued, "", 0⟩]
      rawBytes := b.rawBytes + raw.length
      updatedAt := now / second
      expiresAt := (now + transactionBucketActiveTTL) / second
      state := if b.receivedCount + 1 = b.expectedCount then .processing else b.state }

/-- A failed write undoes the entry; only the time of the update stays. -/
def TransactionBucket.queue (s : TransactionBucket) (now : Nat) (persisted : Except String Unit) (batchID : String)
    (index : Nat) (raw : Bytes) : Except String (Option QueueResult) × TransactionBucket :=
  match s.enqueue core node now batchID index raw with
  | .error e => (.error e, s)
  | .ok (.existing b entry) => (.ok (queueResult b entry), s)
  | .ok (.added batch) =>
    match persisted with
    | .error e => (.error e, match s.batches.get batchID with
      | none => s
      | some b => ⟨s.batches.put { b with updatedAt := now / second }⟩)
    | .ok () =>
      let b := scheduleBatchLocked core node now batch
      (.ok (b.entries[index]?.map (queueResult b)), ⟨s.batches.put b⟩)

structure Status where
  batchID : String
  fromAddr : Address
  (baseNonce expectedCount receivedCount queuedCount submittedCount confirmedCount : Nat)
  (failedCount canceledCount windowSize : Nat)
  state : BatchState
  error : String
  (createdAt updatedAt expiresAt : Nat)

def batchStatus (b : Batch) : Status :=
  ⟨b.id, b.fromAddr, b.baseNonce, b.expectedCount, b.receivedCount, b.count .queued, b.count .submitted,
    b.count .confirmed, b.count .failed, b.count .canceled, transactionBucketWindowSize, b.state, b.error, b.createdAt,
    b.updatedAt, b.expiresAt⟩

def TransactionBucket.status (s : TransactionBucket) (now : Nat) (batchID : String) :
    Except String Status × TransactionBucket :=
  match s.batches.get batchID with
  | none => (.error "transaction batch not found", s)
  | some b =>
    let b := scheduleBatchLocked core node now b
    (.ok (batchStatus b), ⟨s.batches.put b⟩)

def TransactionBucket.cancel (s : TransactionBucket) (now : Nat) (persisted : Except String Unit)
    (batchID token : String) : Except String Status × TransactionBucket :=
  match s.batches.get batchID with
  | none => (.error "transaction batch not found", s)
  | some b =>
    if core.bucketTokenHash token ≠ b.cancelTokenHash then (.error "invalid transaction batch cancellation token", s)
    else if b.state = .completed then (.error "completed transaction batch cannot be canceled", s)
    else
      let b := { b.cancelQueued "canceled before txpool submission" with
        state := .canceled, updatedAt := now / second, completedAt := now / second }
      (persisted.map fun _ => batchStatus b, ⟨s.batches.put b⟩)

def TransactionBucket.reservedNonce (s : TransactionBucket) (address : Address) : Nat :=
  nextSenderNonceLocked (s.activeOf address) 0

def TransactionBucket.runBatch (now : Nat) (deleted : Bool) (s : TransactionBucket) (id : String) : TransactionBucket :=
  match s.batches.get id with
  | none => s
  | some b =>
    let b := scheduleBatchLocked core node now b
    if 0 < b.completedAt ∧ (transactionBucketRetention : Int) < now - b.completedAt * second ∧ deleted then
      ⟨s.batches.erase id⟩
    else ⟨s.batches.put b⟩

def TransactionBucket.ids (s : TransactionBucket) : List String :=
  (s.batches.rows.map (·.id)).insertionSort (· ≤ ·)

def TransactionBucket.run (s : TransactionBucket) (now : Nat) (nodes : String → Backend) (deleted : String → Bool) :
    TransactionBucket :=
  s.ids.foldl (fun s id => s.runBatch core (nodes id) now (deleted id) id) s

/-! ## Runs -/

inductive Event where
  | begin (node : Backend) (now : Nat) (id token : String) (persisted : Except String Unit) (expected : Nat) (raw : Bytes)
  | queue (node : Backend) (now : Nat) (persisted : Except String Unit) (batchID : String) (index : Nat) (raw : Bytes)
  | status (node : Backend) (now : Nat) (batchID : String)
  | cancel (now : Nat) (persisted : Except String Unit) (batchID token : String)
  | run (now : Nat) (nodes : String → Backend) (deleted : String → Bool)

def step (s : TransactionBucket) : Event → TransactionBucket
  | .begin node now id token persisted expected raw => (s.begin core node now id token persisted expected raw).2
  | .queue node now persisted batchID index raw => (s.queue core node now persisted batchID index raw).2
  | .status node now batchID => (s.status core node now batchID).2
  | .cancel now persisted batchID token => (s.cancel core now persisted batchID token).2
  | .run now nodes deleted => s.run core now nodes deleted

end TkmChain.Eth
