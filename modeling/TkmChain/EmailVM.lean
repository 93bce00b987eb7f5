import TkmChain.Branch
import TkmChain.Registry
import TkmChain.Table

/-!
# The EmailVM index

Names, mailboxes, payments and messages are actions inside shielded transactions.
The service replays the canonical chain into an index, one block at a time, and
keeps a snapshot of the index and a record of every message in the database. The
text and JSON libraries are parameters.
-/

namespace TkmChain

structure EmailAction where
  version : Nat
  kind : String
  (domain username : String := "")
  units : Nat := 0
  (mailbox fromBox toBox key ciphertext nonce payout registryHash : String := "")
  deriving DecidableEq

structure EmailEnv where
  backend : Backend
  sender : Tx → Option Address
  parseAction : Bytes → Option EmailAction
  (toLower trimSpace : String → String)
  equalFold : String → String → Bool
  /-- `common.IsHexAddress` and `common.HexToAddress`. -/
  hexToAddress : String → Option Address
  addressHex : Address → String
  hashHex : Hash → String
  decodeHex : String → Option Bytes
  validPublicKey : Bytes → Bool

/-! ## Constants -/

def emailVMLegacyActionVersion : Nat := 1
def emailVMActionVersion : Nat := 3
def emailVMBuiltinDomain : String := "tkm"
def emailVMMaxDomainUnits : Nat := 1000000
def emailVMMaxApplicationBytes : Nat := 12 * 1024
def emailVMMaxCiphertextBytes : Nat := 8 * 1024
def emailVMActionMagic : Bytes := Bytes.ofText "TKMEMAILVM1"

def emailVMFees (version : Nat) : Nat × Nat :=
  if version = emailVMLegacyActionVersion then (30000 * ether, 100 * ether) else (2500 * ether, ether)

def emailVMDomainQuoteForVersion (units version : Nat) : Option Nat :=
  if units = 0 ∨ emailVMMaxDomainUnits < units then none
  else some ((emailVMFees version).1 + units * (emailVMFees version).2)

/-! ## Names -/

def isNameChar (c : Char) : Bool := ('a' ≤ c && c ≤ 'z') || ('0' ≤ c && c ≤ '9')

def matchesName (inner : List Char) (maxLength : Nat) (s : String) : Bool :=
  let cs := s.toList
  cs.length ≤ maxLength && cs.head?.any isNameChar && cs.getLast?.any isNameChar &&
    cs.all fun c => isNameChar c || c ∈ inner

namespace EmailEnv

variable (env : EmailEnv)

def normalizeEmailDomain (value : String) (allowBuiltin : Bool) : Option String :=
  let value := env.trimSpace (env.toLower value)
  let value := match value.toList with
    | '@' :: rest => String.ofList rest
    | _ => value
  if value = emailVMBuiltinDomain then if allowBuiltin then some value else none
  else if matchesName ['-'] 63 value then some value else none

def normalizeEmailUsername (value : String) : Option String :=
  let value := env.trimSpace (env.toLower value)
  if matchesName ['.', '_', '-'] 64 value then some value else none

def normalizeEmailAddress (value : String) : Option String :=
  match (env.trimSpace (env.toLower value)).toList.splitOn '@' with
  | [username, domain] => do
    let username ← env.normalizeEmailUsername (String.ofList username)
    let domain ← env.normalizeEmailDomain (String.ofList domain) true
    some (username ++ "@" ++ domain)
  | _ => none

def emailVMRegistryHash (kind name : String) : Hash :=
  env.backend.keccak256 (Bytes.ofText "TKM_EMAILVM_REGISTRY_V1" ++ [0] ++ Bytes.ofText kind ++ [0] ++ Bytes.ofText name)

/-- The hash of a name, if the action commits to it; the first two versions do not. -/
def emailVMActionRegistryHash (action : EmailAction) (kind name : String) : Option Hash :=
  let expected := env.emailVMRegistryHash kind name
  if action.version < emailVMActionVersion ∨ env.equalFold (env.trimSpace action.registryHash) (env.hashHex expected) then
    some expected
  else none

def emailVMActionPayout (value : String) (fallback : Address) : Option Address :=
  let payout := if env.trimSpace value = "" then some fallback else env.hexToAddress value
  payout.filter (· ≠ 0)

def decodeEmailVMAction (data : Bytes) : Option EmailAction :=
  if data.length ≤ emailVMActionMagic.length ∨ emailVMMaxApplicationBytes < data.length ∨
      ¬ emailVMActionMagic.isPrefixOf data then none
  else (env.parseAction (data.drop emailVMActionMagic.length)).filter fun action =>
    emailVMLegacyActionVersion ≤ action.version ∧ action.version ≤ emailVMActionVersion

end EmailEnv

def emailVMPendingKey (version : Nat) (key : String) : String :=
  if version = emailVMLegacyActionVersion then key else "v" ++ toString version ++ ":" ++ key

/-! ## Records -/

structure EmailDomain where
  name : String
  registryHash : Hash
  (operator payoutAddress : Address)
  (totalUnits usedUnits availableUnits registrationFee capacityFee subscriberPrice : Nat)
  registrationTx : Hash
  paymentTxs : List Hash
  lastPayoutTx : Hash
  registeredBlock : Nat
  lastExpansionTx : Hash
  lastUpdatedBlock : Nat
  deriving DecidableEq

structure EmailMailbox where
  address : String
  registryHash : Hash
  (username domain : String)
  (owner operator paymentRecipient : Address)
  price : Nat
  purchaseTx : Hash
  paymentTxs : List Hash
  createdBlock : Nat
  encryptionKey : Bytes
  keyTx : Hash
  keyBlock : Nat
  deriving DecidableEq

structure EmailNameRegistration where
  registryHash : Hash
  (kind name domain username : String)
  owner : Address
  txHash : Hash
  block : Nat
  deriving DecidableEq

structure EmailMailboxKey where
  mailbox : String
  owner : Address
  publicKey : Bytes
  txHash : Hash
  block : Nat
  deriving DecidableEq

structure EmailMessage where
  id : Hash
  (fromBox toBox : String)
  (ciphertext nonce : Bytes)
  (bodyHash txHash : Hash)
  (block txIndex timestamp : Nat)
  deriving DecidableEq

structure EmailPendingPayment where
  (key kind domain username : String)
  (payer recipient : Address)
  (required paid : Nat)
  paymentTxs : List Hash
  (startedBlock updatedBlock : Nat)
  deriving DecidableEq

structure EmailView where
  superAddress : Address
  superTx : Hash
  superBlock : Nat
  domains : Table EmailDomain.name
  mailboxes : Table EmailMailbox.address
  registry : Table EmailNameRegistration.registryHash
  keys : Table EmailMailboxKey.mailbox
  messages : Hash → Option EmailMessage
  pending : Table EmailPendingPayment.key

def EmailView.empty : EmailView where
  superAddress := 0
  superTx := 0
  superBlock := 0
  domains := .empty
  mailboxes := .empty
  registry := .empty
  keys := .empty
  messages _ := none
  pending := .empty

def EmailDomain.registration (d : EmailDomain) : EmailNameRegistration where
  registryHash := d.registryHash
  kind := "domain"
  name := d.name
  domain := d.name
  username := ""
  owner := d.operator
  txHash := d.registrationTx
  block := d.registeredBlock

def EmailMailbox.registration (m : EmailMailbox) : EmailNameRegistration where
  registryHash := m.registryHash
  kind := "mailbox"
  name := m.address
  domain := m.domain
  username := m.username
  owner := m.owner
  txHash := m.purchaseTx
  block := m.createdBlock

def EmailView.superRegistration (st : EmailView) (hash : Hash) : EmailNameRegistration where
  registryHash := hash
  kind := "domain"
  name := emailVMBuiltinDomain
  domain := emailVMBuiltinDomain
  username := ""
  owner := st.superAddress
  txHash := st.superTx
  block := st.superBlock

/-! ## Actions -/

def stopIf (p : Prop) [Decidable p] : Option Unit := if p then none else some ()

theorem stopIf_some [Decidable p] : stopIf p = some u ↔ ¬ p := by
  unfold stopIf
  split
  · simp_all
  · simp_all

structure EmailContext where
  envelope : ShieldedTransaction
  sender : Address
  txHash : Hash
  (block txIndex timestamp : Nat)

namespace EmailView

variable (env : EmailEnv) (st : EmailView) (action : EmailAction) (ctx : EmailContext)

def applySuper : EmailView :=
  match env.normalizeEmailDomain action.domain true with
  | none => st
  | some domain =>
    if domain ≠ emailVMBuiltinDomain ∨ ctx.sender = 0 ∨ st.superAddress ≠ 0 then st
    else match env.emailVMActionRegistryHash action "domain" domain with
      | none => st
      | some hash =>
        if (st.registry.get hash).isSome then st
        else
          let st := { st with superAddress := ctx.sender, superTx := ctx.txHash, superBlock := ctx.block }
          { st with registry := st.registry.put (st.superRegistration hash) }

def emailVMWithdrawalAmount (envelope : ShieldedTransaction) (recipient : Address) : Option Nat :=
  if envelope.withdrawalRecipient = recipient then
    (envelope.withdrawalValue.filter (0 < ·)).map Int.toNat
  else none

structure Order where
  (key kind domain username : String)
  (payer recipient : Address)
  required : Nat

def pendingPayment (order : Order) : EmailPendingPayment :=
  (st.pending.get order.key).getD
    { key := order.key, kind := order.kind, domain := order.domain, username := order.username, payer := order.payer,
      recipient := order.recipient, required := order.required, paid := 0, paymentTxs := [], startedBlock := ctx.block,
      updatedBlock := 0 }

/-- `applyInstallmentLocked`: the transactions that paid the order, once it is complete. -/
def applyInstallment (order : Order) : Option (List Hash) × EmailView :=
  match emailVMWithdrawalAmount ctx.envelope order.recipient with
  | none => (none, st)
  | some amount =>
    let pending := st.pendingPayment ctx order
    if 2 ^ 64 ≤ amount ∨ pending.payer ≠ order.payer ∨ pending.recipient ≠ order.recipient ∨
        pending.required ≠ order.required ∨ ctx.txHash ∈ pending.paymentTxs ∨ order.required < pending.paid + amount then
      (none, st)
    else
      let pending := { pending with
        paid := pending.paid + amount
        paymentTxs := pending.paymentTxs ++ [ctx.txHash]
        updatedBlock := ctx.block }
      if pending.paid ≠ order.required then (none, { st with pending := st.pending.put pending })
      else (some pending.paymentTxs, { st with pending := st.pending.erase order.key })

def operatorOrder : Option (EmailDomain × Order) := do
  let domain ← env.normalizeEmailDomain action.domain false
  stopIf (action.units = 0 ∨ emailVMMaxDomainUnits < action.units ∨ ctx.sender = 0)
  let hash ← env.emailVMActionRegistryHash action "domain" domain
  stopIf ((st.domains.get domain).isSome ∨ (st.registry.get hash).isSome)
  let quote ← emailVMDomainQuoteForVersion action.units action.version
  let payout ← env.emailVMActionPayout action.payout ctx.sender
  stopIf (st.superAddress = 0)
  let fees := emailVMFees action.version
  some
    ({ name := domain, registryHash := hash, operator := ctx.sender, payoutAddress := payout,
       totalUnits := action.units, usedUnits := 0, availableUnits := action.units, registrationFee := fees.1,
       capacityFee := action.units * fees.2, subscriberPrice := fees.2, registrationTx := ctx.txHash, paymentTxs := [],
       lastPayoutTx := 0, registeredBlock := ctx.block, lastExpansionTx := 0, lastUpdatedBlock := ctx.block },
     { key := emailVMPendingKey action.version ("operator:" ++ env.addressHex ctx.sender ++ ":" ++ domain ++ ":" ++
         toString action.units ++ ":" ++ env.addressHex payout),
       kind := "operator", domain := domain, username := "", payer := ctx.sender, recipient := st.superAddress,
       required := quote })

def applyOperator : EmailView :=
  match st.operatorOrder env action ctx with
  | none => st
  | some (domain, order) =>
    match st.applyInstallment ctx order with
    | (none, st) => st
    | (some paymentTxs, st) =>
      let domain := { domain with paymentTxs := paymentTxs }
      { st with domains := st.domains.put domain, registry := st.registry.put domain.registration }

def applyPayout : EmailView :=
  match env.normalizeEmailDomain action.domain false, env.emailVMActionPayout action.payout 0 with
  | some domain, some payout =>
    match st.domains.get domain with
    | none => st
    | some record =>
      if record.operator ≠ ctx.sender then st
      else { st with domains := st.domains.put { record with
        payoutAddress := payout, lastUpdatedBlock := ctx.block, lastPayoutTx := ctx.txHash } }
  | _, _ => st

def expansionOrder : Option (EmailDomain × Order) := do
  let domain ← env.normalizeEmailDomain action.domain false
  stopIf (action.units = 0 ∨ emailVMMaxDomainUnits < action.units)
  let record ← st.domains.get domain
  stopIf (record.operator ≠ ctx.sender ∨ emailVMMaxDomainUnits - action.units < record.totalUnits)
  stopIf (st.superAddress = 0)
  some (record,
    { key := emailVMPendingKey action.version ("expand:" ++ env.addressHex ctx.sender ++ ":" ++ domain ++ ":" ++
        toString action.units),
      kind := "expand", domain := domain, username := "", payer := ctx.sender, recipient := st.superAddress,
      required := action.units * (emailVMFees action.version).2 })

def applyExpansion : EmailView :=
  match st.expansionOrder env action ctx with
  | none => st
  | some (record, order) =>
    match st.applyInstallment ctx order with
    | (none, st) => st
    | (some _, st) =>
      { st with domains := st.domains.put { record with
        totalUnits := record.totalUnits + action.units
        availableUnits := record.totalUnits + action.units - record.usedUnits
        capacityFee := record.capacityFee + order.required
        lastExpansionTx := ctx.txHash
        lastUpdatedBlock := ctx.block } }

def seller (domain : String) : Option (Address × Address) :=
  if st.superAddress = 0 then none
  else if domain = emailVMBuiltinDomain then some (st.superAddress, st.superAddress)
  else match st.domains.get domain with
    | none => none
    | some record =>
      if record.totalUnits ≤ record.usedUnits then none
      else some (if record.payoutAddress = 0 then record.operator else record.payoutAddress, record.operator)

def purchaseOrder : Option (EmailMailbox × Order) := do
  let username ← env.normalizeEmailUsername action.username
  let domain ← env.normalizeEmailDomain action.domain true
  let address := username ++ "@" ++ domain
  let hash ← env.emailVMActionRegistryHash action "mailbox" address
  stopIf ((st.mailboxes.get address).isSome ∨ (st.registry.get hash).isSome)
  let (recipient, operator) ← st.seller domain
  let price := (emailVMFees action.version).2
  some
    ({ address := address, registryHash := hash, username := username, domain := domain, owner := ctx.sender,
       operator := operator, paymentRecipient := recipient, price := price, purchaseTx := ctx.txHash, paymentTxs := [],
       createdBlock := ctx.block, encryptionKey := [], keyTx := 0, keyBlock := 0 },
     { key := emailVMPendingKey action.version ("buy:" ++ env.addressHex ctx.sender ++ ":" ++ address),
       kind := "buy", domain := domain, username := username, payer := ctx.sender, recipient := recipient,
       required := price })

def useUnit (domain : String) : EmailView :=
  if domain = emailVMBuiltinDomain then st
  else match st.domains.get domain with
    | none => st
    | some record =>
      { st with domains := st.domains.put { record with
        usedUnits := record.usedUnits + 1
        availableUnits := record.totalUnits - (record.usedUnits + 1)
        lastUpdatedBlock := ctx.block } }

def applyMailboxPurchase : EmailView :=
  match st.purchaseOrder env action ctx with
  | none => st
  | some (mailbox, order) =>
    match st.applyInstallment ctx order with
    | (none, st) => st
    | (some paymentTxs, st) =>
      let mailbox := { mailbox with paymentTxs := paymentTxs }
      let st := { st with
        mailboxes := st.mailboxes.put mailbox, registry := st.registry.put mailbox.registration }
      st.useUnit ctx mailbox.domain

def applyMailboxKey : EmailView :=
  match env.normalizeEmailAddress action.mailbox, env.decodeHex action.key with
  | some mailbox, some key =>
    if key.length ≠ 32 ∨ ¬ env.validPublicKey key then st
    else match st.mailboxes.get mailbox with
      | none => st
      | some record =>
        if record.owner ≠ ctx.sender then st
        else { st with
          mailboxes := st.mailboxes.put { record with encryptionKey := key, keyTx := ctx.txHash, keyBlock := ctx.block }
          keys := st.keys.put ⟨mailbox, ctx.sender, key, ctx.txHash, ctx.block⟩ }
  | _, _ => st

def messageOf : Option EmailMessage := do
  let fromBox ← env.normalizeEmailAddress action.fromBox
  let toBox ← env.normalizeEmailAddress action.toBox
  let record ← st.mailboxes.get fromBox
  stopIf ((st.mailboxes.get toBox).isNone ∨ record.owner ≠ ctx.sender)
  let ciphertext ← env.decodeHex action.ciphertext
  stopIf (ciphertext = [] ∨ emailVMMaxCiphertextBytes < ciphertext.length)
  let nonce ← env.decodeHex action.nonce
  stopIf (nonce.length < 12 ∨ 32 < nonce.length)
  some
    { id := env.backend.keccak256 (Bytes.ofText "TKMEMAIL_MESSAGE_V1" ++ ctx.txHash.bytes ++ Bytes.ofText fromBox ++
        Bytes.ofText toBox ++ nonce ++ ciphertext)
      fromBox := fromBox, toBox := toBox, ciphertext := ciphertext, nonce := nonce,
      bodyHash := env.backend.keccak256 ciphertext, txHash := ctx.txHash, block := ctx.block, txIndex := ctx.txIndex,
      timestamp := ctx.timestamp }

def applyMessage : EmailView :=
  match st.messageOf env action ctx with
  | none => st
  | some message =>
    if (st.messages message.id).isSome then st
    else { st with messages := Function.update st.messages message.id (some message) }

def applyAction : EmailView :=
  if action.kind = "super" then st.applySuper env action ctx
  else if action.kind = "operator" then st.applyOperator env action ctx
  else if action.kind = "expand" then st.applyExpansion env action ctx
  else if action.kind = "buy" then st.applyMailboxPurchase env action ctx
  else if action.kind = "payout" then st.applyPayout env action ctx
  else if action.kind = "key" then st.applyMailboxKey env action ctx
  else if action.kind = "message" then st.applyMessage env action ctx
  else st

def applyTransaction (block timestamp : Nat) (tx : Tx) (txIndex : Nat) : EmailView :=
  match decodeShieldedTransaction env.backend tx.data with
  | .ok (some envelope) =>
    match envelope.spends with
    | [] => st
    | spend :: _ =>
      match env.decodeEmailVMAction spend.encryptedSpendData, env.sender tx with
      | some action, some sender =>
        st.applyAction env action ⟨envelope, sender, tx.hash, block, txIndex, timestamp⟩
      | _, _ => st
  | _ => st

end EmailView

/-! ## The service -/

structure EmailBlock where
  time : Nat
  transactions : List Tx
  deriving DecidableEq

def EmailView.applyBlock (env : EmailEnv) (st : EmailView) (b : Branch EmailBlock) : EmailView :=
  b.content.transactions.zipIdx.foldl (fun st (tx, i) => st.applyTransaction env b.number b.content.time tx i) st

/-- What is indexed: the last block, if any, and the view. The block stands for its number and its hash. -/
structure EmailSnapshot where
  position : Option (Branch EmailBlock)
  view : EmailView

inductive EmailCall
  /-- The head is read, the indexed block is to be compared with the canonical one. -/
  | check (head : Nat)
  | index (head number : Nat)
  deriving DecidableEq

/-- The service with the canonical chain, the index in memory and the messages to be written, the database, and the
running call. `purged` says that the message records were deleted since the last snapshot. -/
structure EmailService where
  chain : Branch EmailBlock
  index : EmailSnapshot
  dirtyMessages : Hash → Bool
  snapshot : Option EmailSnapshot
  records : Hash → Option EmailMessage
  call : Option EmailCall
  purged : Bool

namespace EmailService

def reset : EmailSnapshot := ⟨none, .empty⟩

def init (chain : Branch EmailBlock) : EmailService where
  chain := chain
  index := reset
  dirtyMessages _ := false
  snapshot := none
  records _ := none
  call := none
  purged := false

variable (env : EmailEnv) (svc : EmailService)

def purgeMessageRecords : EmailService := { svc with records := fun _ => none, purged := true }

def save : EmailService :=
  { svc with
    snapshot := some { svc.index with view := { svc.index.view with messages := fun _ => none } }
    records := fun id =>
      if svc.dirtyMessages id then (svc.index.view.messages id).or (svc.records id) else svc.records id
    dirtyMessages := fun _ => false
    purged := false }

/-- `ensureRegistryLocked`, for one domain. -/
def ensureDomain (st : EmailView) (record : EmailDomain) : EmailView :=
  let hash := env.emailVMRegistryHash "domain" record.name
  let st := if record.registryHash = 0 then { st with domains := st.domains.put { record with registryHash := hash } } else st
  { st with registry := st.registry.put { record.registration with registryHash := hash } }

def ensureMailbox (st : EmailView) (record : EmailMailbox) : EmailView :=
  let hash := env.emailVMRegistryHash "mailbox" record.address
  let st :=
    if record.registryHash = 0 then { st with mailboxes := st.mailboxes.put { record with registryHash := hash } } else st
  { st with registry := st.registry.put { record.registration with registryHash := hash } }

def ensureSuper (st : EmailView) : EmailView :=
  if st.superAddress = 0 then st
  else { st with registry :=
    st.registry.put (st.superRegistration (env.emailVMRegistryHash "domain" emailVMBuiltinDomain)) }

def ensureRegistry (st : EmailView) : EmailView :=
  let st := ensureSuper env st
  let st := st.domains.rows.foldl (ensureDomain env) st
  st.mailboxes.rows.foldl (ensureMailbox env) st

def load : EmailService :=
  { svc with
    index := match svc.snapshot with
      | none => reset
      | some s => { s with view := ensureRegistry env { s.view with messages := svc.records } }
    dirtyMessages := fun _ => false
    call := none }

def sync : EmailService :=
  match svc.call with
  | some _ => svc
  | none => { svc with call := some (.check svc.chain.number) }

def discardStale (head : Nat) : EmailService :=
  match svc.index.position with
  | none => svc
  | some b =>
    if svc.chain.ancestor b.number ≠ some b ∨ head < b.number then
      { svc.purgeMessageRecords with index := reset, dirtyMessages := fun _ => false }
    else svc

def startLoop (head : Nat) : EmailService :=
  match svc.index.position with
  | none => { svc with call := some (.index head 0) }
  | some b => { svc with call := if b.number = head then none else some (.index head (b.number + 1)) }

def indexBlock (b : Branch EmailBlock) : EmailService :=
  let view := svc.index.view.applyBlock env b
  { svc with
    index := ⟨some b, view⟩
    dirtyMessages := fun id =>
      svc.dirtyMessages id || (svc.index.view.messages id).isNone && (view.messages id).isSome }

def read : EmailService :=
  match svc.call with
  | none => svc
  | some (.check head) => (svc.discardStale head).startLoop head
  | some (.index head number) =>
    if head < number then { svc.save with call := none }
    else match svc.chain.ancestor number with
      | none => { svc with call := none }
      | some b => { svc.indexBlock env b with call := some (.index head (number + 1)) }

end EmailService

/-! ## Runs -/

inductive EmailEvent
  | reorg (chain : Branch EmailBlock)
  | sync
  | read
  /-- The node stops, perhaps in the middle of a call, and starts again. -/
  | restart

namespace EmailService

variable (env : EmailEnv)

def step (svc : EmailService) : EmailEvent → EmailService
  | .reorg chain => { svc with chain := chain }
  | .sync => svc.sync
  | .read => svc.read env
  | .restart => svc.load env

def run (chain : Branch EmailBlock) (events : List EmailEvent) : EmailService := events.foldl (step env) (init chain)

end EmailService

end TkmChain
