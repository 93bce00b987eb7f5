import TkmChain.Config

/-!
# Storage slots of the shielded pool

Consensus state lives in hashed slots of the reserved pool account. A slot is
kept here as what is hashed: its domain, role and key, so that two slots are one
only if their preimages are.
-/

namespace TkmChain

def poolAddress : Address := 0xf7

/-- The digests stored in two words, under `role/0` and `role/1`. -/
inductive DigestRole
  | node
  | currentRoot
  | stampNode
  | stampAddressOwner
  | stampCurrentRoot
  | bindingNode
  | bindingCommitment
  | bindingCurrentRoot
  deriving DecidableEq, Repr

inductive LedgerRole
  | opening
  | deposited
  | withdrawn
  | fees
  | backing
  | initialized
  deriving DecidableEq, Repr

/-- The roles of `ShieldedV3StateSlot`. -/
inductive Role
  | half (r : DigestRole) (second : Bool)
  | ledger (r : LedgerRole)
  | feeTicket
  | nextIndex
  | nullifier
  | blockNullifier
  | supply
  | nodePresent
  | commitment
  | commitmentIndex
  | root
  | shield4LinkTag
  | shield4BlockLinkTag
  | stampAddress
  | stampCommitment (second : Bool)
  | stampOwnerIndex
  | stampNextIndex
  | stampNodePresent
  | stampRoot
  | voteActive
  | voteReason
  | voteCount
  | voteSuspended
  | validatorRecord
  | validatorChunkCount
  | validatorByteLength
  | validatorChunk
  | validatorIndex
  | validatorCount
  | validatorEvidence
  | bindingCount
  | bindingNodePresent
  | bindingOwnerIndex
  | bindingRoot
  | accountAbstractionNonce
  | crossChainPayload
  | crossChainPayloadLength
  | crossChainReplay
  | oracleObservation
  | oracleRound
  | oracleValue
  | oracleValueLength
  | privateTVMIntent
  | privateTVMRoot (second : Bool)
  deriving DecidableEq, Repr

inductive V4Role
  | linkTag
  | blockLinkTag
  deriving DecidableEq, Repr

inductive V6Role
  | outputCount
  | outputKey
  | outputCommitment
  | outputTx
  | outputRoot
  | keyIndex
  | frontier
  | keyImage
  | keyImageCount
  | keyImageIndex
  | blockKeyImage
  deriving DecidableEq, Repr

inductive V1Role
  | commitment
  | nullifier
  | nextIndex
  | frontier
  | commitmentIndex
  | commitmentPath
  | merkleRoot
  deriving DecidableEq, Repr

inductive Slot
  | v1 (r : V1Role) (key : Bytes)
  | v3 (r : Role) (key : Bytes)
  | v3Asset (asset : Nat) (r : Role) (key : Bytes)
  | v4 (r : V4Role) (key : Bytes)
  | v6 (r : V6Role) (key : Bytes)
  deriving DecidableEq, Repr

/-! ## Kinds of slots -/

inductive SlotKind
  | tree
  | spent
  | supply
  | ledger
  | ticket
  | registry
  | other
  deriving DecidableEq, Repr

def Role.kind : Role → SlotKind
  | .half .. | .nextIndex | .nodePresent | .commitment | .commitmentIndex | .root => .tree
  | .stampAddress | .stampCommitment _ | .stampOwnerIndex | .stampNextIndex | .stampNodePresent | .stampRoot => .tree
  | .bindingCount | .bindingNodePresent | .bindingOwnerIndex | .bindingRoot => .tree
  | .nullifier | .shield4LinkTag => .spent
  | .supply => .supply
  | .ledger _ => .ledger
  | .feeTicket => .ticket
  | .validatorChunkCount | .validatorByteLength | .validatorChunk | .validatorIndex | .validatorCount => .registry
  | _ => .other

def Slot.kind : Slot → SlotKind
  | .v1 r _ => if r = .nullifier then .other else .tree
  | .v3 r _ => r.kind
  | .v3Asset _ r _ => r.kind
  | .v4 .. => .spent
  | .v6 .. => .tree

/-! ## Preimages

What is hashed: the text of the domain, the text of the role with a slash behind it, and the key. -/

def DigestRole.text : DigestRole → String
  | .node => "node"
  | .currentRoot => "current-root"
  | .stampNode => "stamp/node"
  | .stampAddressOwner => "stamp/address-owner"
  | .stampCurrentRoot => "stamp/current-root"
  | .bindingNode => "shield6-binding/node"
  | .bindingCommitment => "shield6-binding/commitment"
  | .bindingCurrentRoot => "shield6-binding/current-root"

def LedgerRole.text : LedgerRole → String
  | .opening => "opening"
  | .deposited => "deposited"
  | .withdrawn => "withdrawn"
  | .fees => "fees"
  | .backing => "backing"
  | .initialized => "initialized"

def Role.text : Role → String
  | .half r false => r.text ++ "/0"
  | .half r true => r.text ++ "/1"
  | .ledger r => "confidential-ledger/v1/" ++ r.text
  | .feeTicket => "confidential-ledger/v1/fee-ticket"
  | .nextIndex => "next-index"
  | .nullifier => "nullifier"
  | .blockNullifier => "block-nullifier"
  | .supply => "supply"
  | .nodePresent => "node-present"
  | .commitment => "commitment"
  | .commitmentIndex => "commitment-index"
  | .root => "root"
  | .shield4LinkTag => "shield4/link-tag"
  | .shield4BlockLinkTag => "shield4/block-link-tag"
  | .stampAddress => "stamp/address"
  | .stampCommitment false => "stamp/address-commitment/0"
  | .stampCommitment true => "stamp/address-commitment/1"
  | .stampOwnerIndex => "stamp/owner-index"
  | .stampNextIndex => "stamp/next-index"
  | .stampNodePresent => "stamp/node-present"
  | .stampRoot => "stamp/root"
  | .voteActive => "governance/address-vote/active"
  | .voteReason => "governance/address-vote/reason"
  | .voteCount => "governance/address-vote/count"
  | .voteSuspended => "governance/address-vote/suspended"
  | .validatorRecord => "validator/record"
  | .validatorChunkCount => "validator/record-chunk-count"
  | .validatorByteLength => "validator/record-byte-length"
  | .validatorChunk => "validator/record-chunk"
  | .validatorIndex => "validator/index"
  | .validatorCount => "validator/count"
  | .validatorEvidence => "validator/evidence"
  | .bindingCount => "shield6-binding/count"
  | .bindingNodePresent => "shield6-binding/node-present"
  | .bindingOwnerIndex => "shield6-binding/owner-index"
  | .bindingRoot => "shield6-binding/root"
  | .accountAbstractionNonce => "account-abstraction/nonce"
  | .crossChainPayload => "cross-chain/payload"
  | .crossChainPayloadLength => "cross-chain/payload-length"
  | .crossChainReplay => "cross-chain/replay"
  | .oracleObservation => "oracle/observation"
  | .oracleRound => "oracle/round"
  | .oracleValue => "oracle/value"
  | .oracleValueLength => "oracle/value-length"
  | .privateTVMIntent => "private-tvm/intent"
  | .privateTVMRoot false => "private-tvm/root/0"
  | .privateTVMRoot true => "private-tvm/root/1"

def Role.path (r : Role) : Bytes := Bytes.ofText r.text ++ Bytes.ofText "/"

def V4Role.text : V4Role → String
  | .linkTag => "link-tag"
  | .blockLinkTag => "block-link-tag"

def V6Role.text : V6Role → String
  | .outputCount => "output-count"
  | .outputKey => "output-key"
  | .outputCommitment => "output-commitment"
  | .outputTx => "output-tx"
  | .outputRoot => "output-root"
  | .keyIndex => "key-index"
  | .frontier => "accumulator-frontier"
  | .keyImage => "key-image"
  | .keyImageCount => "key-image-count"
  | .keyImageIndex => "key-image-index"
  | .blockKeyImage => "block-key-image"

def V1Role.text : V1Role → String
  | .commitment => "COMMITMENT_V1"
  | .nullifier => "NULLIFIER_V1"
  | .nextIndex => "MERKLE_NEXT_INDEX_V1"
  | .frontier => "MERKLE_FRONTIER_V1"
  | .commitmentIndex => "COMMITMENT_INDEX_V1"
  | .commitmentPath => "COMMITMENT_PATH_V1"
  | .merkleRoot => "MERKLE_ROOT_V1"

inductive SlotDomain
  | shielded
  | shield3
  | shield3Asset
  | shield4
  | shield6
  deriving DecidableEq, Repr

def SlotDomain.text : SlotDomain → String
  | .shielded => "TKM_SHIELDED_"
  | .shield3 => "TKM_SHIELD3_STATE_V1/"
  | .shield3Asset => "TKM_SHIELD3_STATE_ASSET_V1/"
  | .shield4 => "TKM_SHIELD4_STATE_V1/"
  | .shield6 => "TKM_SHIELD6_STATE_V1/"

def Slot.domain : Slot → SlotDomain
  | .v1 .. => .shielded
  | .v3 .. => .shield3
  | .v3Asset .. => .shield3Asset
  | .v4 .. => .shield4
  | .v6 .. => .shield6

def Slot.path : Slot → Bytes
  | .v1 r key => Bytes.ofText r.text ++ key
  | .v3 r key => r.path ++ key
  | .v3Asset asset r key => Bytes.be 8 asset ++ (Bytes.ofText "/" ++ (r.path ++ key))
  | .v4 r key => Bytes.ofText r.text ++ Bytes.ofText "/" ++ key
  | .v6 r key => Bytes.ofText r.text ++ Bytes.ofText "/" ++ key

def Slot.preimage (s : Slot) : Bytes := Bytes.ofText s.domain.text ++ s.path

/-- The storage key of a slot: Keccak in the first and the sixth version, the last 32 bytes of SHA-512 in the others. -/
def Slot.hash (sha512 : Bytes → Bytes) (keccak256 : Bytes → Hash) (s : Slot) : Hash :=
  match s.domain with
  | .shielded | .shield6 => keccak256 s.preimage
  | .shield3 | .shield3Asset | .shield4 => Hash.ofBytes (sha512 s.preimage)

end TkmChain
