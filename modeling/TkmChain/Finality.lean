import TkmChain.Rewards

/-!
# Finality certificates

A certificate of committee signatures over a digest of the header, the envelope
that carries it in the extra data, and the two places that check it: the miner,
which attaches a certificate to the header it is about to seal, and the
validation of an imported block. The signature schemes and the tries behind the
roots of a block are parameters.
-/

namespace TkmChain

structure Signatures where
  mldsa87Address : Bytes → Option Address
  verifyMLDSA87 : Bytes → Bytes → Bytes → Bool
  pubkeyToAddress : Bytes → Option Address
  verifySignature : Bytes → Bytes → Bytes → Bool

def secpSignatureLength : Nat := 65

def finalityEnvelopeMagic : Bytes := Bytes.ofText "TKM_ANTARTICAL_FINALITY_V1"

def invalidCertificateText : String := "invalid Antartical finality certificate"

def invalidEnvelopeText : String := "invalid Antartical finality envelope"

structure FinalityCertificate where
  slot : UInt64
  blockHash : Hash
  committeeSize : UInt64
  signers : List Address
  (publicKeys signatures : List Bytes)
  deriving DecidableEq

/-! ## Verification -/

def Signatures.attests (S : Signatures) (hash : Hash) (signer : Address) (key sig : Bytes) : Bool :=
  if key.length = mldsa87PublicKeySize then
    S.mldsa87Address key = some signer && S.verifyMLDSA87 key hash.bytes sig
  else
    sig.length = secpSignatureLength && S.pubkeyToAddress key = some signer &&
      S.verifySignature key hash.bytes (sig.take 64)

namespace FinalityCertificate

variable (S : Signatures)

def verifySigners (hash : Hash) (seen : List Address) : List Address → List Bytes → List Bytes → Bool
  | signer :: signers, key :: keys, sig :: sigs =>
    if signer = 0 ∨ signer ∈ seen ∨ (seen.head?.any fun last => signer ≤ last) ∨ key.length = 0 then false
    else if !S.attests hash signer key sig then false
    else verifySigners hash (signer :: seen) signers keys sigs
  | [], _, _ => true
  | _ :: _, _, _ => false

def committee (c : FinalityCertificate) : Nat :=
  if c.committeeSize = 0 then c.signers.length else c.committeeSize.toNat

def verify (c : FinalityCertificate) (quorumNumerator quorumDenominator : Nat) : Except String Unit := do
  failIf (c.slot = 0 ∨ c.blockHash = 0 ∨ c.signers.length = 0 ∨ c.committee < c.signers.length ∨
      c.signers.length ≠ c.publicKeys.length ∨ c.signers.length ≠ c.signatures.length ∨
      quorumDenominator = 0 ∨ quorumDenominator < quorumNumerator) invalidCertificateText
  failIf (¬ verifySigners S c.blockHash [] c.signers c.publicKeys c.signatures) invalidCertificateText
  failIf (c.signers.length * quorumDenominator < c.committee * quorumNumerator) invalidCertificateText

/-! ## The envelope -/

def rlp (c : FinalityCertificate) : Bytes :=
  Rlp.encodeList [Rlp.encodeNat c.slot.toNat, Rlp.encodeStr c.blockHash.bytes, Rlp.encodeNat c.committeeSize.toNat,
    Rlp.encodeList ((c.signers.map Address.bytes).map Rlp.encodeStr), Rlp.encodeList (c.publicKeys.map Rlp.encodeStr),
    Rlp.encodeList (c.signatures.map Rlp.encodeStr)]

def ofRlp (b : Bytes) : Option FinalityCertificate := do
  let r ← Rlp.decodeList b
  let (slot, r) ← Rlp.takeStr r
  let slot ← decodeUint64 slot
  let (blockHash, r) ← Rlp.takeStr r
  guard (blockHash.length = 32)
  let (size, r) ← Rlp.takeStr r
  let size ← decodeUint64 size
  let (signers, r) ← Rlp.takeStrings r
  let signers ← signers.mapM decodeAddress
  let (publicKeys, r) ← Rlp.takeStrings r
  let (signatures, r) ← Rlp.takeStrings r
  guard (r = [])
  some { slot := UInt64.ofNat slot, blockHash := Hash.ofBytes blockHash, committeeSize := UInt64.ofNat size,
         signers, publicKeys, signatures }

def envelopeTail (c : FinalityCertificate) : Bytes := Bytes.be 4 c.rlp.length ++ c.rlp

def encode (c : FinalityCertificate) : Except String Bytes := do
  c.verify S 0 1
  failIf (c.rlp.length = 0 ∨ 2 ^ 32 ≤ c.rlp.length) invalidEnvelopeText
  pure (finalityEnvelopeMagic ++ c.envelopeTail)

def decode (encoded : Bytes) : Except String FinalityCertificate := do
  let start := finalityEnvelopeMagic.length
  failIf (encoded.length < start + 4 ∨ encoded.take start ≠ finalityEnvelopeMagic) invalidEnvelopeText
  let size := Bytes.toNat ((encoded.drop start).take 4)
  failIf (size = 0 ∨ start + 4 + size ≠ encoded.length) invalidEnvelopeText
  let c ← orFail (ofRlp (encoded.drop (start + 4))) invalidEnvelopeText
  failIf (c.slot = 0) invalidEnvelopeText
  c.verify S 0 1
  pure c

def span (extra : Bytes) : Except String (Option (Nat × Nat)) :=
  match indexOf finalityEnvelopeMagic extra with
  | none => .ok none
  | some i => do
    let start := i + finalityEnvelopeMagic.length
    failIf (indexOf finalityEnvelopeMagic (extra.drop start)).isSome invalidEnvelopeText
    failIf (extra.length < start + 4) invalidEnvelopeText
    let size := Bytes.toNat ((extra.drop start).take 4)
    failIf (size = 0 ∨ extra.length < start + 4 + size) invalidEnvelopeText
    pure (some (i, start + 4 + size))

/-- `DecodeFinalityCertificateFromHeaderExtra`. -/
def fromHeaderExtra (extra : Bytes) : Except String (Option FinalityCertificate) := do
  match ← span extra with
  | none => pure none
  | some (i, stop) => (decode S ((extra.take stop).drop i)).map some

/-- `FinalityCertificateFromHeaderExtra`: the extra data without its certificate. -/
def stripHeaderExtra (extra : Bytes) : Except String Bytes := do
  match ← span extra with
  | none => pure extra
  | some (i, stop) => (decode S ((extra.take stop).drop i)).map fun _ => extra.take i ++ extra.drop stop

def insertionPoint (extra : Bytes) : Nat :=
  match indexOf blockHashAnchorMagic extra with
  | some i => if i + blockHashAnchorEncodedSize = extra.length then i else extra.length
  | none => extra.length

def insertAt (extra : Bytes) (i : Nat) (encoded : Bytes) : Bytes := extra.take i ++ encoded ++ extra.drop i

/-- `AttachFinalityCertificate`. -/
def attach (extra : Bytes) (c : FinalityCertificate) : Except String Bytes := do
  let encoded ← c.encode S
  let base ← stripHeaderExtra S extra
  pure (insertAt base (insertionPoint base) encoded)

def fillSlot (c : FinalityCertificate) (number : UInt64) : FinalityCertificate :=
  if c.slot = 0 then { c with slot := number } else c

def commitment (keccak256 : Bytes → Hash) (c : FinalityCertificate) : Hash := keccak256 (finalityEnvelopeMagic ++ c.rlp)

end FinalityCertificate

/-! ## The digest -/

def Header.withExtra (h : Header) (extra : Bytes) : Except String Header :=
  if hf : extra.length + Bytes.width h.difficulty + Bytes.width h.number < 2 ^ 63 then
    .ok { h with extra := extra, fits := hf }
  else .error "header extra data too large"

def lightClientPreimage (chainID : Nat) (blockHash : Hash) : Bytes :=
  Rlp.encodeList [Rlp.encodeStr (Bytes.ofText "TKM_LIGHT_CLIENT_V1"), Rlp.encodeNat chainID,
    Rlp.encodeStr blockHash.bytes]

def lightClientFinalityDigest (keccak256 : Bytes → Hash) (chainID : Option Nat) (blockHash : Hash) :
    Except String Hash := do
  let id ← orFail chainID "invalid TKM stateless light-client proof"
  failIf (id = 0 ∨ 2 ^ 256 ≤ id ∨ blockHash = 0) "invalid TKM stateless light-client proof"
  pure (keccak256 (lightClientPreimage id blockHash))

def headerFinalityDigest (S : Signatures) (keccak256 : Bytes → Hash) (chainID : Option Nat) (h : Header) :
    Except String Hash := do
  let base ← FinalityCertificate.stripHeaderExtra S h.extra
  let copyHeader ← h.withExtra base
  lightClientFinalityDigest keccak256 chainID (copyHeader.hash keccak256)

/-! ## Header metadata -/

def headerMetadataMagic : Bytes := Bytes.ofText "TKM_ANTARTICAL_META_V1"

def antarticalProfileVersion : Nat := 1

def invalidMetadataText : String := "invalid Antartical header metadata"

structure ProtocolGasVector where
  (evm tvm proof blob : Nat)
  deriving DecidableEq

structure HeaderMetadata where
  version : Nat
  gasLimits : ProtocolGasVector
  (stateWitness assetRegistry conflictTranscript randomness oracle crossChain : Hash)
  (precompileRegistry finality : Hash)
  deriving DecidableEq

/-- `bytes.LastIndex`. -/
def lastIndexOf (m : Bytes) : Bytes → Option Nat
  | [] => if m = [] then some 0 else none
  | x :: b =>
    match lastIndexOf m b with
    | some i => some (i + 1)
    | none => if m.isPrefixOf (x :: b) then some 0 else none

namespace HeaderMetadata

def commitments (m : HeaderMetadata) : List Hash :=
  [m.stateWitness, m.assetRegistry, m.conflictTranscript, m.randomness, m.oracle, m.crossChain, m.precompileRegistry,
    m.finality]

def validate (m : HeaderMetadata) : Except String Unit := do
  failIf (m.version ≠ antarticalProfileVersion) invalidMetadataText
  failIf (0 ∈ m.commitments) invalidMetadataText

def ofWire (version : Nat) : List Nat → List Hash → Option HeaderMetadata
  | [evm, tvm, proof, blob], [sw, ar, ct, ra, orc, cc, pr, fi] => some
    { version, gasLimits := ⟨evm, tvm, proof, blob⟩, stateWitness := sw, assetRegistry := ar, conflictTranscript := ct,
      randomness := ra, oracle := orc, crossChain := cc, precompileRegistry := pr, finality := fi }
  | _, _ => none

def decodeHash (b : Bytes) : Option Hash := if b.length = 32 then some (Hash.ofBytes b) else none

def ofRlp (b : Bytes) : Option HeaderMetadata := do
  let r ← Rlp.decodeList b
  let (version, r) ← Rlp.takeStr r
  let version ← decodeUint64 version
  let (limits, r) ← Rlp.takeStrings r
  let limits ← limits.mapM decodeUint64
  let (hashes, r) ← Rlp.takeStrings r
  let hashes ← hashes.mapM decodeHash
  guard (r = [])
  ofWire version limits hashes

def decode (encoded : Bytes) : Except String HeaderMetadata := do
  let start := headerMetadataMagic.length
  failIf (encoded.length < start + 4 ∨ encoded.take start ≠ headerMetadataMagic) invalidMetadataText
  let size := Bytes.toNat ((encoded.drop start).take 4)
  failIf (size = 0 ∨ start + 4 + size ≠ encoded.length) invalidMetadataText
  let m ← orFail (ofRlp (encoded.drop (start + 4))) invalidMetadataText
  m.validate
  pure m

def fromExtra (extra : Bytes) : Except String (Option HeaderMetadata) :=
  match lastIndexOf headerMetadataMagic extra with
  | none => .ok none
  | some i => do
    failIf (indexOf headerMetadataMagic extra ≠ some i) invalidMetadataText
    let start := i + headerMetadataMagic.length
    failIf (extra.length < start + 4) invalidMetadataText
    let size := Bytes.toNat ((extra.drop start).take 4)
    failIf (size = 0 ∨ extra.length < start + 4 + size) invalidMetadataText
    (decode ((extra.take (start + 4 + size)).drop i)).map some

end HeaderMetadata

/-! ## Validation of an imported block -/

/-- The protocol capabilities with their own switch. `ready` is the `consensusReady` column of the feature table. -/
def isAntarticalConsensusFeatureActive (ready : Bool) (c : ChainConfig) (num time : Nat) : Bool :=
  c.isAntartical num time && ready

section
variable (S : Signatures) (keccak256 : Bytes → Hash) (cfg : ChainConfig) (ready : Bool)

def checkSigners (c : FinalityCertificate) (active : List ValidatorRecord) (signer quorum : String) :
    Except String Unit := do
  failIf (¬ c.signers.all fun s => s ∈ active.map (·.address)) signer
  (c.verify S 2 3).mapError (quorum ++ ·)

def validateCertificate (h : Header) (st : StateDB) (metadata : Option HeaderMetadata) (c : FinalityCertificate) :
    Except String Unit := do
  failIf (¬ cfg.isAntartical h.number h.time.toNat)
    "Antartical finality certificate is present before fork activation"
  failIf (c.slot ≠ h.number64) "Antartical finality slot mismatch"
  failIf (headerFinalityDigest S keccak256 cfg.chainID h ≠ .ok c.blockHash) "Antartical finality digest mismatch"
  match activeValidatorRecords st h.number64.toNat with
  | .error _ => .error "Antartical finality certificate has no active validator committee"
  | .ok active => do
    failIf (active = []) "Antartical finality certificate has no active validator committee"
    failIf (c.committeeSize.toNat ≠ active.length) "Antartical finality committee size mismatch"
    checkSigners S c active "Antartical finality signer is not an active validator" "Antartical finality quorum: "
    failIf (metadata.any fun m => m.finality ≠ c.commitment keccak256)
      "Antartical finality metadata commitment mismatch"

/-- The finality checks of `ValidateState`, with the metadata they read. -/
def validateFinality (h : Header) (st : StateDB) : Except String Unit := do
  let metadata ← (HeaderMetadata.fromExtra h.extra).mapError (invalidMetadataText ++ ": " ++ ·)
  failIf (metadata.isSome ∧ ¬ cfg.isAntartical h.number h.time.toNat)
    "Antartical header metadata is present before fork activation"
  match ← (FinalityCertificate.fromHeaderExtra S h.extra).mapError (invalidCertificateText ++ ": " ++ ·) with
  | some c => validateCertificate S keccak256 cfg h st metadata c
  | none =>
    if isAntarticalConsensusFeatureActive ready cfg h.number h.time.toNat then
      match activeValidatorRecords st h.number64.toNat with
      | .error _ => .error "read Antartical validator committee"
      | .ok active => failIf (active ≠ []) "Antartical single-slot finality requires a quorum certificate"
    else pure ()

/-! ## The miner -/

def attachCertificate (h : Header) (active : List ValidatorRecord) (c : FinalityCertificate) :
    Except String Header := do
  let c := c.fillSlot h.number64
  failIf (c.slot ≠ h.number64 ∨ c.committeeSize.toNat ≠ active.length)
    "invalid Antartical finality certificate committee or slot"
  failIf (headerFinalityDigest S keccak256 cfg.chainID h ≠ .ok c.blockHash)
    "invalid Antartical finality certificate header digest"
  checkSigners S c active "finality signer is not an active validator" "invalid Antartical finality quorum: "
  let extra ← (FinalityCertificate.attach S h.extra c).mapError ("attach Antartical finality certificate: " ++ ·)
  h.withExtra extra

/-- The finality step of `commit`. The provider is missing, fails, or returns a certificate. -/
def commitFinality (h : Header) (st : StateDB) (provider : Option (Except String FinalityCertificate)) :
    Except Err Header :=
  if isAntarticalConsensusFeatureActive ready cfg h.number h.time.toNat then do
    let active ← activeValidatorRecords st h.number64.toNat
    if active = [] then pure h
    else
      let answer ← orFail provider
        (.text "Antartical single-slot finality requires a validator finality provider")
      let c ← answer.mapError fun e => .text ("create Antartical finality certificate: " ++ e)
      (attachCertificate S keccak256 cfg h active c).mapError .text
  else pure h

end

/-! ## Assembly and sealing -/

structure Derivation (τ ρ : Type) where
  txRoot : List τ → Hash
  receiptRoot : List ρ → Hash
  mergeBloom : List ρ → BitVec 2048
  uncleHash : List Header → Hash

def emptyTxsHash : Hash := 0x56e81f171bcc55a6ff8345e692c0f86e5b48e01b996cadc001622fb5e363b421

def emptyReceiptsHash : Hash := 0x56e81f171bcc55a6ff8345e692c0f86e5b48e01b996cadc001622fb5e363b421

def emptyUncleHash : Hash := 0x1dcc4de8dec75d7aab85b567b6ccd41ad312451b948a7413f0a142fd40d49347

/-- `types.NewBlock` on a body without withdrawals, as the miner calls it. -/
def newBlock {τ ρ : Type} (D : Derivation τ ρ) (h : Header) (txs : List τ) (uncles : List Header) (receipts : List ρ) :
    Header :=
  { h with
    txHash := if txs = [] then emptyTxsHash else D.txRoot txs
    receiptHash := if receipts = [] then emptyReceiptsHash else D.receiptRoot receipts
    bloom := if receipts = [] then h.bloom else D.mergeBloom receipts
    uncleHash := if uncles = [] then emptyUncleHash else D.uncleHash uncles
    withdrawalsHash := none }

def sealed (h : Header) (nonce : BitVec 64) (mixDigest : Hash) : Header := { h with nonce, mixDigest }

end TkmChain
