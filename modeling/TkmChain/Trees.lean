import TkmChain.Ledger

/-!
# Commitment trees of the pool

The three Tip5 trees (notes, stamps, recipient bindings) share one append loop,
which writes the path of the new leaf level by level and can fail half-way. The
V1/V2 tree and the V6 accumulator keep a frontier and cannot fail once their
checks have passed.
-/

namespace TkmChain

def merkleDepth : Nat := 32

section
variable (B : Backend)

/-! ## The Tip5 trees -/

def v3ZeroesFrom (d : Digest) : Nat → Except Err (List Digest)
  | 0 => .ok [d]
  | n + 1 => do
    let next ← B.hashPair d d
    let rest ← v3ZeroesFrom next n
    pure (d :: rest)

def v3Zeroes : Except Err (List Digest) := v3ZeroesFrom B 0 merkleDepth

def v3NodeKey (level index : Nat) : Bytes := Bytes.be 4 level ++ Bytes.be 8 index

structure TreeRoles where
  node : DigestRole
  present : Role

def noteTree : TreeRoles := ⟨.node, .nodePresent⟩

def stampTree : TreeRoles := ⟨.stampNode, .stampNodePresent⟩

def bindingTree : TreeRoles := ⟨.bindingNode, .bindingNodePresent⟩

def treeNode (t : TreeRoles) (st : StateDB) (level index : Nat) (zeroes : List Digest) : Except Err Digest :=
  if st.storage (.v3 t.present (v3NodeKey level index)) = 0 then .ok (zeroes.getD level 0)
  else v3ReadDigest st t.node (v3NodeKey level index)

def v3Node : StateDB → Nat → Nat → List Digest → Except Err Digest := treeNode noteTree

def stampNode : StateDB → Nat → Nat → List Digest → Except Err Digest := treeNode stampTree

def shieldedV6BindingNode : StateDB → Nat → Nat → List Digest → Except Err Digest := treeNode bindingTree

def writeNode (t : TreeRoles) (level index : Nat) (d : Digest) (st : StateDB) : StateDB :=
  (v3WriteDigest st t.node (v3NodeKey level index) d).setState (.v3 t.present (v3NodeKey level index)) (uint64Hash 1)

def climb (t : TreeRoles) (zeroes : List Digest) : (n level cursor : Nat) → Digest → Proc StateDB Err Digest
  | 0, level, cursor, current => do
    Proc.modify (writeNode t level cursor current)
    pure current
  | n + 1, level, cursor, current => do
    Proc.modify (writeNode t level cursor current)
    let sibling ← Proc.read fun st => treeNode t st level (cursor ^^^ 1) zeroes
    let parent ← Proc.read fun _ =>
      if cursor % 2 = 0 then B.hashPair current sibling else B.hashPair sibling current
    climb t zeroes n (level + 1) (cursor / 2) parent

def shieldedV3NextIndex (st : StateDB) : Nat := uint64FromHash (st.storage (.v3 .nextIndex []))

def appendShieldedV3Leaf (commitment : Digest) (txHash : Hash) : Proc StateDB Err Unit := do
  let index ← Proc.read fun st => .ok (shieldedV3NextIndex st)
  Proc.read fun _ => failIf (2 ^ merkleDepth ≤ index) (.invalidShieldedTx "Shield3 tree full")
  let zeroes ← Proc.read fun _ => v3Zeroes B
  let current ← climb B noteTree zeroes merkleDepth 0 index commitment
  Proc.modify fun st => v3WriteDigest (st.setStates
    [(.v3 .commitmentIndex commitment.bytes, uint64Hash (index + 1)), (.v3 .nextIndex [], uint64Hash (index + 1)),
     (.v3 .root current.bytes, txHash)]) .currentRoot [] current

def appendAntarticalStamp (chainID : Nat) (owner : Digest) (txHash : Hash) : Proc StateDB Err Unit := do
  let index ← Proc.read fun st => .ok (uint64FromHash (st.storage (.v3 .stampNextIndex [])))
  Proc.read fun _ => failIf (2 ^ merkleDepth ≤ index) (.text "stamp registry is full")
  let zeroes ← Proc.read fun _ => v3Zeroes B
  let leaf ← Proc.read fun _ => B.stampLeaf chainID owner
  let current ← climb B stampTree zeroes merkleDepth 0 index leaf
  Proc.modify fun st => v3WriteDigest (st.setStates
    [(.v3 .stampOwnerIndex owner.bytes, uint64Hash (index + 1)), (.v3 .stampNextIndex [], uint64Hash (index + 1)),
     (.v3 .stampRoot current.bytes, txHash)]) .stampCurrentRoot [] current

/-! ## The V1/V2 tree -/

def bn254Modulus : Nat := 21888242871839275222246405745257275088548364400416034343698204186575808495617

def isCanonicalShieldedFieldHash (h : Hash) : Bool := h.toNat < bn254Modulus

def fieldElementFromHash (h : Hash) : Nat := h.toNat % bn254Modulus

def shieldedHashNode (left right : Hash) : Hash :=
  B.mimc [1002, fieldElementFromHash left, fieldElementFromHash right]

def shieldedMerkleZeroes (z : Hash) : Nat → List Hash
  | 0 => []
  | n + 1 => z :: shieldedMerkleZeroes (shieldedHashNode B z z) n

def shieldedMerkleZeroHashes : List Hash := shieldedMerkleZeroes B 0 merkleDepth

def shieldedMerkleFrontierSlot (level : Nat) : Slot := .v1 .frontier (uint64Hash level).bytes

def shieldedCommitmentPathSlot (commitment : Hash) (level : Nat) : Slot :=
  .v1 .commitmentPath (commitment.bytes ++ (uint64Hash level).bytes)

def shieldedMerkleRootSlot (root : Hash) : Slot := .v1 .merkleRoot root.bytes

def shieldedCommitmentSlot (commitment : Hash) : Slot := .v1 .commitment commitment.bytes

def shieldedNullifierSlot (nullifier : Hash) : Slot := .v1 .nullifier nullifier.bytes

def shieldedMerkleNextIndex (st : StateDB) : Nat := uint64FromHash (st.storage (.v1 .nextIndex []))

def merkleClimb (commitment : Hash) (index : Nat) : List Hash → Nat → StateDB → Hash → StateDB × Hash
  | [], _, st, current => (st, current)
  | zero :: zeroes, level, st, current =>
    if (index / 2 ^ level) % 2 = 0 then
      merkleClimb commitment index zeroes (level + 1)
        ((st.setState (shieldedMerkleFrontierSlot level) current).setState
          (shieldedCommitmentPathSlot commitment level) zero)
        (shieldedHashNode B current zero)
    else
      let sibling := st.storage (shieldedMerkleFrontierSlot level)
      merkleClimb commitment index zeroes (level + 1)
        (st.setState (shieldedCommitmentPathSlot commitment level) sibling) (shieldedHashNode B sibling current)

def appendShieldedMerkleLeaf (commitment txHash : Hash) : Proc StateDB Err Unit := do
  let index ← Proc.read fun st => .ok (shieldedMerkleNextIndex st)
  Proc.read fun _ => failIf (2 ^ merkleDepth ≤ index) (.invalidShieldedTx "shielded commitment tree is full")
  Proc.modify fun st =>
    let r := merkleClimb B commitment index (shieldedMerkleZeroHashes B) 0 st commitment
    r.1.setStates
      [(.v1 .commitmentIndex commitment.bytes, uint64Hash (index + 1)), (.v1 .nextIndex [], uint64Hash (index + 1)),
       (shieldedMerkleRootSlot r.2, txHash)]

def shieldedMerkleRootKnown (st : StateDB) (root : Hash) : Bool :=
  root ≠ 0 && st.storage (shieldedMerkleRootSlot root) ≠ 0

/-! ## The V6 accumulator -/

def shieldedV6OutputCount (st : StateDB) : Nat := uint64FromHash (st.storage (.v6 .outputCount []))

def shieldedV6KeyImageCount (st : StateDB) : Nat := uint64FromHash (st.storage (.v6 .keyImageCount []))

def shieldedV6IndexKey (index : Nat) : Bytes := Bytes.be 8 index

def shieldedV6FrontierSlot (level : Nat) : Slot := .v6 .frontier (Bytes.be 4 level)

def shieldedV6ReadOutput (st : StateDB) (index : Nat) : Except Err RingMember := do
  failIf (shieldedV6OutputCount st ≤ index) (.invalidShieldedTx "")
  let member : RingMember :=
    ⟨st.storage (.v6 .outputKey (shieldedV6IndexKey index)), st.storage (.v6 .outputCommitment (shieldedV6IndexKey index))⟩
  failIf (member.oneTimeKey = 0 ∨ member.commitment = 0) (.invalidShieldedTx "")
  pure member

def shieldedV6HashNode (left right : Hash) : Hash :=
  B.keccak256 (Bytes.ofText "TKM_SHIELD6_ACCUMULATOR_NODE_V1" ++ left.bytes ++ right.bytes)

def shieldedV6EmptyFrom (z : Hash) : Nat → List Hash
  | 0 => [z]
  | n + 1 => z :: shieldedV6EmptyFrom (shieldedV6HashNode B z z) n

def shieldedV6EmptyNodes : List Hash :=
  shieldedV6EmptyFrom B (B.keccak256 (Bytes.ofText "TKM_SHIELD6_ACCUMULATOR_EMPTY_LEAF_V1")) merkleDepth

def frontierClimb : List Hash → (level index : Nat) → StateDB → Hash → StateDB × Hash
  | [], _, _, st, current => (st, current)
  | zero :: zeroes, level, index, st, current =>
    if index % 2 = 0 then
      frontierClimb zeroes (level + 1) (index / 2) (st.setState (shieldedV6FrontierSlot level) current)
        (shieldedV6HashNode B current zero)
    else
      frontierClimb zeroes (level + 1) (index / 2) st
        (shieldedV6HashNode B (st.storage (shieldedV6FrontierSlot level)) current)

def shieldedV6OutputCheck (output : ShieldedV6Output) (st : StateDB) : Except Err Unit := do
  failIf (¬ B.validPublicKey output.oneTimeKey) (.invalidShieldedTx "invalid Shield6 one-time key")
  failIf (¬ B.validCommitment output.commitment) (.invalidShieldedTx "invalid Shield6 amount commitment")
  failIf (2 ^ merkleDepth ≤ shieldedV6OutputCount st) (.invalidShieldedTx "Shield6 output accumulator is full")
  failIf (st.storage (.v6 .keyIndex output.oneTimeKey.bytes) ≠ 0)
    (.invalidShieldedTx "duplicate Shield6 one-time output key")
  checkAll (fun level => failIf
    ((shieldedV6OutputCount st / 2 ^ level) % 2 = 1 ∧ st.storage (shieldedV6FrontierSlot level) = 0)
    (.invalidShieldedTx ("missing Shield6 accumulator frontier node at level " ++ toString level)))
    (List.range merkleDepth)

def shieldedV6AppendOutput (output : ShieldedV6Output) (txHash : Hash) : Proc StateDB Err Unit := do
  Proc.read (shieldedV6OutputCheck B output)
  Proc.modify fun st =>
    let count := shieldedV6OutputCount st
    let leaf := B.keccak256 (Bytes.ofText "TKM_SHIELD6_ACCUMULATOR_LEAF_V1" ++ Bytes.be 8 count ++
      output.oneTimeKey.bytes ++ output.commitment.bytes)
    let r := frontierClimb B ((shieldedV6EmptyNodes B).take merkleDepth) 0 count st leaf
    let key := shieldedV6IndexKey count
    r.1.setStates
      [(.v6 .outputKey key, output.oneTimeKey), (.v6 .outputCommitment key, output.commitment),
       (.v6 .outputTx key, txHash), (.v6 .keyIndex output.oneTimeKey.bytes, uint64Hash (count + 1)),
       (.v6 .outputCount [], uint64Hash (count + 1)), (.v6 .outputRoot [], r.2)]

def shieldedV6AppendKeyImage (image txHash : Hash) : Proc StateDB Err Unit := do
  Proc.read fun st => do
    failIf (¬ B.validPublicKey image ∨ txHash = 0) (.invalidShieldedTx "invalid Shield6 key image")
    failIf (st.storage (.v6 .keyImage image.bytes) ≠ 0) (.invalidShieldedTx "Shield6 key image already spent")
    failIf (shieldedV6KeyImageCount st = 2 ^ 64 - 1) (.invalidShieldedTx "Shield6 key-image index is full")
  Proc.modify fun st =>
    let count := shieldedV6KeyImageCount st
    st.setStates
      [(.v6 .keyImageIndex (shieldedV6IndexKey count), image), (.v6 .keyImageCount [], uint64Hash (count + 1)),
       (.v6 .keyImage image.bytes, txHash)]

end

end TkmChain
