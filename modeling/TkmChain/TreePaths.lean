import TkmChain.Shielded

/-!
# Roots and paths read from the state

The witnesses wallets take from the trees: the roots, the path of a note
commitment or of a recipient binding in the Tip5 trees, and the paths of the
V1/V2 tree, which are kept from the append or predicted before it.
-/

namespace TkmChain

section
variable (B : Backend)

/-! ## The Tip5 trees -/

structure ShieldedV3Path where
  commitment : Digest := 0
  index : Nat := 0
  root : Digest := 0
  path : List Digest := List.replicate merkleDepth 0
  found : Bool := false

def treePath (t : TreeRoles) (st : StateDB) (zeroes : List Digest) : (n level cursor : Nat) → Except Err (List Digest)
  | 0, _, _ => .ok []
  | n + 1, level, cursor => do
    let sibling ← treeNode t st level (cursor ^^^ 1) zeroes
    let rest ← treePath t st zeroes n (level + 1) (cursor / 2)
    pure (sibling :: rest)

def shieldedV3Root (st : StateDB) : Except Err Digest :=
  if shieldedV3NextIndex st = 0 then (v3Zeroes B).map fun zeroes => zeroes.getD merkleDepth 0
  else v3ReadDigest st .currentRoot []

def shieldedV3CommitmentPath (st : StateDB) (commitment : Digest) : Except Err ShieldedV3Path :=
  let index := uint64FromHash (st.storage (.v3 .commitmentIndex commitment.bytes))
  if index = 0 then .ok { commitment }
  else do
    let zeroes ← v3Zeroes B
    let path ← treePath noteTree st zeroes merkleDepth 0 (index - 1)
    let root ← v3ReadDigest st .currentRoot []
    pure { commitment, index := index - 1, root, path, found := true }

def shieldedV6BindingRoot (st : StateDB) : Except Err Digest :=
  if shieldedV6BindingCount st = 0 then (v3Zeroes B).map fun zeroes => zeroes.getD merkleDepth 0
  else v3ReadDigest st .bindingCurrentRoot []

def shieldedV6BindingPath (st : StateDB) (owner : Digest) : Except Err ShieldedV3Path :=
  let index := uint64FromHash (st.storage (.v3 .bindingOwnerIndex owner.bytes))
  if index = 0 then .ok {}
  else do
    failIf (shieldedV6BindingCount st < index) (.invalidShieldedTx "")
    let commitment ← v3ReadDigest st .bindingCommitment owner.bytes
    let zeroes ← v3Zeroes B
    let path ← treePath bindingTree st zeroes merkleDepth 0 (index - 1)
    let root ← shieldedV6BindingRoot B st
    pure { commitment, index := index - 1, root, path, found := true }

/-! ## The V1/V2 tree -/

structure ShieldedMerklePath where
  commitment : Hash
  index : Nat
  root : Hash
  path : List Hash
  pathIndex : List Bool
  deriving DecidableEq

def computeShieldedMerkleRoot : Hash → List Hash → List Bool → Hash
  | root, sibling :: path, right :: pathIndex =>
    computeShieldedMerkleRoot (if right then shieldedHashNode B sibling root else shieldedHashNode B root sibling)
      path pathIndex
  | root, _, _ => root

def merklePathIndex (index : Nat) : List Bool := (List.range merkleDepth).map fun level => index / 2 ^ level % 2 = 1

def shieldedCommitmentPath (st : StateDB) (commitment : Hash) : Option ShieldedMerklePath :=
  let indexPlusOne := uint64FromHash (st.storage (.v1 .commitmentIndex commitment.bytes))
  if indexPlusOne = 0 then none
  else
    let path := (List.range merkleDepth).map fun level => st.storage (shieldedCommitmentPathSlot commitment level)
    let pathIndex := merklePathIndex (indexPlusOne - 1)
    some ⟨commitment, indexPlusOne - 1, computeShieldedMerkleRoot B commitment path pathIndex, path, pathIndex⟩

def shieldedNextMerklePath (st : StateDB) (commitment : Hash) : ShieldedMerklePath :=
  let index := shieldedMerkleNextIndex st
  let path := (List.range merkleDepth).map fun level =>
    if index / 2 ^ level % 2 = 0 then (shieldedMerkleZeroHashes B).getD level 0
    else st.storage (shieldedMerkleFrontierSlot level)
  let pathIndex := merklePathIndex index
  ⟨commitment, index, computeShieldedMerkleRoot B commitment path pathIndex, path, pathIndex⟩

/-! ## The V6 accumulator -/

def shieldedV6OutputRoot (st : StateDB) : Hash :=
  if st.storage (.v6 .outputRoot []) = 0 ∧ shieldedV6OutputCount st = 0 then (shieldedV6EmptyNodes B).getD merkleDepth 0
  else st.storage (.v6 .outputRoot [])

def shieldedV6OutputTransactionAt (st : StateDB) (index : Nat) : Except Err Hash := do
  failIf (shieldedV6OutputCount st ≤ index) (.invalidShieldedTx "")
  let txHash := st.storage (.v6 .outputTx (shieldedV6IndexKey index))
  failIf (txHash = 0) (.invalidShieldedTx "missing Shield6 output transaction index")
  pure txHash

def shieldedV6KeyImageAt (st : StateDB) (index : Nat) : Except Err Hash := do
  failIf (shieldedV6KeyImageCount st ≤ index) (.invalidShieldedTx "")
  let image := st.storage (.v6 .keyImageIndex (shieldedV6IndexKey index))
  failIf (¬ B.validPublicKey image) (.invalidShieldedTx ("corrupt Shield6 key-image index " ++ toString index))
  pure image

def shieldedV6KeyImageTransaction (st : StateDB) (image : Hash) : Hash :=
  if B.validPublicKey image then st.storage (.v6 .keyImage image.bytes) else 0

end

end TkmChain
