import TkmChain.Config
import TkmChain.Pedersen
import TkmChain.Rlp

/-!
# Shield6 commitments

Amounts of 128 bits are committed to in two limbs of 64 bits, each with a range proof, and
in one weighted sum of the limbs. Spends balance their commitments with a public value,
deposits with the amount paid in and a disclosed mask.
-/

namespace TkmChain.Shielded6

open Pedersen

def groupOrder : Nat := 2 ^ 252 + 27742317777372353535851937790883648493

structure Curve (𝔾 : Type) [AddCommGroup 𝔾] where
  setBytes : Hash → Option 𝔾
  bytes : 𝔾 → Hash
  setBytes_bytes : ∀ p, setBytes (bytes p) = some p
  generators : Generators 𝔾
  verifyAggregate : List Hash → List 𝔾 → Bytes → Bool

def maxRangeOutputs : Nat := 16

def maxRangeProofSize : Nat := 8192

def maxRangeProofBundleSize : Nat := 2 * maxRangeProofSize + 16

def errInvalidPoint : String := "shield6: invalid point encoding"

def errInvalidRangeProof : String := "shield6: malformed or invalid Bulletproofs+ range proof"

def errUnbalanced : String := "shield6: commitment balance equation does not hold"

structure WideCommitment where
  commitment : Hash
  limbs : Hash × Hash
  deriving DecidableEq

section
variable {𝔾 : Type} [AddCommGroup 𝔾] [DecidableEq 𝔾] (C : Curve 𝔾)

def decodePoint (encoded : Hash) (allowIdentity : Bool) : Except String 𝔾 := do
  let point ← orFail (C.setBytes encoded) errInvalidPoint
  failIf (allowIdentity = false ∧ point = 0) errInvalidPoint
  return point

def decodePoints (what : String) (index : Nat) : List Hash → Except String (List 𝔾)
  | [] => return []
  | encoded :: rest => do
    let point ← (decodePoint C encoded false).mapError fun e => s!"{what} {index}: {e}"
    let points ← decodePoints what (index + 1) rest
    return point :: points

def decodeScalar (encoded : Hash) : Except String Nat := do
  let scalar := Bytes.toNat encoded.bytes.reverse
  failIf (groupOrder ≤ scalar) "invalid scalar encoding"
  return scalar

def two64Scalar : Nat := 2 ^ 64

/-- `C_low + 2^64 * C_high`. -/
def combineAmountLimbs (low high : Hash) : Except String Hash := do
  let lowPoint ← decodePoint C low true
  let highPoint ← decodePoint C high true
  return C.bytes (lowPoint + two64Scalar • highPoint)

def commitment128 (amount : Int) (mask : Hash) : Except String Hash := do
  failIf (amount < 0 ∨ 2 ^ 128 ≤ amount) errUnbalanced
  let mask ← decodeScalar mask
  return C.bytes (C.generators.commit mask amount)

/-! ## Range proofs -/

def verifyRangeProof (commitments : List Hash) (encoded : Bytes) : Except String Unit := do
  failIf (commitments = [] ∨ maxRangeOutputs < commitments.length ∨ encoded = [] ∨ maxRangeProofSize < encoded.length)
    errInvalidRangeProof
  let points ← decodePoints C "range commitment" 0 commitments
  failIf (C.verifyAggregate commitments points encoded = false) errInvalidRangeProof

def decodeRangeProofBundle (encoded : Bytes) : Except String (Bytes × Bytes) := do
  failIf (encoded = [] ∨ maxRangeProofBundleSize < encoded.length) errInvalidRangeProof
  match Rlp.takeStrings encoded with
  | some ([low, high], []) =>
    failIf (low = [] ∨ maxRangeProofSize < low.length ∨ high = [] ∨ maxRangeProofSize < high.length) errInvalidRangeProof
    failIf (Rlp.encodeList [Rlp.encodeStr low, Rlp.encodeStr high] ≠ encoded) errInvalidRangeProof
    return (low, high)
  | _ => .error errInvalidRangeProof

def checkLimbs (index : Nat) : List WideCommitment → Except String Unit
  | [] => return ()
  | output :: rest => do
    let combined ← (combineAmountLimbs C output.limbs.1 output.limbs.2).mapError
      fun _ => s!"output {index}: {errUnbalanced}"
    failIf (combined ≠ output.commitment) s!"output {index}: {errUnbalanced}"
    checkLimbs (index + 1) rest

def verifyRangeProof128 (outputs : List WideCommitment) (encoded : Bytes) : Except String Unit := do
  failIf (outputs = [] ∨ maxRangeOutputs < outputs.length) errInvalidRangeProof
  checkLimbs C 0 outputs
  let (lowProof, highProof) ← decodeRangeProofBundle encoded
  (verifyRangeProof C (outputs.map (·.limbs.1)) lowProof).mapError fun e => "low amount limbs: " ++ e
  (verifyRangeProof C (outputs.map (·.limbs.2)) highProof).mapError fun e => "high amount limbs: " ++ e

/-! ## Balance -/

def publicPoint (publicValue : Int) : Except String 𝔾 :=
  if 0 < publicValue then do
    let commitment ← (commitment128 C publicValue 0).mapError fun _ => errUnbalanced
    (decodePoint C commitment false).mapError fun _ => errUnbalanced
  else return 0

def verifyCommitmentBalance128 (pseudoOutputs outputs : List Hash) (publicValue : Int) : Except String Unit := do
  failIf (pseudoOutputs = [] ∨ maxRangeOutputs < pseudoOutputs.length ∨ maxRangeOutputs < outputs.length ∨
    (outputs = [] ∧ publicValue = 0)) errUnbalanced
  failIf (publicValue < 0 ∨ 2 ^ 128 ≤ publicValue) errUnbalanced
  let lhs ← decodePoints C "pseudo-output" 0 pseudoOutputs
  let rhs ← decodePoints C "output commitment" 0 outputs
  let exit ← publicPoint C publicValue
  failIf (lhs.sum ≠ rhs.sum + exit) errUnbalanced

def verifyDepositCommitment (outputs : List Hash) (amount : Int) (aggregateMask : Hash) : Except String Unit := do
  failIf (outputs = [] ∨ maxRangeOutputs < outputs.length ∨ amount ≤ 0 ∨ 2 ^ 128 ≤ amount) errUnbalanced
  let points ← decodePoints C "output commitment" 0 outputs
  let deposit ← (commitment128 C amount aggregateMask).mapError fun _ => errUnbalanced
  let expected ← (decodePoint C deposit false).mapError fun _ => errUnbalanced
  failIf (points.sum ≠ expected) errUnbalanced

end

end TkmChain.Shielded6
