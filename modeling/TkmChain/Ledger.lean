import TkmChain.Registry

/-!
# The confidential ledger

Totals of the public value that entered and left the private notes of an asset,
kept in six slots. `ledgerTransition` computes the next totals against the
reserve the pool holds beyond validator bonds and wrapped-token backing, and
`commitLedger` stores them.
-/

namespace TkmChain

def shieldedFeePublic : Nat := 0

def shieldedFeePrepaid : Nat := 1

def confidentialPrepaidGas : Nat := 7000000

structure ConfidentialLedgerTotals where
  (openingBacking deposited withdrawn feesBurned backing : Int)
  initialized : Bool
  deriving DecidableEq, Repr

namespace ConfidentialLedgerTotals

def openWith (l : ConfidentialLedgerTotals) (reserve : Int) : ConfidentialLedgerTotals :=
  if l.initialized then l else { l with openingBacking := reserve, backing := reserve, initialized := true }

def advance (l : ConfidentialLedgerTotals) (deposit withdrawal fee : Int) : ConfidentialLedgerTotals :=
  { l with
    deposited := l.deposited + deposit
    withdrawn := l.withdrawn + withdrawal
    feesBurned := l.feesBurned + fee
    backing := l.backing + deposit - withdrawal - fee }

end ConfidentialLedgerTotals

def ledgerSlot (asset : Nat) (r : LedgerRole) : Slot := assetSlot asset (.ledger r) []

def confidentialLedgerState (st : StateDB) (asset : Nat) : ConfidentialLedgerTotals where
  openingBacking := (st.storage (ledgerSlot asset .opening)).toNat
  deposited := (st.storage (ledgerSlot asset .deposited)).toNat
  withdrawn := (st.storage (ledgerSlot asset .withdrawn)).toNat
  feesBurned := (st.storage (ledgerSlot asset .fees)).toNat
  backing := (st.storage (ledgerSlot asset .backing)).toNat
  initialized := st.storage (ledgerSlot asset .initialized) ≠ 0

def shieldedV3AssetSupply (st : StateDB) (asset : Nat) : Int := (st.storage (assetSlot asset .supply [])).toNat

def setShieldedV3AssetSupply (st : StateDB) (asset : Nat) (supply : Int) : StateDB :=
  st.setState (assetSlot asset .supply []) (BitVec.ofNat 256 supply.natAbs)

def shieldedV3SpendablePoolReserve (st : StateDB) (asset : Nat) : Int :=
  if normalizeAssetID asset = assetPTKM then st.pool
  else if (st.pool : Int) ≤ shieldedV3AssetSupply st assetPTKM then 0
  else st.pool - shieldedV3AssetSupply st assetPTKM

def subtractStakes : Int → List ValidatorRecord → Except Err Int
  | reserve, [] => .ok reserve
  | reserve, r :: l => do
    failIf (bitLenAbove r.stake 256) (.text "invalid validator reserve")
    subtractStakes (reserve - r.stake) l

def confidentialNativeReserve (st : StateDB) : Except Err Int := do
  let records ← validatorRecords st
  let reserve ← subtractStakes st.pool records
  let reserve := reserve - shieldedV3AssetSupply st assetPTKM
  failIf (reserve < 0) (.text "shared pool liabilities exceed backing")
  pure reserve

def outOfRange (n : Int) : Bool := n < 0 || bitLenAbove n 256

def ledgerTransition (st : StateDB) (asset : Nat) (deposit withdrawal fee : Int) :
    Except Err ConfidentialLedgerTotals := do
  let l := confidentialLedgerState st asset
  let reserve ← confidentialNativeReserve st
  let native := confidentialLedgerState st assetTKM
  failIf (native.initialized ∧ reserve < native.backing) (.text "confidential native ledger backing shortfall")
  let reserve := if asset = assetPTKM then shieldedV3AssetSupply st asset else reserve
  let l := l.openWith reserve
  failIf (reserve < 0 ∨ reserve < l.backing) (.text "confidential ledger backing shortfall")
  failIf (outOfRange deposit ∨ outOfRange withdrawal ∨ outOfRange fee) (.text "invalid confidential ledger value")
  let l := l.advance deposit withdrawal fee
  failIf (outOfRange l.deposited ∨ outOfRange l.withdrawn ∨ outOfRange l.feesBurned ∨ outOfRange l.backing)
    (.text "confidential ledger overdraw or overflow")
  pure l

/-- `common.BigToHash`: the absolute value, cut to 256 bits. -/
def bigToHash (v : Int) : Hash := BitVec.ofNat 256 v.natAbs

def commitLedger (st : StateDB) (asset : Nat) (l : ConfidentialLedgerTotals) : StateDB :=
  st.setStates
    [(ledgerSlot asset .opening, bigToHash l.openingBacking), (ledgerSlot asset .deposited, bigToHash l.deposited),
     (ledgerSlot asset .withdrawn, bigToHash l.withdrawn), (ledgerSlot asset .fees, bigToHash l.feesBurned),
     (ledgerSlot asset .backing, bigToHash l.backing), (ledgerSlot asset .initialized, bigToHash 1)]

def updateLedger (asset : Nat) (deposit withdrawal fee : Int) : Proc StateDB Err Unit := do
  let l ← Proc.read fun st => ledgerTransition st asset deposit withdrawal fee
  Proc.modify fun st => commitLedger st asset l

def confidentialFeeTicket (h : Hash) : Slot := .v3 .feeTicket h.bytes

def burnConfidentialFee (st : StateDB) (tx : Tx) (fee : Int) : StateDB :=
  (st.subBalance poolAddress (BitVec.ofNat 256 fee.toNat)).setState (confidentialFeeTicket tx.hash) (bigToHash fee)

def validateConfidentialLedgerShape (cfg : ChainConfig) (num time : Nat) (tx : Tx) (deposit : Bool) (sponsor : Int)
    (mode asset : Nat) : Except Err Unit := do
  let active := cfg.isConfidentialLedger num time
  failIf (shieldedFeePrepaid < mode ∨ (mode ≠ shieldedFeePublic ∧ ¬ active))
    (.invalidShieldedTx "inactive or unknown confidential fee mode")
  if ¬ active then pure ()
  else if mode = shieldedFeePublic then
    failIf (sponsor ≠ 0) (.invalidShieldedTx
      "note-funded fees require explicit prepaid mode; public gas refunds are disabled")
  else do
    failIf (deposit ∨ asset ≠ assetTKM ∨ tx.value ≠ 0 ∨ tx.gas ≠ confidentialPrepaidGas ∨ tx.gasFeeCap = 0 ∨
        tx.gasFeeCap ≠ tx.gasTipCap) (.invalidShieldedTx "invalid prepaid fee authorization")
    let expected : Int := tx.gas * tx.gasFeeCap
    failIf (bitLenAbove expected 256 ∨ sponsor ≠ expected)
      (.invalidShieldedTx "prepaid fee must equal the authorized fixed gas charge")

end TkmChain
