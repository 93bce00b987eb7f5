import TkmChain.ProverPayout

/-!
# Runs of note preparation

The wallet spends the smallest note that covers an amount, or else the largest notes. A
preparation is built that way, and when it is mined its inputs make room for its outputs. The
prover is called again and again until the target can be paid.
-/

namespace TkmChain.Prover

/-! ## The selection of notes -/

def OwnedNote.key (note : OwnedNote) : Nat ×ₗ Nat := toLex (note.valueWei, note.commitment.toNat)

def eligibleNotes (seen : List (BitVec 320)) : List OwnedNote → Except String (List OwnedNote)
  | [] => .ok []
  | note :: rest => do
    failIf (2 ^ 256 ≤ note.valueWei) "invalid Shield3 proof statement"
    if note.valueWei = 0 then eligibleNotes seen rest
    else
      failIf (note.commitment ∈ seen) "duplicate spendable note"
      let eligible ← eligibleNotes (note.commitment :: seen) rest
      return note :: eligible

def chooseLargest (required : Nat) : Nat → Nat → List OwnedNote → Option (List OwnedNote)
  | 0, _, _ => none
  | _ + 1, _, [] => none
  | inputs + 1, total, note :: rest =>
    if required ≤ total + note.valueWei then some [note]
    else (chooseLargest required inputs (total + note.valueWei) rest).map (note :: ·)

def selectionError (maxInputs : Nat) : String :=
  if maxInputs = inputSlots then
    "up to four confirmed Shield3 notes cannot cover this amount and fees; use Shield5 after its activation or wait for funds"
  else
    s!"up to {maxInputs} confirmed Shield5 notes cannot cover this amount and fees; wait for funds or split the payment"

def chooseNotes (sorted : List OwnedNote) (required maxInputs : Nat) : Except String (List OwnedNote) :=
  match sorted.find? (required ≤ ·.valueWei) with
  | some note => .ok [note]
  | none => do
    let chosen ← orFail (chooseLargest required maxInputs 0 sorted.reverse) (selectionError maxInputs)
    failIf (2 ^ 256 ≤ (chosen.map (·.valueWei)).sum) "selected note total overflows uint256"
    return chosen

def selectNotesWithLimit (notes : List OwnedNote) (required maxInputs : Nat) : Except String (List OwnedNote) := do
  failIf (required = 0) "invalid required amount"
  failIf (maxInputs < 1 ∨ shield5InputSlots < maxInputs) "invalid shielded note input limit"
  let eligible ← eligibleNotes [] notes
  chooseNotes (eligible.insertionSort fun a b => a.key ≤ b.key) required maxInputs

def selectNotes (notes : List OwnedNote) (required : Nat) : Except String (List OwnedNote) :=
  selectNotesWithLimit notes required inputSlots

/-! ## Calls -/

/-- What the node, the keystore and the disk answer to a call, and the commitments of the
payment and the change that the wallet would create in it. -/
structure PreparationReplies extends Replies where
  (payment change : BitVec 320)

structure NoteState where
  db : RequestDB
  notes : List OwnedNote

structure Setting where
  lib : Library
  cfg : Config
  id : Identity
  (target version : Nat)

namespace Setting

variable (x : Setting) (s : NoteState) (r : PreparationReplies)

def inputLimit : Nat := shieldInputLimit x.version

def script : Prog RequestDB := preparePrivateNotes x.lib r.toReplies x.cfg x.id x.target x.version s.db

def result : Except Failure RequestDB := (x.script s r).result

def world : World := (x.script s r).run exec (.start s.db)

def broadcasts : Bool := (x.world s r).sent ≠ []

/-- The notes once a self-payment of the amount is mined; the wallet does not see outputs without value. -/
def minedNotes (amount : Nat) : List OwnedNote :=
  match selectNotes s.notes amount with
  | .error _ => s.notes
  | .ok chosen =>
    let outputs : List OwnedNote := [⟨r.payment, amount⟩, ⟨r.change, (chosen.map (·.valueWei)).sum - amount⟩]
    s.notes.filter (· ∉ chosen) ++ outputs.filter (0 < ·.valueWei)

def next : NoteState where
  db := (x.world s r).disk
  notes :=
    if x.broadcasts s r then
      match planPreparation x.lib x.cfg s.notes x.target x.inputLimit with
      | .ok (some (amount, false)) => minedNotes s r amount
      | _ => s.notes
    else s.notes

/-- A node that has mined every preparation, with gas for the next one and files that can be written. -/
structure Honest : Prop where
  scan : r.scan = .ok s.notes
  rescan : r.rescan = .ok s.notes
  mined : ∀ saved, s.db.notePreparation = some saved → ∃ receipt, r.transactionReceipt saved.txHash = .found receipt ∧
    receipt.successful = true ∧ r.headerByNumber receipt.blockNumber = .ok receipt.blockHash
  gas : ∃ price balance, r.suggestGasPrice = .ok price ∧ r.balanceAt = .ok balance ∧ price * walletGas * 2 ≤ balance
  nonces : ∃ nonce, r.nonceAt = .ok nonce ∧ r.pendingNonceAt = .ok nonce
  /-- What the wallet can pay from its notes it builds, signs and encodes, and the node takes it. -/
  builds : x.version ≠ 5 → ∃ self, x.lib.decodePaymentCode x.id.code x.id.chainID = .ok self ∧
    ∀ amount chosen, selectNotes s.notes amount = .ok chosen → ∃ tx signed raw,
      r.build x.version self amount false = .ok tx ∧ validatePrivatePreparation tx = .ok () ∧
      r.signTx tx = .ok (signed, .ok raw) ∧ x.lib.hexDecode (x.lib.hexEncode raw) = .ok raw ∧
      x.lib.unmarshalBinary raw = .ok signed ∧ signed.type = pqTkmTxType ∧
      (signed.version = some 3 ∨ signed.version = some 4) ∧ r.sendTransaction signed = none
  fresh : ∀ note ∈ s.notes, note.commitment ≠ r.payment
  writeConfirmed : r.writeConfirmed = .done
  writePreparation : r.writePreparation = .done

def state (replies : Nat → PreparationReplies) : Nat → NoteState
  | 0 => s
  | i + 1 => x.next (state replies i) (replies i)

end Setting

/-- One note takes the place of `k` others. -/
def Merges (k : Nat) (notes notes' : List OwnedNote) : Prop :=
  ∃ chosen rest merged, chosen.length = k ∧ notes.Perm (chosen ++ rest) ∧ notes'.Perm (merged :: rest)

structure Spendable (notes : List OwnedNote) : Prop where
  nodup : (notes.map (·.commitment)).Nodup
  pos : ∀ note ∈ notes, 0 < note.valueWei
  lt : ∀ note ∈ notes, note.valueWei < 2 ^ 256

/-- `⌈(n - k) / (k - 1)⌉`, as `nativeCapacity` computes it. -/
def preparationSteps (n k : Nat) : Nat := (n - k + k - 2) / (k - 1)

/-- The calls prepare the payment: none fails, each preparation merges notes, and after the
advertised number of preparations at most a call returns. -/
structure Setting.Finishes (x : Setting) (s : NoteState) (replies : Nat → PreparationReplies) : Prop where
  pending : ∀ i, (∃ db, x.result (x.state s replies i) (replies i) = .ok db) ∨
    ∃ hash boundary, x.result (x.state s replies i) (replies i) = .error (.pending hash boundary)
  merges : ∀ i, x.broadcasts (x.state s replies i) (replies i) →
    Merges x.inputLimit (x.state s replies i).notes (x.state s replies (i + 1)).notes
  returns : ∃ i db, x.result (x.state s replies i) (replies i) = .ok db ∧
    (List.range i).countP (fun j => x.broadcasts (x.state s replies j) (replies j)) ≤
      preparationSteps s.notes.length x.inputLimit

end TkmChain.Prover
