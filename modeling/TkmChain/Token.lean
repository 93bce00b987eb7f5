import TkmChain.Config

/-!
# Token policies

The state machine a token manifest is bound to: one operation is checked against
the capability flags, the administrator, the supply cap and the royalty of its
policy and then moves the balances. Reading a balance creates its entry.
-/

namespace TkmChain

inductive TokenErr
  | invalidTokenOperation
  | tokenPolicyViolation
  deriving DecidableEq, Repr

inductive TokenOperationKind
  | transfer
  | mint
  | burn
  | pause
  | unpause
  | shield
  | other (code : UInt8)
  deriving DecidableEq, Repr

def flagMintable : UInt32 := 1

def flagBurnable : UInt32 := 2

def flagPausable : UInt32 := 4

def flagShielded : UInt32 := 32

def flagRoyalty : UInt32 := 64

structure TokenPolicy where
  assetID : Hash
  admin : Address
  flags : UInt32
  maxSupply : Option Int
  royaltyBPS : UInt16
  royaltyRecipient : Address
  deriving DecidableEq, Repr

def TokenPolicy.has (policy : TokenPolicy) (flag : UInt32) : Prop := policy.flags &&& flag ≠ 0

instance (policy : TokenPolicy) (flag : UInt32) : Decidable (policy.has flag) := inferInstanceAs (Decidable (_ ≠ _))

structure TokenOperation where
  kind : TokenOperationKind
  (actor fromAddr toAddr : Address)
  amount : Option Int
  deriving DecidableEq, Repr

structure TokenState where
  totalSupply : Option Int
  balances : Address → Option Int
  paused : Bool

namespace TokenState

def empty : TokenState := ⟨none, fun _ => none, false⟩

def supply (s : TokenState) : Int := s.totalSupply.getD 0

def balance (s : TokenState) (a : Address) : Int := (s.balances a).getD 0

def setBalance (s : TokenState) (a : Address) (v : Int) : TokenState :=
  { s with balances := Function.update s.balances a (some v) }

def touch (s : TokenState) (a : Address) : TokenState := s.setBalance a (s.balance a)

def credit (s : TokenState) (a : Address) (v : Int) : TokenState := s.setBalance a (s.balance a + v)

end TokenState

def royaltyFee (policy : TokenPolicy) (amount : Int) : Int :=
  if policy.has flagRoyalty ∧ 0 < policy.royaltyBPS then amount * policy.royaltyBPS.toNat / 10000 else 0

def performToken (policy : TokenPolicy) (op : TokenOperation) (amount : Int) : Proc TokenState TokenErr Unit :=
  match op.kind with
  | .mint => do
    Proc.read fun _ => failIf (¬ policy.has flagMintable ∨ op.actor ≠ policy.admin ∨ op.toAddr = 0)
      .tokenPolicyViolation
    Proc.read fun s => failIf (∃ cap ∈ policy.maxSupply, cap < s.supply + amount) .tokenPolicyViolation
    Proc.modify fun s => { s with totalSupply := some (s.supply + amount) }
    Proc.modify fun s => s.credit op.toAddr amount
  | .burn => do
    Proc.read fun _ => failIf (¬ policy.has flagBurnable ∨ op.actor ≠ op.fromAddr ∨ op.fromAddr = 0) .tokenPolicyViolation
    Proc.modify fun s => s.touch op.fromAddr
    Proc.read fun s => failIf (s.balance op.fromAddr < amount) .tokenPolicyViolation
    Proc.modify fun s => s.credit op.fromAddr (-amount)
    Proc.modify fun s => { s with totalSupply := some (s.supply - amount) }
  | .transfer => do
    Proc.read fun _ => failIf (op.fromAddr = 0 ∨ op.toAddr = 0 ∨ op.actor ≠ op.fromAddr) .tokenPolicyViolation
    Proc.modify fun s => s.touch op.fromAddr
    Proc.read fun s => failIf (s.balance op.fromAddr < amount) .tokenPolicyViolation
    Proc.read fun _ => failIf (policy.has flagRoyalty ∧ 0 < policy.royaltyBPS ∧
      (policy.royaltyRecipient = 0 ∨ 10000 < policy.royaltyBPS)) .tokenPolicyViolation
    Proc.modify fun s => s.credit op.fromAddr (-amount)
    Proc.modify fun s => s.credit op.toAddr (amount - royaltyFee policy amount)
    Proc.runWhen (0 < royaltyFee policy amount)
      (Proc.modify fun s => s.credit policy.royaltyRecipient (royaltyFee policy amount))
  | .pause => do
    Proc.read fun _ => failIf (¬ policy.has flagPausable ∨ op.actor ≠ policy.admin) .tokenPolicyViolation
    Proc.modify fun s => { s with paused := true }
  | .unpause => do
    Proc.read fun _ => failIf (¬ policy.has flagPausable ∨ op.actor ≠ policy.admin) .tokenPolicyViolation
    Proc.modify fun s => { s with paused := false }
  | .shield => Proc.read fun _ => failIf (¬ policy.has flagShielded) .tokenPolicyViolation
  | .other _ => Proc.read fun _ => .error .invalidTokenOperation

def TokenOperationKind.switches (kind : TokenOperationKind) : Prop := kind = .pause ∨ kind = .unpause

instance (kind : TokenOperationKind) : Decidable kind.switches := inferInstanceAs (Decidable (_ ∨ _))

def applyToken (policy : TokenPolicy) (op : TokenOperation) : Proc TokenState TokenErr Unit := do
  Proc.read fun _ => failIf (policy.assetID = 0 ∨ policy.admin = 0 ∨ op.actor = 0 ∨ (∃ cap ∈ policy.maxSupply, cap < 0) ∨
    10000 < policy.royaltyBPS ∨ (0 < policy.royaltyBPS ∧ policy.royaltyRecipient = 0)) .invalidTokenOperation
  Proc.read fun _ => failIf (¬ op.kind.switches ∧ (op.amount = none ∨ ∃ amount ∈ op.amount, amount < 0))
    .invalidTokenOperation
  Proc.modify fun s => { s with totalSupply := some s.supply }
  Proc.read fun _ => failIf (¬ op.kind.switches ∧ op.kind ≠ .shield ∧ op.amount = some 0) .invalidTokenOperation
  Proc.read fun s => failIf (s.paused = true ∧ op.kind ≠ .unpause) .tokenPolicyViolation
  performToken policy op (op.amount.getD 0)

def runToken (policy : TokenPolicy) (ops : List TokenOperation) : TokenState :=
  ops.foldl (fun s op => (applyToken policy op s).2) .empty

end TkmChain
