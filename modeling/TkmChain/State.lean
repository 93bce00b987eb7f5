import TkmChain.Slots

/-!
# Account state

The part of the state the shielded rules read and write: balances, nonces and
code sizes of all accounts and the storage of the pool account. Balances are
256-bit words: `subBalance` and `addBalance` wrap as the Go code does, and the
state remembers whether the pool was ever debited by more than it held.
-/

namespace TkmChain

open Function

abbrev Wei := BitVec 256

inductive Err
  | invalidShieldedTx (reason : String)
  | unstampedAddress (reason : String)
  | addressSuspended (reason : String)
  | publicPaymentDisabled (reason : String)
  | validatorTransactionsNotActive
  | validatorNotActive
  | validatorAlreadyRegistered
  | validatorSetFull
  | validatorNotFound
  | validatorEvidenceInvalid
  | validatorRewardInvalid
  | addressVoteAlreadyCast
  | addressVoteNotFound
  | addressVoteSuspended
  | invalidStatement
  | text (message : String)
  deriving DecidableEq, Repr

structure StateDB where
  balance : Address → Wei
  (nonce codeSize : Address → Nat)
  storage : Slot → Hash
  poolOverdrawn : Bool

namespace StateDB

def setState (st : StateDB) (k : Slot) (v : Hash) : StateDB :=
  { st with storage := Function.update st.storage k v }

def setNonce (st : StateDB) (a : Address) (n : Nat) : StateDB :=
  { st with nonce := Function.update st.nonce a n }

def addBalance (st : StateDB) (a : Address) (v : Wei) : StateDB :=
  { st with balance := Function.update st.balance a (st.balance a + v) }

def subBalance (st : StateDB) (a : Address) (v : Wei) : StateDB :=
  { st with
    balance := Function.update st.balance a (st.balance a - v)
    poolOverdrawn := st.poolOverdrawn || (a = poolAddress && st.balance a < v) }

def setStates (st : StateDB) (kvs : List (Slot × Hash)) : StateDB :=
  kvs.foldl (fun st p => st.setState p.1 p.2) st

def release (st : StateDB) (toAddr : Address) (value : Int) : StateDB :=
  if 0 < value then
    (st.subBalance poolAddress (BitVec.ofNat 256 value.toNat)).addBalance toAddr (BitVec.ofNat 256 value.toNat)
  else st

def pool (st : StateDB) : Nat := (st.balance poolAddress).toNat

section
variable (st : StateDB) (k : Slot) (v : Hash) (a : Address) (w : Wei) (n : Nat)

@[simp] theorem setState_storage : (st.setState k v).storage = Function.update st.storage k v := rfl
@[simp] theorem setState_balance : (st.setState k v).balance = st.balance := rfl
@[simp] theorem setState_poolOverdrawn : (st.setState k v).poolOverdrawn = st.poolOverdrawn := rfl
@[simp] theorem addBalance_balance :
    (st.addBalance a w).balance = Function.update st.balance a (st.balance a + w) := rfl
@[simp] theorem addBalance_poolOverdrawn : (st.addBalance a w).poolOverdrawn = st.poolOverdrawn := rfl
@[simp] theorem subBalance_storage : (st.subBalance a w).storage = st.storage := rfl
@[simp] theorem subBalance_balance :
    (st.subBalance a w).balance = Function.update st.balance a (st.balance a - w) := rfl
@[simp] theorem subBalance_poolOverdrawn :
    (st.subBalance a w).poolOverdrawn = (st.poolOverdrawn || (a = poolAddress && st.balance a < w)) := rfl

variable {st a w}

theorem pool_addBalance_ne (h : a ≠ poolAddress) : (st.addBalance a w).pool = st.pool := by
  rw [pool, addBalance_balance, update_of_ne (Ne.symm h), pool]

theorem pool_subBalance_ne (h : a ≠ poolAddress) : (st.subBalance a w).pool = st.pool := by
  rw [pool, subBalance_balance, update_of_ne (Ne.symm h), pool]

theorem overdrawn_subBalance_ne (h : a ≠ poolAddress) : (st.subBalance a w).poolOverdrawn = st.poolOverdrawn := by
  simp [h]

theorem pool_addBalance (h : st.pool + w.toNat < 2 ^ 256) : (st.addBalance poolAddress w).pool = st.pool + w.toNat := by
  rw [pool, addBalance_balance, update_self, BitVec.toNat_add]
  exact Nat.mod_eq_of_lt h

theorem pool_subBalance (h : w.toNat ≤ st.pool) : (st.subBalance poolAddress w).pool + w.toNat = st.pool := by
  have hle : w ≤ st.balance poolAddress := h
  rw [pool, subBalance_balance, update_self, BitVec.toNat_sub_of_le hle, pool]
  exact Nat.sub_add_cancel h

theorem overdrawn_subBalance (h : w.toNat ≤ st.pool) :
    (st.subBalance poolAddress w).poolOverdrawn = st.poolOverdrawn := by
  have hlt : ¬ st.balance poolAddress < w := Nat.not_lt.mpr h
  simp [hlt]

end

theorem toNat_ofNat_toNat (h0 : 0 ≤ v) (h : v < 2 ^ 256) : ((BitVec.ofNat 256 v.toNat).toNat : Int) = v := by
  rw [BitVec.toNat_ofNat, Nat.mod_eq_of_lt (by omega)]
  omega

theorem pool_release {st : StateDB} {a : Address} {v : Int} (h0 : 0 ≤ v) (h : v ≤ st.pool) :
    ((st.release a v).pool : Int) = (if a = poolAddress then (st.pool : Int) else st.pool - v) ∧
      (st.release a v).poolOverdrawn = st.poolOverdrawn := by
  have hp : st.pool < 2 ^ 256 := (st.balance poolAddress).isLt
  have hv := toNat_ofNat_toNat h0 (by omega)
  unfold release
  split
  · have hle : (BitVec.ofNat 256 v.toNat).toNat ≤ st.pool := by omega
    have hsub := pool_subBalance hle
    refine ⟨?_, by rw [addBalance_poolOverdrawn, overdrawn_subBalance hle]⟩
    split
    · rename_i ha
      rw [ha, pool_addBalance (by omega)]
      omega
    · rename_i ha
      rw [pool_addBalance_ne ha]
      omega
  · have : v = 0 := by omega
    refine ⟨?_, rfl⟩
    split <;> omega

end StateDB

/-! ## Words and digests -/

def uint64Hash (v : Nat) : Hash := BitVec.ofNat 256 v

def uint64FromHash (h : Hash) : Nat := h.toNat % 2 ^ 64

structure Digest where
  words : Vector UInt64 5
  deriving DecidableEq, Repr

def fieldModulus : Nat := 0xffffffff00000001

namespace Digest

def zero : Digest := ⟨Vector.replicate 5 0⟩

instance : Zero Digest := ⟨zero⟩

def bytes (d : Digest) : Bytes := d.words.toList.flatMap fun w => (Bytes.be 8 w.toNat).reverse

def canonical (d : Digest) : Bool := d.words.all fun w => w.toNat < fieldModulus

end Digest

def digestFromBytes (b : Bytes) : Except Err Digest := do
  failIf (b.length ≠ 40) .invalidStatement
  let d : Digest := ⟨Vector.ofFn fun i => UInt64.ofNat (Bytes.toNat ((b.drop (8 * i.val)).take 8).reverse)⟩
  failIf (¬ d.canonical) .invalidStatement
  pure d

def v3WriteDigest (st : StateDB) (r : DigestRole) (key : Bytes) (d : Digest) : StateDB :=
  (st.setState (.v3 (.half r false) key) (Hash.ofBytes (d.bytes.take 32))).setState
    (.v3 (.half r true) key) (Hash.ofBytes (d.bytes.drop 32))

def v3ReadDigest (st : StateDB) (r : DigestRole) (key : Bytes) : Except Err Digest := do
  let head := st.storage (.v3 (.half r false) key)
  let tail := st.storage (.v3 (.half r true) key)
  failIf (2 ^ 64 ≤ tail.toNat) (.invalidShieldedTx "")
  digestFromBytes (head.bytes ++ tail.bytes.drop 24)

/-! ## What a write may touch -/

/-- The balances and the code are unchanged, and so is every slot outside `K`. -/
structure Frame (K : Slot → Prop) (s t : StateDB) : Prop where
  balance : t.balance = s.balance
  poolOverdrawn : t.poolOverdrawn = s.poolOverdrawn
  storage : ∀ k, ¬ K k → t.storage k = s.storage k
  codeSize : t.codeSize = s.codeSize

namespace Frame

variable {K L : Slot → Prop} {s t u : StateDB}

protected theorem rfl : Frame K s s := ⟨Eq.refl _, Eq.refl _, fun _ _ => Eq.refl _, Eq.refl _⟩

protected theorem trans (h : Frame K s t) (h' : Frame K t u) : Frame K s u :=
  ⟨h'.balance.trans h.balance, h'.poolOverdrawn.trans h.poolOverdrawn,
    fun k hk => (h'.storage k hk).trans (h.storage k hk), h'.codeSize.trans h.codeSize⟩

instance : Std.Refl (Frame K) := ⟨fun _ => Frame.rfl⟩

instance : IsTrans StateDB (Frame K) := ⟨fun _ _ _ => Frame.trans⟩

theorem mono (hKL : ∀ k, K k → L k) (h : Frame K s t) : Frame L s t :=
  ⟨h.balance, h.poolOverdrawn, fun k hk => h.storage k fun hK => hk (hKL k hK), h.codeSize⟩

theorem pool (h : Frame K s t) : t.pool = s.pool := by rw [StateDB.pool, h.balance, StateDB.pool]

theorem setState (hk : K k) : Frame K s (s.setState k v) := by
  refine ⟨Eq.refl _, Eq.refl _, fun j hj => ?_, Eq.refl _⟩
  have hne : j ≠ k := fun h => hj (h ▸ hk)
  exact update_of_ne hne _ _

theorem setStates : ∀ {kvs : List (Slot × Hash)} {s : StateDB}, (∀ p ∈ kvs, K p.1) → Frame K s (s.setStates kvs)
  | [], _, _ => Frame.rfl
  | p :: kvs, s, h =>
    Frame.trans (Frame.setState (h p (by simp))) (setStates fun q hq => h q (by simp [hq]))

theorem v3WriteDigest (hk : ∀ b, K (.v3 (.half r b) key)) :
    Frame K s (v3WriteDigest s r key d) :=
  (Frame.setState (hk false)).trans (Frame.setState (hk true))

end Frame

/-- What is recorded in the `seen` map of a block: hashed slots and, for V1/V2,
the bare nullifiers. -/
inductive BlockKey
  | slot (s : Slot)
  | nullifier (n : Hash)
  deriving DecidableEq, Repr

/-- The state and the `seen` map a block's transactions share. -/
structure World where
  st : StateDB
  seen : Finset BlockKey

namespace World

def mapState (w : World) (f : StateDB → StateDB) : World := { w with st := f w.st }

def mark (w : World) (k : BlockKey) : World := { w with seen := insert k w.seen }

def onState {α : Type} (x : Proc StateDB Err α) : Proc World Err α := Proc.zoom World.st (fun w st => { w with st }) x

end World

def emptyState : StateDB where
  balance := fun _ => 0
  nonce := fun _ => 0
  codeSize := fun _ => 0
  storage := fun _ => 0
  poolOverdrawn := false

end TkmChain
