import TkmChain.Miner
import TkmChain.SolvencySound

/-!
# Rejected transactions and the miner's environment

A transaction that is rejected before its gas is bought leaves the environment
as it was. Once gas has been bought the pool stays debited, or the snapshot is
gone and going back to it panics.
-/

namespace TkmChain

open Proc List

variable {B : Backend} {M : Machine} {cfg : ChainConfig} {coinbase : Address} {hd : Header} {tx : Tx} {gas : Nat}
  {env : MinerEnv}
variable {b b₁ : BlockState} {p : Receipt × ExecutionResult} {callee target sender : Address} {input : Bytes}
  {env' : MinerEnv} {s : Stop} {l : List (Receipt × ExecutionResult)}

/-! ## What a step may do to the block -/

structure Written (b b' : BlockState) : Prop where
  grown : b.state.Grown b'.state
  gasPool : b'.gasPool = b.gasPool

instance : Std.Refl Written := ⟨fun _ => ⟨Journal.Grown.rfl, rfl⟩⟩

instance : IsTrans BlockState Written :=
  ⟨fun _ _ _ h h' => ⟨h.grown.trans h'.grown, h'.gasPool.trans h.gasPool⟩⟩

def SamePool (b b' : BlockState) : Prop := b'.gasPool = b.gasPool

instance : Std.Refl SamePool := ⟨fun _ => rfl⟩

instance : IsTrans BlockState SamePool := ⟨fun _ _ _ h h' => Eq.trans h' h⟩

structure Lower (b b' : BlockState) : Prop where
  remaining : b'.gasPool.remaining ≤ b.gasPool.remaining
  initial : b'.gasPool.initial = b.gasPool.initial

instance : Std.Refl Lower := ⟨fun _ => ⟨Nat.le_refl _, rfl⟩⟩

instance : IsTrans BlockState Lower :=
  ⟨fun _ _ _ h h' => ⟨h'.remaining.trans h.remaining, h'.initial.trans h.initial⟩⟩

theorem Written.samePool (h : Written b b') : SamePool b b' := h.gasPool

theorem SamePool.lower (h : SamePool b b') : Lower b b' := by
  unfold SamePool at h
  exact ⟨by rw [h], by rw [h]⟩

section
theorem check_written (f : StateDB → Except TxErr α) : Moves Written (BlockState.check f) := Moves.read _

theorem write_written (f : StateDB → StateDB) : Moves Written (BlockState.write f) :=
  Moves.modify fun _ => ⟨Journal.Grown.write f, rfl⟩

theorem write_samePool (f : StateDB → StateDB) : Moves SamePool (BlockState.write f) := fun _ => rfl

theorem onState_written (x : Proc StateDB Err α) : Moves Written (BlockState.onState x) :=
  fun b => ⟨Journal.Grown.write fun _ => (x b.state.current).2, rfl⟩

theorem runWhen_moves {R : BlockState → BlockState → Prop} [Std.Refl R] {p : Bool} {x : Proc BlockState TxErr Unit}
    (hx : Moves R x) : Moves R (Proc.runWhen p x) := by
  cases p with
  | false => exact Moves.pure ()
  | true => exact hx

theorem onPool_ok :
    BlockState.onPool f b = (.ok u, b') ↔ ∃ gp, f b.gasPool = .ok gp ∧ { b with gasPool := gp } = b' := by
  unfold BlockState.onPool
  split
  · rename_i gp hf; rw [hf]; simp
  · rename_i e hf; rw [hf]; simp

theorem onPool_error (h : BlockState.onPool f b = (.error e, b')) : b' = b := by
  unfold BlockState.onPool at h
  split at h
  · cases h
  · cases h; rfl

end

/-! ## The purchase -/

structure Bought (gas : Nat) (b b' : BlockState) : Prop where
  grown : b.state.Grown b'.state
  remaining : b'.gasPool.remaining + gas = b.gasPool.remaining
  initial : b'.gasPool.initial = b.gasPool.initial

theorem Written.bought (h : Written b b₁) (h' : Bought gas b₁ b') : Bought gas b b' := by
  refine ⟨h.grown.trans h'.grown, ?_, ?_⟩
  · rw [h'.remaining, h.gasPool]
  · rw [h'.initial, h.gasPool]

/-- A purchase of gas: a failure has only written, a success has taken the gas. -/
structure Buys (gas : Nat) (x : Proc BlockState TxErr α) : Prop where
  fails : Fails Written x
  bought : ∀ {b a b'}, x b = (.ok a, b') → Bought gas b b'

section
variable {x : Proc BlockState TxErr α} {f : α → Proc BlockState TxErr β}

theorem Buys.after (hx : Moves Written x) (hf : ∀ b a b', x b = (.ok a, b') → Buys gas (f a)) :
    Buys gas (x >>= f) := by
  constructor
  · intro b e b' h
    rcases bind_error.mp h with h | ⟨a, b₁, hok, h⟩
    · exact hx.fails b e b' h
    · exact IsTrans.trans _ _ _ (hx.ok hok) ((hf b a b₁ hok).fails b₁ e b' h)
  · intro b _ b' h
    obtain ⟨a, b₁, hok, h⟩ := bind_ok.mp h
    exact (hx.ok hok).bought ((hf b a b₁ hok).bought h)

theorem Buys.map (hx : Buys gas x) (g : α → β) : Buys gas (x >>= fun a => pure (g a)) := by
  refine ⟨hx.fails.bind_total fun _ => Total.pure _, ?_⟩
  intro b _ b' h
  obtain ⟨a, b₁, hok, h⟩ := bind_ok.mp h
  obtain ⟨_, rfl⟩ := pure_ok.mp h
  exact hx.bought hok

theorem takeGas_buys : Buys gas (takeGas gas check pay) := by
  refine Buys.after (check_written _) fun _ a _ _ => ⟨Fails.bind_total ?_ fun _ => Total.modify _, ?_⟩
  · intro b e b' h
    rw [onPool_error h]
    exact Std.Refl.refl b
  · intro b _ b' h
    obtain ⟨_, b₂, hpool, hpay⟩ := bind_ok.mp h
    obtain ⟨gp, hgp, rfl⟩ := onPool_ok.mp hpool
    obtain ⟨hle, rfl⟩ := GasPool.subGas_ok.mp hgp
    have after := (write_written (pay a)).ok hpay
    refine ⟨after.grown, ?_, by rw [after.gasPool]⟩
    rw [after.gasPool]
    exact Nat.sub_add_cancel hle

end

theorem buyGas_buys : Buys msg.gas (buyGas B M cfg hd msg) := by
  refine Buys.after (check_written _) fun _ mode _ _ => ?_
  split
  · exact takeGas_buys.map _
  · exact takeGas_buys.map _

def purchaseGas (B : Backend) (M : Machine) (cfg : ChainConfig) (hd : Header) (tx : Tx) :
    Proc BlockState TxErr (Message × Bool) := do
  let msg ← BlockState.check fun _ => transactionToMessage B cfg hd tx
  BlockState.check fun _ =>
    (validateShieldedOnlyTransaction B cfg hd.number hd.time.toNat tx).mapError TxErr.consensus
  Proc.runWhen (cfg.isAntartical hd.number hd.time.toNat && hasAntarticalStampPrefix tx.data)
    (BlockState.onState (processAntarticalStamp B cfg hd.number hd.time.toNat tx))
  let prepaid ← preCheck B M cfg hd msg
  pure (msg, prepaid)

def finishTransaction (B : Backend) (M : Machine) (cfg : ChainConfig) (hd : Header) (coinbase : Address) (tx : Tx)
    (msg : Message) (prepaid : Bool) : Proc BlockState TxErr (Receipt × ExecutionResult) := do
  let result ← executePurchased B M cfg hd coinbase msg prepaid
  finaliseTransaction M tx result

theorem applyTransaction_eq : applyTransaction B M cfg hd coinbase tx =
    purchaseGas B M cfg hd tx >>= fun p => finishTransaction B M cfg hd coinbase tx p.1 p.2 := by
  simp only [applyTransaction, applyTransactionWithEVM, execute, purchaseGas, finishTransaction, Proc.bind_assoc,
    Proc.pure_bind]

theorem transactionToMessage_tx (h : transactionToMessage B cfg hd tx = .ok msg) : msg.toTx = tx := by
  simp only [transactionToMessage, ok_rules] at h
  obtain ⟨_, _, _, _, _, _, _, _, _, _, _, _, rfl⟩ := h
  rfl

theorem purchaseGas_buys : Buys tx.gas (purchaseGas B M cfg hd tx) := by
  refine Buys.after (check_written _) fun _ msg _ hmsg => Buys.after (check_written _) fun _ _ _ _ => ?_
  rw [← transactionToMessage_tx (read_ok.mp hmsg).1]
  refine Buys.after (runWhen_moves (onState_written _)) fun _ _ _ _ => Buys.map ?_ _
  exact Buys.after (check_written _) fun _ _ _ _ => buyGas_buys

theorem purchaseGas_tx {p : Message × Bool} (h : purchaseGas B M cfg hd tx b = (.ok p, b')) : p.1.toTx = tx := by
  obtain ⟨msg, _, hmsg, h⟩ := bind_ok.mp h
  obtain ⟨_, _, _, h⟩ := bind_ok.mp h
  obtain ⟨_, _, _, h⟩ := bind_ok.mp h
  obtain ⟨_, _, _, h⟩ := bind_ok.mp h
  obtain ⟨rfl, rfl⟩ := pure_ok.mp h
  exact transactionToMessage_tx (read_ok.mp hmsg).1

/-! ## Execution -/

structure Short (gas : Nat) (b b' : BlockState) : Prop where
  remaining : b'.gasPool.remaining < b.gasPool.remaining + gas
  initial : b'.gasPool.initial = b.gasPool.initial

theorem SamePool.short (hgas : 0 < gas) (h : SamePool b b') : Short gas b b' := by
  unfold SamePool at h
  exact ⟨by rw [h]; omega, by rw [h]⟩

theorem SamePool.trans_short (h : SamePool b b₁) (h' : Short gas b₁ b') : Short gas b b' := by
  unfold SamePool at h
  exact ⟨h ▸ h'.remaining, h ▸ h'.initial⟩

theorem Short.trans_lower (h : Short gas b b₁) (h' : Lower b₁ b') : Short gas b b' :=
  ⟨Nat.lt_of_le_of_lt h'.remaining h.remaining, h'.initial.trans h.initial⟩

section
variable {x : Proc BlockState TxErr α} {f : α → Proc BlockState TxErr β}

theorem short_bind (hgas : 0 < gas)
    (hx : Moves SamePool x) (hf : ∀ b a b₁, x b = (.ok a, b₁) → Short gas b₁ (f a b₁).2) :
    Moves (Short gas) (x >>= f) := by
  intro b
  have hb := hx b
  rw [bind_apply]
  split
  · rename_i a b₁ hok
    rw [hok] at hb
    exact hb.trans_short (hf b a b₁ hok)
  · rename_i e b₁ herr
    rw [herr] at hb
    exact hb.short hgas

theorem short_then_lower (hx : Moves (Short gas) x) (hf : ∀ a, Moves Lower (f a)) : Moves (Short gas) (x >>= f) := by
  intro b
  have hb := hx b
  rw [bind_apply]
  split
  · rename_i a b₁ hok
    rw [hok] at hb
    exact hb.trans_lower (hf a b₁)
  · rename_i e b₁ herr
    rw [herr] at hb
    exact hb

end

theorem returnGas_short (h : returned < gas) :
    Moves (Short gas) (BlockState.onPool (GasPool.returnGas returned used)) := by
  intro b
  cases hrun : BlockState.onPool (GasPool.returnGas returned used) b with
  | mk r b' =>
    cases r with
    | error e => rw [onPool_error hrun]; exact SamePool.short (by omega) rfl
    | ok u =>
      obtain ⟨gp, hgp, rfl⟩ := onPool_ok.mp hrun
      obtain ⟨hrem, hinit⟩ := GasPool.returnGas_ok hgp
      exact ⟨by rw [hrem]; omega, hinit⟩

theorem settleGas_bounds (hleft : left + txGas ≤ limit)
    (hfloor : floor ≤ limit) :
    (settleGas r limit left refund floor prepaid).1 < limit ∧
      0 < (settleGas r limit left refund floor prepaid).2 ∧
      (settleGas r limit left refund floor prepaid).2 ≤ limit := by
  have hgas : txGas = 21000 := rfl
  simp only [settleGas]
  generalize hl : (if prepaid then 0 else left) = l
  generalize hq : (if prepaid then l else l + min refund ((limit - l) / if r.isLondon then 5 else 2)) = refunded
  have hlimit : l + 21000 ≤ limit := by
    subst hl
    split <;> omega
  -- a refund is at most half of what was used
  have hless : refunded < limit := by
    subst hq
    split
    · omega
    · have := Nat.min_le_right refund ((limit - l) / if r.isLondon then 5 else 2)
      split at this <;> split <;> omega
  split
  · refine ⟨?_, by omega, by omega⟩
    split <;> omega
  · exact ⟨hless, by omega, by omega⟩

def blockGas (r : Rules) (result : ExecutionResult) : Nat :=
  if r.isAmsterdam then result.maxUsedGas else result.usedGas

section
variable {msg : Message} {prepaid : Bool}

theorem settle_short (hrem : remaining < msg.gas) (hpeak : 0 < peak)
    (hle : peak ≤ msg.gas) : Moves (Short msg.gas) (settle cfg hd coinbase msg prepaid remaining peak err) := by
  refine short_bind (by omega) (write_samePool _) fun b _ b₁ _ => ?_
  refine short_then_lower (returnGas_short ?_) (fun _ => ?_) b₁
  · split <;> omega
  · refine Moves.mono (R := SamePool) ?_ fun _ _ => SamePool.lower
    exact Moves.read_bind fun _ => Moves.bind (write_samePool _) fun _ => Moves.pure _

theorem settle_blockGas (hrem : remaining < msg.gas) (hle : peak ≤ msg.gas)
    (h : settle cfg hd coinbase msg prepaid remaining peak err b = (.ok result, b')) :
    b'.gasPool.remaining + blockGas (rules cfg hd.number hd.time.toNat) result = b.gasPool.remaining + msg.gas ∧
      b'.gasPool.initial = b.gasPool.initial := by
  obtain ⟨_, b₁, hrefund, h⟩ := bind_ok.mp h
  obtain ⟨_, b₂, hpool, h⟩ := bind_ok.mp h
  obtain ⟨_, b₃, hcheck, h⟩ := bind_ok.mp h
  obtain ⟨_, b₄, hfee, h⟩ := bind_ok.mp h
  obtain ⟨rfl, rfl⟩ := pure_ok.mp h
  have before := ((write_written _).ok hrefund).gasPool
  have after := (IsTrans.trans _ _ _ ((check_written _).ok hcheck) ((write_written _).ok hfee) : Written b₂ b₄).gasPool
  obtain ⟨gp, hgp, rfl⟩ := onPool_ok.mp hpool
  obtain ⟨hremaining, hinitial⟩ := GasPool.returnGas_ok hgp
  rw [after]
  refine ⟨?_, by rw [hinitial, before]⟩
  rw [hremaining, before]
  unfold blockGas
  split <;> simp only [] <;> omega

theorem checkExecution_bounds {p : Nat × Nat} (h : checkExecution B M cfg hd msg st = .ok p) :
    txGas ≤ p.1 ∧ p.1 ≤ msg.gas ∧ p.2 ≤ msg.gas := by
  simp only [checkExecution, ok_rules] at h
  obtain ⟨cost, hcost, _, hle, floor, _, _, hfloor, _, _, _, _, rfl⟩ := h
  exact ⟨txGas_le_intrinsicGasWithShield3 hcost, Nat.not_lt.mp hle, Nat.not_lt.mp hfloor⟩

theorem runInBlock_samePool : Moves SamePool (runInBlock M cfg hd msg gas) := fun _ => rfl

theorem runInBlock_left {gas : Nat} {p : Nat × Nat × Option String}
    (h : runInBlock M cfg hd msg gas b = (.ok p, b')) : p.1 ≤ gas := by
  cases h
  exact (runMessage M cfg hd msg gas b.state).left_le

theorem settled_bounds {p : Nat × Nat} {q : Nat × Nat × Option String}
    (hcheck : checkExecution B M cfg hd msg st = .ok p) (hrun : runInBlock M cfg hd msg (msg.gas - p.1) b = (.ok q, b'))
    (r : Rules) (prepaid : Bool) :
    (settleGas r msg.gas q.1 q.2.1 p.2 prepaid).1 < msg.gas ∧ 0 < (settleGas r msg.gas q.1 q.2.1 p.2 prepaid).2 ∧
      (settleGas r msg.gas q.1 q.2.1 p.2 prepaid).2 ≤ msg.gas := by
  obtain ⟨hcost, hle, hfloor⟩ := checkExecution_bounds hcheck
  have hleft := runInBlock_left hrun
  exact settleGas_bounds (by omega) hfloor

theorem executePurchased_short (hgas : 0 < msg.gas) :
    Moves (Short msg.gas) (executePurchased B M cfg hd coinbase msg prepaid) := by
  refine short_bind hgas (Moves.read _) fun b p b₁ hcheck => ?_
  refine short_bind hgas runInBlock_samePool (fun b₁ q b₂ hrun => ?_) b₁
  obtain ⟨hrem, hpeak, hle⟩ := settled_bounds (read_ok.mp hcheck).1 hrun (rules cfg hd.number hd.time.toNat) prepaid
  exact settle_short hrem hpeak hle b₂

theorem executePurchased_blockGas (h : executePurchased B M cfg hd coinbase msg prepaid b = (.ok result, b')) :
    b'.gasPool.remaining + blockGas (rules cfg hd.number hd.time.toNat) result = b.gasPool.remaining + msg.gas ∧
      b'.gasPool.initial = b.gasPool.initial := by
  obtain ⟨⟨cost, floor⟩, b₁, hcheck, hrest⟩ := bind_ok.mp h
  obtain ⟨⟨left, refund, err⟩, b₂, hrun, hsettle⟩ := bind_ok.mp hrest
  obtain ⟨hok, rfl⟩ := read_ok.mp hcheck
  have hsame : b₂.gasPool = b.gasPool := runInBlock_samePool.ok hrun
  obtain ⟨hrem, _, hle⟩ := settled_bounds hok hrun (rules cfg hd.number hd.time.toNat) prepaid
  obtain ⟨hremaining, hinitial⟩ := settle_blockGas hrem hle hsettle
  rw [hremaining, hinitial, hsame]
  exact ⟨rfl, rfl⟩

theorem executePurchased_no_gas (hgas : msg.gas = 0) (b : BlockState) :
    ∃ e, executePurchased B M cfg hd coinbase msg prepaid b = (.error e, b) := by
  cases hcheck : checkExecution B M cfg hd msg b.state.current with
  | error e =>
    refine ⟨e, ?_⟩
    unfold executePurchased
    rw [bind_apply, BlockState.check, Proc.read, hcheck]
  | ok p =>
    have hp := checkExecution_bounds hcheck
    have : txGas = 21000 := rfl
    omega

end

/-! ## User operations and hooks -/

theorem reserve_lower (hx : Moves (Short (amount + 1)) x) :
    Moves Lower (BlockState.onPool (GasPool.subGas amount) >>= fun _ => x) := by
  intro b
  rw [bind_apply]
  split
  · rename_i u b₁ hok
    obtain ⟨gp, hgp, rfl⟩ := onPool_ok.mp hok
    obtain ⟨hle, rfl⟩ := GasPool.subGas_ok.mp hgp
    obtain ⟨hrem, hinit⟩ := hx { b with gasPool := { b.gasPool with remaining := b.gasPool.remaining - amount } }
    simp only at hrem hinit
    exact ⟨by omega, hinit⟩
  · rename_i e b₁ herr
    rw [onPool_error herr]
    exact Std.Refl.refl b

theorem evmCall_samePool :
    Moves SamePool (evmCall M hd caller callee input gas) := fun _ => rfl

theorem entryPointCall_samePool :
    Moves SamePool (entryPointCall M hd callee input gas what) :=
  evmCall_samePool.bind fun _ => Moves.read_bind fun _ => Moves.pure _

theorem runFactory_samePool : Moves SamePool (runFactory M hd op gas) := by
  refine Moves.ite (Moves.pure _) ?_
  exact Moves.read_bind fun _ => Moves.read_bind fun _ => entryPointCall_samePool

theorem runPaymaster_samePool : Moves SamePool (runPaymaster M hd op gas) := by
  refine Moves.ite (Moves.pure _) ?_
  exact Moves.read_bind fun _ => entryPointCall_samePool

theorem runOperation_samePool : Moves SamePool (runOperation M hd op target input) := by
  refine Moves.read_bind fun _ => Moves.bind runFactory_samePool fun _ => ?_
  exact Moves.bind runPaymaster_samePool fun _ => Moves.bind evmCall_samePool fun _ => Moves.pure _

theorem processAccountAbstraction_lower : Moves Lower (processAccountAbstraction M hd cfg tx) := by
  refine Moves.read_bind fun p => reserve_lower ?_
  refine short_bind (Nat.succ_pos _) runOperation_samePool fun b q b₁ _ => ?_
  refine short_then_lower (returnGas_short ?_) (fun _ => ?_) b₁
  · exact Nat.lt_succ_of_le (Nat.sub_le _ _)
  · refine Moves.mono (R := SamePool) ?_ fun _ _ => SamePool.lower
    exact Moves.read_bind fun _ => Moves.bind (write_samePool _) fun _ => Moves.pure _

theorem userOperationHook_lower : Moves Lower (userOperationHook M cfg hd tx) :=
  Moves.ite processAccountAbstraction_lower (Moves.pure _)

theorem protocolHooks_written : Moves Written (protocolHooks B M cfg hd tx sender) := by
  unfold protocolHooks
  iterate 6 refine Moves.bind (runWhen_moves (onState_written _)) fun _ => ?_
  exact runWhen_moves (onState_written _)

theorem consensusHooks_lower : Moves Lower (consensusHooks B M cfg hd tx sender) := by
  refine Moves.bind userOperationHook_lower fun used => Moves.bind ?_ fun _ => Moves.pure _
  exact protocolHooks_written.mono fun _ _ h => h.samePool.lower

/-! ## A call of the miner -/

section
variable (B M cfg coinbase)

def afterPurchase (hd : Header) (tx : Tx) (msg : Message) (prepaid : Bool) :
    Proc BlockState TxErr (Receipt × ExecutionResult) := do
  let (receipt, result) ← finishTransaction B M cfg hd coinbase tx msg prepaid
  let sender ← BlockState.check fun _ => (B.sender cfg hd.number hd.time.toNat tx).mapError TxErr.consensus
  let used ← consensusHooks B M cfg hd tx sender
  pure ({ receipt with
    gasUsed := receipt.gasUsed + used
    cumulativeGasUsed := receipt.cumulativeGasUsed + used }, result)

def applyOnBlock (hd : Header) (tx : Tx) : Proc BlockState TxErr (Receipt × ExecutionResult) := do
  let p ← purchaseGas B M cfg hd tx
  afterPurchase B M cfg coinbase hd tx p.1 p.2

def shieldedBlock (env : MinerEnv) (st : StateDB) : BlockState :=
  ⟨env.state.snapshot.write fun _ => st, env.gasPool⟩

def BuysGas (env : MinerEnv) (tx : Tx) : Prop :=
  0 < tx.gas ∧ checkBlockSize M cfg tx env = .ok () ∧ ∃ u w p b,
    processShieldedTransaction B cfg env.header.number env.header.time.toNat tx ⟨env.state.current, env.seen⟩ =
        (.ok u, w) ∧
      purchaseGas B M cfg env.header tx (shieldedBlock env w.st) = (.ok p, b)

end

theorem onBlock_bind (x : Proc BlockState TxErr α) (f : α → Proc BlockState TxErr β) :
    MinerEnv.onBlock (x >>= f) = MinerEnv.onBlock x >>= fun a => MinerEnv.onBlock (f a) := by
  unfold MinerEnv.onBlock
  refine zoom_bind ?_ ?_ x f
  · intro _ _; rfl
  · intro _ _ _; rfl

theorem applyAndHook_eq : applyAndHook B M cfg coinbase hd tx =
    shieldedStep B cfg hd tx >>= fun candidate => MinerEnv.onBlock (applyOnBlock B M cfg coinbase hd tx) >>= fun p =>
      pure (candidate, p) := by
  have hpure : ∀ (α : Type) (a : α), MinerEnv.onBlock (pure a : Proc BlockState TxErr α) = pure a := fun _ _ => rfl
  simp only [applyAndHook, applyOnBlock, afterPurchase, applyTransaction_eq, onBlock_bind, Proc.bind_assoc, hpure,
    Proc.pure_bind]

theorem afterPurchase_short (hgas : 0 < msg.gas) :
    Moves (Short msg.gas) (afterPurchase B M cfg coinbase hd tx msg prepaid) := by
  refine short_then_lower (short_then_lower (executePurchased_short hgas) fun _ b => ?_) fun _ => ?_
  · exact SamePool.lower rfl
  · exact Moves.read_bind fun _ => Moves.bind consensusHooks_lower fun _ => Moves.pure _

theorem afterPurchase_no_gas (hgas : msg.gas = 0) (b : BlockState) :
    ∃ e, afterPurchase B M cfg coinbase hd tx msg prepaid b = (.error e, b) := by
  obtain ⟨e, he⟩ : ∃ e, executePurchased B M cfg hd coinbase msg prepaid b = (.error e, b) :=
    executePurchased_no_gas hgas b
  refine ⟨e, ?_⟩
  unfold afterPurchase finishTransaction
  rw [bind_apply, bind_apply, he]

theorem applyOnBlock_fails (h : applyOnBlock B M cfg coinbase hd tx b = (.error e, b'))
    (hgas : tx.gas = 0 ∨ ∀ p b₁, purchaseGas B M cfg hd tx b ≠ (.ok p, b₁)) : Bought 0 b b' := by
  rcases bind_error.mp h with hfail | ⟨p, b₁, hok, hrest⟩
  · exact Written.bought (purchaseGas_buys.fails _ _ _ hfail) ⟨Journal.Grown.rfl, rfl, rfl⟩
  · rcases hgas with hgas | hnone
    · have hb := purchaseGas_buys.bought hok
      rw [hgas] at hb
      have hmsg : p.1.gas = 0 := by rw [purchaseGas_tx hok, hgas]
      obtain ⟨e', he'⟩ : ∃ e, afterPurchase B M cfg coinbase hd tx p.1 p.2 b₁ = (.error e, b₁) :=
        afterPurchase_no_gas hmsg b₁
      rw [he'] at hrest
      cases hrest
      exact hb
    · exact absurd hok (hnone p b₁)

theorem applyOnBlock_spends {p : Message × Bool} (hgas : 0 < tx.gas) (h : purchaseGas B M cfg hd tx b = (.ok p, b₁)) :
    (applyOnBlock B M cfg coinbase hd tx b).2.gasPool.remaining < b.gasPool.remaining ∧
      (applyOnBlock B M cfg coinbase hd tx b).2.gasPool.initial = b.gasPool.initial := by
  have hb := purchaseGas_buys.bought h
  have hmsg : p.1.gas = tx.gas := by rw [purchaseGas_tx h]
  have hshort : Short p.1.gas b₁ (afterPurchase B M cfg coinbase hd tx p.1 p.2 b₁).2 :=
    afterPurchase_short (by omega) b₁
  have hrun : applyOnBlock B M cfg coinbase hd tx b = afterPurchase B M cfg coinbase hd tx p.1 p.2 b₁ := by
    unfold applyOnBlock
    rw [bind_apply, h]
  rw [hrun]
  have hrem := hshort.remaining
  have hbought := hb.remaining
  exact ⟨by omega, hshort.initial.trans hb.initial⟩

theorem applyAndHook_error (h : applyAndHook B M cfg coinbase hd tx env = (.error e, env')) :
    (∃ e' w, processShieldedTransaction B cfg hd.number hd.time.toNat tx ⟨env.state.current, env.seen⟩ = (.error e', w) ∧
      env' = { env with state := env.state.write fun _ => w.st }) ∨
    ∃ u w b', processShieldedTransaction B cfg hd.number hd.time.toNat tx ⟨env.state.current, env.seen⟩ = (.ok u, w) ∧
      applyOnBlock B M cfg coinbase hd tx ⟨env.state.write fun _ => w.st, env.gasPool⟩ = (.error e, b') ∧
      env' = { env with toBlockState := b' } := by
  rw [applyAndHook_eq, bind_error] at h
  unfold shieldedStep at h
  cases hs : processShieldedTransaction B cfg hd.number hd.time.toNat tx ⟨env.state.current, env.seen⟩ with
  | mk r w =>
    rw [hs] at h
    cases r with
    | error e' =>
      rcases h with h | ⟨_, _, h, _⟩
      · cases h; exact .inl ⟨e', w, rfl, rfl⟩
      · cases h
    | ok u =>
      rcases h with h | ⟨_, _, hok, h⟩
      · cases h
      · cases hok
        rcases bind_error.mp h with h | ⟨_, _, _, h⟩
        · simp only [MinerEnv.onBlock, Proc.zoom, Prod.mk.injEq] at h
          exact .inr ⟨u, w, _, rfl, Prod.ext h.1 rfl, h.2.symm⟩
        · cases h

theorem applyAndHook_ok {p : Finset BlockKey × Receipt × ExecutionResult}
    (h : applyAndHook B M cfg coinbase hd tx env = (.ok p, env')) :
    ∃ u w b', processShieldedTransaction B cfg hd.number hd.time.toNat tx ⟨env.state.current, env.seen⟩ = (.ok u, w) ∧
      applyOnBlock B M cfg coinbase hd tx ⟨env.state.write fun _ => w.st, env.gasPool⟩ = (.ok p.2, b') ∧
      env' = { env with toBlockState := b' } := by
  rw [applyAndHook_eq] at h
  obtain ⟨candidate, env₁, hstep, h⟩ := bind_ok.mp h
  obtain ⟨q, env₂, hblock, h⟩ := bind_ok.mp h
  obtain ⟨rfl, rfl⟩ := pure_ok.mp h
  obtain ⟨b', hb', rfl⟩ := zoom_ok.mp hblock
  unfold shieldedStep at hstep
  cases hs : processShieldedTransaction B cfg hd.number hd.time.toNat tx ⟨env.state.current, env.seen⟩ with
  | mk r w =>
    rw [hs] at hstep
    cases r with
    | error e' => cases hstep
    | ok u =>
      cases hstep
      exact ⟨u, w, b', rfl, hb', rfl⟩

theorem checkBlockSize_error (h : checkBlockSize M cfg tx env = .error s) :
    s = .err .blockOversized := by
  unfold checkBlockSize failIf at h
  split at h
  · cases h; rfl
  · cases h

theorem commitTransaction_sized (h : checkBlockSize M cfg tx env = .ok ()) :
    commitTransaction B M cfg coinbase tx env =
      (MinerEnv.orRollback env.state.nextRevisionId (applyAndHook B M cfg coinbase env.header tx) >>= fun p =>
        includeTx tx p.1 p.2.1 >>= fun _ => pure p.2) { env with state := env.state.snapshot } := by
  unfold commitTransaction
  rw [bind_apply, Proc.read, h]
  rfl

theorem commitTransaction_error (h : commitTransaction B M cfg coinbase tx env = (.error s, env')) :
    (s = .err .blockOversized ∧ checkBlockSize M cfg tx env ≠ .ok () ∧ env' = env) ∨
    checkBlockSize M cfg tx env = .ok () ∧
      ((∃ e env₁ j, applyAndHook B M cfg coinbase env.header tx { env with state := env.state.snapshot } = (.error e, env₁) ∧
          env₁.state.revertToSnapshot env.state.nextRevisionId = some j ∧ s = .err e ∧ env' = { env₁ with state := j }) ∨
        ∃ m, s = .panic m) := by
  cases hsize : checkBlockSize M cfg tx env with
  | error s' =>
    unfold commitTransaction at h
    rw [bind_apply, Proc.read, hsize] at h
    cases h
    exact .inl ⟨checkBlockSize_error hsize, by simp, rfl⟩
  | ok u =>
    refine .inr ⟨rfl, ?_⟩
    rw [commitTransaction_sized hsize] at h
    rcases bind_error.mp h with h | ⟨p, env₂, _, h⟩
    · unfold MinerEnv.orRollback at h
      split at h
      · cases h
      · rename_i e env₁ hrun
        split at h
        · rename_i j hj
          cases h
          exact .inl ⟨e, env₁, j, hrun, hj, rfl, rfl⟩
        · cases h; exact .inr ⟨_, rfl⟩
    · rcases bind_error.mp h with h | ⟨_, _, _, h⟩
      · unfold includeTx at h
        split at h
        · cases h; exact .inr ⟨_, rfl⟩
        · cases h
      · cases h

theorem commitTransaction_ok (h : commitTransaction B M cfg coinbase tx env = (.ok r, env')) :
    ∃ candidate env₁ used,
      applyAndHook B M cfg coinbase env.header tx { env with state := env.state.snapshot } = (.ok (candidate, r), env₁) ∧
      env₁.gasPool.used = some used ∧
      env' = { env₁ with
        seen := env₁.seen ∪ candidate
        header := { env₁.header with gasUsed := UInt64.ofNat used }
        txs := env₁.txs ++ [tx]
        receipts := env₁.receipts ++ [r.1] } := by
  cases hsize : checkBlockSize M cfg tx env with
  | error s' =>
    unfold commitTransaction at h
    rw [bind_apply, Proc.read, hsize] at h
    cases h
  | ok u =>
    rw [commitTransaction_sized hsize] at h
    obtain ⟨p, env₁, hroll, h⟩ := bind_ok.mp h
    obtain ⟨_, env₂, hinc, h⟩ := bind_ok.mp h
    obtain ⟨rfl, rfl⟩ := pure_ok.mp h
    unfold MinerEnv.orRollback at hroll
    split at hroll
    · rename_i a env₃ hrun
      cases hroll
      unfold includeTx at hinc
      split at hinc
      · cases hinc
      · rename_i used hused
        cases hinc
        exact ⟨p.1, env₁, used, hrun, hused, rfl⟩
    · rename_i e env₃ hrun
      split at hroll <;> cases hroll

/-! ## Rejections that leave no trace -/

structure Unchanged (env env' : MinerEnv) : Prop where
  state : env'.state.current = env.state.current
  used : env'.gasPool.used = env.gasPool.used
  gasUsed : env'.header.gasUsed = env.header.gasUsed
  txs : env'.txs = env.txs
  receipts : env'.receipts = env.receipts
  seen : env'.seen = env.seen

def RejectsCleanly (B : Backend) (M : Machine) (cfg : ChainConfig) (coinbase : Address) (env : MinerEnv) (tx : Tx) :
    Prop :=
  ∃ e env', commitTransaction B M cfg coinbase tx env = (.error (.err e), env') ∧ Unchanged env env'

theorem unchanged_of_bought (hb : Bought 0 ⟨env.state.snapshot, env.gasPool⟩ b)
    (he : env₁ = { env with toBlockState := b }) :
    ∃ j, env₁.state.revertToSnapshot env.state.nextRevisionId = some j ∧ Unchanged env { env₁ with state := j } := by
  obtain ⟨j, hj, hcurrent, _, _⟩ := Journal.revert_snapshot hb.grown
  subst he
  refine ⟨j, hj, hcurrent, ?_, rfl, rfl, rfl, rfl⟩
  have hrem : b.gasPool.remaining = env.gasPool.remaining := hb.remaining
  have hinit : b.gasPool.initial = env.gasPool.initial := hb.initial
  simp only [GasPool.used, hrem, hinit]

theorem not_buysGas_iff : ¬ BuysGas B M cfg env tx ↔ tx.gas = 0 ∨ checkBlockSize M cfg tx env ≠ .ok () ∨
    ∀ u w, processShieldedTransaction B cfg env.header.number env.header.time.toNat tx ⟨env.state.current, env.seen⟩ =
        (.ok u, w) → ∀ p b, purchaseGas B M cfg env.header tx (shieldedBlock env w.st) ≠ (.ok p, b) := by
  unfold BuysGas
  constructor
  · intro h
    by_cases hgas : tx.gas = 0
    · exact .inl hgas
    · by_cases hsize : checkBlockSize M cfg tx env = .ok ()
      · refine .inr (.inr fun u w hs p b hp => h ?_)
        exact ⟨Nat.pos_of_ne_zero hgas, hsize, u, w, p, b, hs, hp⟩
      · exact .inr (.inl hsize)
  · rintro (hgas | hsize | hnone) ⟨hpos, hok, u, w, p, b, hs, hp⟩
    · omega
    · exact hsize hok
    · exact hnone u w hs p b hp

theorem applyAndHook_rejects (hsize : checkBlockSize M cfg tx env = .ok ()) (hgas : ¬ BuysGas B M cfg env tx) :
    ∃ e b, applyAndHook B M cfg coinbase env.header tx { env with state := env.state.snapshot } =
        (.error e, { env with toBlockState := b }) ∧ Bought 0 ⟨env.state.snapshot, env.gasPool⟩ b := by
  have hwritten : ∀ st, Written ⟨env.state.snapshot, env.gasPool⟩ (shieldedBlock env st) :=
    fun st => ⟨Journal.Grown.write fun _ => st, rfl⟩
  have hgas' := (not_buysGas_iff.mp hgas).imp_right fun h => h.resolve_left (not_not_intro hsize)
  cases hrun : applyAndHook B M cfg coinbase env.header tx { env with state := env.state.snapshot } with
  | mk r env₁ =>
    cases r with
    | error e =>
      refine ⟨e, ?_⟩
      rcases applyAndHook_error hrun with ⟨e', w, _, rfl⟩ | ⟨u, w, b', hs, happly, rfl⟩
      · exact ⟨_, rfl, (hwritten w.st).bought ⟨Journal.Grown.rfl, rfl, rfl⟩⟩
      · exact ⟨b', rfl, (hwritten w.st).bought (applyOnBlock_fails happly (hgas'.imp_right fun h => h u w hs))⟩
    | ok p =>
      obtain ⟨u, w, b', hs, happly, _⟩ := applyAndHook_ok hrun
      obtain ⟨q, b₁, hbuy, hafter⟩ := bind_ok.mp happly
      rcases hgas' with hzero | hnone
      · have hmsg : q.1.gas = 0 := by rw [purchaseGas_tx hbuy, hzero]
        obtain ⟨e, he⟩ : ∃ e, afterPurchase B M cfg coinbase env.header tx q.1 q.2 b₁ = (.error e, b₁) :=
          afterPurchase_no_gas hmsg b₁
        rw [he] at hafter
        cases hafter
      · exact absurd hbuy (hnone u w hs q b₁)

theorem rejectsCleanly_of_not_buysGas
    (h : commitTransaction B M cfg coinbase tx env = (.error s, env')) (hgas : ¬ BuysGas B M cfg env tx) :
    RejectsCleanly B M cfg coinbase env tx := by
  rcases commitTransaction_error h with ⟨rfl, _, rfl⟩ | ⟨hsize, _⟩
  · exact ⟨_, _, h, rfl, rfl, rfl, rfl, rfl, rfl⟩
  · obtain ⟨e, b, hrun, hb⟩ := applyAndHook_rejects hsize hgas
    obtain ⟨j, hj, hsame⟩ := unchanged_of_bought hb rfl
    refine ⟨e, _, ?_, hsame⟩
    rw [commitTransaction_sized hsize, bind_apply, MinerEnv.orRollback, hrun]
    simp only [hj]

theorem not_rejectsCleanly_of_buysGas (hpool : env.gasPool.remaining ≤ env.gasPool.initial)
    (hgas : BuysGas B M cfg env tx) : ¬ RejectsCleanly B M cfg coinbase env tx := by
  rintro ⟨e, env', h, hsame⟩
  obtain ⟨hpos, hsize, u, w, p, b, hs, hbuy⟩ := hgas
  rcases commitTransaction_error h with ⟨_, hover, _⟩ | ⟨_, ⟨e', env₁, j, hrun, _, _, rfl⟩ | ⟨m, hm⟩⟩
  · exact hover hsize
  · rcases applyAndHook_error hrun with ⟨_, w', hs', _⟩ | ⟨u', w', b', hs', happly, rfl⟩
    · cases hs.symm.trans hs'
    · cases hs.symm.trans hs'
      have hb : applyOnBlock B M cfg coinbase env.header tx (shieldedBlock env w.st) = (.error e', b') := happly
      obtain ⟨hrem, hinit⟩ := hb ▸ applyOnBlock_spends hpos hbuy
      have hused := hsame.used
      have hrem' : b'.gasPool.remaining < env.gasPool.remaining := hrem
      have hinit' : b'.gasPool.initial = env.gasPool.initial := hinit
      simp only [GasPool.used, hinit'] at hused
      rw [if_neg (by omega), if_neg (by omega), Option.some.injEq] at hused
      omega
  · cases hm

/-! ## The gas of a block -/

structure Spent (used : Nat) (b b' : BlockState) : Prop where
  remaining : b'.gasPool.remaining + used = b.gasPool.remaining
  initial : b'.gasPool.initial = b.gasPool.initial

theorem Spent.trans_same (h : Spent used b b₁) (h' : SamePool b₁ b') : Spent used b b' := by
  unfold SamePool at h'
  exact ⟨by rw [h', h.remaining], by rw [h', h.initial]⟩

theorem runOperation_used {p : Nat × Option String}
    (hpre : op.preVerificationGas ≤ op.callGasLimit) (h : runOperation M hd op target input b = (.ok p, b')) :
    p.1 ≤ op.reserved := by
  obtain ⟨_, b₁, _, h⟩ := bind_ok.mp h
  obtain ⟨factoryLeft, b₂, _, h⟩ := bind_ok.mp h
  obtain ⟨left, b₃, _, h⟩ := bind_ok.mp h
  obtain ⟨q, b₄, _, h⟩ := bind_ok.mp h
  obtain ⟨rfl, _⟩ := pure_ok.mp h
  unfold UserOperation.reserved
  simp only [max_le_iff]
  omega

theorem checkOperation_preVerification {p : UserOperation × Address × Bytes}
    (h : checkOperation M cfg hd tx st = .ok p) : p.1.preVerificationGas ≤ p.1.callGasLimit := by
  simp only [checkOperation, ok_rules] at h
  obtain ⟨_, _, _, _, op, _, _, _, _, _, _, _, _, _, _, _, _, _, _, hsum, _, _, rfl⟩ := h
  simp only [not_or, Nat.not_lt] at hsum ⊢
  omega

theorem processAccountAbstraction_spent
    (h : processAccountAbstraction M hd cfg tx b = (.ok used, b')) : Spent used b b' := by
  obtain ⟨⟨op, target, input⟩, b₁, hcheck, h⟩ := bind_ok.mp h
  obtain ⟨hop, rfl⟩ := read_ok.mp hcheck
  obtain ⟨_, b₂, hsub, h⟩ := bind_ok.mp h
  obtain ⟨⟨spent, err⟩, b₃, hrun, h⟩ := bind_ok.mp h
  obtain ⟨_, b₄, hreturn, h⟩ := bind_ok.mp h
  obtain ⟨_, b₅, herr, h⟩ := bind_ok.mp h
  obtain ⟨_, b₆, hnonce, h⟩ := bind_ok.mp h
  obtain ⟨rfl, rfl⟩ := pure_ok.mp h
  have hle := runOperation_used (checkOperation_preVerification hop) hrun
  have hsame : b₃.gasPool = b₂.gasPool := runOperation_samePool.ok hrun
  have hlast : SamePool b₄ b₆ := IsTrans.trans _ _ _ ((Moves.read _).ok herr) ((write_samePool _).ok hnonce)
  refine Spent.trans_same ?_ hlast
  obtain ⟨gp, hgp, rfl⟩ := onPool_ok.mp hsub
  obtain ⟨hres, rfl⟩ := GasPool.subGas_ok.mp hgp
  obtain ⟨gp', hgp', rfl⟩ := onPool_ok.mp hreturn
  obtain ⟨hrem, hinit⟩ := GasPool.returnGas_ok hgp'
  rw [hsame] at hrem hinit
  refine ⟨?_, hinit⟩
  simp only at hrem hle ⊢
  omega

theorem userOperationHook_spent (h : userOperationHook M cfg hd tx b = (.ok used, b')) : Spent used b b' := by
  unfold userOperationHook at h
  split at h
  · exact processAccountAbstraction_spent h
  · obtain ⟨rfl, rfl⟩ := pure_ok.mp h
    exact ⟨rfl, rfl⟩

theorem consensusHooks_spent (h : consensusHooks B M cfg hd tx sender b = (.ok used, b')) : Spent used b b' := by
  obtain ⟨gas, b₁, hop, h⟩ := bind_ok.mp h
  obtain ⟨_, b₂, hhooks, h⟩ := bind_ok.mp h
  obtain ⟨rfl, rfl⟩ := pure_ok.mp h
  exact (userOperationHook_spent hop).trans_same (protocolHooks_written.ok hhooks).samePool

def includedGas (r : Rules) (p : Receipt × ExecutionResult) : Nat := blockGas r p.2 + (p.1.gasUsed - p.2.usedGas)

theorem finishTransaction_blockGas (h : finishTransaction B M cfg hd coinbase tx msg prepaid b = (.ok p, b')) :
    b'.gasPool.remaining + blockGas (rules cfg hd.number hd.time.toNat) p.2 = b.gasPool.remaining + msg.gas ∧
      b'.gasPool.initial = b.gasPool.initial ∧ p.1.gasUsed = p.2.usedGas := by
  obtain ⟨result, b₁, hexec, h⟩ := bind_ok.mp h
  obtain ⟨hrem, hinit⟩ := executePurchased_blockGas hexec
  cases h
  exact ⟨hrem, hinit, rfl⟩

theorem applyOnBlock_includedGas (h : applyOnBlock B M cfg coinbase hd tx b = (.ok p, b')) :
    Spent (includedGas (rules cfg hd.number hd.time.toNat) p) b b' ∧ p.2.usedGas ≤ p.1.gasUsed := by
  obtain ⟨q, b₁, hbuy, h⟩ := bind_ok.mp h
  obtain ⟨⟨receipt, result⟩, b₂, hfinish, h⟩ := bind_ok.mp h
  obtain ⟨sender, b₃, hsender, h⟩ := bind_ok.mp h
  obtain ⟨used, b₄, hhooks, h⟩ := bind_ok.mp h
  obtain ⟨rfl, rfl⟩ := pure_ok.mp h
  have hb := purchaseGas_buys.bought hbuy
  obtain ⟨hrem, hinit, hgas⟩ := finishTransaction_blockGas hfinish
  obtain ⟨_, rfl⟩ := read_ok.mp hsender
  have hspent := consensusHooks_spent hhooks
  have hmsg : q.1.gas = tx.gas := by rw [purchaseGas_tx hbuy]
  have h₁ := hb.remaining
  have h₂ := hspent.remaining
  simp only at hrem hgas
  unfold includedGas
  refine ⟨⟨?_, ?_⟩, ?_⟩
  · simp only
    omega
  · rw [hspent.initial, hinit, hb.initial]
  · simp only
    omega

section
variable (B M cfg coinbase)

/-- A block under construction with the outcomes of the transactions in it. A rejected transaction bought no gas. -/
inductive MinerRun : MinerEnv → List (Receipt × ExecutionResult) → Prop
  | start {env : MinerEnv} (pool : env.gasPool = newGasPool env.header.gasLimit.toNat) (gasUsed : env.header.gasUsed = 0)
      (txs : env.txs = []) (receipts : env.receipts = []) : MinerRun env []
  | included {env env' : MinerEnv} {l : List (Receipt × ExecutionResult)} {tx : Tx} {p : Receipt × ExecutionResult}
      (run : MinerRun env l) (h : commitTransaction B M cfg coinbase tx env = (.ok p, env')) : MinerRun env' (l ++ [p])
  | rejected {env env' : MinerEnv} {l : List (Receipt × ExecutionResult)} {tx : Tx} {s : Stop} (run : MinerRun env l)
      (h : commitTransaction B M cfg coinbase tx env = (.error s, env')) (hgas : ¬ BuysGas B M cfg env tx) :
      MinerRun env' l

end

structure GasAccount (cfg : ChainConfig) (env : MinerEnv) (l : List (Receipt × ExecutionResult)) : Prop where
  spent : env.gasPool.remaining + (l.map (includedGas (rules cfg env.header.number env.header.time.toNat))).sum =
    env.gasPool.initial
  fits : env.gasPool.initial < 2 ^ 64
  gasUsed : env.header.gasUsed.toNat =
    (l.map (includedGas (rules cfg env.header.number env.header.time.toNat))).sum
  receipts : env.receipts = l.map Prod.fst
  txs : env.txs.length = l.length
  refunds : ∀ p ∈ l, p.2.usedGas ≤ p.1.gasUsed

theorem GasAccount.included (ih : GasAccount cfg env l)
    (h : commitTransaction B M cfg coinbase tx env = (.ok p, env')) : GasAccount cfg env' (l ++ [p]) := by
  obtain ⟨candidate, env₁, used, hrun, hused, rfl⟩ := commitTransaction_ok h
  obtain ⟨_, w, b, _, happly, rfl⟩ := applyAndHook_ok hrun
  obtain ⟨hspent, hrefund⟩ := applyOnBlock_includedGas happly
  have hrem := hspent.remaining
  have hinit := hspent.initial
  have hsum := ih.spent
  have hfits := ih.fits
  simp only [GasPool.used] at hused hrem hinit
  rw [hinit] at hused
  split at hused
  · cases hused
  · cases hused
    refine ⟨?_, ?_, ?_, ?_, ?_, ?_⟩
    · simp only [map_append, sum_append, map_cons, map_nil, sum_cons, sum_nil]
      omega
    · simp only
      omega
    · simp only [map_append, sum_append, map_cons, map_nil, sum_cons, sum_nil]
      have hsize : UInt64.size = 2 ^ 64 := rfl
      rw [UInt64.toNat_ofNat_of_lt' (by omega)]
      omega
    · simp [ih.receipts]
    · simp [ih.txs]
    · intro q hq
      rcases mem_append.mp hq with hq | hq
      · exact ih.refunds q hq
      · cases mem_singleton.mp hq
        exact hrefund

theorem GasAccount.rejected
    (ih : GasAccount cfg env l) (h : commitTransaction B M cfg coinbase tx env = (.error s, env'))
    (hgas : ¬ BuysGas B M cfg env tx) : GasAccount cfg env' l := by
  rcases commitTransaction_error h with ⟨_, _, rfl⟩ | ⟨hsize, _⟩
  · exact ih
  · obtain ⟨e, b, hrun, hb⟩ := @applyAndHook_rejects B M cfg coinbase tx env hsize hgas
    obtain ⟨j, hj, _⟩ := unchanged_of_bought hb rfl
    rw [commitTransaction_sized hsize, bind_apply, MinerEnv.orRollback, hrun] at h
    simp only [hj] at h
    cases h
    have hrem : b.gasPool.remaining = env.gasPool.remaining := hb.remaining
    have hinit : b.gasPool.initial = env.gasPool.initial := hb.initial
    exact ⟨by simp only [hrem, hinit]; exact ih.spent, by simp only [hinit]; exact ih.fits, ih.gasUsed, ih.receipts,
      ih.txs, ih.refunds⟩

theorem MinerRun.account (run : MinerRun B M cfg coinbase env l) : GasAccount cfg env l := by
  induction run with
  | start pool gasUsed txs receipts =>
    refine ⟨?_, ?_, ?_, receipts, by rw [txs]; rfl, by simp⟩
    · rw [pool]; rfl
    · rw [pool]; exact UInt64.toNat_lt _
    · rw [gasUsed]; rfl
  | included _ h ih => exact ih.included h
  | rejected _ h hgas ih => exact ih.rejected h hgas

theorem GasAccount.sum_receipts (h : GasAccount cfg env l)
    (hams : cfg.isAmsterdam env.header.number env.header.time.toNat = false) :
    env.header.gasUsed.toNat = (env.receipts.map Receipt.gasUsed).sum := by
  rw [h.gasUsed, h.receipts, map_map]
  congr 1
  refine map_congr_left fun p hp => ?_
  have := h.refunds p hp
  simp only [includedGas, blockGas, rules, hams, Bool.false_eq_true, if_false, Function.comp_apply]
  omega

/-- A rejected transaction leaves the environment as it was exactly when it bought no gas. In a block whose
rejections are of that kind, the header charges what the included transactions used. -/
theorem rejection_unchanged_iff (B : Backend) (M : Machine) (cfg : ChainConfig) (coinbase : Address) :
    (∀ (env : MinerEnv) (tx : Tx), env.gasPool.remaining ≤ env.gasPool.initial →
      (∃ s env', commitTransaction B M cfg coinbase tx env = (.error s, env')) →
      (RejectsCleanly B M cfg coinbase env tx ↔ ¬ BuysGas B M cfg env tx)) ∧
    ∀ env l, MinerRun B M cfg coinbase env l →
      env.gasPool.remaining ≤ env.gasPool.initial ∧ env.receipts = l.map Prod.fst ∧
      env.header.gasUsed.toNat = (l.map (includedGas (rules cfg env.header.number env.header.time.toNat))).sum ∧
      (cfg.isAmsterdam env.header.number env.header.time.toNat = false →
        env.header.gasUsed.toNat = (env.receipts.map Receipt.gasUsed).sum) := by
  constructor
  · rintro env tx hpool ⟨s, env', h⟩
    constructor
    · intro hclean hgas
      exact not_rejectsCleanly_of_buysGas hpool hgas hclean
    · intro hgas
      exact rejectsCleanly_of_not_buysGas h hgas
  · intro env l run
    have haccount := run.account
    have hspent := haccount.spent
    exact ⟨by omega, haccount.receipts, haccount.gasUsed, haccount.sum_receipts⟩

/-! ## A rejection that costs the block -/

def plainMachine : Machine where
  calcBlobFee _ _ := 0
  txSize tx := tx.data.length
  delegated _ _ := false
  parsePQMigration _ := none
  encodeV3 _ := .ok []
  encodeV4 _ := .ok []
  encodeV5 _ := .ok []
  encodeV6 _ := .ok []
  encodeStamp _ := .ok []
  privateTVMGasData data := .ok (data, 0)
  decodeUserOperation _ := .error ""
  verifyUserOperation _ _ _ := .ok ()
  applyAuthorizations _ _ st := st
  call _ _ _ _ gas _ j := ⟨j, gas, Nat.le_refl _, 0, none⟩
  create _ _ _ gas _ j := ⟨j, gas, Nat.le_refl _, 0, none⟩
  finalise st := st
  processOracle _ _ _ _ _ := pure ()
  processCrossChain _ _ _ _ _ := pure ()
  processPrivateTVM _ _ _ _ := pure ()

def plainTx (gas : Nat) : Tx where
  hash := 1
  hash_ne := Hash.one_ne
  type := .legacy
  chainId := 1
  nonce := 0
  gasTipCap := 0
  gasFeeCap := 0
  gas
  toAddr := some 9
  value := 0
  data := []
  algorithm := ""
  publicKey := []

def emptyBlock : MinerEnv where
  state := Journal.ofState emptyState
  gasPool := newGasPool 50000
  header := { parentHash := 0, difficulty := 1, number := 1, time := 1, gasLimit := 50000, fits := by decide }
  txs := []
  receipts := []
  seen := ∅

def oldConfig : ChainConfig where
  chainID := some 1

def stopOf {α : Type} : Except Stop α × MinerEnv → Option Stop
  | (.ok _, _) => none
  | (.error s, _) => some s

theorem stopOf_some (h : stopOf r = some s) :
    ∃ env', r = (.error s, env') := by
  obtain ⟨r, env'⟩ := r
  cases r with
  | ok a => cases h
  | error s' => cases h; exact ⟨env', rfl⟩

theorem rejection_unchanged_no_gas :
    RejectsCleanly migrationBackend plainMachine oldConfig 0 emptyBlock (plainTx 0) := by
  obtain ⟨env', h⟩ := stopOf_some (show stopOf (commitTransaction migrationBackend plainMachine oldConfig 0 (plainTx 0)
    emptyBlock) = some (.err (.intrinsicGas 0 21000)) by rfl)
  refine ((rejection_unchanged_iff migrationBackend plainMachine oldConfig 0).1 emptyBlock (plainTx 0) (by decide)
    ⟨_, env', h⟩).mpr ?_
  rintro ⟨hgas, _⟩
  exact absurd hgas (by decide)

/-! ## A rejection that stops the miner -/

def exitBackend : Backend := { migrationBackend with decodeAction := fun _ => some 1 }

def exitConfig : ChainConfig := { antarticalConfig false with validatorTransactionTime := some 0 }

def strayExit : Tx where
  hash := 1
  hash_ne := Hash.one_ne
  type := .pqTkm
  chainId := mainnetChainID
  nonce := 0
  gasTipCap := 0
  gasFeeCap := 0
  gas := 40000
  toAddr := some poolAddress
  value := 0
  data := Bytes.ofText validatorExitMagic
  algorithm := algorithmMLDSA87
  publicKey := List.replicate mldsa87PublicKeySize 1

def stampedBlock : MinerEnv where
  state := Journal.ofState { emptyState with storage := fun k => if k = stampAddressSlot 7 then 1 else 0 }
  gasPool := newGasPool 50000
  header :=
    { parentHash := 0, difficulty := 1, number := 1, time := 1, gasLimit := 50000, baseFee := some 0,
      fits := by decide }
  txs := []
  receipts := []
  seen := ∅

/-- The exit is refused after its gas was spent, when the snapshot is gone. -/
theorem stray_exit_panics : ¬ ∀ (env : MinerEnv) (tx : Tx), env.gasPool.remaining ≤ env.gasPool.initial →
    (∃ s env', commitTransaction exitBackend plainMachine exitConfig 0 tx env = (.error s, env')) →
    RejectsCleanly exitBackend plainMachine exitConfig 0 env tx := by
  intro hclaim
  obtain ⟨env', h⟩ := stopOf_some (show stopOf (commitTransaction exitBackend plainMachine exitConfig 0 strayExit
    stampedBlock) = some (.panic "revision id cannot be reverted") by decide +kernel)
  obtain ⟨e, env₁, hclean, _⟩ := hclaim stampedBlock strayExit (by decide) ⟨_, env', h⟩
  cases h.symm.trans hclean

end TkmChain
