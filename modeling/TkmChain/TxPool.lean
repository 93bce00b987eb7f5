import TkmChain.Admission

/-!
# The transaction pool

The legacy pool with its lookup, its pending and queued lists, and the key images
its Shield6 transactions reserve. What other parts of the node decide is a choice
of the operation: the outcome of validation, the transactions the price heaps give
up, and the accounts that are idle, over a limit or due for promotion.
-/

namespace TkmChain

open List

structure PoolEnv where
  backend : Backend
  /-- `types.Sender` with the signer of the pool. -/
  sender : Tx → Address
  numSlots : Tx → Nat
  (priceBump globalSlots globalQueue accountQueue : Nat)

/-! ## Lists of one account -/

/-- `list` over a `SortedMap`: at most one transaction for each nonce. -/
structure TxList where
  txs : List Tx
  (costcap gascap totalcost : Nat)
  sorted : txs.Pairwise fun t u => t.nonce < u.nonce

namespace TxList

def empty : TxList := ⟨[], 0, 0, 0, List.Pairwise.nil⟩

variable (env : PoolEnv) (l : TxList)

def get (nonce : Nat) : Option Tx := l.txs.find? fun t => t.nonce = nonce

def contains (nonce : Nat) : Bool := (l.get nonce).isSome

def costs (txs : List Tx) : Nat := (txs.map (shieldedTransactionPreBalanceCost env.backend)).sum

def keep (p : Tx → Bool) (removed : List Tx) : TxList where
  txs := l.txs.filter p
  costcap := l.costcap
  gascap := l.gascap
  totalcost := l.totalcost - costs env removed
  sorted := l.sorted.filter _

/-- `SortedMap.Put`. -/
def put (tx : Tx) : List Tx :=
  l.txs.filter (fun t => t.nonce < tx.nonce) ++ tx :: l.txs.filter fun t => tx.nonce < t.nonce

theorem put_sorted (tx : Tx) : (l.put tx).Pairwise fun t u => t.nonce < u.nonce := by
  rw [put, pairwise_append]
  refine ⟨l.sorted.filter _, pairwise_cons.mpr ⟨fun u hu => ?_, l.sorted.filter _⟩, fun t ht u hu => ?_⟩
  · simpa using (mem_filter.mp hu).2
  · have ht := of_decide_eq_true (mem_filter.mp ht).2
    rcases mem_cons.mp hu with rfl | hu
    · exact ht
    · exact ht.trans (of_decide_eq_true (mem_filter.mp hu).2)

def underpriced (old tx : Tx) : Prop :=
  tx.gasFeeCap ≤ old.gasFeeCap ∨ tx.gasTipCap ≤ old.gasTipCap ∨
    tx.gasFeeCap < old.gasFeeCap * (100 + env.priceBump) / 100 ∨
    tx.gasTipCap < old.gasTipCap * (100 + env.priceBump) / 100

instance (old tx : Tx) : Decidable (underpriced env old tx) := inferInstanceAs (Decidable (_ ∨ _))

/-- `list.Add`, with the transaction that is replaced. -/
def add (tx : Tx) : Option (TxList × Option Tx) :=
  let old := l.get tx.nonce
  let cost := shieldedTransactionPreBalanceCost env.backend tx
  if ∃ o ∈ old, underpriced env o tx then none
  else if 2 ^ 256 ≤ cost then none
  else if 2 ^ 256 ≤ l.totalcost + cost then none
  else
    some ({ txs := l.put tx
            costcap := max l.costcap cost
            gascap := max l.gascap tx.gas
            totalcost := l.totalcost + cost - costs env old.toList
            sorted := l.put_sorted tx }, old)

def forward (threshold : Nat) : List Tx × TxList :=
  let removed := l.txs.filter fun t => t.nonce < threshold
  (removed, l.keep env (fun t => !decide (t.nonce < threshold)) removed)

def overLimit (costLimit gasLimit : Nat) (tx : Tx) : Bool :=
  gasLimit < tx.gas || costLimit < shieldedTransactionPreBalanceCost env.backend tx

/-- `list.Filter`: those over a limit, and in a strict list those behind the first of them. -/
def filter (strict : Bool) (costLimit gasLimit : Nat) : List Tx × List Tx × TxList :=
  if l.costcap ≤ costLimit ∧ l.gascap ≤ gasLimit then ([], [], l)
  else
    let capped := { l with costcap := costLimit, gascap := gasLimit }
    let removed := l.txs.filter (overLimit env costLimit gasLimit)
    match removed with
    | [] => ([], [], capped)
    | first :: _ =>
      let behind (t : Tx) : Bool := strict && decide (first.nonce < t.nonce)
      let invalids := l.txs.filter fun t => !overLimit env costLimit gasLimit t && behind t
      (removed, invalids, capped.keep env (fun t => !overLimit env costLimit gasLimit t && !behind t) (removed ++ invalids))

/-- `list.Cap`: the last ones leave, the highest nonce first. -/
def cap (threshold : Nat) : List Tx × TxList :=
  let drops := (l.txs.drop threshold).reverse
  (drops,
   { txs := l.txs.take threshold
     costcap := l.costcap
     gascap := l.gascap
     totalcost := l.totalcost - costs env drops
     sorted := l.sorted.sublist (take_sublist _ _) })

/-- `list.Remove` looks at the nonce only. -/
def remove (strict : Bool) (tx : Tx) : Option (List Tx × TxList) :=
  if l.contains tx.nonce then
    let invalids := l.txs.filter fun t => strict && decide (tx.nonce < t.nonce)
    some (invalids, l.keep env (fun t => t.nonce ≠ tx.nonce && !(strict && decide (tx.nonce < t.nonce))) (tx :: invalids))
  else none

def consecutive : Nat → List Tx → Nat
  | _, [] => 0
  | next, t :: rest => if t.nonce = next then consecutive (next + 1) rest + 1 else 0

def ready (start : Nat) : List Tx × TxList :=
  match l.txs with
  | [] => ([], l)
  | first :: _ =>
    if start < first.nonce then ([], l)
    else
      let n := consecutive first.nonce l.txs
      (l.txs.take n,
       { txs := l.txs.drop n
         costcap := l.costcap
         gascap := l.gascap
         totalcost := l.totalcost - costs env (l.txs.take n)
         sorted := l.sorted.sublist (drop_sublist _ _) })

end TxList

/-! ## The pool -/

structure Lookup where
  txs : List Tx
  nodup : (txs.map Tx.hash).Nodup

namespace Lookup

def empty : Lookup := ⟨[], nodup_nil⟩

def get (t : Lookup) (hash : Hash) : Option Tx := t.txs.find? fun tx => tx.hash = hash

def remove (t : Lookup) (hash : Hash) : Lookup where
  txs := t.txs.filter fun tx => tx.hash ≠ hash
  nodup := t.nodup.sublist (filter_sublist.map _)

def add (t : Lookup) (tx : Tx) : Lookup where
  txs := (t.remove tx.hash).txs ++ [tx]
  nodup := by
    rw [map_append, nodup_append]
    refine ⟨(t.remove tx.hash).nodup, nodup_singleton _, fun h hh h' hh' => ?_⟩
    obtain ⟨u, hu, rfl⟩ := mem_map.mp hh
    rw [map_singleton, mem_singleton] at hh'
    rw [hh']
    exact of_decide_eq_true (mem_filter.mp hu).2

def slots (env : PoolEnv) (t : Lookup) : Nat := (t.txs.map env.numSlots).sum

end Lookup

structure PoolHead where
  (nonce balance : Address → Nat)
  gasLimit : Nat

structure Pool where
  (pending queue : Address → TxList)
  all : Lookup
  shieldedV6KeyImages : Hash → Option Hash
  pendingNonces : Address → Nat
  changesSinceReorg : Nat
  head : PoolHead

inductive PoolErr
  | alreadyKnown
  | invalid
  | consensus (e : Err)
  | shieldedKeyImagePending
  | reserved
  | underpriced
  | overflow
  | futureReplacePending
  | replaceUnderpriced
  deriving DecidableEq

def shieldedV6KeyImages (B : Backend) (tx : Tx) : Except Err (List Hash) :=
  if hasShieldedV6Prefix tx.data then do
    match ← decodeShieldedV6Transaction B tx.data with
    | some e => pure (e.inputs.map ShieldedV6Input.keyImage)
    | none => .error (.invalidShieldedTx "")
  else .ok []

def PoolEnv.keyImages (env : PoolEnv) (tx : Tx) : List Hash := (shieldedV6KeyImages env.backend tx).toOption.getD []

namespace Pool

def init (head : PoolHead) : Pool where
  pending _ := .empty
  queue _ := .empty
  all := .empty
  shieldedV6KeyImages _ := none
  pendingNonces := head.nonce
  changesSinceReorg := 0
  head := head

variable (env : PoolEnv) (p : Pool)

/-! ### Key images -/

def reserveShieldedV6KeyImages (images : List Hash) (txHash : Hash) : Pool :=
  { p with shieldedV6KeyImages := fun image => if image ∈ images then some txHash else p.shieldedV6KeyImages image }

def checkShieldedV6KeyImages (images : List Hash) (replaceHash : Option Hash) : Bool :=
  images.all fun image => (p.shieldedV6KeyImages image).all fun owner => owner = replaceHash.getD 0

def releaseShieldedV6KeyImages (tx : Tx) : Pool :=
  { p with shieldedV6KeyImages := fun image =>
      if image ∈ env.keyImages tx ∧ p.shieldedV6KeyImages image = some tx.hash then none
      else p.shieldedV6KeyImages image }

def removeFromLookup (hash : Hash) : Pool :=
  match p.all.get hash with
  | some tx => { p.releaseShieldedV6KeyImages env tx with all := p.all.remove hash }
  | none => p

def forget (old : Option Tx) : Pool :=
  match old with
  | some o => p.removeFromLookup env o.hash
  | none => p

/-! ### Moves between the lists -/

def setPending (a : Address) (l : TxList) : Pool := { p with pending := Function.update p.pending a l }

def setQueue (a : Address) (l : TxList) : Pool := { p with queue := Function.update p.queue a l }

def lowerNonce (a : Address) (nonce : Nat) : Pool :=
  { p with pendingNonces := Function.update p.pendingNonces a (min (p.pendingNonces a) nonce) }

def queueRemove (a : Address) (tx : Tx) : Pool :=
  if ∃ old ∈ (p.queue a).get tx.nonce, old.hash ≠ tx.hash then p
  else match (p.queue a).remove env false tx with
    | some (_, l) => p.setQueue a l
    | none => p

/-- `enqueueTx` with what removes the transaction that is replaced. -/
def enqueueTx (removeTx : Pool → Hash → Pool) (tx : Tx) (addAll : Bool) : Option (Bool × Pool) :=
  match (p.queue (env.sender tx)).add env tx with
  | none => none
  | some (l, old) =>
    let q := match old with
      | some o => removeTx (p.setQueue (env.sender tx) l) o.hash
      | none => p.setQueue (env.sender tx) l
    some (old.isSome, if addAll then { q with all := q.all.add tx } else q)

def requeue (removeTx : Pool → Hash → Pool) (tx : Tx) : Pool :=
  match p.enqueueTx env removeTx tx false with
  | some (_, q) => q
  | none => p

/-- `removeTx`, with the number of transactions that leave the pending list. Each nested removal shrinks the
lookup, so its size bounds their depth. -/
def removeTxWithin : Nat → Pool → Hash → Nat × Pool
  | 0, p, _ => (0, p)
  | depth + 1, p, hash =>
    match p.all.get hash with
    | none => (0, p)
    | some tx =>
      let a := env.sender tx
      let q := p.removeFromLookup env hash
      match (q.pending a).remove env true tx with
      | some (invalids, l) =>
        let q := invalids.foldl (fun q t => q.requeue env (fun r h => (removeTxWithin depth r h).2) t) (q.setPending a l)
        (1 + invalids.length, q.lowerNonce a tx.nonce)
      | none => (0, q.queueRemove env a tx)

def removeTx (hash : Hash) : Nat × Pool := removeTxWithin env (p.all.txs.length + 1) p hash

def removeAll (hashes : List Hash) : Pool := hashes.foldl (fun q h => (q.removeTx env h).2) p

/-- `enqueueTx` of the pool. -/
def enqueue (tx : Tx) (addAll : Bool) : Option (Bool × Pool) :=
  p.enqueueTx env (fun q h => (q.removeTx env h).2) tx addAll

def demote (txs : List Tx) : Pool := txs.foldl (fun q t => q.requeue env (fun r h => (r.removeTx env h).2) t) p

/-! ### Additions -/

structure AddChoice where
  (valid hold : Bool := true)
  underpriced : Bool := false
  discard : Option (List Tx) := none

def isGapped (tx : Tx) : Bool :=
  let a := env.sender tx
  p.pendingNonces a < tx.nonce &&
    (List.range' (p.pendingNonces a) (tx.nonce - p.pendingNonces a)).any fun nonce => !(p.queue a).contains nonce

def replacedHash (tx : Tx) : Option Hash :=
  let a := env.sender tx
  (((p.pending a).get tx.nonce).or ((p.queue a).get tx.nonce)).map Tx.hash

def insert (tx : Tx) (keyImages : List Hash) : Except PoolErr Bool × Pool :=
  let a := env.sender tx
  if (p.pending a).contains tx.nonce then
    match (p.pending a).add env tx with
    | none => (.error .replaceUnderpriced, p)
    | some (l, old) =>
      let q := (p.setPending a l).forget env old
      (.ok old.isSome, ({ q with all := q.all.add tx }).reserveShieldedV6KeyImages keyImages tx.hash)
  else match p.enqueue env tx true with
    | none => (.error .replaceUnderpriced, p)
    | some (replaced, q) => (.ok replaced, q.reserveShieldedV6KeyImages keyImages tx.hash)

def countDropped (r : Nat × Pool) : Pool := { r.2 with changesSinceReorg := r.2.changesSinceReorg + r.1 }

def kickOut (drop : List Tx) : Pool := drop.foldl (fun q t => countDropped (q.removeTx env t.hash)) p

def add (tx : Tx) (c : AddChoice) : Except PoolErr Bool × Pool :=
  let a := env.sender tx
  if (p.all.get tx.hash).isSome then (.error .alreadyKnown, p)
  else if ¬ c.valid then (.error .invalid, p)
  else match TkmChain.shieldedV6KeyImages env.backend tx with
    | .error e => (.error (.consensus e), p)
    | .ok keyImages =>
      if ¬ p.checkShieldedV6KeyImages keyImages (p.replacedHash env tx) then (.error .shieldedKeyImagePending, p)
      else if (p.pending a).txs = [] ∧ (p.queue a).txs = [] ∧ ¬ c.hold then (.error .reserved, p)
      else if p.all.slots env + env.numSlots tx ≤ env.globalSlots + env.globalQueue then p.insert env tx keyImages
      else if c.underpriced then (.error .underpriced, p)
      else if env.globalSlots / 4 < p.changesSinceReorg then (.error .overflow, p)
      else match c.discard with
        | none => (.error .overflow, p)
        | some drop =>
          if p.isGapped env tx ∧ drop.any fun t => (p.pending (env.sender t)).contains t.nonce then
            (.error .futureReplacePending, p)
          else (p.kickOut env drop).insert env tx keyImages

/-! ### Promotion and demotion -/

/-- `queue.promoteExecutables` for one account: what is promoted, what is dropped, and the rest. -/
def promotable (a : Address) : List Tx × List Tx × TxList :=
  let forwards := (p.queue a).forward env (p.head.nonce a)
  let drops := forwards.2.filter env false (p.head.balance a) p.head.gasLimit
  let readies := drops.2.2.ready env (p.pendingNonces a)
  let caps := readies.2.cap env env.accountQueue
  (readies.1, forwards.1 ++ drops.1 ++ caps.1, caps.2)

def raiseNonce (a : Address) (nonce : Nat) : Pool :=
  { p with pendingNonces := Function.update p.pendingNonces a nonce }

def promoteTx (tx : Tx) : Pool :=
  match (p.pending (env.sender tx)).add env tx with
  | none => p.removeFromLookup env tx.hash
  | some (l, old) => ((p.setPending (env.sender tx) l).forget env old).raiseNonce (env.sender tx) (tx.nonce + 1)

def gather : List Address → Pool → List Tx × List Tx × Pool
  | [], p => ([], [], p)
  | a :: accounts, p =>
    let here := p.promotable env a
    let rest := gather accounts (p.setQueue a here.2.2)
    (here.1 ++ rest.1, here.2.1 ++ rest.2.1, rest.2.2)

def drop (txs : List Tx) : Pool := txs.foldl (fun q t => q.removeFromLookup env t.hash) p

def promoteExecutables (accounts : List Address) : Pool :=
  let r := gather env accounts p
  (r.1.foldl (fun q t => q.promoteTx env t) r.2.2).drop env r.2.1

def dropOld (a : Address) : Pool :=
  let r := (p.pending a).forward env (p.head.nonce a)
  (p.setPending a r.2).drop env r.1

def dropUnpayable (a : Address) : Pool :=
  let r := (p.pending a).filter env true (p.head.balance a) p.head.gasLimit
  ((p.setPending a r.2.2).drop env r.1).demote env r.2.1

def postponeGapped (a : Address) : Pool :=
  if (p.pending a).txs ≠ [] ∧ ¬ (p.pending a).contains (p.head.nonce a) then
    let r := (p.pending a).cap env 0
    (p.setPending a r.2).demote env r.1
  else p

def demoteAccount (a : Address) : Pool := ((p.dropOld env a).dropUnpayable env a).postponeGapped env a

/-- `pendingNonces.setAll`. -/
def renewNonces : Pool :=
  { p with pendingNonces := fun a => ((p.pending a).txs.getLast?.map fun t => t.nonce + 1).getD (p.head.nonce a) }

def demoteUnexecutables (accounts : List Address) : Pool :=
  (accounts.foldl (fun q a => q.demoteAccount env a) p).renewNonces

/-! ### Limits -/

def capPending (a : Address) : Pool :=
  let r := (p.pending a).cap env ((p.pending a).txs.length - 1)
  r.1.foldl (fun q t => (q.removeFromLookup env t.hash).lowerNonce a t.nonce) (p.setPending a r.2)

def truncateQueueOf (a : Address) (count : Nat) : Pool :=
  let removed := ((p.queue a).txs.drop ((p.queue a).txs.length - count)).reverse
  (removed.foldl (fun q t => q.queueRemove env a t) p).drop env removed

def clear : Pool :=
  { p with
    all := .empty
    pending := fun _ => .empty
    queue := fun _ => .empty
    pendingNonces := p.head.nonce }

end Pool

/-! ## Runs -/

inductive PoolEvent
  | add (tx : Tx) (c : Pool.AddChoice)
  | setGasTip (tip : Nat)
  | evict (accounts : List Address)
  | capGas (limit : Nat)
  | pruneInvalid (invalid : Tx → Bool)
  | reset (head : PoolHead)
  | promote (accounts : List Address)
  | demote (accounts : List Address)
  | truncatePending (offenders : List Address)
  | truncateQueue (drops : List (Address × Nat))
  | clear

namespace Pool

variable (env : PoolEnv)

def removeWhere (p : Pool) (q : Tx → Bool) : Pool := p.removeAll env ((p.all.txs.filter q).map Tx.hash)

def step (p : Pool) : PoolEvent → Pool
  | .add tx c => (p.add env tx c).2
  | .setGasTip tip => p.removeWhere env fun tx => tx.gasTipCap < tip
  | .evict accounts => p.removeAll env (accounts.flatMap fun a => (p.queue a).txs.map Tx.hash)
  | .capGas limit => p.removeWhere env fun tx => limit < tx.gas
  | .pruneInvalid invalid => p.removeWhere env invalid
  | .reset head => { p with head := head, pendingNonces := head.nonce }
  | .promote accounts => p.promoteExecutables env accounts
  | .demote accounts => p.demoteUnexecutables env accounts
  | .truncatePending offenders => offenders.foldl (fun q a => q.capPending env a) p
  | .truncateQueue drops =>
    { drops.foldl (fun q (a, count) => q.truncateQueueOf env a count) p with changesSinceReorg := 0 }
  | .clear => p.clear

def run (head : PoolHead) (events : List PoolEvent) : Pool := events.foldl (step env) (init head)

end Pool

end TkmChain
