import TkmChain.TxPool
import TkmChain.KeyImageSound

/-!
# Key images in the pool

Every path on which a transaction leaves the lookup releases what it reserved, so
reservations go stale only when the whole pool is cleared.
-/

namespace TkmChain

open List

/-! ## The lookup -/

namespace Lookup

variable {t : Lookup} {tx u : Tx} {h : Hash}

theorem get_some : t.get h = some tx → tx ∈ t.txs ∧ tx.hash = h := by
  intro hget
  exact ⟨mem_of_find?_eq_some hget, by simpa using find?_some hget⟩

theorem get_none : t.get h = none ↔ ∀ u ∈ t.txs, u.hash ≠ h := by
  simp [get, find?_eq_none]

theorem mem_remove : u ∈ (t.remove h).txs ↔ u ∈ t.txs ∧ u.hash ≠ h := by
  simp [remove, mem_filter]

theorem mem_add : u ∈ (t.add tx).txs ↔ u ∈ t.txs ∧ u.hash ≠ tx.hash ∨ u = tx := by
  rw [add, mem_append, mem_remove, mem_singleton]

theorem hash_inj (hu : u ∈ t.txs) (htx : tx ∈ t.txs) (h : u.hash = tx.hash) : u = tx :=
  inj_on_of_nodup_map t.nodup hu htx h

theorem get_mem (htx : tx ∈ t.txs) : t.get tx.hash = some tx := by
  cases hget : t.get tx.hash with
  | none => exact absurd rfl (get_none.mp hget tx htx)
  | some u =>
    obtain ⟨hu, hhash⟩ := get_some hget
    rw [hash_inj hu htx hhash]

end Lookup

/-! ## What leaves the lookup -/

namespace Pool

structure Loses (env : PoolEnv) (p q : Pool) : Prop where
  pooled : ∀ t ∈ q.all.txs, t ∈ p.all.txs
  images : ∀ i, q.shieldedV6KeyImages i = p.shieldedV6KeyImages i ∨ q.shieldedV6KeyImages i = none
  kept : ∀ t ∈ q.all.txs, ∀ i, p.shieldedV6KeyImages i = some t.hash → q.shieldedV6KeyImages i = some t.hash
  released : ∀ t ∈ p.all.txs, t ∉ q.all.txs → ∀ i ∈ env.keyImages t, q.shieldedV6KeyImages i ≠ some t.hash

namespace Loses

variable {env : PoolEnv} {p q r : Pool}

theorem same (hall : q.all = p.all) (himages : q.shieldedV6KeyImages = p.shieldedV6KeyImages) : Loses env p q where
  pooled _ ht := hall ▸ ht
  images i := .inl (congrFun himages i)
  kept _ _ _ hi := himages ▸ hi
  released _ ht hn := absurd (hall ▸ ht) hn

theorem rfl : Loses env p p := same (Eq.refl _) (Eq.refl _)

theorem trans (h : Loses env p q) (h' : Loses env q r) : Loses env p r where
  pooled t ht := h.pooled t (h'.pooled t ht)
  images i := by
    rcases h'.images i with hi | hi
    · rw [hi]
      exact h.images i
    · exact .inr hi
  kept t ht i hi := h'.kept t ht i (h.kept t (h'.pooled t ht) i hi)
  released t ht hn i hi := by
    by_cases hq : t ∈ q.all.txs
    · exact h'.released t hq hn i hi
    · rcases h'.images i with heq | heq
      · rw [heq]
        exact h.released t ht hq i hi
      · simp [heq]

theorem foldl {α : Type} {f : Pool → α → Pool} (hf : ∀ p x, Loses env p (f p x)) (l : List α) :
    Loses env p (l.foldl f p) := by
  induction l generalizing p with
  | nil => exact rfl
  | cons x l ih => exact (hf p x).trans ih

end Loses

section
variable (env : PoolEnv) (p : Pool)

theorem loses_removeFromLookup (hash : Hash) : Loses env p (p.removeFromLookup env hash) := by
  unfold removeFromLookup
  cases hget : p.all.get hash with
  | none => exact .rfl
  | some tx =>
    obtain ⟨hmem, hhash⟩ := Lookup.get_some hget
    refine ⟨fun t ht => (Lookup.mem_remove.mp ht).1, fun i => ?_, fun t ht i hi => ?_, fun t ht hn i hi => ?_⟩
    · simp only [releaseShieldedV6KeyImages]
      split
      · exact .inr rfl
      · exact .inl rfl
    · have hne := (Lookup.mem_remove.mp ht).2
      simp only [releaseShieldedV6KeyImages]
      rw [if_neg, hi]
      rintro ⟨-, howner⟩
      rw [hi, Option.some.injEq, hhash] at howner
      exact hne howner
    · have heq : t = tx := by
        refine Lookup.hash_inj ht hmem ?_
        by_contra hne
        exact hn (Lookup.mem_remove.mpr ⟨ht, hhash ▸ hne⟩)
      subst heq
      simp only [releaseShieldedV6KeyImages, hi, true_and]
      split
      · simp
      · assumption

theorem loses_queueRemove (a : Address) (tx : Tx) : Loses env p (p.queueRemove env a tx) := by
  unfold queueRemove
  split
  · exact .rfl
  · split
    · exact .same rfl rfl
    · exact .rfl

theorem loses_requeue {removeTx : Pool → Hash → Pool} (hremove : ∀ q h, Loses env q (removeTx q h)) (tx : Tx) :
    Loses env p (p.requeue env removeTx tx) := by
  unfold requeue enqueueTx
  cases (p.queue (env.sender tx)).add env tx with
  | none => exact .rfl
  | some r =>
    obtain ⟨l, old⟩ := r
    cases old with
    | none => exact .same rfl rfl
    | some o => exact Loses.trans (q := p.setQueue (env.sender tx) l) (.same rfl rfl) (hremove _ _)

theorem loses_removeTxWithin (depth : Nat) (hash : Hash) : Loses env p (removeTxWithin env depth p hash).2 := by
  induction depth generalizing p hash with
  | zero => exact .rfl
  | succ depth ih =>
    unfold removeTxWithin
    cases p.all.get hash with
    | none => exact .rfl
    | some tx =>
      have hlookup := loses_removeFromLookup env p hash
      simp only
      split
      · rename_i invalids l hremove
        have hmoved : Loses env (p.removeFromLookup env hash)
            ((p.removeFromLookup env hash).setPending (env.sender tx) l) := .same rfl rfl
        refine (hlookup.trans (hmoved.trans (Loses.foldl (fun q t => ?_) invalids))).trans (.same rfl rfl)
        exact loses_requeue env q (fun r h => ih r h) t
      · exact hlookup.trans (loses_queueRemove env _ _ _)

theorem loses_removeTx (hash : Hash) : Loses env p (p.removeTx env hash).2 := loses_removeTxWithin env p _ hash

theorem loses_removeAll (hashes : List Hash) : Loses env p (p.removeAll env hashes) :=
  Loses.foldl (fun q h => loses_removeTx env q h) hashes

theorem loses_demote (txs : List Tx) : Loses env p (p.demote env txs) :=
  Loses.foldl (fun q t => loses_requeue env q (fun r h => loses_removeTx env r h) t) txs

theorem loses_drop (txs : List Tx) : Loses env p (p.drop env txs) :=
  Loses.foldl (fun q t => loses_removeFromLookup env q t.hash) txs

theorem loses_kickOut (drop : List Tx) : Loses env p (p.kickOut env drop) := by
  refine Loses.foldl (fun q t => ?_) drop
  exact (loses_removeTx env q t.hash).trans (.same rfl rfl)

theorem loses_forget (old : Option Tx) : Loses env p (p.forget env old) := by
  cases old with
  | none => exact .rfl
  | some o => exact loses_removeFromLookup env p o.hash

theorem loses_setPending (a : Address) (l : TxList) : Loses env p (p.setPending a l) := .same rfl rfl

theorem loses_setQueue (a : Address) (l : TxList) : Loses env p (p.setQueue a l) := .same rfl rfl

theorem loses_promoteTx (tx : Tx) : Loses env p (p.promoteTx env tx) := by
  unfold promoteTx
  cases (p.pending (env.sender tx)).add env tx with
  | none => exact loses_removeFromLookup env p tx.hash
  | some r => exact ((loses_setPending env p _ r.1).trans (loses_forget env _ r.2)).trans (.same rfl rfl)

theorem loses_gather (accounts : List Address) : Loses env p (gather env accounts p).2.2 := by
  induction accounts generalizing p with
  | nil => exact .rfl
  | cons a accounts ih => exact (loses_setQueue env p a _).trans (ih _)

theorem loses_promoteExecutables (accounts : List Address) : Loses env p (p.promoteExecutables env accounts) :=
  ((loses_gather env p accounts).trans (Loses.foldl (fun q t => loses_promoteTx env q t) _)).trans
    (loses_drop env _ _)

theorem loses_demoteAccount (a : Address) : Loses env p (p.demoteAccount env a) := by
  have hold : Loses env p (p.dropOld env a) := (loses_setPending env p a _).trans (loses_drop env _ _)
  have hunpayable : ∀ q : Pool, Loses env q (q.dropUnpayable env a) := fun q =>
    ((loses_setPending env q a _).trans (loses_drop env _ _)).trans (loses_demote env _ _)
  have hgapped : ∀ q : Pool, Loses env q (q.postponeGapped env a) := by
    intro q
    unfold postponeGapped
    split
    · exact (loses_setPending env q a _).trans (loses_demote env _ _)
    · exact .rfl
  exact hold.trans ((hunpayable _).trans (hgapped _))

theorem loses_capPending (a : Address) : Loses env p (p.capPending env a) := by
  refine (loses_setPending env p a _).trans (Loses.foldl (fun q t => ?_) _)
  exact (loses_removeFromLookup env q t.hash).trans (.same rfl rfl)

theorem loses_truncateQueueOf (a : Address) (count : Nat) : Loses env p (p.truncateQueueOf env a count) :=
  (Loses.foldl (fun q t => loses_queueRemove env q a t) _).trans (loses_drop env _ _)

end

/-! ## Stale reservations -/

def NoStale (env : PoolEnv) (p : Pool) : Prop :=
  ∀ i h, p.shieldedV6KeyImages i = some h → ∃ t ∈ p.all.txs, t.hash = h ∧ i ∈ env.keyImages t

variable {env : PoolEnv} {p q : Pool}

theorem NoStale.loses (hp : NoStale env p) (h : Loses env p q) : NoStale env q := by
  intro i owner hi
  have hi' : p.shieldedV6KeyImages i = some owner := by
    rcases h.images i with heq | heq
    · rw [← heq, hi]
    · rw [heq] at hi
      cases hi
  obtain ⟨t, ht, rfl, himage⟩ := hp i owner hi'
  by_cases hq : t ∈ q.all.txs
  · exact ⟨t, hq, rfl, himage⟩
  · exact absurd hi (h.released t ht hq i himage)

theorem NoStale.reserve (hp : NoStale env p) (hnew : p.all.get tx.hash = none) :
    NoStale env (({ p with all := p.all.add tx } : Pool).reserveShieldedV6KeyImages (env.keyImages tx) tx.hash) := by
  intro i owner hi
  simp only [reserveShieldedV6KeyImages] at hi ⊢
  by_cases himage : i ∈ env.keyImages tx
  · rw [if_pos himage, Option.some.injEq] at hi
    exact ⟨tx, Lookup.mem_add.mpr (.inr rfl), hi, himage⟩
  · rw [if_neg himage] at hi
    obtain ⟨t, ht, rfl, hmem⟩ := hp i owner hi
    exact ⟨t, Lookup.mem_add.mpr (.inl ⟨ht, Lookup.get_none.mp hnew t ht⟩), rfl, hmem⟩

/-! ### Additions -/

def enroll (p : Pool) (tx : Tx) (images : List Hash) : Pool :=
  ({ p with all := p.all.add tx } : Pool).reserveShieldedV6KeyImages images tx.hash

def queued (env : PoolEnv) (p : Pool) (a : Address) (l : TxList) (old : Option Tx) : Pool :=
  match old with
  | some o => ((p.setQueue a l).removeTx env o.hash).2
  | none => p.setQueue a l

inductive Placed (env : PoolEnv) (p : Pool) (tx : Tx) : Pool → Prop
  | pending (l : TxList) (old : Option Tx) (hcontains : (p.pending (env.sender tx)).contains tx.nonce = true)
      (hadd : (p.pending (env.sender tx)).add env tx = some (l, old)) :
      Placed env p tx ((p.setPending (env.sender tx) l).forget env old)
  | queue (l : TxList) (old : Option Tx) (hcontains : (p.pending (env.sender tx)).contains tx.nonce = false)
      (hadd : (p.queue (env.sender tx)).add env tx = some (l, old)) :
      Placed env p tx (queued env p (env.sender tx) l old)

theorem insert_cases (tx : Tx) (images : List Hash) :
    (p.insert env tx images).2 = p ∨ ∃ q, Placed env p tx q ∧ (p.insert env tx images).2 = q.enroll tx images := by
  unfold insert
  by_cases hcontains : (p.pending (env.sender tx)).contains tx.nonce = true
  · simp only [hcontains, if_true]
    cases hadd : (p.pending (env.sender tx)).add env tx with
    | none => exact .inl rfl
    | some r => exact .inr ⟨_, .pending r.1 r.2 hcontains hadd, rfl⟩
  · rw [Bool.not_eq_true] at hcontains
    simp only [hcontains, Bool.false_eq_true, if_false, enqueue, enqueueTx]
    cases hadd : (p.queue (env.sender tx)).add env tx with
    | none => exact .inl rfl
    | some r =>
      refine .inr ⟨_, .queue r.1 r.2 hcontains hadd, ?_⟩
      obtain ⟨l, old⟩ := r
      cases old with
      | none => rfl
      | some o => rfl

theorem Placed.loses (h : Placed env p tx q) : Loses env p q := by
  cases h with
  | pending l old => exact (loses_setPending env p _ l).trans (loses_forget env _ old)
  | queue l old =>
    cases old with
    | none => exact loses_setQueue env p _ l
    | some o => exact (loses_setQueue env p _ l).trans (loses_removeTx env _ o.hash)

/-- What an accepted addition has passed: it is new, its key images are free but for the one it replaces,
and a list took it, possibly after others were kicked out. -/
structure Admitted (env : PoolEnv) (p : Pool) (tx : Tx) (q : Pool) : Prop where
  fresh : p.all.get tx.hash = none
  checked : p.checkShieldedV6KeyImages (env.keyImages tx) (p.replacedHash env tx) = true
  placed : ∃ p', (p' = p ∨ ∃ drop, p' = p.kickOut env drop) ∧ ∃ q', Placed env p' tx q' ∧
    q = q'.enroll tx (env.keyImages tx)

theorem insert_admitted (hp' : p' = p ∨ ∃ drop, p' = p.kickOut env drop)
    (hfresh : p.all.get tx.hash = none)
    (hchecked : p.checkShieldedV6KeyImages (env.keyImages tx) (p.replacedHash env tx) = true) :
    (p'.insert env tx (env.keyImages tx)).2 = p' ∨ Admitted env p tx (p'.insert env tx (env.keyImages tx)).2 :=
  (insert_cases tx (env.keyImages tx)).imp_right fun ⟨q', hplaced, heq⟩ => ⟨hfresh, hchecked, p', hp', q', hplaced, heq⟩

variable (env p) in
theorem add_cases (tx : Tx) (c : AddChoice) :
    (p.add env tx c).2 = p ∨ (∃ drop, (p.add env tx c).2 = p.kickOut env drop) ∨
      Admitted env p tx (p.add env tx c).2 := by
  unfold add
  cases hfresh : p.all.get tx.hash with
  | some _ => exact .inl rfl
  | none =>
    simp only [Option.isSome_none, Bool.false_eq_true, if_false]
    split
    · exact .inl rfl
    · cases himages : TkmChain.shieldedV6KeyImages env.backend tx with
      | error e => exact .inl rfl
      | ok images =>
        have hkey : env.keyImages tx = images := by simp [PoolEnv.keyImages, himages, Except.toOption]
        subst hkey
        simp only
        split
        · exact .inl rfl
        · rename_i hchecked
          rw [not_not] at hchecked
          split
          · exact .inl rfl
          · split
            · exact (insert_admitted (.inl rfl) hfresh hchecked).imp_right .inr
            · split
              · exact .inl rfl
              · split
                · exact .inl rfl
                · cases c.discard with
                  | none => exact .inl rfl
                  | some drop =>
                    simp only
                    split
                    · exact .inl rfl
                    · refine .inr ?_
                      exact (insert_admitted (.inr ⟨drop, rfl⟩) hfresh hchecked).imp_left fun h => ⟨drop, h⟩

theorem NoStale.add (hp : NoStale env p) (tx : Tx) (c : AddChoice) : NoStale env (p.add env tx c).2 := by
  rcases add_cases env p tx c with h | ⟨drop, h⟩ | h
  · rwa [h]
  · rw [h]
    exact hp.loses (loses_kickOut env p drop)
  · obtain ⟨p', hp', q', hplaced, heq⟩ := h.placed
    have hloses : Loses env p q' := by
      rcases hp' with rfl | ⟨drop, rfl⟩
      · exact hplaced.loses
      · exact (loses_kickOut env p drop).trans hplaced.loses
    rw [heq]
    refine (hp.loses hloses).reserve (Lookup.get_none.mpr fun u hu => ?_)
    exact Lookup.get_none.mp h.fresh u (hloses.pooled u hu)

variable (env p) in
theorem step_cases (e : PoolEvent) : (∃ tx c, e = .add tx c) ∨ e = .clear ∨ Loses env p (p.step env e) := by
  cases e with
  | add tx c => exact .inl ⟨tx, c, rfl⟩
  | clear => exact .inr (.inl rfl)
  | setGasTip tip => exact .inr (.inr (loses_removeAll env p _))
  | evict accounts => exact .inr (.inr (loses_removeAll env p _))
  | capGas limit => exact .inr (.inr (loses_removeAll env p _))
  | pruneInvalid invalid => exact .inr (.inr (loses_removeAll env p _))
  | reset head => exact .inr (.inr (.same rfl rfl))
  | promote accounts => exact .inr (.inr (loses_promoteExecutables env p accounts))
  | demote accounts =>
    have hfold : Loses env p (accounts.foldl (fun q a => q.demoteAccount env a) p) :=
      Loses.foldl (fun q a => loses_demoteAccount env q a) accounts
    exact .inr (.inr (hfold.trans (.same rfl rfl)))
  | truncatePending offenders => exact .inr (.inr (Loses.foldl (fun q a => loses_capPending env q a) offenders))
  | truncateQueue drops =>
    have hfold : Loses env p (drops.foldl (fun q d => q.truncateQueueOf env d.1 d.2) p) :=
      Loses.foldl (fun q d => loses_truncateQueueOf env q d.1 d.2) drops
    exact .inr (.inr (hfold.trans (.same rfl rfl)))

theorem NoStale.step (hp : NoStale env p) (e : PoolEvent) (he : e = .clear → ∀ i, p.shieldedV6KeyImages i = none) :
    NoStale env (p.step env e) := by
  rcases step_cases env p e with ⟨tx, c, rfl⟩ | rfl | hloses
  · exact hp.add tx c
  · intro i h hi
    rw [show (p.step env .clear).shieldedV6KeyImages = p.shieldedV6KeyImages from rfl, he rfl i] at hi
    cases hi
  · exact hp.loses hloses

theorem NoStale.check (hp : NoStale env p) (hfree : ∀ t ∈ p.all.txs, ∀ i ∈ images, i ∉ env.keyImages t)
    (replaceHash : Option Hash) : p.checkShieldedV6KeyImages images replaceHash = true := by
  unfold checkShieldedV6KeyImages
  rw [all_eq_true]
  intro i hi
  cases howner : p.shieldedV6KeyImages i with
  | none => rfl
  | some h =>
    obtain ⟨t, ht, -, himage⟩ := hp i h howner
    exact absurd himage (hfree t ht i hi)

theorem run_concat (head : PoolHead) (events : List PoolEvent) (e : PoolEvent) :
    run env head (events ++ [e]) = (run env head events).step env e := foldl_concat ..

/-- Over a run no reservation is stale, and none refuses a transaction whose key images nobody in the pool uses,
iff the pool is cleared only when nothing is reserved. -/
theorem no_stale_reservations_iff (env : PoolEnv) (head : PoolHead) (events : List PoolEvent) :
    (∀ before rest, events = before ++ rest →
      NoStale env (run env head before) ∧
      ∀ tx, (∀ t ∈ (run env head before).all.txs, ∀ i ∈ env.keyImages tx, i ∉ env.keyImages t) →
        (run env head before).checkShieldedV6KeyImages (env.keyImages tx) ((run env head before).replacedHash env tx) =
          true) ↔
    ∀ before rest, events = before ++ .clear :: rest → ∀ i, (run env head before).shieldedV6KeyImages i = none := by
  constructor
  · intro h before rest heq i
    have hclear := (h (before ++ [.clear]) rest (by simpa using heq)).1
    rw [run_concat] at hclear
    cases hi : (run env head before).shieldedV6KeyImages i with
    | none => rfl
    | some owner =>
      -- the reservation survives the clearing, its owner does not
      obtain ⟨t, ht, -⟩ := hclear i owner hi
      cases ht
  · intro h before
    suffices hstale : ∀ rest, events = before ++ rest → NoStale env (run env head before) from
      fun rest heq => ⟨hstale rest heq, fun tx hfree => (hstale rest heq).check hfree _⟩
    induction before using List.reverseRecOn with
    | nil => exact fun _ _ _ _ hi => by cases hi
    | append_singleton before e ih =>
      intro rest heq
      rw [append_assoc, singleton_append] at heq
      rw [run_concat]
      refine (ih (e :: rest) heq).step e ?_
      rintro rfl
      exact h before rest heq

/-! ## A spend that is cleared -/

def smallPool : PoolEnv where
  backend := ringBackend
  sender _ := 7
  numSlots _ := 1
  priceBump := 10
  globalSlots := 2
  globalQueue := 1
  accountQueue := 64

def smallHead : PoolHead where
  nonce _ := 0
  balance _ := 2 ^ 256 - 1
  gasLimit := 30000000

/-- After the clearing the pool is empty, but the spend that was in it is refused. -/
theorem cleared_spend_refused :
    let p := run smallPool smallHead [.add (ringTx 1 0) {}, .clear]
    p.all.txs = [] ∧ p.shieldedV6KeyImages 5 = some (ringTx 1 0).hash ∧
      (p.add smallPool (ringTx 1 0) {}).1 = .error .shieldedKeyImagePending := by
  decide +kernel

end Pool

end TkmChain
