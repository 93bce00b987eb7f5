import TkmChain.TxPoolSound

/-!
# Key images and the lists of the pool

A transaction is let in on the reservation of the one it replaces. That one leaves
the lookup as long as the lists hold exactly what the lookup holds, each nonce of
an account once. A demoted transaction is lost between the lists only when the
costs of its account overflow.
-/

namespace TkmChain

open List Function

variable {t u o : Tx} {txs removed : List Tx}

/-! ## Lists and their parts -/

namespace TxList

variable {env : PoolEnv} {l : TxList} {tx : Tx}

theorem nonce_inj (ht : t ∈ l.txs) (hu : u ∈ l.txs) (h : t.nonce = u.nonce) : t = u := by
  have hnodup : (l.txs.map Tx.nonce).Nodup := pairwise_map.mpr (l.sorted.imp Nat.ne_of_lt)
  exact inj_on_of_nodup_map hnodup ht hu h

theorem get_some (h : l.get n = some tx) : tx ∈ l.txs ∧ tx.nonce = n :=
  ⟨mem_of_find?_eq_some h, by simpa using find?_some h⟩

theorem get_none : l.get n = none ↔ ∀ u ∈ l.txs, u.nonce ≠ n := by
  simp [get, find?_eq_none]

theorem get_mem (h : tx ∈ l.txs) : l.get tx.nonce = some tx := by
  cases hget : l.get tx.nonce with
  | none => exact absurd rfl (get_none.mp hget tx h)
  | some u =>
    obtain ⟨hu, hnonce⟩ := get_some hget
    rw [nonce_inj hu h hnonce]

theorem filter_nonce (hs : txs.Pairwise fun t u => t.nonce < u.nonce) (ho : o ∈ txs) :
    txs.filter (fun t => decide (t.nonce = o.nonce)) = [o] := by
  induction txs with
  | nil => cases ho
  | cons t txs ih =>
    obtain ⟨hlt, hs⟩ := pairwise_cons.mp hs
    rcases mem_cons.mp ho with rfl | ho
    · have hnone : txs.filter (fun t => decide (t.nonce = o.nonce)) = [] :=
        filter_eq_nil_iff.mpr fun u hu => by simpa using Nat.ne_of_gt (hlt u hu)
      rw [filter_cons_of_pos (by simp), hnone]
    · rw [filter_cons_of_neg (by simpa using Nat.ne_of_lt (hlt o ho)), ih hs ho]

def without (l : TxList) (n : Nat) : List Tx := l.txs.filter fun t => t.nonce ≠ n

theorem put_perm : (l.put tx).Perm (tx :: l.without tx.nonce) := by
  have hparts : (l.txs.filter (fun t => t.nonce < tx.nonce) ++ l.txs.filter fun t => tx.nonce < t.nonce).Perm
      (l.without tx.nonce) := by
    have h := filter_append_perm (fun t : Tx => decide (t.nonce < tx.nonce)) (l.without tx.nonce)
    rw [without, filter_filter, filter_filter] at h
    refine (List.Perm.of_eq ?_).trans h
    congr 1
    · refine filter_congr fun t _ => ?_
      by_cases ht : t.nonce < tx.nonce
      · simp [ht, Nat.ne_of_lt ht]
      · simp [ht]
    · refine filter_congr fun t _ => ?_
      by_cases ht : tx.nonce < t.nonce
      · simp [ht, Nat.ne_of_gt ht, Nat.not_lt.mpr (Nat.le_of_lt ht)]
      · by_cases heq : t.nonce = tx.nonce
        · simp [heq]
        · simp [ht, heq, show t.nonce < tx.nonce by omega]
  exact perm_middle.trans (hparts.cons tx)

variable (l tx) in
theorem without_perm : ((l.get tx.nonce).toList ++ l.without tx.nonce).Perm l.txs := by
  cases hget : l.get tx.nonce with
  | none =>
    have hall : l.without tx.nonce = l.txs := filter_eq_self.mpr fun t ht => by
      simpa using get_none.mp hget t ht
    rw [hall]
    rfl
  | some o =>
    obtain ⟨ho, hnonce⟩ := get_some hget
    have h := filter_append_perm (fun t : Tx => decide (t.nonce = tx.nonce)) l.txs
    rw [← hnonce, filter_nonce l.sorted ho, hnonce] at h
    refine List.Perm.trans (List.Perm.of_eq ?_) h
    simp [without]

theorem add_some (h : l.add env tx = some (l', old)) : old = l.get tx.nonce ∧ l'.txs = l.put tx ∧
      l'.totalcost = l.totalcost + shieldedTransactionPreBalanceCost env.backend tx - costs env old.toList := by
  simp only [add] at h
  split at h
  · cases h
  · split at h
    · cases h
    · split at h
      · cases h
      · cases h
        exact ⟨rfl, rfl, rfl⟩

variable (env) in
theorem add_fresh (hfresh : l.get tx.nonce = none)
    (hfits : l.totalcost + shieldedTransactionPreBalanceCost env.backend tx < 2 ^ 256) :
    ∃ l', l.add env tx = some (l', none) := by
  unfold add
  rw [hfresh, if_neg (by simp), if_neg (by omega), if_neg (by omega)]
  exact ⟨_, rfl⟩

variable (env) in
theorem costs_perm (h : txs.Perm txs') : costs env txs = costs env txs' :=
  (h.map _).sum_nat

theorem costs_append (txs txs' : List Tx) : costs env (txs ++ txs') = costs env txs + costs env txs' := by
  simp [costs]

theorem costs_cons (txs : List Tx) :
    costs env (tx :: txs) = shieldedTransactionPreBalanceCost env.backend tx + costs env txs := by
  simp [costs]

structure Splits (l : TxList) (removed : List Tx) (l' : TxList) : Prop where
  perm : (removed ++ l'.txs).Perm l.txs
  totalcost : l'.totalcost ≤ l.totalcost

variable (env) in
theorem splits_forward (threshold : Nat) : Splits l (l.forward env threshold).1 (l.forward env threshold).2 :=
  ⟨filter_append_perm _ _, Nat.sub_le _ _⟩

variable (env) in
theorem splits_cap (threshold : Nat) : Splits l (l.cap env threshold).1 (l.cap env threshold).2 := by
  refine ⟨?_, Nat.sub_le _ _⟩
  have h := perm_append_comm.trans (List.Perm.of_eq (take_append_drop threshold l.txs))
  exact ((reverse_perm _).append_right _).trans h

variable (env) in
theorem splits_ready (start : Nat) : Splits l (l.ready env start).1 (l.ready env start).2 := by
  unfold ready
  split
  · exact ⟨List.Perm.refl _, le_rfl⟩
  · split
    · exact ⟨List.Perm.refl _, le_rfl⟩
    · exact ⟨List.Perm.of_eq (take_append_drop _ _), Nat.sub_le _ _⟩

theorem filter_parts (f g : Tx → Bool) (txs : List Tx) :
    ((txs.filter f ++ txs.filter fun t => !f t && g t) ++ txs.filter fun t => !f t && !g t).Perm txs := by
  have hrest := filter_append_perm g (txs.filter fun t => !f t)
  rw [filter_filter, filter_filter] at hrest
  simp only [Bool.and_comm (g _), Bool.and_comm (!g _)] at hrest
  rw [append_assoc]
  exact (hrest.append_left _).trans (filter_append_perm f txs)

variable (env) in
theorem splits_filter (strict : Bool) (costLimit gasLimit : Nat) :
    Splits l ((l.filter env strict costLimit gasLimit).1 ++ (l.filter env strict costLimit gasLimit).2.1)
      (l.filter env strict costLimit gasLimit).2.2 := by
  unfold filter
  split
  · exact ⟨List.Perm.refl _, le_rfl⟩
  · simp only
    split
    · exact ⟨List.Perm.refl _, le_rfl⟩
    · exact ⟨filter_parts _ _ _, Nat.sub_le _ _⟩

variable (env) in
theorem splits_remove (strict : Bool) (htx : tx ∈ l.txs) :
    ∃ invalids l', l.remove env strict tx = some (invalids, l') ∧ Splits l (tx :: invalids) l' := by
  have hcontains : l.contains tx.nonce = true := by rw [contains, get_mem htx]; rfl
  refine ⟨_, _, if_pos hcontains, ?_, Nat.sub_le _ _⟩
  have hparts := filter_parts (fun t => decide (t.nonce = tx.nonce)) (fun t => strict && decide (tx.nonce < t.nonce)) l.txs
  rw [filter_nonce l.sorted htx] at hparts
  have hinvalids : l.txs.filter (fun t => strict && decide (tx.nonce < t.nonce)) =
      l.txs.filter fun t => !decide (t.nonce = tx.nonce) && (strict && decide (tx.nonce < t.nonce)) := by
    refine filter_congr fun t _ => ?_
    by_cases ht : t.nonce = tx.nonce
    · simp [ht]
    · simp [ht]
  rw [← hinvalids] at hparts
  refine List.Perm.trans (List.Perm.of_eq ?_) hparts
  simp [keep]

variable (env) in
theorem remove_only (htx : tx ∈ l.txs) : ∃ l', l.remove env false tx = some ([], l') ∧ Splits l [tx] l' := by
  obtain ⟨invalids, l', hremove, hsplits⟩ := splits_remove env false htx
  have hnone : invalids = [] := by
    simp only [remove] at hremove
    split at hremove
    · cases hremove
      simp
    · cases hremove
  subst hnone
  exact ⟨l', hremove, hsplits⟩

theorem remove_none (strict : Bool) (h : l.get tx.nonce = none) : l.remove env strict tx = none := by
  unfold remove
  rw [if_neg (by rw [contains, h]; decide)]

theorem Splits.trans (h : Splits l removed l')
    (h' : Splits l' removed' l'') : Splits l (removed ++ removed') l'' := by
  refine ⟨?_, le_trans h'.totalcost h.totalcost⟩
  rw [append_assoc]
  exact (h'.perm.append_left removed).trans h.perm

theorem Splits.of_perm (h : Splits l removed l') (hperm : removed'.Perm removed) : Splits l removed' l' :=
  ⟨(hperm.append_right _).trans h.perm, h.totalcost⟩

theorem filter_invalids (costLimit gasLimit : Nat) : (l.filter env false costLimit gasLimit).2.1 = [] := by
  unfold filter
  split
  · rfl
  · simp only [Bool.false_and, Bool.and_false, filter_false]
    split <;> rfl

end TxList

/-! ## Lists and lookup -/

namespace Pool

def slotsOf (env : PoolEnv) (p : Pool) (moving : List Tx) (a : Address) : List Tx :=
  (p.pending a).txs ++ (p.queue a).txs ++ moving.filter fun t => env.sender t = a

structure Filed (env : PoolEnv) (p : Pool) (moving : List Tx) : Prop where
  senders : ∀ a, ∀ t ∈ slotsOf env p moving a, env.sender t = a
  nonces : ∀ a, ((slotsOf env p moving a).map Tx.nonce).Nodup
  pooled : ∀ t, t ∈ p.all.txs ↔ t ∈ slotsOf env p moving (env.sender t)

variable {env : PoolEnv} {p q : Pool} {moving : List Tx} {a : Address} {l : TxList} {tx : Tx}

theorem Filed.move (h : Filed env p moving) (hall : q.all = p.all)
    (hslots : ∀ a, (slotsOf env q moving' a).Perm (slotsOf env p moving a)) : Filed env q moving' where
  senders a t ht := h.senders a t ((hslots a).mem_iff.mp ht)
  nonces a := ((hslots a).map _).nodup_iff.mpr (h.nonces a)
  pooled t := by rw [hall, h.pooled t, (hslots _).mem_iff]

theorem Filed.congr (h : Filed env p moving) (hpending : q.pending = p.pending) (hqueue : q.queue = p.queue)
    (hall : q.all = p.all) : Filed env q moving := by
  refine h.move hall fun a => List.Perm.of_eq ?_
  rw [slotsOf, slotsOf, hpending, hqueue]

theorem Filed.nonce_inj (h : Filed env p moving) (ht : t ∈ slotsOf env p moving a)
    (hu : u ∈ slotsOf env p moving a) (hn : t.nonce = u.nonce) : t = u :=
  inj_on_of_nodup_map (h.nonces a) ht hu hn

inductive Side where
  | pending
  | queue

def Side.other : Side → Side
  | .pending => .queue
  | .queue => .pending

def list (p : Pool) : Side → Address → TxList
  | .pending => p.pending
  | .queue => p.queue

def setList (p : Pool) : Side → Address → TxList → Pool
  | .pending => p.setPending
  | .queue => p.setQueue

theorem setList_self (side : Side) : (p.setList side a l).list side a = l := by
  cases side <;> exact update_self ..

theorem setList_setList (side : Side) : (p.setList side a l).setList side a l' = p.setList side a l' := by
  cases side <;> simp [setList, Pool.setPending, Pool.setQueue]

theorem setList_other (side : Side) : (p.setList side a l).list side.other = p.list side.other := by
  cases side <;> rfl

theorem mem_slots (side : Side) (ht : tx ∈ (p.list side a).txs) : tx ∈ slotsOf env p moving a := by
  cases side with
  | pending => exact mem_append_left _ (mem_append_left _ ht)
  | queue => exact mem_append_left _ (mem_append_right _ ht)

theorem slots_cons : (slotsOf env p (tx :: moving) (env.sender tx)).Perm (tx :: slotsOf env p moving (env.sender tx)) := by
  rw [slotsOf, slotsOf, filter_cons_of_pos (by simp)]
  exact perm_middle

theorem slots_cons_ne (hne : env.sender tx ≠ a) : slotsOf env p (tx :: moving) a = slotsOf env p moving a := by
  rw [slotsOf, slotsOf, filter_cons_of_neg (by simpa using hne)]

section
variable {removed : List Tx} (hr : ∀ t ∈ removed, env.sender t = a)
include hr

theorem filter_moved : (removed ++ moving).filter (env.sender · = a) = removed ++ moving.filter (env.sender · = a) := by
  rw [filter_append, filter_eq_self.mpr fun t ht => by simpa using hr t ht]

theorem filter_moved_ne (hb : b ≠ a) : (removed ++ moving).filter (env.sender · = b) = moving.filter (env.sender · = b) := by
  rw [filter_append, filter_eq_nil_iff.mpr fun t ht => by simpa [hr t ht] using Ne.symm hb, nil_append]

/-- What enters a list of an account or leaves it is moved. -/
theorem slots_setList (side : Side) {added : List Tx} (ha : ∀ t ∈ added, env.sender t = a)
    (hl : (removed ++ l.txs).Perm (added ++ (p.list side a).txs)) :
    (slotsOf env (p.setList side a l) (removed ++ moving) b).Perm (slotsOf env p (added ++ moving) b) := by
  classical
  by_cases hb : b = a
  · subst hb
    rw [slotsOf, slotsOf, filter_moved hr, filter_moved ha, perm_iff_count]
    intro t
    have hcount := perm_iff_count.mp hl t
    cases side with
    | pending =>
      simp only [list, setList, Pool.setPending, update_self, count_append] at hcount ⊢
      omega
    | queue =>
      simp only [list, setList, Pool.setQueue, update_self, count_append] at hcount ⊢
      omega
  · rw [slotsOf, slotsOf, filter_moved_ne hr hb, filter_moved_ne ha hb]
    cases side with
    | pending => simp only [setList, Pool.setPending, update_of_ne hb]; exact .refl _
    | queue => simp only [setList, Pool.setQueue, update_of_ne hb]; exact .refl _

end

theorem setList_all (side : Side) : (p.setList side a l).all = p.all := by cases side <;> rfl

theorem Filed.removed_sender (h : Filed env p moving) (side : Side) (hs : TxList.Splits (p.list side a) removed l) :
    ∀ t ∈ removed, env.sender t = a := fun t ht =>
  h.senders a t (mem_slots side (hs.perm.subset (mem_append_left _ ht)))

theorem Filed.leave (h : Filed env p moving) (side : Side) (hs : TxList.Splits (p.list side a) removed l) :
    Filed env (p.setList side a l) (removed ++ moving) :=
  h.move (setList_all side) fun _ => slots_setList (h.removed_sender side hs) side (show ∀ t ∈ [], _ from nofun) hs.perm

section
variable (h : Filed env p (tx :: moving))
include h

theorem Filed.drop : Filed env (p.removeFromLookup env tx.hash) moving := by
  have hnodup := (slots_cons.map Tx.nonce).nodup_iff.mp (h.nonces (env.sender tx))
  have hout : tx ∉ slotsOf env p moving (env.sender tx) := fun hmem =>
    (nodup_cons.mp hnodup).1 (mem_map_of_mem hmem)
  have htx : tx ∈ p.all.txs := (h.pooled tx).mpr (slots_cons.mem_iff.mpr mem_cons_self)
  have hmem : ∀ a u, u ∈ slotsOf env p (tx :: moving) a ↔ u = tx ∧ env.sender tx = a ∨ u ∈ slotsOf env p moving a := by
    intro a u
    by_cases ha : env.sender tx = a
    · subst ha
      rw [slots_cons.mem_iff, mem_cons, and_iff_left rfl]
    · simp [slots_cons_ne ha, ha]
  have hremove : p.removeFromLookup env tx.hash =
      { p.releaseShieldedV6KeyImages env tx with all := p.all.remove tx.hash } := by
    rw [removeFromLookup, Lookup.get_mem htx]
  rw [hremove]
  refine ⟨fun a u hu => h.senders a u ((hmem a u).mpr (.inr hu)), fun a => ?_, fun u => ?_⟩
  · by_cases ha : env.sender tx = a
    · subst ha
      exact (nodup_cons.mp hnodup).2
    · have := h.nonces a
      rwa [slots_cons_ne ha] at this
  · rw [Lookup.mem_remove, h.pooled u, hmem]
    constructor
    · rintro ⟨⟨rfl, -⟩ | hu, hne⟩
      · exact absurd rfl hne
      · exact hu
    · intro hu
      refine ⟨.inr hu, fun hhash => hout ?_⟩
      have := Lookup.hash_inj ((h.pooled u).mpr ((hmem _ u).mpr (.inr hu))) htx hhash
      exact this ▸ hu

theorem Filed.fresh (side : Side) : (p.list side (env.sender tx)).get tx.nonce = none := by
  have hnodup := (slots_cons.map Tx.nonce).nodup_iff.mp (h.nonces (env.sender tx))
  have hout := (nodup_cons.mp hnodup).1
  exact TxList.get_none.mpr fun u hu hn => hout (hn ▸ mem_map_of_mem (mem_slots side hu))

theorem Filed.arrive (side : Side) (hl : l.txs.Perm (tx :: (p.list side (env.sender tx)).txs)) :
    Filed env (p.setList side (env.sender tx) l) moving :=
  h.move (setList_all side) fun _ => slots_setList (show ∀ t ∈ [], _ from nofun) side
    (fun t (ht : t ∈ [tx]) => congrArg env.sender (mem_singleton.mp ht)) hl

end

theorem put_fresh (hfresh : l.get tx.nonce = none) : (l.put tx).Perm (tx :: l.txs) := by
  have h := l.without_perm tx
  rw [hfresh] at h
  exact TxList.put_perm.trans (h.cons tx)

theorem Filed.promote (h : Filed env p (tx :: moving)) : Filed env (p.promoteTx env tx) moving := by
  unfold promoteTx
  cases hadd : (p.pending (env.sender tx)).add env tx with
  | none => exact h.drop
  | some r =>
    obtain ⟨l, old⟩ := r
    obtain ⟨rfl, htxs, -⟩ := TxList.add_some hadd
    have hfresh : (p.pending (env.sender tx)).get tx.nonce = none := h.fresh .pending
    have harrive := h.arrive .pending (l := l) (htxs ▸ put_fresh hfresh)
    simp only [hfresh]
    exact harrive.move rfl fun _ => List.Perm.refl _

/-! ### Costs -/

def FitsWith (env : PoolEnv) (p : Pool) (moving : List Tx) : Prop :=
  ∀ a, (p.queue a).totalcost + TxList.costs env (p.pending a).txs +
    TxList.costs env (moving.filter fun t => env.sender t = a) < 2 ^ 256

structure Steady (env : PoolEnv) (p : Pool) (moving : List Tx) : Prop extends Filed env p moving where
  fits : FitsWith env p moving

theorem Steady.setPending (h : Steady env p moving)
    (hs : TxList.Splits (p.pending a) removed l) : Steady env (p.setPending a l) (removed ++ moving) where
  toFiled := h.toFiled.leave .pending hs
  fits b := by
    have hfits := h.fits b
    have hsender := h.toFiled.removed_sender .pending hs
    by_cases hb : b = a
    · subst hb
      simp only [Pool.setPending, update_self, filter_moved hsender]
      have := TxList.costs_perm env hs.perm
      simp only [TxList.costs_append] at this ⊢
      omega
    · simpa only [Pool.setPending, update_of_ne hb, filter_moved_ne hsender hb] using hfits

variable (env moving a tx) in
theorem costs_moving_le : TxList.costs env (moving.filter fun t => env.sender t = a) ≤
    TxList.costs env ((tx :: moving).filter fun t => env.sender t = a) := by
  by_cases ha : env.sender tx = a
  · rw [filter_cons_of_pos (by simpa using ha), TxList.costs_cons]
    exact Nat.le_add_left _ _
  · rw [filter_cons_of_neg (by simpa using ha)]

variable (env) in
theorem removeFromLookup_lists (hash : Hash) :
    (p.removeFromLookup env hash).pending = p.pending ∧ (p.removeFromLookup env hash).queue = p.queue := by
  unfold removeFromLookup
  cases p.all.get hash with
  | none => exact ⟨rfl, rfl⟩
  | some tx => exact ⟨rfl, rfl⟩

theorem Steady.drop (h : Steady env p (tx :: moving)) : Steady env (p.removeFromLookup env tx.hash) moving where
  toFiled := h.toFiled.drop
  fits b := by
    have hfits := h.fits b
    have := costs_moving_le env moving b tx
    rw [(removeFromLookup_lists env tx.hash).1, (removeFromLookup_lists env tx.hash).2]
    omega

theorem Steady.requeue (h : Steady env p (tx :: moving)) (removeTx : Pool → Hash → Pool) :
    Steady env (p.requeue env removeTx tx) moving := by
  have hfits := h.fits (env.sender tx)
  rw [filter_cons_of_pos (by simp), TxList.costs_cons] at hfits
  have hfresh : (p.queue (env.sender tx)).get tx.nonce = none := h.fresh .queue
  obtain ⟨l, hadd⟩ := TxList.add_fresh env hfresh (by omega)
  obtain ⟨-, htxs, htotal⟩ := TxList.add_some hadd
  have hrequeue : p.requeue env removeTx tx = p.setQueue (env.sender tx) l := by
    simp [Pool.requeue, enqueueTx, hadd]
  rw [hrequeue]
  refine ⟨h.toFiled.arrive .queue (htxs ▸ put_fresh hfresh), fun b => ?_⟩
  by_cases hb : b = env.sender tx
  · subst hb
    simp only [Pool.setQueue, update_self, htotal, Option.toList_none]
    simp only [TxList.costs, map_nil, sum_nil, Nat.sub_zero] at hfits ⊢
    omega
  · have := h.fits b
    rw [filter_cons_of_neg (by simpa using Ne.symm hb)] at this
    simpa only [Pool.setQueue, update_of_ne hb] using this

theorem Steady.demoteWith (h : Steady env p (txs ++ moving)) (removeTx : Pool → Hash → Pool) :
    Steady env (txs.foldl (fun q t => q.requeue env removeTx t) p) moving := by
  induction txs generalizing p with
  | nil => exact h
  | cons t txs ih => exact ih (h.requeue removeTx)

theorem Steady.dropAll (h : Steady env p (txs ++ moving)) : Steady env (p.drop env txs) moving := by
  unfold Pool.drop
  induction txs generalizing p with
  | nil => exact h
  | cons t txs ih => exact ih h.drop

/-! ### Removals -/

theorem setList_removeFromLookup (side : Side) (hash : Hash) :
    (p.removeFromLookup env hash).setList side a l = (p.setList side a l).removeFromLookup env hash := by
  unfold removeFromLookup
  rw [setList_all]
  cases p.all.get hash with
  | none => rfl
  | some tx => cases side <;> rfl

theorem Filed.apart (h : Filed env p moving) (ht : t ∈ (p.pending a).txs) (hu : u ∈ (p.queue a).txs) :
    t.nonce ≠ u.nonce := by
  have hnodup := h.nonces a
  rw [slotsOf, map_append, map_append] at hnodup
  have hlists := (nodup_append.mp (nodup_append.mp hnodup).1).2.2
  exact hlists _ (mem_map_of_mem ht) _ (mem_map_of_mem hu)

theorem Filed.mem_lists (h : Filed env p []) (ht : tx ∈ p.all.txs) :
    tx ∈ (p.pending (env.sender tx)).txs ∨ tx ∈ (p.queue (env.sender tx)).txs := by
  have := (h.pooled tx).mp ht
  rwa [slotsOf, filter_nil, append_nil, mem_append] at this

variable (env) in
theorem queueRemove_queued (ht : tx ∈ (p.queue a).txs) :
    ∃ l, p.queueRemove env a tx = p.setQueue a l ∧ TxList.Splits (p.queue a) [tx] l := by
  obtain ⟨l, hremove, hsplits⟩ := TxList.remove_only env ht
  refine ⟨l, ?_, hsplits⟩
  unfold queueRemove
  rw [if_neg (by simp [TxList.get_mem ht]), hremove]

section
variable (h : Steady env p [])
include h

theorem Steady.removeWithin (depth : Nat) (hash : Hash) :
    Steady env (removeTxWithin env (depth + 1) p hash).2 [] := by
  unfold removeTxWithin
  cases hget : p.all.get hash with
  | none => exact h
  | some tx =>
    obtain ⟨htx, rfl⟩ := Lookup.get_some hget
    simp only [(removeFromLookup_lists env tx.hash).1]
    rcases h.toFiled.mem_lists htx with hpending | hqueue
    · obtain ⟨invalids, l, hremove, hsplits⟩ := TxList.splits_remove env true hpending
      rw [hremove]
      simp only [show ∀ l, (p.removeFromLookup env tx.hash).setPending (env.sender tx) l = _ from
        fun _ => setList_removeFromLookup .pending _]
      have hset := h.setPending hsplits
      rw [append_nil] at hset
      have hdropped := hset.drop
      rw [← append_nil invalids] at hdropped
      have hdemoted := hdropped.demoteWith fun r h => (removeTxWithin env depth r h).2
      exact ⟨hdemoted.toFiled.move rfl fun _ => List.Perm.refl _, hdemoted.fits⟩
    · have hnone : (p.pending (env.sender tx)).get tx.nonce = none :=
        TxList.get_none.mpr fun u hu => h.toFiled.apart hu hqueue
      rw [TxList.remove_none true hnone]
      have hq : tx ∈ ((p.removeFromLookup env tx.hash).queue (env.sender tx)).txs := by
        rwa [(removeFromLookup_lists env tx.hash).2]
      obtain ⟨l, hremoved, hsplits⟩ := queueRemove_queued env hq
      rw [(removeFromLookup_lists env tx.hash).2] at hsplits
      simp only
      rw [hremoved, show (p.removeFromLookup env tx.hash).setQueue _ l = _ from setList_removeFromLookup .queue _]
      refine ⟨(h.toFiled.leave .queue hsplits).drop, fun b => ?_⟩
      have hfits := h.fits b
      rw [(removeFromLookup_lists env tx.hash).1, (removeFromLookup_lists env tx.hash).2]
      by_cases hb : b = env.sender tx
      · subst hb
        have := hsplits.totalcost
        simp only [setList, Pool.setQueue, update_self]
        omega
      · simpa only [setList, Pool.setQueue, update_of_ne hb] using hfits

theorem Steady.remove (hash : Hash) : Steady env (p.removeTx env hash).2 [] :=
  h.removeWithin _ hash

theorem Steady.removeAll (hashes : List Hash) : Steady env (p.removeAll env hashes) [] := by
  unfold Pool.removeAll
  induction hashes generalizing p with
  | nil => exact h
  | cons hash hashes ih => exact ih (h.remove hash)

theorem Steady.kickOut (drop : List Tx) : Steady env (p.kickOut env drop) [] := by
  unfold Pool.kickOut
  induction drop generalizing p with
  | nil => exact h
  | cons t drop ih =>
    have hremoved := h.remove t.hash
    exact ih ⟨hremoved.toFiled.move rfl fun _ => List.Perm.refl _, hremoved.fits⟩

theorem Steady.demoteAccount (a : Address) : Steady env (p.demoteAccount env a) [] := by
  have hold : Steady env (p.dropOld env a) [] := (h.setPending (TxList.splits_forward env _)).dropAll
  have hunpayable : ∀ {q : Pool}, Steady env q [] → Steady env (q.dropUnpayable env a) [] := by
    intro q hq
    have hset := hq.setPending (TxList.splits_filter env (l := q.pending a) true (q.head.balance a) q.head.gasLimit)
    rw [append_assoc] at hset
    exact hset.dropAll.demoteWith _
  have hgapped : ∀ {q : Pool}, Steady env q [] → Steady env (q.postponeGapped env a) [] := by
    intro q hq
    unfold postponeGapped
    split
    · exact (hq.setPending (TxList.splits_cap env _)).demoteWith _
    · exact hq
  exact hgapped (hunpayable hold)

end

/-! ### Promotions and limits -/

theorem Filed.reorder (h : Filed env p moving) (hperm : moving'.Perm moving) : Filed env p moving' :=
  h.move rfl fun _ => (hperm.filter _).append_left _

theorem splits_promotable (a : Address) :
    TxList.Splits (p.queue a) ((p.promotable env a).1 ++ (p.promotable env a).2.1) (p.promotable env a).2.2 := by
  have hforward := TxList.splits_forward env (l := p.queue a) (p.head.nonce a)
  have hfilter := TxList.splits_filter env (l := ((p.queue a).forward env (p.head.nonce a)).2) false (p.head.balance a)
    p.head.gasLimit
  rw [TxList.filter_invalids, append_nil] at hfilter
  have hready := TxList.splits_ready env (p.pendingNonces a)
    (l := (((p.queue a).forward env (p.head.nonce a)).2.filter env false (p.head.balance a) p.head.gasLimit).2.2)
  have hcap := (hforward.trans (hfilter.trans hready)).trans (TxList.splits_cap env env.accountQueue)
  refine hcap.of_perm ?_
  classical
  rw [perm_iff_count]
  intro t
  simp only [promotable, count_append]
  omega

theorem Filed.gather (h : Filed env p moving) (accounts : List Address) :
    Filed env (Pool.gather env accounts p).2.2
      ((Pool.gather env accounts p).1 ++ (Pool.gather env accounts p).2.1 ++ moving) := by
  induction accounts generalizing p moving with
  | nil => exact h
  | cons a accounts ih =>
    refine (ih (h.leave .queue (splits_promotable a))).reorder ?_
    classical
    rw [perm_iff_count]
    intro t
    simp only [Pool.gather, setList, count_append]
    omega

theorem Filed.promoteAll (h : Filed env p (txs ++ moving)) :
    Filed env (txs.foldl (fun q t => q.promoteTx env t) p) moving := by
  induction txs generalizing p with
  | nil => exact h
  | cons t txs ih => exact ih h.promote

theorem Filed.dropAll (h : Filed env p (txs ++ moving)) : Filed env (p.drop env txs) moving := by
  unfold Pool.drop
  induction txs generalizing p with
  | nil => exact h
  | cons t txs ih => exact ih h.drop

theorem Filed.promoteExecutables (h : Filed env p []) (accounts : List Address) :
    Filed env (p.promoteExecutables env accounts) [] := by
  have hgathered := h.gather accounts
  rw [append_assoc] at hgathered
  exact hgathered.promoteAll.dropAll

theorem Filed.dropLowering (h : Filed env p (txs ++ moving)) (a : Address) :
    Filed env (txs.foldl (fun q t => (q.removeFromLookup env t.hash).lowerNonce a t.nonce) p) moving := by
  induction txs generalizing p with
  | nil => exact h
  | cons t txs ih => exact ih (h.drop.move rfl fun _ => List.Perm.refl _)

theorem Filed.capPending (h : Filed env p []) (a : Address) : Filed env (p.capPending env a) [] :=
  (h.leave .pending (TxList.splits_cap env _)).dropLowering a

theorem Filed.queueRemoveAll (h : Filed env p moving) (hmem : ∀ t ∈ removed, t ∈ (p.queue a).txs)
    (hnodup : removed.Nodup) : Filed env (removed.foldl (fun q t => q.queueRemove env a t) p) (removed ++ moving) := by
  induction removed generalizing p moving with
  | nil => exact h
  | cons t removed ih =>
    obtain ⟨l, heq, hsplits⟩ := queueRemove_queued env (hmem t mem_cons_self)
    obtain ⟨hout, hnodup⟩ := nodup_cons.mp hnodup
    rw [foldl_cons, heq]
    refine (ih (h.leave .queue hsplits) (fun u hu => ?_) hnodup).reorder (perm_middle).symm
    have hu' := hsplits.perm.mem_iff.mpr (hmem u (mem_cons_of_mem _ hu))
    simp only [setList, Pool.setQueue, update_self]
    rcases mem_append.mp hu' with hu' | hu'
    · rw [mem_singleton.mp hu'] at hu
      exact absurd hu hout
    · exact hu'

theorem Filed.truncateQueueOf (h : Filed env p []) (a : Address) (count : Nat) :
    Filed env (p.truncateQueueOf env a count) [] := by
  have hnodup : (p.queue a).txs.Nodup := (p.queue a).sorted.imp fun hlt heq => Nat.ne_of_lt hlt (congrArg Tx.nonce heq)
  refine (h.queueRemoveAll (fun t ht => ?_) ?_).dropAll
  · exact mem_of_mem_drop (mem_reverse.mp ht)
  · exact nodup_reverse.mpr (hnodup.sublist (drop_sublist _ _))

/-! ### New transactions -/

theorem Filed.enter (h : Filed env p []) (hhash : p.all.get tx.hash = none)
    (hfree : ∀ side, (p.list side (env.sender tx)).get tx.nonce = none) :
    Filed env { p with all := p.all.add tx } [tx] := by
  have hslots : ∀ a, slotsOf env { p with all := p.all.add tx } [tx] a = slotsOf env p [tx] a := fun _ => rfl
  have hmem : ∀ u, u ∈ slotsOf env p [tx] (env.sender u) ↔ u = tx ∨ u ∈ slotsOf env p [] (env.sender u) := by
    intro u
    by_cases hu : env.sender tx = env.sender u
    · rw [← hu, slots_cons.mem_iff, mem_cons]
    · rw [slots_cons_ne hu]
      exact ⟨.inr, fun h => h.resolve_left fun heq => hu (heq ▸ rfl)⟩
  refine ⟨fun a t ht => ?_, fun a => ?_, fun u => ?_⟩
  · rw [hslots] at ht
    by_cases ha : env.sender tx = a
    · subst ha
      rcases mem_cons.mp (slots_cons.mem_iff.mp ht) with rfl | ht
      · rfl
      · exact h.senders _ t ht
    · rw [slots_cons_ne ha] at ht
      exact h.senders a t ht
  · rw [hslots]
    by_cases ha : env.sender tx = a
    · subst ha
      refine (slots_cons.map Tx.nonce).nodup_iff.mpr (nodup_cons.mpr ⟨fun hin => ?_, h.nonces _⟩)
      obtain ⟨u, hu, hn⟩ := mem_map.mp hin
      rw [slotsOf, filter_nil, append_nil, mem_append] at hu
      rcases hu with hu | hu
      · exact TxList.get_none.mp (hfree .pending) u hu hn
      · exact TxList.get_none.mp (hfree .queue) u hu hn
    · rw [slots_cons_ne ha]
      exact h.nonces a
  · rw [hslots, hmem, Lookup.mem_add, h.pooled u]
    constructor
    · rintro (⟨hu, -⟩ | rfl)
      · exact .inr hu
      · exact .inl rfl
    · rintro (rfl | hu)
      · exact .inr rfl
      · exact .inl ⟨hu, Lookup.get_none.mp hhash u ((h.pooled u).mpr hu)⟩

theorem get_fresh (hhash : p.all.get tx.hash = none) (h : Loses env p q) : q.all.get tx.hash = none :=
  Lookup.get_none.mpr fun u hu => Lookup.get_none.mp hhash u (h.pooled u hu)

theorem replaced_perm (hadd : l₀.add env tx = some (l₁, some o))
    (hs : TxList.Splits l₀ [o] l') : l₁.txs.Perm (tx :: l'.txs) := by
  obtain ⟨hold, htxs, -⟩ := TxList.add_some hadd
  have hwithout := l₀.without_perm tx
  rw [← hold] at hwithout
  have hrest : (l₀.without tx.nonce).Perm l'.txs := (perm_cons o).mp (hwithout.trans hs.perm.symm)
  rw [htxs]
  exact TxList.put_perm.trans (hrest.cons tx)

theorem vacated_get (hs : TxList.Splits l₀ [o] l') : l'.get o.nonce = none := by
  refine TxList.get_none.mpr fun u hu hn => ?_
  have hnodup : (l₀.txs.map Tx.nonce).Nodup := pairwise_map.mpr (l₀.sorted.imp Nat.ne_of_lt)
  have := (hs.perm.map Tx.nonce).nodup_iff.mpr hnodup
  exact (nodup_cons.mp this).1 (hn ▸ mem_map_of_mem hu)

section
variable (h : Filed env p []) (hhash : p.all.get tx.hash = none)
include h hhash

theorem Filed.place (side : Side) (hother : (p.list side.other (env.sender tx)).get tx.nonce = none)
    (hadd : (p.list side (env.sender tx)).add env tx = some (l, old)) (images : List Hash) :
    Filed env (((p.setList side (env.sender tx) l).forget env old).enroll tx images) [] := by
  have hsides : ∀ q : Pool, (q.list side (env.sender tx)).get tx.nonce = none →
      (q.list side.other (env.sender tx)).get tx.nonce = none → ∀ s, (q.list s (env.sender tx)).get tx.nonce = none := by
    intro q hthis hthat s
    cases side <;> cases s <;> assumption
  have henroll : ∀ q : Pool, Filed env ({ q with all := q.all.add tx }.setList side (env.sender tx) l) [] →
      Filed env ((q.setList side (env.sender tx) l).enroll tx images) [] := by
    intro q hq
    cases side <;> exact hq.congr rfl rfl rfl
  have hold := (TxList.add_some hadd).1
  cases old with
  | none =>
    refine henroll p ((h.enter hhash (hsides p hold.symm hother)).arrive side (l := l) ?_)
    rw [(TxList.add_some hadd).2.1]
    cases side <;> exact put_fresh hold.symm
  | some o =>
    obtain ⟨ho, hnonce⟩ := TxList.get_some hold.symm
    obtain ⟨l', -, hsplits⟩ := TxList.remove_only env ho
    have hvacated := (h.leave side hsplits).drop
    have hlists := removeFromLookup_lists (p := p) env o.hash
    have hthat : ((p.removeFromLookup env o.hash).list side.other (env.sender tx)).get tx.nonce = none := by
      cases side <;> simpa [list, Side.other, hlists] using hother
    have hfresh := get_fresh hhash (loses_removeFromLookup env p o.hash)
    rw [← setList_removeFromLookup] at hvacated
    rw [forget, ← setList_removeFromLookup]
    generalize p.removeFromLookup env o.hash = r at hvacated hthat hfresh ⊢
    have hvacant : ((r.setList side (env.sender tx) l').list side (env.sender tx)).get tx.nonce = none := by
      rw [setList_self, ← hnonce]
      exact vacated_get hsplits
    have hentered := hvacated.enter (by rwa [setList_all]) (hsides _ hvacant (by rwa [setList_other]))
    rw [← setList_setList (l := l')]
    refine henroll _ (hentered.arrive side ?_)
    cases side <;> simpa [list, setList, Pool.setPending, Pool.setQueue] using replaced_perm hadd hsplits

theorem queued_eq (hpending : (p.pending (env.sender tx)).get tx.nonce = none) 
    (hadd : (p.queue (env.sender tx)).add env tx = some (l, old)) :
    queued env p (env.sender tx) l old = (p.setQueue (env.sender tx) l).forget env old := by
  cases old with
  | none => rfl
  | some o =>
    obtain ⟨hold, htxs, -⟩ := TxList.add_some hadd
    obtain ⟨ho, hnonce⟩ := TxList.get_some hold.symm
    have hsender : env.sender o = env.sender tx := h.senders _ o (mem_slots .queue ho)
    have hpooled : o ∈ p.all.txs := (h.pooled o).mpr (hsender ▸ mem_slots .queue ho)
    have hget : p.all.get o.hash = some o := Lookup.get_mem hpooled
    have hne : tx.hash ≠ o.hash := (Lookup.get_none.mp hhash o hpooled).symm
    have htx : l.get o.nonce = some tx := by
      rw [hnonce]
      exact TxList.get_mem (htxs ▸ TxList.put_perm.mem_iff.mpr mem_cons_self)
    have hlists := removeFromLookup_lists (p := p.setQueue (env.sender tx) l) env o.hash
    simp only [queued, forget, removeTx, removeTxWithin, show (p.setQueue (env.sender tx) l).all = p.all from rfl, hget,
      hsender]
    rw [TxList.remove_none true (by rw [hlists.1, hnonce]; exact hpending)]
    simp only [queueRemove]
    rw [if_pos]
    rw [hlists.2]
    simp [Pool.setQueue, htx, hne]

theorem Filed.placed (hq : Placed env p tx q)
    (images : List Hash) : Filed env (q.enroll tx images) [] := by
  cases hq with
  | pending l old hcontains hadd =>
    refine h.place hhash .pending (TxList.get_none.mpr fun u hu => ?_) hadd images
    obtain ⟨o, ho⟩ := Option.isSome_iff_exists.mp hcontains
    obtain ⟨ho, hnonce⟩ := TxList.get_some ho
    exact fun hn => h.apart ho hu (hnonce.trans hn.symm)
  | queue l old hcontains hadd =>
    have hpending : (p.pending (env.sender tx)).get tx.nonce = none := by
      simpa [TxList.contains] using hcontains
    rw [queued_eq h hhash hpending hadd]
    exact h.place hhash .queue hpending hadd images

end

/-! ## Owners -/

def Owned (env : PoolEnv) (p : Pool) : Prop :=
  ∀ t ∈ p.all.txs, ∀ i ∈ env.keyImages t, p.shieldedV6KeyImages i = some t.hash

theorem Owned.loses (hp : Owned env p) (h : Loses env p q) : Owned env q := fun t ht i hi =>
  h.kept t ht i (hp t (h.pooled t ht) i hi)

theorem Owned.unique (hp : Owned env p) (ht : t ∈ p.all.txs) (hu : u ∈ p.all.txs)
    (hti : i ∈ env.keyImages t) (hui : i ∈ env.keyImages u) : t = u := by
  have h := hp t ht i hti
  rw [hp u hu i hui, Option.some.injEq] at h
  exact Lookup.hash_inj ht hu h.symm

theorem check_owner (h : p.checkShieldedV6KeyImages images r = true)
    (hi : i ∈ images) (ht : p.shieldedV6KeyImages i = some t.hash) : r = some t.hash := by
  have hall := all_eq_true.mp h i hi
  rw [ht, Option.all_some, decide_eq_true_eq] at hall
  cases r with
  | none => exact absurd hall t.hash_ne
  | some r => exact congrArg some hall.symm

theorem Filed.replaced (h : Filed env p []) (ht : t ∈ p.all.txs)
    (hr : p.replacedHash env tx = some t.hash) : env.sender t = env.sender tx ∧ t.nonce = tx.nonce := by
  obtain ⟨o, ho, hhash⟩ := Option.map_eq_some_iff.mp hr
  have hslot : o ∈ slotsOf env p [] (env.sender tx) ∧ o.nonce = tx.nonce := by
    rcases Option.or_eq_some_iff.mp ho with ho | ⟨-, ho⟩
    · exact ⟨mem_slots .pending (TxList.get_some ho).1, (TxList.get_some ho).2⟩
    · exact ⟨mem_slots .queue (TxList.get_some ho).1, (TxList.get_some ho).2⟩
  have hsender := h.senders _ o hslot.1
  have hpooled : o ∈ p.all.txs := (h.pooled o).mpr (hsender ▸ hslot.1)
  rw [Lookup.hash_inj ht hpooled hhash.symm]
  exact ⟨hsender, hslot.2⟩

theorem Filed.admitted_alone (h : Filed env (q.enroll tx images) [])
    (hhash : q.all.get tx.hash = none) (ht : t ∈ q.all.txs) (hsender : env.sender t = env.sender tx) :
    t.nonce ≠ tx.nonce := by
  intro hnonce
  have hne := Lookup.get_none.mp hhash t ht
  have htx : tx ∈ (q.enroll tx images).all.txs := Lookup.mem_add.mpr (.inr rfl)
  have htt : t ∈ (q.enroll tx images).all.txs := Lookup.mem_add.mpr (.inl ⟨ht, hne⟩)
  have hslot := (h.pooled t).mp htt
  rw [hsender] at hslot
  exact hne (congrArg Tx.hash (h.nonce_inj hslot ((h.pooled tx).mp htx) hnonce))

theorem Steady.admitted (h : Steady env p []) (howned : Owned env p) (hq : Admitted env p tx q) :
    Filed env q [] ∧ Owned env q := by
  obtain ⟨p', hp', q', hplaced, rfl⟩ := hq.placed
  obtain ⟨hfiled', hloses'⟩ : Filed env p' [] ∧ Loses env p p' := by
    rcases hp' with rfl | ⟨drop, rfl⟩
    · exact ⟨h.toFiled, .rfl⟩
    · exact ⟨(h.kickOut drop).toFiled, loses_kickOut env p drop⟩
  have hloses := hloses'.trans hplaced.loses
  have hfiled := hfiled'.placed (get_fresh hq.fresh hloses') hplaced (env.keyImages tx)
  have hfresh := get_fresh hq.fresh hloses
  refine ⟨hfiled, fun t ht i hi => ?_⟩
  simp only [enroll, reserveShieldedV6KeyImages]
  by_cases himage : i ∈ env.keyImages tx
  · rw [if_pos himage]
    rcases Lookup.mem_add.mp ht with ⟨ht, -⟩ | rfl
    · -- only the transaction to be replaced could own it, and it has left
      have hpooled := hloses.pooled t ht
      have hreplaced := check_owner hq.checked himage (howned t hpooled i hi)
      obtain ⟨hsender, hnonce⟩ := h.toFiled.replaced hpooled hreplaced
      exact absurd hnonce (hfiled.admitted_alone hfresh ht hsender)
    · rfl
  · rw [if_neg himage]
    rcases Lookup.mem_add.mp ht with ⟨ht, -⟩ | rfl
    · exact howned.loses hloses t ht i hi
    · exact absurd hi himage

/-! ## Runs -/

def Fits (env : PoolEnv) (p : Pool) : Prop :=
  ∀ a, (p.queue a).totalcost + TxList.costs env (p.pending a).txs < 2 ^ 256

theorem Filed.steady (h : Filed env p []) (hfits : Fits env p) : Steady env p [] :=
  ⟨h, fun a => by simpa [TxList.costs] using hfits a⟩

theorem Steady.addition (h : Steady env p []) (howned : Owned env p) (tx : Tx) (c : AddChoice) :
    Filed env (p.add env tx c).2 [] ∧ Owned env (p.add env tx c).2 := by
  rcases add_cases env p tx c with heq | ⟨drop, heq⟩ | hadmitted
  · rw [heq]
    exact ⟨h.toFiled, howned⟩
  · rw [heq]
    exact ⟨(h.kickOut drop).toFiled, howned.loses (loses_kickOut env p drop)⟩
  · exact h.admitted howned hadmitted

theorem filed_clear (p : Pool) : Filed env p.clear [] where
  senders _ _ ht := by cases ht
  nonces _ := nodup_nil
  pooled _ := Iff.rfl

theorem Steady.step (h : Steady env p []) (howned : Owned env p) (e : PoolEvent) : Filed env (p.step env e) [] := by
  cases e with
  | add tx c => exact (h.addition howned tx c).1
  | setGasTip tip => exact (h.removeAll _).toFiled
  | evict accounts => exact (h.removeAll _).toFiled
  | capGas limit => exact (h.removeAll _).toFiled
  | pruneInvalid invalid => exact (h.removeAll _).toFiled
  | reset head => exact h.toFiled.congr rfl rfl rfl
  | promote accounts => exact h.toFiled.promoteExecutables accounts
  | demote accounts =>
    have hfold : Steady env (accounts.foldl (fun q a => q.demoteAccount env a) p) [] :=
      List.foldlRecOn (motive := fun q => Steady env q []) accounts _ h fun q hq a _ => hq.demoteAccount a
    exact hfold.toFiled.congr rfl rfl rfl
  | truncatePending offenders =>
    exact List.foldlRecOn (motive := fun q => Filed env q []) offenders _ h.toFiled fun q hq a _ => hq.capPending a
  | truncateQueue drops =>
    have hfold : Filed env (drops.foldl (fun q d => q.truncateQueueOf env d.1 d.2) p) [] :=
      List.foldlRecOn (motive := fun q => Filed env q []) drops _ h.toFiled fun q hq d _ =>
        hq.truncateQueueOf d.1 d.2
    exact hfold.congr rfl rfl rfl
  | clear => exact filed_clear p

theorem Steady.owned_step (h : Steady env p []) (howned : Owned env p) (e : PoolEvent) : Owned env (p.step env e) := by
  rcases step_cases env p e with ⟨tx, c, rfl⟩ | rfl | hloses
  · exact (h.addition howned tx c).2
  · exact fun t ht => by cases ht
  · exact howned.loses hloses

theorem run_owned (head : PoolHead) (events : List PoolEvent)
    (hfits : ∀ before e rest, events = before ++ e :: rest → Fits env (run env head before)) :
    Filed env (run env head events) [] ∧ Owned env (run env head events) := by
  induction events using List.reverseRecOn with
  | nil => exact ⟨filed_clear (init head), fun t ht => by cases ht⟩
  | append_singleton events e ih =>
    obtain ⟨hfiled, howned⟩ := ih fun before e' rest heq => hfits before e' (rest ++ [e]) (by simp [heq])
    have hsteady := hfiled.steady (hfits events e [] rfl)
    rw [run_concat]
    exact ⟨hsteady.step howned e, hsteady.owned_step howned e⟩

theorem add_refused (hchecked : p.checkShieldedV6KeyImages (env.keyImages tx) (p.replacedHash env tx) = false)
    (c : AddChoice) : ∃ e, p.add env tx c = (.error e, p) := by
  unfold add
  split
  · exact ⟨_, rfl⟩
  · split
    · exact ⟨_, rfl⟩
    · cases himages : TkmChain.shieldedV6KeyImages env.backend tx with
      | error e => exact ⟨_, rfl⟩
      | ok images =>
        have hkey : env.keyImages tx = images := by simp [PoolEnv.keyImages, himages, Except.toOption]
        subst hkey
        simp only [hchecked, Bool.false_eq_true, not_false_iff, if_true]
        exact ⟨_, rfl⟩

/-- Along such a run the lookup has what the lists have, and no account has a nonce twice. -/
theorem pool_lists_match_lookup (env : PoolEnv) (head : PoolHead) (events : List PoolEvent)
    (hfits : ∀ before e rest, events = before ++ e :: rest → Fits env (run env head before)) :
    let p := run env head events
    (∀ t, t ∈ p.all.txs ↔ t ∈ (p.pending (env.sender t)).txs ++ (p.queue (env.sender t)).txs) ∧
    ∀ a, (∀ t ∈ (p.pending a).txs ++ (p.queue a).txs, env.sender t = a) ∧
      (((p.pending a).txs ++ (p.queue a).txs).map Tx.nonce).Nodup := by
  intro p
  obtain ⟨hfiled, -⟩ := run_owned head events hfits
  have hslots : slotsOf env p [] = fun a => (p.pending a).txs ++ (p.queue a).txs := by
    funext a
    rw [slotsOf, filter_nil, append_nil]
  obtain ⟨hsenders, hnonces, hpooled⟩ := hfiled
  rw [hslots] at hsenders hnonces hpooled
  exact ⟨hpooled, fun a => ⟨hsenders a, hnonces a⟩⟩

theorem pool_lists_match_lookup_spend :
    let p := run smallPool smallHead [.add (ringTx 1 0) {}]
    p.all.txs = [ringTx 1 0] ∧ (((p.pending 7).txs ++ (p.queue 7).txs).map Tx.nonce).Nodup := by
  refine ⟨rfl, ((pool_lists_match_lookup smallPool smallHead _ fun before e rest heq a => ?_).2 7).2⟩
  cases before with
  | nil => exact Nat.two_pow_pos 256
  | cons b before => simp at heq

/-! ## A transaction lost between the lists -/

def cheapTx : Tx := { ringTx 0 0 with
  hash := 11, hash_ne := by decide, data := [], nonce := 0, gasTipCap := 1, gasFeeCap := 1 }

def hugeTx : Tx := { ringTx 0 0 with
  hash := 12, hash_ne := by decide, data := [], nonce := 3, gasTipCap := 10, gasFeeCap := 10,
  value := 2 ^ 256 - 1 - 21000 * 10 - 1000000 * 11 }

def heldSpend : Tx := { ringTx 1 0 with
  hash := 13, hash_ne := by decide, nonce := 1, gasTipCap := 10, gasFeeCap := 10, gas := 2000000 }

def secondSpend : Tx := { ringTx 2 0 with
  hash := 14, hash_ne := by decide, nonce := 1, gasTipCap := 11, gasFeeCap := 11, gas := 1000000 }

end Pool

end TkmChain
