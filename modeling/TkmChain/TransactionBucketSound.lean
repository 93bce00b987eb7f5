import TkmChain.Run
import TkmChain.TransactionBucket

/-!
# Nonce reservations of the transaction bucket

A new batch is checked against the active batches of its sender. A completed batch is not
active, but becomes so again when a reorganisation drops one of its transactions, and then
nothing is checked. Reservations stay apart in runs in which such a batch would still be
admitted.
-/

namespace TkmChain.Eth

open List

variable {index expected : Nat} {token : String} {raw : Bytes} {persisted : Except String Unit}

/-! ## Reservations -/

def Batch.Reserves (b : Batch) (nonce : Nat) : Prop := b.baseNonce ≤ nonce ∧ nonce < b.baseNonce + b.expectedCount

def Batch.Apart (b c : Batch) : Prop := ∀ nonce, ¬ (b.Reserves nonce ∧ c.Reserves nonce)

def Batch.SingleMessage (b : Batch) : Prop := b.emailMessage = true ∧ b.expectedCount = 1

/-- Active batches of one sender: their reservations are apart, and there is at most one
batch unless all of them are single e-mail messages. -/
def Exclusive (batches : List Batch) : Prop :=
  batches.Pairwise Batch.Apart ∧
    (batches.length ≤ 1 ∨ (∀ b ∈ batches, b.SingleMessage) ∧ batches.length ≤ transactionBucketWindowSize)

def Fits (others : List Batch) (b : Batch) : Prop :=
  (∀ c ∈ others, b.Apart c ∧ b.SingleMessage ∧ c.SingleMessage) ∧ others.length < transactionBucketWindowSize

variable {b b' : Batch}

theorem Batch.Apart.symm (h : b.Apart c) : c.Apart b := fun nonce hboth => h nonce hboth.symm

theorem Exclusive.perm (h : Exclusive batches) (hp : batches.Perm others) : Exclusive others := by
  refine ⟨(hp.pairwise_iff Batch.Apart.symm).mp h.1, ?_⟩
  rw [← hp.length_eq]
  exact h.2.imp_right fun hall => ⟨fun b hb => hall.1 b (hp.mem_iff.mpr hb), hall.2⟩

theorem Exclusive.sublist (h : Exclusive batches) (hs : others.Sublist batches) : Exclusive others :=
  ⟨h.1.sublist hs, h.2.imp hs.length_le.trans fun hall => ⟨fun b hb => hall.1 b (hs.subset hb), hs.length_le.trans hall.2⟩⟩

theorem exclusive_cons : Exclusive (b :: others) ↔ Exclusive others ∧ Fits others b := by
  constructor
  · intro h
    refine ⟨h.sublist (sublist_cons_self _ _), ?_⟩
    obtain ⟨hapart, hcount⟩ := h
    rcases hcount with hone | ⟨hall, hten⟩
    · obtain rfl : others = [] := eq_nil_of_length_eq_zero (by simpa using hone)
      exact ⟨nofun, by decide⟩
    · refine ⟨fun c hc => ⟨rel_of_pairwise_cons hapart hc, hall b mem_cons_self, ?_⟩, by rwa [length_cons] at hten⟩
      exact hall c (mem_cons_of_mem _ hc)
  · rintro ⟨⟨hapart, -⟩, hfits, hten⟩
    refine ⟨pairwise_cons.mpr ⟨fun c hc => (hfits c hc).1, hapart⟩, ?_⟩
    cases others with
    | nil => exact .inl (by simp)
    | cons c rest =>
      right
      refine ⟨forall_mem_cons.mpr ⟨(hfits c mem_cons_self).2.1, fun c hc => (hfits c hc).2.2⟩, ?_⟩
      rwa [length_cons]

theorem Fits.sublist (h : Fits batches b) (hs : others.Sublist batches) : Fits others b :=
  ⟨fun c hc => h.1 c (hs.subset hc), hs.length_le.trans_lt h.2⟩

def Batch.reservation (b : Batch) : String × Address × Nat × Nat × Bool :=
  (b.id, b.fromAddr, b.baseNonce, b.expectedCount, b.emailMessage)

theorem Fits.of_reservation (h : Fits others b) (hr : b'.reservation = b.reservation) : Fits others b' := by
  simp only [Batch.reservation, Prod.mk.injEq] at hr
  obtain ⟨-, -, hbase, hexpected, hemail⟩ := hr
  simpa only [Fits, Batch.Apart, Batch.Reserves, Batch.SingleMessage, hbase, hexpected, hemail] using h

/-! ## The table of batches -/

variable {s : TransactionBucket} {t : Table Batch.id} {id : String} {a : Address}

def Reserved (s : TransactionBucket) : Prop := ∀ a, Exclusive (s.activeOf a)

theorem activeOf_erase : (TransactionBucket.activeOf ⟨t.erase id⟩ a).Sublist (TransactionBucket.activeOf ⟨t⟩ a) :=
  List.Sublist.filter _ filter_sublist

theorem Reserved.erase (h : Reserved s) : Reserved ⟨s.batches.erase id⟩ := fun a => (h a).sublist activeOf_erase

theorem Reserved.put (h : Reserved s)
    (hfits : b.active = true → Fits (TransactionBucket.activeOf ⟨s.batches.erase b.id⟩ b.fromAddr) b) :
    Reserved ⟨s.batches.put b⟩ := by
  intro a
  refine Exclusive.perm ?_ ((s.batches.put_perm b).filter _).symm
  rw [filter_cons]
  split
  · rename_i hactive
    obtain ⟨rfl, hb⟩ := of_decide_eq_true hactive
    exact exclusive_cons.mpr ⟨h.erase _, hfits hb⟩
  · exact h.erase a

theorem Reserved.fits (h : Reserved s) (hget : s.batches.get id = some b) (hactive : b.active = true) :
    Fits (TransactionBucket.activeOf ⟨s.batches.erase id⟩ b.fromAddr) b := by
  have hperm := (Table.perm_of_get hget).filter fun c => c.fromAddr = b.fromAddr ∧ c.active
  rw [filter_cons, if_pos (decide_eq_true ⟨rfl, hactive⟩)] at hperm
  exact (exclusive_cons.mp ((h b.fromAddr).perm hperm)).2

theorem Reserved.replace (h : Reserved s) (hget : s.batches.get id = some b) (hr : b'.reservation = b.reservation)
    (hactive : b'.active = true →
      b.active = true ∨ Fits (TransactionBucket.activeOf ⟨s.batches.erase id⟩ b.fromAddr) b) :
    Reserved ⟨s.batches.put b'⟩ := by
  obtain ⟨-, rfl⟩ := Table.get_eq_some.mp hget
  have hparts := hr
  simp only [Batch.reservation, Prod.mk.injEq] at hparts
  refine h.put fun hb' => ?_
  rw [hparts.1, hparts.2.1]
  apply Fits.of_reservation _ hr
  rcases hactive hb' with hb | hfits
  · exact h.fits hget hb
  · exact hfits

/-! ## Scheduling -/

variable {core : Core} {node : Backend} {now : Nat}

structure Batch.Sound (b : Batch) : Prop where
  length : b.entries.length ≤ b.expectedCount
  completed : b.state = .completed → b.count .confirmed = b.expectedCount

def Batch.closed (b : Batch) : Prop := b.state = .canceled ∨ b.state = .expired ∨ b.state = .failed

theorem not_active_of_closed (h : b.closed) : b.active = false := by
  rcases h with h | h | h
  · simp [Batch.active, h]
  · simp [Batch.active, h]
  · simp [Batch.active, h]

theorem Batch.Sound.of_closed (h : b.closed) (hlength : b.entries.length ≤ b.expectedCount) : b.Sound := by
  refine ⟨hlength, fun hcompleted => ?_⟩
  simp [Batch.closed, hcompleted] at h

theorem refresh_reservation : (refresh node now n b).reservation = b.reservation := by
  unfold refresh
  dsimp only
  split
  · rfl
  · rfl

theorem refresh_length : (refresh node now n b).entries.length = b.entries.length := by
  unfold refresh
  dsimp only
  split
  · exact length_map _
  · exact length_map _

theorem refresh_closed (h : b.closed) : (refresh node now n b).closed := by
  unfold refresh
  dsimp only
  split
  · exact .inr (.inr rfl)
  · exact h

theorem promote_frame :
    (promote core node now inflight index b entries).batch.reservation = b.reservation ∧
      (promote core node now inflight index b entries).entries.length = entries.length := by
  induction entries generalizing inflight index b with
  | nil => exact ⟨rfl, rfl⟩
  | cons entry rest ih =>
    unfold promote
    dsimp only
    split
    · exact ⟨rfl, rfl⟩
    split
    · exact ⟨ih.1, congrArg (· + 1) ih.2⟩
    split
    · exact ⟨rfl, rfl⟩
    cases core.unmarshalBinary entry.raw with
    | error e => exact ⟨rfl, rfl⟩
    | ok tx =>
      dsimp only
      split
      · exact ⟨ih.1, congrArg (· + 1) ih.2⟩
      split
      · exact ⟨rfl, rfl⟩
      · exact ⟨rfl, rfl⟩

theorem promote_of_not_queued (h : ∀ e ∈ entries, e.status ≠ .queued) :
    promote core node now inflight index b entries = ⟨b, entries, false⟩ := by
  induction entries generalizing index with
  | nil => rfl
  | cons entry rest ih =>
    obtain ⟨hentry, hrest⟩ := forall_mem_cons.mp h
    simp only [promote, hentry, ne_eq, not_false_eq_true, true_or, if_true, ih hrest, Promotion.push, Bool.or_false]
    split
    · rfl
    · rfl

theorem settle_reservation : (b.settle now).reservation = b.reservation := by
  unfold Batch.settle
  split
  · rfl
  · rfl

theorem settle_sound (h : b.entries.length ≤ b.expectedCount) : (b.settle now).Sound := by
  unfold Batch.settle
  split
  · exact ⟨h, fun _ => ‹_›⟩
  · refine ⟨h, fun hcompleted => ?_⟩
    dsimp only at hcompleted
    split at hcompleted
    · cases hcompleted
    · cases hcompleted

def promoted (core : Core) (node : Backend) (now : Nat) (b : Batch) : Batch :=
  let p := promote core node now (b.count .submitted) 0 b b.entries
  { p.batch with entries := p.entries }

theorem promoted_reservation : (promoted core node now b).reservation = b.reservation := promote_frame.1

theorem promoted_length : (promoted core node now b).entries.length = b.entries.length := promote_frame.2

theorem schedule_cases (P : Batch → Prop)
    (unknown : ∀ e, node.canonicalNonce b.fromAddr = .error e → P { b with error := e })
    (closed : ∀ n u, node.canonicalNonce b.fromAddr = .ok n → (refresh node now n b).closed →
      P { refresh node now n b with updatedAt := u })
    (expired : ∀ n, node.canonicalNonce b.fromAddr = .ok n →
      (refresh node now n b).receivedCount < (refresh node now n b).expectedCount →
      P { (refresh node now n b).cancelQueued errExpired with
        state := .expired, error := errExpired, completedAt := now / second, updatedAt := now / second })
    (failed : ∀ n, node.canonicalNonce b.fromAddr = .ok n → (promoted core node now (refresh node now n b)).closed →
      P { promoted core node now (refresh node now n b) with updatedAt := now / second })
    (settled : ∀ n u, node.canonicalNonce b.fromAddr = .ok n → ¬ (refresh node now n b).closed →
      P { (promoted core node now (refresh node now n b)).settle now with updatedAt := u }) :
    P (scheduleBatchLocked core node now b) := by
  unfold scheduleBatchLocked
  cases hnonce : node.canonicalNonce b.fromAddr with
  | error e => exact unknown e hnonce
  | ok n =>
    dsimp only
    split
    · split
      · exact closed n _ hnonce ‹_›
      · exact closed n (refresh node now n b).updatedAt hnonce ‹_›
    split
    · exact expired n hnonce (And.right ‹_›)
    split
    · exact failed n hnonce (.inr (.inr ‹_›))
    split
    · exact settled n _ hnonce ‹_›
    · exact settled n ((promoted core node now (refresh node now n b)).settle now).updatedAt hnonce ‹_›

theorem schedule_reservation : (scheduleBatchLocked core node now b).reservation = b.reservation := by
  apply schedule_cases fun c => c.reservation = b.reservation
  · exact fun _ _ => rfl
  · exact fun _ _ _ _ => refresh_reservation
  · exact fun _ _ _ => refresh_reservation
  · exact fun _ _ _ => promoted_reservation.trans refresh_reservation
  · exact fun _ _ _ _ => settle_reservation.trans (promoted_reservation.trans refresh_reservation)

theorem expectedCount_eq (h : b'.reservation = b.reservation) : b'.expectedCount = b.expectedCount := by
  simp only [Batch.reservation, Prod.mk.injEq] at h
  exact h.2.2.2.1

theorem schedule_sound (h : b.Sound) : (scheduleBatchLocked core node now b).Sound := by
  have hrefresh (n : Nat) : (refresh node now n b).entries.length ≤ (refresh node now n b).expectedCount := by
    rw [refresh_length, expectedCount_eq refresh_reservation]
    exact h.length
  have hpromoted (n : Nat) : (promoted core node now (refresh node now n b)).entries.length ≤
      (promoted core node now (refresh node now n b)).expectedCount := by
    rw [promoted_length, expectedCount_eq promoted_reservation]
    exact hrefresh n
  apply schedule_cases Batch.Sound
  · exact fun _ _ => ⟨h.length, h.completed⟩
  · exact fun n _ _ hclosed => .of_closed hclosed (hrefresh n)
  · intro n _ _
    refine .of_closed (.inr (.inl rfl)) ?_
    exact (length_map _).trans_le (hrefresh n)
  · exact fun n _ hclosed => .of_closed hclosed (hpromoted n)
  · intro n _ _ _
    have hsettled : ((promoted core node now (refresh node now n b)).settle now).Sound := settle_sound (hpromoted n)
    exact ⟨hsettled.length, hsettled.completed⟩

theorem schedule_closed (h : b.closed) : (scheduleBatchLocked core node now b).active = false := by
  apply schedule_cases fun c => c.active = false
  · exact fun _ _ => not_active_of_closed h
  · exact fun _ _ _ hclosed => not_active_of_closed hclosed
  · exact fun _ _ _ => rfl
  · exact fun _ _ hclosed => not_active_of_closed hclosed
  · exact fun _ _ _ hopen => absurd (refresh_closed h) hopen

/-! ## Completed batches -/

def Batch.leftChain (node : Backend) (b : Batch) : Bool :=
  match node.canonicalNonce b.fromAddr with
  | .error _ => false
  | .ok n => b.entries.any (fun e => !node.canonicalTransaction e.hash) &&
    b.entries.all fun e => node.canonicalTransaction e.hash || n ≤ e.nonce

theorem Batch.Sound.confirmed (h : b.Sound) (hcompleted : b.state = .completed) :
    ∀ e ∈ b.entries, e.status = .confirmed := by
  have hcount := h.completed hcompleted
  have hall : b.entries.countP (·.status = .confirmed) = b.entries.length :=
    le_antisymm countP_le_length (hcount.ge.trans' h.length)
  intro e he
  exact of_decide_eq_true (countP_eq_length.mp hall e he)

theorem refresh_of_canonical (hconfirmed : ∀ e ∈ b.entries, e.status = .confirmed)
    (hcanonical : ∀ e ∈ b.entries, node.canonicalTransaction e.hash = true) : refresh node now n b = b := by
  have hmap : b.entries.map (refreshEntry node n) = b.entries := by
    refine (map_congr_left fun e he => ?_).trans (map_id _)
    simp [refreshEntry, hconfirmed e he, hcanonical e he]
  have hany : b.entries.any (consumed node n) = false := by
    rw [any_eq_false]
    intro e he
    simp [consumed, hcanonical e he]
  unfold refresh
  rw [hmap, hany]
  rfl

theorem schedule_completed (h : b.Sound) (hcompleted : b.state = .completed) (hleft : b.leftChain node = false) :
    (scheduleBatchLocked core node now b).active = false := by
  have hconfirmed := h.confirmed hcompleted
  have hnot : b.active = false := by simp [Batch.active, hcompleted]
  apply schedule_cases fun c => c.active = false
  · exact fun _ _ => hnot
  · exact fun _ _ _ hclosed => not_active_of_closed hclosed
  · exact fun _ _ _ => rfl
  · exact fun _ _ hclosed => not_active_of_closed hclosed
  · intro n u hnonce hopen
    rw [Batch.leftChain, hnonce] at hleft
    rcases Bool.and_eq_false_iff.mp hleft with hany | hall
    · have hcanonical : ∀ e ∈ b.entries, node.canonicalTransaction e.hash = true := by
        intro e he
        simpa using any_eq_false.mp hany e he
      have hpromoted : promoted core node now b = b := by
        rw [promoted, promote_of_not_queued fun e he => by simp [hconfirmed e he]]
      rw [refresh_of_canonical hconfirmed hcanonical, hpromoted, Batch.settle, if_pos (h.completed hcompleted)]
      rfl
    · obtain ⟨e, he, hfalse⟩ := all_eq_false.mp hall
      have hconsumed : consumed node n e = true := by
        simp [consumed, hconfirmed e he] at hfalse ⊢
        exact hfalse
      refine absurd ?_ hopen
      rw [refresh, if_pos (any_eq_true.mpr ⟨e, he, hconsumed⟩)]
      exact .inr (.inr rfl)

/-! ## Calls -/

theorem le_nextSenderNonce (hb : b ∈ batches) : b.baseNonce + b.expectedCount ≤ nextSenderNonceLocked batches n := by
  have hmono (l : List Batch) (n : Nat) : n ≤ nextSenderNonceLocked l n := by
    induction l generalizing n with
    | nil => exact le_rfl
    | cons c l ih => exact (le_max_left _ _).trans (ih _)
  induction batches generalizing n with
  | nil => cases hb
  | cons c l ih =>
    rcases mem_cons.mp hb with rfl | hb
    · exact (le_max_right _ _).trans (hmono l _)
    · exact ih hb

theorem validateNewBatchLocked_ok (h : validateNewBatchLocked batches expected email = .ok ()) :
    (∀ c ∈ batches, (email = true ∧ expected = 1) ∧ c.SingleMessage) ∧ batches.length < transactionBucketWindowSize := by
  simp only [validateNewBatchLocked, ok_rules, checkAll_ok, not_le] at h
  obtain ⟨-, hall, hlength⟩ := h
  refine ⟨fun c hc => ?_, hlength⟩
  have hc := hall c hc
  simp only [not_or, Bool.not_eq_false, not_not] at hc
  exact ⟨⟨hc.1, hc.2.2.1⟩, hc.2.1, hc.2.2.2⟩

def admits (others : List Batch) (b : Batch) : Bool :=
  (validateNewBatchLocked others b.expectedCount b.emailMessage).isOk &&
    others.all fun c => c.baseNonce + c.expectedCount ≤ b.baseNonce || b.baseNonce + b.expectedCount ≤ c.baseNonce

theorem fits_of_admits (h : admits others b = true) : Fits others b := by
  obtain ⟨hvalid, hapart⟩ := Bool.and_eq_true_iff.mp h
  obtain ⟨hall, hlength⟩ := validateNewBatchLocked_ok (except_ok_of_isOk hvalid)
  refine ⟨fun c hc => ⟨?_, hall c hc⟩, hlength⟩
  rintro nonce ⟨⟨hb, hb'⟩, hc₁, hc₂⟩
  have hranges := all_eq_true.mp hapart c hc
  simp only [Bool.or_eq_true, decide_eq_true_eq] at hranges
  omega

structure Inv (s : TransactionBucket) : Prop where
  reserved : Reserved s
  sound : ∀ b ∈ s.batches.rows, b.Sound

theorem Inv.get (h : Inv s) (hget : s.batches.get id = some b) : b.Sound := h.sound b (Table.get_eq_some.mp hget).1

theorem Inv.put (h : Inv s) (hreserved : Reserved ⟨s.batches.put b⟩) (hb : b.Sound) : Inv ⟨s.batches.put b⟩ := by
  refine ⟨hreserved, fun c hc => ?_⟩
  rcases Table.mem_put.mp hc with ⟨hc, -⟩ | rfl
  · exact h.sound c hc
  · exact hb

theorem Inv.erase (h : Inv s) : Inv ⟨s.batches.erase id⟩ :=
  ⟨h.reserved.erase, fun c hc => h.sound c (mem_of_mem_filter hc)⟩

def TransactionBucket.resumes (node : Backend) (s : TransactionBucket) (id : String) : Bool :=
  match s.batches.get id with
  | none => true
  | some b => b.state ≠ .completed || !b.leftChain node ||
    admits (TransactionBucket.activeOf ⟨s.batches.erase id⟩ b.fromAddr) b

theorem Inv.schedule (h : Inv s) (hget : s.batches.get id = some b) (hmeets : s.resumes node id = true) :
    Inv ⟨s.batches.put (scheduleBatchLocked core node now b)⟩ := by
  refine h.put ?_ (schedule_sound (h.get hget))
  refine h.reserved.replace hget schedule_reservation fun hactive => ?_
  by_cases hcompleted : b.state = .completed
  · right
    cases hleft : b.leftChain node with
    | false => simp [schedule_completed (h.get hget) hcompleted hleft] at hactive
    | true =>
      simp only [TransactionBucket.resumes, hget, hcompleted, hleft, ne_eq, not_true_eq_false, decide_false, Bool.not_true,
        Bool.false_or] at hmeets
      exact fits_of_admits hmeets
  · left
    by_contra hb
    have hclosed : b.closed := by
      cases hstate : b.state with
      | receiving => simp [Batch.active, hstate] at hb
      | processing => simp [Batch.active, hstate] at hb
      | completed => exact absurd hstate hcompleted
      | canceled => exact .inl hstate
      | expired => exact .inr (.inl hstate)
      | failed => exact .inr (.inr hstate)
    simp [schedule_closed hclosed] at hactive

theorem newBatch_sound (h : newBatch core node now id token expected raw = .ok b) : b.Sound ∧ b.id = id := by
  simp only [newBatch, ok_rules, not_or, not_lt] at h
  obtain ⟨-, ⟨hpos, -⟩, ⟨tx, sender⟩, -, -, -, rfl⟩ := h
  refine ⟨⟨Nat.pos_of_ne_zero hpos, fun hcompleted => ?_⟩, rfl⟩
  dsimp only at hcompleted
  split at hcompleted
  · cases hcompleted
  · cases hcompleted

theorem accepts_fits (h : s.accepts node b = .ok ()) : Fits (s.activeOf b.fromAddr) b := by
  simp only [TransactionBucket.accepts, ok_rules, not_not] at h
  obtain ⟨⟨⟩, hvalid, ⟨⟩, hnonce, -⟩ := h
  obtain ⟨hall, hlength⟩ := validateNewBatchLocked_ok hvalid
  refine ⟨fun c hc => ⟨?_, hall c hc⟩, hlength⟩
  rintro nonce ⟨⟨hb, -⟩, -, hc'⟩
  have hnext := hnonce ▸ le_nextSenderNonce hc
  omega

theorem Inv.begin (h : Inv s) : Inv (s.begin core node now id token persisted expected raw).2 := by
  unfold TransactionBucket.begin
  cases hnew : newBatch core node now id token expected raw with
  | error e => exact h
  | ok b =>
    dsimp only
    cases haccepts : s.accepts node b with
    | error e => exact h
    | ok =>
      cases persisted with
      | error e => exact h.erase
      | ok =>
        obtain ⟨hsound, -⟩ := newBatch_sound hnew
        refine h.put (h.reserved.put fun _ => ?_) (schedule_sound hsound)
        have hr : (scheduleBatchLocked core node now b).reservation = b.reservation := schedule_reservation
        have hparts := hr
        simp only [Batch.reservation, Prod.mk.injEq] at hparts
        rw [hparts.1, hparts.2.1]
        exact ((accepts_fits haccepts).sublist activeOf_erase).of_reservation hr

theorem enqueue_added (h : s.enqueue core node now id index raw = .ok (.added b')) :
    ∃ b, s.batches.get id = some b ∧ b.active = true ∧ b'.reservation = b.reservation ∧ b'.Sound := by
  simp only [TransactionBucket.enqueue, ok_rules, not_le, not_or, not_not] at h
  obtain ⟨⟨tx, sender⟩, -, b, hget, -, -, -, ⟨hcompleted, hcanceled, hexpired, hfailed⟩, -, -, -, hindex, -, -, h⟩ := h
  have hactive : b.active = true := by
    cases hstate : b.state with
    | receiving => simp [Batch.active, hstate]
    | processing => simp [Batch.active, hstate]
    | completed => exact absurd hstate hcompleted
    | canceled => exact absurd hstate hcanceled
    | expired => exact absurd hstate hexpired
    | failed => exact absurd hstate hfailed
  split at h
  · simp only [ok_rules, reduceCtorEq, and_false, exists_false] at h
  · simp only [ok_rules, not_not, not_lt, Queued.added.injEq] at h
    obtain ⟨-, hnext, -, -, rfl⟩ := h
    refine ⟨b, hget, hactive, rfl, ⟨?_, ?_⟩⟩
    · dsimp only
      rw [length_append, length_singleton]
      rw [Batch.receivedCount] at hnext
      omega
    · intro hstate
      dsimp only at hstate
      split at hstate
      · cases hstate
      · exact absurd hstate hcompleted

theorem Inv.queue (h : Inv s) : Inv (s.queue core node now persisted id index raw).2 := by
  unfold TransactionBucket.queue
  cases hqueued : s.enqueue core node now id index raw with
  | error e => exact h
  | ok result =>
    cases result with
    | existing b entry => exact h
    | added batch =>
      obtain ⟨b, hget, hactive, hr, hsound⟩ := enqueue_added hqueued
      cases persisted with
      | error e =>
        simp only [hget]
        refine h.put (h.reserved.replace hget rfl fun _ => .inl hactive) ?_
        exact ⟨(h.get hget).length, (h.get hget).completed⟩
      | ok =>
        refine h.put ?_ (schedule_sound hsound)
        exact h.reserved.replace hget (schedule_reservation.trans hr) fun _ => .inl hactive

theorem Inv.cancel (h : Inv s) : Inv (s.cancel core now persisted id token).2 := by
  unfold TransactionBucket.cancel
  cases hget : s.batches.get id with
  | none => exact h
  | some b =>
    dsimp only
    split
    · exact h
    split
    · exact h
    · refine h.put (h.reserved.replace hget rfl nofun) (.of_closed (.inl rfl) ?_)
      exact (length_map _).trans_le (h.get hget).length

theorem Inv.runBatch (h : Inv s) (hmeets : s.resumes node id = true) :
    Inv (s.runBatch core node now deleted id) := by
  unfold TransactionBucket.runBatch
  cases hget : s.batches.get id with
  | none => exact h
  | some b =>
    dsimp only
    split
    · exact h.erase
    · exact h.schedule hget hmeets

/-! ## Runs -/

def meets (core : Core) (s : TransactionBucket) : Event → Bool
  | .status node _ id => s.resumes node id
  | .run now nodes deleted =>
    Run.all (fun s id => s.runBatch core (nodes id) now (deleted id) id) (fun s id => s.resumes (nodes id) id) s s.ids
  | _ => true

theorem Inv.step (h : Inv s) (hmeets : meets core s event = true) : Inv (step core s event) := by
  cases event with
  | begin => exact h.begin
  | queue => exact h.queue
  | status node now id =>
    rw [Eth.step, TransactionBucket.status]
    cases hget : s.batches.get id with
    | none => exact h
    | some b => exact h.schedule hget hmeets
  | cancel => exact h.cancel
  | run now nodes deleted => exact Run.invariant (fun _ _ hs hid => hs.runBatch hid) h hmeets

theorem reservations_exclusive (core : Core) (events : List Event)
    (h : Run.all (step core) (meets core) ⟨Table.empty⟩ events = true) (a : Address) :
    Exclusive ((events.foldl (step core) ⟨Table.empty⟩).activeOf a) := by
  have hempty : Inv ⟨Table.empty⟩ := ⟨fun _ => ⟨.nil, .inl (Nat.zero_le _)⟩, nofun⟩
  exact (Run.invariant (fun _ _ hs he => hs.step he) hempty h).reserved a

/-! Raw transactions of three bytes: a nonce, a number and whether it is a message. -/

def wallet : Address := 0x1234

def plainCore : Core where
  unmarshalBinary
    | [nonce, number, message] =>
      .ok ⟨1, pqTkmTxType, nonce.toUInt64, BitVec.ofNat 256 (256 * nonce.toNat + number.toNat), [message]⟩
    | _ => .error "rlp: expected input list for types.LegacyTx"
  decodeShieldedTransaction data := .ok (some [data])
  validateShieldedTransactionBasics _ _ := .ok ()
  sender _ _ := .ok wallet
  decodeEmailVMAction data := if data = [1] then some "message" else none
  bucketTokenHash token := token

/-- A node whose chain and pool hold the given transactions, the pool in addition to the chain. -/
def nodeAt (nonce pending : Nat) (canonical pool : List Hash) : Backend where
  chainId := some 1
  currentHeader := some ⟨1, 1⟩
  canonicalNonce _ := .ok nonce
  poolNonce _ := nonce + pending
  poolTransaction h := pool.contains h
  canonicalTransaction h := canonical.contains h
  submitTransaction _ := none
  submitted h := pool.contains h
  canonical_le_pool _ _ h := by
    cases h
    exact Nat.le_add_right _ _

def messageEvents : List Event :=
  [.begin (nodeAt 0 0 [] [1]) (1000 * second) "a" "t" (.ok ()) 1 [0, 1, 0],
    .status (nodeAt 1 0 [1] []) (1010 * second) "a",
    .begin (nodeAt 1 0 [1] [257]) (1020 * second) "b" "t" (.ok ()) 1 [1, 1, 1],
    .begin (nodeAt 1 1 [1] [257, 513]) (1030 * second) "c" "t" (.ok ()) 1 [2, 1, 1],
    .run (1040 * second) (fun _ => nodeAt 1 2 [1] [257, 513]) fun _ => true]

theorem reservations_exclusive_messages :
    Run.all (step plainCore) (meets plainCore) ⟨Table.empty⟩ messageEvents = true ∧
      ((messageEvents.foldl (step plainCore) ⟨Table.empty⟩).activeOf wallet).length = 2 ∧
      Exclusive ((messageEvents.foldl (step plainCore) ⟨Table.empty⟩).activeOf wallet) :=
  ⟨by decide +kernel, by decide +kernel, reservations_exclusive plainCore messageEvents (by decide +kernel) wallet⟩

/-- The first transaction is mined and dropped by a reorganisation, another one takes its
nonce, and the scheduler takes up the first batch again. -/
def reorgEvents : List Event :=
  [.begin (nodeAt 0 0 [] [1]) (1000 * second) "a" "t" (.ok ()) 1 [0, 1, 0],
    .status (nodeAt 1 0 [1] []) (1010 * second) "a",
    .begin (nodeAt 0 0 [] [2]) (1020 * second) "b" "t" (.ok ()) 1 [0, 2, 0],
    .run (1040 * second) (fun _ => nodeAt 0 1 [] [2]) fun _ => true]

theorem reorg_reserves_nonce_twice :
    ¬ ((reorgEvents.foldl (step plainCore) ⟨Table.empty⟩).activeOf wallet).Pairwise Batch.Apart ∧
      ((reorgEvents.foldl (step plainCore) ⟨Table.empty⟩).activeOf wallet).map Batch.reservation =
        [("a", wallet, 0, 1, false), ("b", wallet, 0, 1, false)] := by
  have hactive : ((reorgEvents.foldl (step plainCore) ⟨Table.empty⟩).activeOf wallet).map Batch.reservation =
      [("a", wallet, 0, 1, false), ("b", wallet, 0, 1, false)] := by decide +kernel
  refine ⟨fun hapart => ?_, hactive⟩
  generalize (reorgEvents.foldl (step plainCore) ⟨Table.empty⟩).activeOf wallet = active at hapart hactive
  obtain ⟨b, rest, rfl, hb, hrest⟩ := map_eq_cons_iff.mp hactive
  obtain ⟨c, _, rfl, hc, -⟩ := map_eq_cons_iff.mp hrest
  simp only [Batch.reservation, Prod.mk.injEq] at hb hc
  exact rel_of_pairwise_cons hapart mem_cons_self 0 ⟨⟨by omega, by omega⟩, by omega, by omega⟩

end TkmChain.Eth
