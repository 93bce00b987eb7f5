import TkmChain.KingsSound

/-!
# Runs of a node with rotating kings

What every step keeps: the stored locks belong to kings of the table, the table
to the schedule of the engine, and no lock starts before its king's activation in
the engine. On top of it, which addresses a step adds, and which of them have the
stake.
-/

namespace TkmChain

open List Function

variable {n' : KingNode} {r : KingNode × Bool}

/-! ## The schedule of the engine -/

namespace RewardEngine

variable {rx : RewardEngine} {a b : Address} {height : Nat}

theorem mem_addRotatingKingAt :
    b ∈ (rx.addRotatingKingAt a height).rotatingKings ↔ b ∈ rx.rotatingKings ∨ b = a ∧ a ≠ 0 := by
  unfold addRotatingKingAt
  by_cases hz : a = 0
  · simp [hz]
  · by_cases hm : a ∈ rx.rotatingKings
    · rw [if_neg hz, if_pos hm]
      have : b = a → b ∈ rx.rotatingKings := fun h => h ▸ hm
      split <;> simp only [hz, not_false_eq_true, ne_eq, and_true] <;> tauto
    · rw [if_neg hz, if_neg hm, mem_append, mem_singleton, and_iff_left hz]

theorem activation_addRotatingKingAt (hb : b ∈ rx.rotatingKings) :
    (rx.addRotatingKingAt a height).activation b ≤ rx.activation b := by
  unfold addRotatingKingAt
  by_cases hz : a = 0
  · rw [if_pos hz]
  · rw [if_neg hz]
    by_cases hm : a ∈ rx.rotatingKings
    · rw [if_pos hm]
      split
      · by_cases hba : b = a
        · subst hba
          simpa using le_of_lt ‹_›
        · simp [update_of_ne hba]
      · exact le_rfl
    · have hba : b ≠ a := fun h => hm (h ▸ hb)
      simp [hm, update_of_ne hba]

theorem activation_addRotatingKingAt_self (hz : a ≠ 0) : (rx.addRotatingKingAt a height).activation a ≤ height := by
  unfold addRotatingKingAt
  rw [if_neg hz]
  by_cases hm : a ∈ rx.rotatingKings
  · rw [if_pos hm]
    split
    · simp
    · exact Nat.le_of_not_lt ‹_›
  · simp [hm]

theorem addRotatingKingAt_known (hm : a ∈ rx.rotatingKings) (hle : rx.activation a ≤ height) :
    rx.addRotatingKingAt a height = rx := by
  unfold addRotatingKingAt
  rw [if_pos hm, if_neg (Nat.not_lt.mpr hle), ite_self]

end RewardEngine

/-! ## What every step keeps -/

namespace KingNode

structure Scheduled (n : KingNode) : Prop where
  scheduled : ∀ a ∈ n.table.kings, a ∈ n.engine.rotatingKings
  activated : ∀ a info, n.table.locks a = some info → n.engine.activation a ≤ info.activationHeight

structure Sound (n : KingNode) : Prop extends n.Scheduled where
  stored : ∀ p ∈ n.storedLocks, p.1 ∈ n.table.kings
  storedActivated : ∀ p ∈ n.storedLocks, n.engine.activation p.1 ≤ p.2.activationHeight

def SoundUnless (r : KingNode × Bool) : Prop := r.1.Scheduled ∧ (r.2 = false → r.1.Sound)

variable {env : KingEnv} {n : KingNode}

theorem Scheduled.persist (h : n.Scheduled) : n.persistRotatingKingLocks.Sound where
  scheduled := h.scheduled
  activated := h.activated
  stored p hp := by
    obtain ⟨a, ha, hlock⟩ := mem_filterMap.mp hp
    obtain ⟨info, -, rfl⟩ := Option.map_eq_some_iff.mp hlock
    exact ha
  storedActivated p hp := by
    obtain ⟨a, ha, hlock⟩ := mem_filterMap.mp hp
    obtain ⟨info, hinfo, rfl⟩ := Option.map_eq_some_iff.mp hlock
    exact h.activated a info hinfo

theorem Scheduled.retain (h : n.Scheduled) (keep : Address → Bool) :
    Scheduled { n with table := n.table.retain keep } where
  scheduled a ha := h.scheduled a (mem_of_mem_filter ha)
  activated a info ha := by
    simp only [KingTable.retain] at ha
    split at ha
    · exact h.activated a info ha
    · cases ha

theorem Scheduled.lock (h : n.Scheduled) (a : Address) (info : KingLock) :
    Scheduled { n with
      table := n.table.lock a info, engine := n.engine.addRotatingKingAt a info.activationHeight } where
  scheduled b hb := by
    rw [RewardEngine.mem_addRotatingKingAt]
    exact (KingTable.mem_add.mp hb).imp_left (h.scheduled b)
  activated b info' hb := by
    have hold : n.table.locks b = some info' →
        (n.engine.addRotatingKingAt a info.activationHeight).activation b ≤ info'.activationHeight := fun hb =>
      le_trans (RewardEngine.activation_addRotatingKingAt (h.scheduled b (n.table.listed b (by simp [hb]))))
        (h.activated b info' hb)
    simp only [KingTable.lock] at hb
    split at hb
    · exact hold hb
    · rename_i hz
      by_cases hba : b = a
      · subst hba
        rw [update_self] at hb
        cases hb
        exact RewardEngine.activation_addRotatingKingAt_self hz
      · rw [update_of_ne hba] at hb
        exact hold hb

theorem Scheduled.add (h : n.Scheduled) (a : Address) (height : Nat) :
    Scheduled { n with table := n.table.add a, engine := n.engine.addRotatingKingAt a height } where
  scheduled b hb := by
    rw [RewardEngine.mem_addRotatingKingAt]
    exact (KingTable.mem_add.mp hb).imp_left (h.scheduled b)
  activated b info hb := by
    have hlock : n.table.locks b = some info := hb
    exact le_trans (RewardEngine.activation_addRotatingKingAt (h.scheduled b (n.table.listed b (by simp [hlock]))))
      (h.activated b info hlock)

theorem Sound.mono (h : n.Sound) (hn : n'.Scheduled) (hstored : n'.storedLocks = n.storedLocks)
    (hkings : ∀ a ∈ n.table.kings, a ∈ n'.table.kings)
    (hact : ∀ a ∈ n.table.kings, n'.engine.activation a ≤ n.engine.activation a) : n'.Sound where
  toScheduled := hn
  stored p hp := hkings _ (h.stored p (hstored ▸ hp))
  storedActivated p hp := by
    rw [hstored] at hp
    exact le_trans (hact _ (h.stored p hp)) (h.storedActivated p hp)

theorem Sound.setLock (h : n.Sound) (a : Address) (info : KingLock) : (n.setRotatingKingLock a info).Sound := by
  have hlock := h.toScheduled.lock a info
  refine h.mono ⟨hlock.scheduled, hlock.activated⟩ rfl (fun b hb => KingTable.mem_add.mpr (.inl hb)) fun b hb => ?_
  exact RewardEngine.activation_addRotatingKingAt (h.scheduled b hb)

variable (env) in
theorem SoundUnless.recover (h : SoundUnless r) (extra : Bytes) (height : Nat) :
    SoundUnless ((r.1.recoverRotatingKingFromHeader env extra height).1,
      r.2 || (r.1.recoverRotatingKingFromHeader env extra height).2) := by
  obtain ⟨n, changed⟩ := r
  unfold recoverRotatingKingFromHeader
  cases decodeRotatingKingHeaderExtra extra with
  | none => simpa using h
  | some m =>
    by_cases hlive : m.liveAt height
    · simp only [if_pos hlive]
      refine ⟨?_, fun hsame => ?_⟩
      · split
        · exact h.1.lock m.address _
        · exact h.1.add m.address _
      · -- neither a new king nor a new lock
        simp only [Bool.or_eq_false_iff, decide_eq_false_iff_not, not_not] at hsame
        obtain ⟨hchanged, hmem, hreplaces⟩ := hsame
        rw [if_neg (by rw [hreplaces]; decide)]
        refine (h.2 hchanged).mono (h.1.add m.address _) rfl (fun b hb => KingTable.mem_add.mpr (.inl hb)) fun b hb => ?_
        exact RewardEngine.activation_addRotatingKingAt (h.1.scheduled b hb)
    · simpa only [if_neg hlive, Bool.or_false] using h

def prunedNode (height : Nat) (n : KingNode) : KingNode :=
  { n with table := n.table.retain fun a => !n.expired height a }

theorem pruneAndStore_eq (height : Nat) (r : KingNode × Bool) :
    KingNode.pruneAndStore height r = if r.2 = true ∨ ∃ a ∈ r.1.table.kings, r.1.expired height a = true then
      (prunedNode height r.1).writeRotatingKingAddresses.persistRotatingKingLocks else prunedNode height r.1 := by
  obtain ⟨n, changed⟩ := r
  have hiff : (changed || n.table.kings.any (n.expired height)) = true ↔
      changed = true ∨ ∃ a ∈ n.table.kings, n.expired height a = true := by
    rw [Bool.or_eq_true, any_eq_true]
  exact if_congr hiff rfl rfl

theorem SoundUnless.pruneAndStore (h : SoundUnless r) (height : Nat) : (pruneAndStore height r).Sound := by
  have hpruned : (prunedNode height r.1).Scheduled := h.1.retain _
  rw [pruneAndStore_eq]
  split
  · exact Scheduled.persist ⟨hpruned.scheduled, hpruned.activated⟩
  · rename_i hsame
    rw [not_or, Bool.not_eq_true] at hsame
    refine (h.2 hsame.1).mono hpruned rfl (fun a ha => ?_) fun a _ => le_rfl
    exact mem_filter.mpr ⟨ha, by simpa using fun hexp => hsame.2 ⟨a, ha, hexp⟩⟩

theorem Sound.pruneAndStore (h : r.1.Sound) (height : Nat) : (KingNode.pruneAndStore height r).Sound :=
  SoundUnless.pruneAndStore ⟨h.toScheduled, fun _ => h⟩ height

structure Unlocked (n : KingNode) : Prop where
  table : ∀ a, n.table.locks a = none
  stored : n.storedLocks = []

theorem Unlocked.persist (h : ∀ a, n.table.locks a = none) : n.persistRotatingKingLocks.Unlocked where
  table := h
  stored := by simp [persistRotatingKingLocks, h]

theorem retain_unlocked {t : KingTable} (h : ∀ a, t.locks a = none) (keep : Address → Bool) (a : Address) :
    (t.retain keep).locks a = none := by
  simp [KingTable.retain, h]

/-- Kings may leave the table, and nothing else that is scheduled changes. -/
structure Shrinks (n n' : KingNode) : Prop where
  table : ∀ a ∈ n'.table.kings, a ∈ n.table.kings
  engine : n'.engine = n.engine
  chain : n'.chain = n.chain
  sound : n.Sound → n'.Sound
  unlocked : n.Unlocked → n'.Unlocked

theorem Shrinks.rfl : Shrinks n n := ⟨fun _ h => h, Eq.refl _, Eq.refl _, id, id⟩

theorem Shrinks.trans (h : Shrinks n₁ n₂) (h' : Shrinks n₂ n₃) : Shrinks n₁ n₃ :=
  ⟨fun a ha => h.table a (h'.table a ha), h'.engine.trans h.engine, h'.chain.trans h.chain, h'.sound ∘ h.sound,
    h'.unlocked ∘ h.unlocked⟩

theorem shrinks_removeUnderfunded : Shrinks n (n.removeUnderfundedRotatingKings env).1 := by
  unfold removeUnderfundedRotatingKings
  split
  · exact .rfl
  · split
    · exact ⟨fun _ h => mem_of_mem_filter h, rfl, rfl, fun h => (h.toScheduled.retain _).persist,
        fun h => Unlocked.persist (retain_unlocked h.table _)⟩
    · exact .rfl

theorem shrinks_pruneAndStore (height : Nat) (r : KingNode × Bool) : Shrinks r.1 (pruneAndStore height r) := by
  have hpruned : r.1.Unlocked → ∀ a, (prunedNode height r.1).table.locks a = none := fun h => retain_unlocked h.table _
  have hsound := fun h : r.1.Sound => h.pruneAndStore height
  rw [pruneAndStore_eq] at hsound ⊢
  split
  · exact ⟨fun _ h => mem_of_mem_filter h, rfl, rfl, by rwa [if_pos ‹_›] at hsound, fun h => Unlocked.persist (hpruned h)⟩
  · exact ⟨fun _ h => mem_of_mem_filter h, rfl, rfl, by rwa [if_neg ‹_›] at hsound, fun h => ⟨hpruned h, h.stored⟩⟩

theorem shrinks_release : Shrinks n (n.releaseUnlockedRotatingKings env) := by
  unfold releaseUnlockedRotatingKings
  split
  · exact shrinks_removeUnderfunded
  · exact (shrinks_pruneAndStore n.headNumber (n, false)).trans shrinks_removeUnderfunded

theorem shrinks_check (b : Address) : Shrinks n (n.checkRegistration env b) := by
  unfold checkRegistration
  split
  · exact ⟨fun _ h => h, rfl, rfl, fun h => ⟨⟨h.scheduled, h.activated⟩, h.stored, h.storedActivated⟩,
      fun h => ⟨h.table, h.stored⟩⟩
  · exact .rfl

/-! ### Loading the store -/

theorem mem_foldl_add (l : List Address) (t : KingTable) (a : Address) :
    a ∈ (l.foldl KingTable.add t).kings ↔ a ∈ t.kings ∨ a ∈ l ∧ a ≠ 0 := by
  induction l generalizing t with
  | nil => simp
  | cons b l ih =>
    rw [foldl_cons, ih, KingTable.mem_add, mem_cons]
    constructor
    · rintro ((h | ⟨rfl, h⟩) | h)
      · exact .inl h
      · exact .inr ⟨.inl rfl, h⟩
      · exact .inr ⟨.inr h.1, h.2⟩
    · rintro (h | ⟨rfl | h, hz⟩)
      · exact .inl (.inl h)
      · exact .inl (.inr ⟨rfl, hz⟩)
      · exact .inr ⟨h, hz⟩

theorem foldl_add_locks (l : List Address) (t : KingTable) : (l.foldl KingTable.add t).locks = t.locks := by
  induction l generalizing t with
  | nil => rfl
  | cons b l ih => exact ih _

section
variable (preferred : List Address) (locks : List (Address × KingLock)) (a : Address)

theorem mem_registered :
    a ∈ (registeredRotatingKings preferred locks).kings ↔ a ≠ 0 ∧ ∃ p ∈ locks, p.1 = a := by
  simp only [registeredRotatingKings, mem_foldl_add, KingTable.empty, not_mem_nil, false_or, mem_append,
    mem_filter, mem_map, decide_eq_true_eq]
  tauto

theorem registered_locks :
    (registeredRotatingKings preferred locks).locks a = none := by
  rw [registeredRotatingKings, foldl_add_locks]
  rfl

end

theorem Sound.loadLocks (h : n.Sound) : (n.loadRotatingKingLocks env).Sound := by
  unfold loadRotatingKingLocks
  generalize n.storedLocks = l
  induction l generalizing n with
  | nil => exact h
  | cons p l ih => exact ih (h.setLock _ _)

theorem Sound.register (h : n.Sound) :
    Sound { n with table := registeredRotatingKings n.storedAddresses n.storedLocks } where
  scheduled a ha := by
    obtain ⟨-, p, hp, rfl⟩ := (mem_registered _ _ a).mp ha
    exact h.scheduled _ (h.stored p hp)
  activated a info ha := by
    rw [registered_locks] at ha
    cases ha
  stored p hp := (mem_registered _ _ _).mpr ⟨fun hz => n.table.nonzero (hz ▸ h.stored p hp), p, hp, rfl⟩
  storedActivated := h.storedActivated

variable (env) in
theorem shrinks_loadLocks (hn : n.Sound) : Shrinks n (n.loadRotatingKingLocks env) := by
  have hknown : ∀ p ∈ n.storedLocks, p.1 ∈ n.table.kings ∧ p.1 ∈ n.engine.rotatingKings ∧
      n.engine.activation p.1 ≤ p.2.activationHeight := fun p hp =>
    ⟨hn.stored p hp, hn.scheduled _ (hn.stored p hp), hn.storedActivated p hp⟩
  have hsame : (∀ a ∈ (n.loadRotatingKingLocks env).table.kings, a ∈ n.table.kings) ∧
      (n.loadRotatingKingLocks env).engine = n.engine ∧ (n.loadRotatingKingLocks env).chain = n.chain := by
    unfold loadRotatingKingLocks
    generalize n.storedLocks = l at hknown
    clear hn
    induction l generalizing n with
    | nil => exact ⟨fun _ h => h, rfl, rfl⟩
    | cons p l ih =>
      obtain ⟨htable, hscheduled, hact⟩ := hknown p (by simp)
      obtain ⟨b, info⟩ := p
      simp only [foldl_cons]
      generalize hlocked : n.setRotatingKingLock b _ = n'
      have hkings : n'.table.kings = n.table.kings := by
        rw [← hlocked]
        exact if_pos (.inr htable)
      have hengine : n'.engine = n.engine := by
        rw [← hlocked]
        exact RewardEngine.addRotatingKingAt_known hscheduled hact
      have hchain : n'.chain = n.chain := by rw [← hlocked]; rfl
      rw [← hkings, ← hengine] at hknown
      rw [← hkings, ← hengine, ← hchain]
      exact ih fun q hq => hknown q (mem_cons_of_mem _ hq)
  refine ⟨hsame.1, hsame.2.1, hsame.2.2, Sound.loadLocks, fun h => ?_⟩
  unfold loadRotatingKingLocks
  simpa only [h.stored, foldl_nil] using h

theorem shrinks_load (hn : n.Sound) : Shrinks n (n.loadRotatingKingState env) := by
  unfold loadRotatingKingState
  split
  · exact .rfl
  · have hregister : Shrinks n { n with table := registeredRotatingKings n.storedAddresses n.storedLocks } := by
      refine ⟨fun b hb => ?_, rfl, rfl, Sound.register, fun h => ⟨registered_locks _ _, h.stored⟩⟩
      obtain ⟨-, p, hp, rfl⟩ := (mem_registered _ _ b).mp hb
      exact hn.stored p hp
    exact hregister.trans (shrinks_loadLocks env hn.register)

theorem Sound.load (h : n.Sound) : (n.loadRotatingKingState env).Sound := (shrinks_load h).sound h

def recoverHeaders (env : KingEnv) (height : Nat) (chain : List KingBlock) (r : KingNode × Bool) : KingNode × Bool :=
  chain.foldl (fun (n', changed) b =>
    let (next, c) := n'.recoverRotatingKingFromHeader env b.extra height
    (next, changed || c)) r

theorem recoverHeaders_cons (height : Nat) (b : KingBlock) (chain : List KingBlock) (r : KingNode × Bool) :
    recoverHeaders env height (b :: chain) r =
      recoverHeaders env height chain ((r.1.recoverRotatingKingFromHeader env b.extra height).1,
        r.2 || (r.1.recoverRotatingKingFromHeader env b.extra height).2) := rfl

theorem SoundUnless.recoverAll (h : SoundUnless r) (chain : List KingBlock) (height : Nat) :
    SoundUnless (recoverHeaders env height chain r) := by
  induction chain generalizing r with
  | nil => exact h
  | cons b chain ih => exact ih (h.recover env b.extra height)

theorem Sound.recoverState (h : n.Sound) : (n.recoverRotatingKingStateFromHeaders env).Sound := by
  unfold recoverRotatingKingStateFromHeaders
  split
  · exact h
  · have hsame : SoundUnless (n, false) := ⟨h.toScheduled, fun _ => h⟩
    exact (hsame.recoverAll n.chain n.headNumber).pruneAndStore _

def freshNode (env : KingEnv) (addresses : List Address) (locks : List (Address × KingLock)) (chain : List KingBlock) :
    KingNode where
  table := registeredRotatingKings addresses locks
  engine := { env.engine with
    rotatingKings := (registeredRotatingKings addresses locks).kings.filter (· ≠ 0)
    activation := fun _ => 0
    rotationInterval := env.interval }
  storedAddresses := (registeredRotatingKings addresses locks).kings
  storedLocks := locks
  chain := chain
  checked := []

section
variable (env) (addresses : List Address) {locks : List (Address × KingLock)} (hz : ∀ p ∈ locks, p.1 ≠ 0)
  (chain : List KingBlock)

theorem startKingNode_eq : startKingNode env addresses locks chain =
    ((freshNode env addresses locks chain).loadRotatingKingLocks env).recoverRotatingKingStateFromHeaders env := rfl

include hz in
theorem sound_fresh : (freshNode env addresses locks chain).Sound where
  scheduled a ha := mem_filter.mpr ⟨ha, by simpa using ((mem_registered _ _ a).mp ha).1⟩
  activated a info ha := by
    rw [freshNode, registered_locks] at ha
    cases ha
  stored p hp := (mem_registered _ _ _).mpr ⟨hz p hp, p, hp, rfl⟩
  storedActivated p _ := Nat.zero_le _

include hz in
theorem sound_start : (startKingNode env addresses locks chain).Sound :=
  (sound_fresh env addresses hz chain).loadLocks.recoverState

end

theorem Sound.storedNonzero (h : n.Sound) : ∀ p ∈ n.storedLocks, p.1 ≠ 0 := fun p hp hz =>
  n.table.nonzero (hz ▸ h.stored p hp)

theorem Sound.record (h : n.Sound) (a : Address) (unlock unlockHeight : Nat) :
    (n.recordRotatingKing env a unlock unlockHeight).Sound := by
  unfold recordRotatingKing
  by_cases hz : a = 0
  · rwa [if_pos hz]
  · rw [if_neg hz]
    cases n.table.locks a with
    | none => exact (h.setLock _ _).toScheduled.persist
    | some current =>
      exact iteInduction (motive := Sound) (fun _ => h) fun _ => (h.setLock _ _).toScheduled.persist

theorem Sound.finish (h : n.Sound) (a : Address) (unlock now : Nat) :
    (n.finishRegistration env a unlock now).Sound := by
  have h' : Sound { n with checked := n.checked.erase a } :=
    ⟨⟨h.scheduled, h.activated⟩, h.stored, h.storedActivated⟩
  simp only [finishRegistration]
  split
  · exact h'
  · exact h'.record _ _ _

theorem Sound.step (h : n.Sound) (e : KingEvent) : (n.step env e).Sound := by
  cases e with
  | head chain =>
    have h' : Sound { n with chain := chain } := ⟨⟨h.scheduled, h.activated⟩, h.stored, h.storedActivated⟩
    simp only [KingNode.step]
    cases chain.getLast? with
    | none => exact h'
    | some b =>
      have hsame : SoundUnless ({ n with chain := chain }, false) := ⟨h'.toScheduled, fun _ => h'⟩
      have hrecovered := hsame.recover env b.extra (chain.length - 1)
      rw [Bool.false_or] at hrecovered
      exact hrecovered.pruneAndStore _
  | rpcCheck a => exact (shrinks_removeUnderfunded.trans (shrinks_check a)).sound h.load
  | rpcRecord a start now =>
    simp only [KingNode.step]
    split
    · exact h.load.finish a _ _
    · exact h
  | peerCheck a => exact (shrinks_removeUnderfunded.trans (shrinks_check a)).sound h
  | peerRecord a announced start now =>
    simp only [KingNode.step]
    split
    · exact h.finish a _ _
    · exact h
  | query => exact shrinks_release.sound h.load
  | restart => exact sound_start env _ h.storedNonzero _

end KingNode

/-! ## Whom a step adds -/

namespace KingNode

variable {env : KingEnv} {n : KingNode} {a : Address}

def Adds (n n' : KingNode) (a : Address) : Prop :=
  a ∈ n'.table.kings ∧ a ∉ n.table.kings ∨ a ∈ n'.engine.rotatingKings ∧ a ∉ n.engine.rotatingKings

def Marks (extra : Bytes) (height : Nat) (a : Address) : Prop :=
  ∃ m, decodeRotatingKingHeaderExtra extra = some m ∧ m.liveAt height ∧ m.address = a

def Brings (n : KingNode) (a : Address) : KingEvent → Prop
  | .head chain => ∃ b ∈ chain.getLast?, Marks b.extra (chain.length - 1) a
  | .rpcRecord b _ _ | .peerRecord b _ _ _ => a = b ∧ a ≠ 0 ∧ a ∈ n.checked
  | .restart => ∃ b ∈ n.chain, Marks b.extra n.headNumber a
  | _ => False

/-- The addresses with `P` become kings of the table and of the engine. -/
structure Extends (n n' : KingNode) (P : Address → Prop) : Prop where
  table : ∀ a, a ∈ n'.table.kings ↔ a ∈ n.table.kings ∨ P a
  engine : ∀ a, a ∈ n'.engine.rotatingKings ↔ a ∈ n.engine.rotatingKings ∨ P a
  chain : n'.chain = n.chain

/-! ### Registrations -/

variable (env) in
theorem extends_finish (hn : n.Scheduled) (b : Address) (unlock now : Nat) :
    Extends n (n.finishRegistration env b unlock now) fun a => a = b ∧ b ≠ 0 := by
  simp only [finishRegistration]
  by_cases hb : b ∈ n.table.kings
  · rw [if_pos hb]
    exact ⟨fun a => ⟨.inl, fun h => h.elim id fun h => h.1 ▸ hb⟩,
      fun a => ⟨.inl, fun h => h.elim id fun h => h.1 ▸ hn.scheduled b hb⟩, rfl⟩
  · rw [if_neg hb]
    unfold recordRotatingKing
    by_cases hz : b = 0
    · rw [if_pos hz]
      exact ⟨by simp [hz], by simp [hz], rfl⟩
    · rw [if_neg hz]
      have hnone : n.table.locks b = none := by
        by_contra hlock
        exact hb (n.table.listed b hlock)
      simp only [hnone]
      exact ⟨fun _ => KingTable.mem_add, fun _ => RewardEngine.mem_addRotatingKingAt, rfl⟩

/-! ### Headers -/

section
variable (extra : Bytes) (height : Nat)

variable (env) in
theorem extends_recover : Extends n (n.recoverRotatingKingFromHeader env extra height).1 (Marks extra height) := by
  unfold recoverRotatingKingFromHeader Marks
  cases decodeRotatingKingHeaderExtra extra with
  | none => exact ⟨by simp, by simp, rfl⟩
  | some m =>
    by_cases hlive : m.liveAt height
    · simp only [if_pos hlive]
      have hmarks : ∀ a, (∃ m', some m = some m' ∧ m'.liveAt height ∧ m'.address = a) ↔
          a = m.address ∧ m.address ≠ 0 := by
        intro a
        constructor
        · rintro ⟨_, h, -, rfl⟩
          cases h
          exact ⟨rfl, hlive.1⟩
        · rintro ⟨rfl, -⟩
          exact ⟨m, rfl, hlive, rfl⟩
      simp only [hmarks]
      refine ⟨fun a => ?_, fun _ => RewardEngine.mem_addRotatingKingAt, rfl⟩
      split
      all_goals exact KingTable.mem_add
    · exact ⟨by simp [hlive], by simp [hlive], by simp [hlive]⟩

theorem expired_recover (h : (n.recoverRotatingKingFromHeader env extra height).1.expired height a = true) :
    n.expired height a = true := by
  unfold recoverRotatingKingFromHeader at h
  cases hdec : decodeRotatingKingHeaderExtra extra with
  | none => simpa [hdec] using h
  | some m =>
    simp only [hdec] at h
    by_cases hlive : m.liveAt height
    · rw [if_pos hlive] at h
      simp only [expired] at h ⊢
      split at h
      · rename_i hreplaces
        simp only [KingTable.lock, if_neg hlive.1] at h
        by_cases ha : a = m.address
        · subst ha
          rw [update_self, Option.any_some, decide_eq_true_eq] at h
          rw [Bool.and_eq_true] at hreplaces
          exact absurd ⟨hreplaces.1, h⟩ hlive.2
        · rwa [update_of_ne ha] at h
      · exact h
    · rwa [if_neg hlive] at h

variable (env) in
theorem extends_recoverHeaders (chain : List KingBlock) (r : KingNode × Bool) :
    Extends r.1 (recoverHeaders env height chain r).1 fun a => ∃ b ∈ chain, Marks b.extra height a := by
  induction chain generalizing r with
  | nil => exact ⟨by simp [recoverHeaders], by simp [recoverHeaders], rfl⟩
  | cons b chain ih =>
    have hfirst := extends_recover env (n := r.1) b.extra height
    simp only [recoverHeaders_cons, exists_mem_cons_iff]
    exact ⟨fun a => by rw [(ih _).table, hfirst.table, or_assoc], fun a => by rw [(ih _).engine, hfirst.engine, or_assoc],
      (ih _).chain.trans hfirst.chain⟩

theorem expired_recoverHeaders (chain : List KingBlock) (r : KingNode × Bool)
    (h : (recoverHeaders env height chain r).1.expired height a = true) : r.1.expired height a = true := by
  induction chain generalizing r with
  | nil => exact h
  | cons b chain ih =>
    rw [recoverHeaders_cons] at h
    have hb := ih _ h
    exact expired_recover b.extra height hb

theorem expired_mem (h : n.expired height a = true) : a ∈ n.table.kings := by
  refine n.table.listed a fun hnone => ?_
  rw [expired, hnone] at h
  cases h

theorem mem_pruneAndStore (r : KingNode × Bool) (hr : r.1.expired height a ≠ true) (ha : a ∈ r.1.table.kings) :
    a ∈ (pruneAndStore height r).table.kings := by
  have hkept : a ∈ (prunedNode height r.1).table.kings := mem_filter.mpr ⟨ha, by simpa using hr⟩
  rw [pruneAndStore_eq]
  split
  all_goals exact hkept

end

/-! ### One step -/

theorem adds_iff (hn : n.Scheduled) (htable : a ∈ n'.table.kings → a ∈ n.table.kings ∨ P)
    (hengine : a ∈ n'.engine.rotatingKings → a ∈ n.engine.rotatingKings ∨ P)
    (hP : P → a ∉ n.table.kings → a ∈ n'.table.kings) : Adds n n' a ↔ P ∧ a ∉ n.table.kings := by
  constructor
  · rintro (⟨ha, hnew⟩ | ⟨ha, hnew⟩)
    · exact ⟨(htable ha).resolve_left hnew, hnew⟩
    · exact ⟨(hengine ha).resolve_left hnew, fun h => hnew (hn.scheduled a h)⟩
  · rintro ⟨h, hnew⟩
    exact .inl ⟨hP h hnew, hnew⟩

theorem Shrinks.adds (h : Shrinks n n') (hn : n.Scheduled) : Adds n n' a ↔ False ∧ a ∉ n.table.kings :=
  adds_iff hn (fun ha => .inl (h.table a ha)) (fun ha => .inl (h.engine ▸ ha)) False.elim

theorem adds_finish (h : Shrinks n n') (hn : n.Scheduled) (hn' : n'.Scheduled) (b : Address) (unlock now : Nat) :
    Adds n (n'.finishRegistration env b unlock now) a ↔ (a = b ∧ b ≠ 0) ∧ a ∉ n.table.kings := by
  have hmem := extends_finish env hn' b unlock now
  exact adds_iff hn (fun ha => ((hmem.table a).mp ha).imp_left (h.table a))
    (fun ha => ((hmem.engine a).mp ha).imp_left fun ha => h.engine ▸ ha) fun hP _ => (hmem.table a).mpr (.inr hP)

theorem adds_record (h : Shrinks n n') (hn : n.Sound) (b : Address) (unlock now : Nat) :
    Adds n (if b ∈ n.checked then n'.finishRegistration env b unlock now else n) a ↔
      (a = b ∧ a ≠ 0 ∧ a ∈ n.checked) ∧ a ∉ n.table.kings := by
  by_cases hb : b ∈ n.checked
  · rw [if_pos hb, adds_finish h hn.toScheduled (h.sound hn).toScheduled]
    exact and_congr_left fun _ => ⟨fun h => ⟨h.1, h.1 ▸ h.2, h.1 ▸ hb⟩, fun h => ⟨h.1, h.1 ▸ h.2.1⟩⟩
  · rw [if_neg hb]
    exact adds_iff hn.toScheduled .inl .inl fun h => absurd (h.1 ▸ h.2.2) hb

theorem adds_pruneAndStore (hn : n.Scheduled)
    (htable : a ∈ r.1.table.kings → a ∈ n.table.kings ∨ P)
    (hengine : a ∈ r.1.engine.rotatingKings → a ∈ n.engine.rotatingKings ∨ P)
    (hP : P → a ∈ r.1.table.kings) (hexp : r.1.expired height a = true → a ∈ n.table.kings) :
    Adds n (pruneAndStore height r) a ↔ P ∧ a ∉ n.table.kings := by
  have hshrinks := shrinks_pruneAndStore height r
  refine adds_iff hn (fun ha => htable (hshrinks.table a ha)) (fun ha => hengine (hshrinks.engine ▸ ha)) ?_
  intro h hnew
  exact mem_pruneAndStore height r (fun h => hnew (hexp h)) (hP h)

theorem adds_head (hn : n.Scheduled) (chain : List KingBlock) (extra : Bytes) (height : Nat) :
    Adds n (recoverRotatingKingFromCanonicalHeader env { n with chain := chain } extra height) a ↔
      Marks extra height a ∧ a ∉ n.table.kings := by
  have hmem := extends_recover env (n := { n with chain := chain }) extra height
  refine adds_pruneAndStore hn (hmem.table a).mp (hmem.engine a).mp (fun h => (hmem.table a).mpr (.inr h)) fun hexp => ?_
  exact expired_mem (n := { n with chain := chain }) height (expired_recover extra height hexp)

theorem adds_recoverState (hn : n.Scheduled) (hkings : ∀ a ∈ n'.table.kings, a ∈ n.table.kings)
    (hengine : ∀ a ∈ n'.engine.rotatingKings, a ∈ n.engine.rotatingKings) :
    Adds n (n'.recoverRotatingKingStateFromHeaders env) a ↔
      (∃ b ∈ n'.chain, Marks b.extra n'.headNumber a) ∧ a ∉ n.table.kings := by
  unfold recoverRotatingKingStateFromHeaders
  by_cases hne : n'.chain = []
  · rw [if_pos hne]
    refine adds_iff hn (fun ha => .inl (hkings a ha)) (fun ha => .inl (hengine a ha)) ?_
    rintro ⟨b, hb, -⟩
    rw [hne] at hb
    cases hb
  · rw [if_neg hne]
    have hmem := extends_recoverHeaders env n'.headNumber n'.chain (n', false)
    refine adds_pruneAndStore hn (fun ha => ((hmem.table a).mp ha).imp_left (hkings a))
      (fun ha => ((hmem.engine a).mp ha).imp_left (hengine a)) (fun h => (hmem.table a).mpr (.inr h)) fun hexp => ?_
    exact hkings a (expired_mem _ (expired_recoverHeaders _ _ _ hexp))

theorem adds_restart (hn : n.Sound) :
    Adds n (startKingNode env n.storedAddresses n.storedLocks n.chain) a ↔
      (∃ b ∈ n.chain, Marks b.extra n.headNumber a) ∧ a ∉ n.table.kings := by
  have hregistered : ∀ b ∈ (registeredRotatingKings n.storedAddresses n.storedLocks).kings, b ∈ n.table.kings := by
    intro b hb
    obtain ⟨-, p, hp, rfl⟩ := (mem_registered _ _ b).mp hb
    exact hn.stored p hp
  have hload := shrinks_loadLocks env (sound_fresh env n.storedAddresses hn.storedNonzero n.chain)
  rw [startKingNode_eq, adds_recoverState hn.toScheduled, headNumber, hload.chain]
  · rfl
  · exact fun b hb => hregistered b (hload.table b hb)
  · intro b hb
    rw [hload.engine] at hb
    exact hn.scheduled b (hregistered b (mem_of_mem_filter hb))

theorem step_adds (hn : n.Sound) (e : KingEvent) :
    Adds n (n.step env e) a ↔ n.Brings a e ∧ a ∉ n.table.kings := by
  cases e with
  | head chain =>
    simp only [KingNode.step, Brings]
    cases hlast : chain.getLast? with
    | none => exact adds_iff hn.toScheduled .inl .inl (by simp)
    | some b =>
      simp only [Option.mem_def, Option.some.injEq, exists_eq_left']
      exact adds_head hn.toScheduled chain b.extra _
  | rpcCheck b =>
    exact ((shrinks_load hn).trans (shrinks_removeUnderfunded.trans (shrinks_check b))).adds hn.toScheduled
  | rpcRecord b start now => exact adds_record (shrinks_load hn) hn b _ _
  | peerCheck b => exact (shrinks_removeUnderfunded.trans (shrinks_check b)).adds hn.toScheduled
  | peerRecord b announced start now => exact adds_record .rfl hn b _ _
  | query => exact ((shrinks_load hn).trans shrinks_release).adds hn.toScheduled
  | restart => exact adds_restart hn

/-! ## The stake -/

def chainAfter (n : KingNode) : KingEvent → List KingBlock
  | .head chain => chain
  | _ => n.chain

variable (env) in
theorem step_chain (hn : n.Sound) (e : KingEvent) : (n.step env e).chain = n.chainAfter e := by
  cases e with
  | head chain =>
    simp only [KingNode.step, chainAfter]
    cases chain.getLast? with
    | none => rfl
    | some b => exact (shrinks_pruneAndStore _ _).chain.trans (extends_recover env _ _).chain
  | rpcCheck b => exact ((shrinks_load hn).trans (shrinks_removeUnderfunded.trans (shrinks_check b))).chain
  | rpcRecord b start now =>
    simp only [KingNode.step]
    split
    · exact (extends_finish env hn.load.toScheduled b _ _).chain.trans (shrinks_load hn).chain
    · rfl
  | peerCheck b => exact (shrinks_removeUnderfunded.trans (shrinks_check b)).chain
  | peerRecord b announced start now =>
    simp only [KingNode.step]
    split
    · exact (extends_finish env hn.toScheduled b _ _).chain
    · rfl
  | query => exact ((shrinks_load hn).trans shrinks_release).chain
  | restart =>
    have hload := shrinks_loadLocks env (sound_fresh env n.storedAddresses hn.storedNonzero n.chain)
    simp only [KingNode.step, startKingNode_eq, recoverRotatingKingStateFromHeaders]
    split
    · exact hload.chain
    · exact (shrinks_pruneAndStore _ _).chain.trans ((extends_recoverHeaders env _ _ _).chain.trans hload.chain)

def Staked (env : KingEnv) (n : KingNode) (a : Address) : Prop :=
  n.rotatingKingRequiredStake env + rkRegistrationFee ≤ n.headBalance a

theorem staked_congr (h : n'.chain = n.chain) : n'.Staked env a ↔ n.Staked env a := by
  unfold Staked rotatingKingRequiredStake headBalance headNumber
  rw [h]

/-- Whoever an event brings and is not a king yet has the stake: in the state of the new head for a
marker, and still at the time of the record for a registration. -/
def Covered (env : KingEnv) (n : KingNode) (e : KingEvent) : Prop :=
  ∀ a, n.Brings a e → a ∉ n.table.kings → Staked env { n with chain := n.chainAfter e } a

theorem step_staked_iff (hn : n.Sound) (e : KingEvent) :
    (∀ a, Adds n (n.step env e) a → (n.step env e).Staked env a) ↔ n.Covered env e := by
  refine forall_congr' fun a => ?_
  rw [step_adds hn, staked_congr (n := { n with chain := n.chainAfter e }) (step_chain env hn e), and_imp]

def blank (env : KingEnv) (genesis : KingBlock) : KingNode where
  table := .empty
  engine := { env.engine with rotatingKings := [] }
  storedAddresses := []
  storedLocks := []
  chain := [genesis]
  checked := []

theorem sound_blank (genesis : KingBlock) : (blank env genesis).Sound where
  scheduled a ha := absurd ha (by simp [blank, KingTable.empty])
  activated a info ha := absurd ha (by simp [blank, KingTable.empty])
  stored p hp := absurd hp (by simp [blank])
  storedActivated p hp := absurd hp (by simp [blank])

def after (env : KingEnv) (genesis : KingBlock) (events : List KingEvent) : KingNode :=
  events.foldl (step env) (blank env genesis)

theorem sound_after (genesis : KingBlock) (events : List KingEvent) : (after env genesis events).Sound := by
  induction events using List.reverseRecOn with
  | nil => exact sound_blank genesis
  | append_singleton events e ih =>
    rw [after, foldl_concat]
    exact ih.step e

/-- Over a run, exactly the covered steps add staked addresses only. -/
theorem added_kings_staked_iff (env : KingEnv) (genesis : KingBlock) (events : List KingEvent) :
    (∀ before e rest, KingEvent.restart :: events = before ++ e :: rest →
      ∀ a, Adds (after env genesis before) (after env genesis (before ++ [e])) a →
        (after env genesis (before ++ [e])).Staked env a) ↔
    ∀ before e rest, KingEvent.restart :: events = before ++ e :: rest →
      (after env genesis before).Covered env e := by
  refine forall_congr' fun before => forall_congr' fun e => forall_congr' fun rest => imp_congr_right fun _ => ?_
  have hstep : after env genesis (before ++ [e]) = (after env genesis before).step env e := foldl_concat ..
  rw [hstep]
  exact step_staked_iff (sound_after genesis before) e

end KingNode

def rotationEnv : KingEnv where
  cfg := { chainID := some 1 }
  interval := 100
  interval_pos := by decide
  registrationHash _ _ _ _ _ := 1
  engine := { mainKing := 5 }

def idleBlock (extra : Bytes) : KingBlock := { extra := extra, time := 0, balance := fun _ => 0 }

def compactMarker (a : Address) (activation unlock : Nat) : Bytes :=
  rkHeaderExtraMagic ++ [3] ++ Bytes.be 20 a.toNat ++ Bytes.be 3 1 ++ Bytes.be 3 activation ++
    Bytes.be 3 unlock

/-- The header of a miner makes an address without a balance a king. -/
theorem unstaked_marker_adds :
    KingNode.Adds (KingNode.run rotationEnv (idleBlock []) [])
      (KingNode.run rotationEnv (idleBlock []) [.head [idleBlock [], idleBlock (compactMarker 7 100 200)]]) 7 ∧
    ¬ KingNode.Staked rotationEnv
      (KingNode.run rotationEnv (idleBlock []) [.head [idleBlock [], idleBlock (compactMarker 7 100 200)]]) 7 := by
  unfold KingNode.Adds KingNode.Staked
  decide +kernel

end TkmChain
