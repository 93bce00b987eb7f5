import TkmChain.KingRunsSound

/-!
# The schedules of the manager and of the engine

Both keep the least height that a king was registered at, but the manager never
lowers one to zero. Their kings agree exactly as long as the engine crowns nobody
whom the manager still awaits.
-/

namespace TkmChain

open List Function

variable {regs : List (Address × Nat)} {m : RotatingKingManager} {rx : RewardEngine} {a b : Address}
  {height interval : Nat}

def startManager (interval : Nat) (regs : List (Address × Nat)) : RotatingKingManager :=
  regs.foldl (fun m r => m.addKingAddressAt r.1 r.2) { rotationInterval := interval }

def startEngine (rx : RewardEngine) (interval : Nat) (regs : List (Address × Nat)) : RewardEngine :=
  regs.foldl (fun rx r => rx.addRotatingKingAt r.1 r.2) { rx with rotatingKings := [], rotationInterval := interval }

def heightsOf (a : Address) (regs : List (Address × Nat)) : List Nat := (regs.filter (·.1 = a)).map Prod.snd

/-- First registered above zero, then at zero, and up to `height` at no other height. -/
def Awaited (regs : List (Address × Nat)) (a : Address) (height : Nat) : Prop :=
  a ≠ 0 ∧ 0 ∈ heightsOf a regs ∧ (heightsOf a regs).head? ≠ some 0 ∧ ∀ h ∈ heightsOf a regs, h = 0 ∨ height < h

/-! ## One address -/

/-- A first height, or the least of those that may lower it. -/
def lower (may : Nat → Bool) (entry : Option Nat) (h : Nat) : Option Nat :=
  some (entry.elim h fun c => if may h then min h c else c)

theorem foldl_lower (may : Nat → Bool) (t : List Nat) (c : Nat) :
    ∃ v, t.foldl (lower may) (some c) = some v ∧ ∀ n, v ≤ n ↔ c ≤ n ∨ ∃ h ∈ t, may h = true ∧ h ≤ n := by
  induction t generalizing c with
  | nil => exact ⟨c, rfl, by simp⟩
  | cons h t ih =>
    obtain ⟨v, hv, hle⟩ := ih (if may h then min h c else c)
    refine ⟨v, hv, fun n => ?_⟩
    rw [hle, exists_mem_cons_iff, ← or_assoc]
    refine or_congr_left ?_
    cases may h with
    | true => simp [or_comm]
    | false => simp

theorem foldl_heightsOf (entry : σ → Option Nat) {step : σ → Address × Nat → σ} {P : σ → Prop} {may : Nat → Bool}
    (hP : ∀ s r, P s → P (step s r))
    (hstep : ∀ s r, P s → entry (step s r) = if r.1 = b then lower may (entry s) r.2 else entry s) (hs : P s) :
    entry (regs.foldl step s) = (heightsOf b regs).foldl (lower may) (entry s) := by
  induction regs generalizing s with
  | nil => rfl
  | cons r regs ih =>
    rw [foldl_cons, ih (hP s r hs), hstep s r hs]
    by_cases hr : r.1 = b
    · simp [heightsOf, hr]
    · simp [heightsOf, hr]

def RewardEngine.entry (rx : RewardEngine) (a : Address) : Option Nat :=
  if a ∈ rx.rotatingKings then some (rx.activation a) else none

def RotatingKingManager.entry (m : RotatingKingManager) (a : Address) : Option Nat :=
  if a ∈ m.kingAddresses then some ((m.activationHeights a).getD 0) else none

theorem RewardEngine.entry_add (hb : b ≠ 0) (a : Address) (h : Nat) : (rx.addRotatingKingAt a h).entry b =
    if a = b then lower (fun _ => true) (rx.entry b) h else rx.entry b := by
  unfold addRotatingKingAt entry
  by_cases hab : a = b
  · subst hab
    rw [if_neg hb, if_pos rfl]
    by_cases hm : a ∈ rx.rotatingKings
    · rw [if_pos hm]
      split
      · simp [lower]
        omega
      · simp [lower]
        omega
    · simp [hm, lower]
  · have hba := Ne.symm hab
    rw [if_neg hab]
    split
    · rfl
    · split
      · split
        · simp [update_of_ne hba]
        · rfl
      · simp [hba]

namespace RotatingKingManager

def Fresh (m : RotatingKingManager) : Prop := ∀ a ∉ m.kingAddresses, m.activationHeights a = none

theorem Fresh.add (hm : m.Fresh) (a : Address) (h : Nat) : (m.addKingAddressAt a h).Fresh := by
  unfold addKingAddressAt
  split
  · exact hm
  · split
    · rename_i hk
      split
      · exact fun b hb => (update_of_ne (fun hba : b = a => hb (hba ▸ hk)) _ _).trans (hm b hb)
      · exact hm
    · intro b hb
      simp only [mem_append, mem_singleton, not_or] at hb
      split
      · exact (update_of_ne hb.2 _ _).trans (hm b hb.1)
      · exact hm b hb.1

theorem entry_add (hm : m.Fresh) (hb : b ≠ 0) (a : Address) (h : Nat) : (m.addKingAddressAt a h).entry b =
    if a = b then lower (· ≠ 0) (m.entry b) h else m.entry b := by
  unfold addKingAddressAt entry
  by_cases hab : a = b
  · subst hab
    rw [if_neg hb, if_pos rfl]
    by_cases hk : a ∈ m.kingAddresses
    · rw [if_pos hk]
      cases hact : m.activationHeights a with
      | none => simp [hk, hact, lower]
      | some c =>
        by_cases hlt : h ≠ 0 ∧ h < c
        · simp [hk, lower, hlt, Nat.le_of_lt hlt.2]
        · simp [hk, hact, lower, hlt]
          omega
    · by_cases hz : h = 0
      · simp [hk, hz, lower, hm a hk]
      · simp [hk, hz, lower]
  · have hba := Ne.symm hab
    rw [if_neg hab]
    split
    · rfl
    · split
      · split
        · simp [update_of_ne hba]
        · rfl
      · split
        · simp [hba]
        · simp [hba]

end RotatingKingManager

/-! ## The schedules -/

structure Aligned (interval : Nat) (m : RotatingKingManager) (rx : RewardEngine) : Prop where
  kings : m.kingAddresses = rx.rotatingKings
  nonzero : 0 ∉ rx.rotatingKings
  fresh : m.Fresh
  managerInterval : m.rotationInterval = interval
  engineInterval : rx.rotationInterval = interval

theorem Aligned.add (h : Aligned interval m rx) (a : Address) (n : Nat) :
    Aligned interval (m.addKingAddressAt a n) (rx.addRotatingKingAt a n) := by
  refine ⟨?_, fun h0 => ?_, h.fresh.add a n, ?_, ?_⟩
  · unfold RotatingKingManager.addKingAddressAt RewardEngine.addRotatingKingAt
    rw [h.kings]
    split_ifs <;> first | rfl | exact h.kings
  · rcases RewardEngine.mem_addRotatingKingAt.mp h0 with h0 | ⟨h0, hne⟩
    · exact h.nonzero h0
    · exact hne h0.symm
  · rw [← h.managerInterval]
    unfold RotatingKingManager.addKingAddressAt
    split_ifs <;> rfl
  · rw [← h.engineInterval]
    unfold RewardEngine.addRotatingKingAt
    split_ifs <;> rfl

section
variable (rx) (regs) (interval)

theorem aligned_start : Aligned interval (startManager interval regs) (startEngine rx interval regs) := by
  refine foldl_rel (r := Aligned interval) ?_ fun r _ m rx h => h.add r.1 r.2
  exact ⟨rfl, not_mem_nil, fun _ _ => rfl, rfl, rfl⟩

theorem entry_engine (ha : a ≠ 0) :
    (startEngine rx interval regs).entry a = (heightsOf a regs).foldl (lower fun _ => true) none :=
  foldl_heightsOf (RewardEngine.entry · a) (P := fun _ => True) (fun _ _ _ => trivial)
    (fun _ r _ => RewardEngine.entry_add ha r.1 r.2) trivial

theorem entry_manager (ha : a ≠ 0) :
    (startManager interval regs).entry a = (heightsOf a regs).foldl (lower (· ≠ 0)) none :=
  foldl_heightsOf (RotatingKingManager.entry · a) (P := RotatingKingManager.Fresh) (fun _ r hm => hm.add r.1 r.2)
    (fun _ r hm => RotatingKingManager.entry_add hm ha r.1 r.2) fun _ _ => rfl

end

/-- At a height the manager has activated exactly those kings of the engine whom it does not await. -/
theorem managerActive_iff (ha : a ∈ (startEngine rx interval regs).rotatingKings) (n : Nat) :
    ((startManager interval regs).activationHeights a).getD 0 ≤ n ↔
      (startEngine rx interval regs).activation a ≤ n ∧ ¬ Awaited regs a n := by
  have haligned := aligned_start regs rx interval
  have hne : a ≠ 0 := fun h => haligned.nonzero (h ▸ ha)
  have hengine := entry_engine regs rx interval hne
  have hmanager := entry_manager regs interval hne
  rw [RewardEngine.entry, if_pos ha] at hengine
  rw [RotatingKingManager.entry, haligned.kings, if_pos ha] at hmanager
  unfold Awaited
  cases hs : heightsOf a regs with
  | nil =>
    rw [hs] at hengine
    cases hengine
  | cons first t =>
    obtain ⟨e, he, hle⟩ := foldl_lower (fun _ => true) t first
    obtain ⟨v, hv, hlev⟩ := foldl_lower (· ≠ 0) t first
    rw [hs] at hengine hmanager
    obtain rfl := Option.some.inj (hengine.trans he)
    obtain rfl := Option.some.inj (hmanager.trans hv)
    rw [hle, hlev]
    constructor
    · intro hact
      refine ⟨hact.imp_right fun ⟨h, hm, _, hh⟩ => ⟨h, hm, rfl, hh⟩, fun ⟨_, _, hfirst, hlate⟩ => ?_⟩
      rcases hact with hact | ⟨h, hm, hnz, hh⟩
      · rcases hlate first mem_cons_self with h0 | hlt
        · exact hfirst (congrArg some h0)
        · omega
      · rcases hlate h (mem_cons_of_mem _ hm) with h0 | hlt
        · exact of_decide_eq_true hnz h0
        · omega
    · rintro ⟨hfirst | ⟨h, hm, -, hh⟩, hnot⟩
      · exact .inl hfirst
      · by_contra hno
        obtain ⟨hlate, hrest⟩ := not_or.mp hno
        have hzero : ∀ x ∈ t, x = 0 ∨ n < x := fun x hx =>
          or_iff_not_imp_left.mpr fun hx0 => by_contra fun hle => hrest ⟨x, hx, by simpa using hx0, by omega⟩
        obtain rfl := (hzero h hm).resolve_right (by omega)
        refine hnot ⟨hne, mem_cons_of_mem _ hm, fun h0 => ?_, forall_mem_cons.mpr ⟨.inr (by omega), hzero⟩⟩
        have := Option.some.inj h0
        omega

theorem Aligned.manager_king (h : Aligned interval m rx) (hpos : 0 < interval) (n : Nat) :
    m.kingAtHeight n = kingAfter m.activeKingAddressesAt interval (n / interval + 1) := by
  unfold RotatingKingManager.kingAtHeight
  rw [h.managerInterval, if_neg (by omega)]
  rfl

theorem Aligned.engine_king (h : Aligned interval m rx) (hpos : 0 < interval) (n : UInt64) :
    rx.getRotatingKing n = kingAfter rx.activeRotatingKingsAt interval (n.toNat / interval + 1) := by
  unfold RewardEngine.getRotatingKing
  rw [h.engineInterval]
  split_ifs with hnone
  · have hactive : rx.activeRotatingKingsAt = fun _ => [] := by
      funext n
      simp [RewardEngine.activeRotatingKingsAt, hnone.resolve_right (by omega)]
    rw [hactive]
    exact ((kingAfter_mem _ (fun _ _ _ _ h => h) _).resolve_right not_mem_nil).symm
  · rw [← h.engineInterval]
    rfl

theorem manager_active (rx : RewardEngine) (regs : List (Address × Nat)) (n : Nat) :
    (startManager interval regs).activeKingAddressesAt n =
    ((startEngine rx interval regs).activeRotatingKingsAt n).filter fun a =>
      ((startManager interval regs).activationHeights a).getD 0 ≤ n := by
  unfold RotatingKingManager.activeKingAddressesAt RewardEngine.activeRotatingKingsAt
  rw [(aligned_start regs rx interval).kings, filter_filter]
  refine filter_congr fun a ha => ?_
  have := managerActive_iff ha n
  simp only [← Bool.decide_and, decide_eq_decide]
  tauto

theorem manager_engine_agree_iff (rx : RewardEngine) (hpos : 0 < interval) (regs : List (Address × Nat)) :
    (∀ height : UInt64, (startManager interval regs).kingAtHeight height.toNat =
      (startEngine rx interval regs).getRotatingKing height) ↔
    ∀ height : UInt64, ¬ Awaited regs ((startEngine rx interval regs).getRotatingKing height)
      (height.toNat / interval * interval) := by
  have haligned := aligned_start regs rx interval
  constructor
  · intro hagree height hawaited
    rw [← hagree height, haligned.manager_king hpos] at hawaited
    have hrises : ∀ h h' a, h ≤ h' → a ∈ (startManager interval regs).activeKingAddressesAt h →
        a ∈ (startManager interval regs).activeKingAddressesAt h' := by
      intro h h' a hle ha
      rw [RotatingKingManager.activeKingAddressesAt, mem_filter, decide_eq_true_eq] at ha ⊢
      exact ⟨ha.1, ha.2.trans hle⟩
    have hmem := (kingAfter_mem _ hrises _).resolve_left hawaited.1
    rw [manager_active rx regs, mem_filter, decide_eq_true_eq] at hmem
    exact ((managerActive_iff (mem_of_mem_filter hmem.1) _).mp hmem.2).2 hawaited
  · intro hnot height
    rw [haligned.manager_king hpos, haligned.engine_king hpos]
    refine (kingAfter_filter _ (manager_active rx regs) (fun h h' a hle ha => ?_) _ fun k hk hne => ?_).1
    · rw [decide_eq_true_eq] at ha ⊢
      exact ha.trans hle
    · have hreach : k * interval ≤ height.toNat := (Nat.le_div_iff_mul_le hpos).mp (by omega)
      have hheight : (UInt64.ofNat (k * interval)).toNat = k * interval :=
        UInt64.toNat_ofNat_of_lt' (hreach.trans_lt height.toNat_lt)
      have hking := hnot (UInt64.ofNat (k * interval))
      rw [haligned.engine_king hpos, hheight, Nat.mul_div_cancel k hpos] at hking
      have hmem : kingAfter (startEngine rx interval regs).activeRotatingKingsAt interval (k + 1) ∈ _ :=
        kingAfter_succ k ▸ rotateIn_mem hne
      rw [RewardEngine.activeRotatingKingsAt, mem_filter, decide_eq_true_eq] at hmem
      exact decide_eq_true ((managerActive_iff hmem.1 _).mpr ⟨hmem.2, hking⟩)

theorem manager_engine_agree_started :
    0 < 100 ∧ ∀ height : UInt64, (startManager 100 [(7, 0), (8, 5), (8, 3)]).kingAtHeight height.toNat =
      (startEngine { mainKing := 5 } 100 [(7, 0), (8, 5), (8, 3)]).getRotatingKing height := by
  refine ⟨by decide, (manager_engine_agree_iff { mainKing := 5 } (by decide) _).mpr fun height => ?_⟩
  generalize RewardEngine.getRotatingKing _ height = king
  rintro ⟨-, hzero, hfirst, -⟩
  obtain rfl : 7 = king := by simpa [heightsOf] using hzero
  exact hfirst rfl

theorem manager_awaits_king :
    (startManager 100 [(7, 5), (7, 0)]).kingAtHeight 0 = 0 ∧
    (startEngine { mainKing := 5 } 100 [(7, 5), (7, 0)]).getRotatingKing 0 = 7 := by
  decide

/-! ## Later registrations -/

theorem active_addRotatingKingAt (hn : n < height) :
    (rx.addRotatingKingAt a height).activeRotatingKingsAt n = rx.activeRotatingKingsAt n := by
  unfold RewardEngine.addRotatingKingAt
  split_ifs with hz hm hlt
  · rfl
  · refine filter_congr fun b _ => decide_eq_decide.mpr ?_
    simp only [update_apply]
    split_ifs with hba
    · subst hba
      omega
    · rfl
  · rfl
  · rw [RewardEngine.activeRotatingKingsAt, filter_append, filter_cons_of_neg (by simpa using hn), filter_nil, append_nil]
    refine filter_congr fun b hb => decide_eq_decide.mpr ?_
    simp only [update_of_ne (ne_of_mem_of_not_mem hb hm)]

/-- Kings registered for heights above a block do not change the king of that block. -/
theorem later_kings_keep_schedule (rx : RewardEngine) (interval : Nat) (hpos : 0 < interval)
    (regs later : List (Address × Nat)) (b : UInt64) (hlate : ∀ r ∈ later, b.toNat < r.2) :
    (startEngine rx interval (regs ++ later)).getRotatingKing b = (startEngine rx interval regs).getRotatingKing b := by
  rw [(aligned_start _ rx interval).engine_king hpos, (aligned_start _ rx interval).engine_king hpos]
  refine foldl_ext _ _ _ fun current height hheight => ?_
  obtain ⟨k, hk, rfl⟩ := mem_map.mp hheight
  have hle : k * interval ≤ b.toNat := (Nat.le_div_iff_mul_le hpos).mp (Nat.lt_succ_iff.mp (mem_range.mp hk))
  congr 1
  rw [startEngine, foldl_append]
  refine foldlRecOn (motive := fun rx' : RewardEngine => rx'.activeRotatingKingsAt _ = _) later _ rfl fun _ h r hr => ?_
  exact (active_addRotatingKingAt (hle.trans_lt (hlate r hr))).trans h

theorem later_kings_keep_schedule_eight :
    (startEngine { mainKing := 5 } 100 [(7, 0), (8, 200)]).getRotatingKing 150 = 7 :=
  (later_kings_keep_schedule { mainKing := 5 } 100 (by decide) [(7, 0)] [(8, 200)] 150 (by decide)).trans (by decide)

end TkmChain
