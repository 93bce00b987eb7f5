import TkmChain.Kings

/-!
# Kings that leave

The reported king of a height is replayed over the current table, so a king that
leaves takes its past reigns with it. The reports of earlier heights stay exactly
if none of the kings that leave ever reigned.
-/

namespace TkmChain

open List

/-! ## One rotation -/

section
theorem rotateIn_nil : rotateIn [] current height = current := rfl

theorem rotateIn_first (hne : active ≠ []) (h : current = 0 ∨ current ∉ active) :
    rotateIn active current height = active.head hne := by
  cases active with
  | nil => exact absurd rfl hne
  | cons first rest => exact if_pos h

theorem rotateIn_next (hc : current ≠ 0) (hpre : current ∉ pre) (hh : height ≠ 0) :
    rotateIn (pre ++ current :: post) current height = (post ++ pre ++ [current]).head (by simp) := by
  have hidx : (pre ++ current :: post).idxOf current = pre.length := by simp [idxOf_append, hpre]
  cases hactive : pre ++ current :: post with
  | nil => simp at hactive
  | cons first rest =>
    have hmem : current ∈ first :: rest := hactive ▸ by simp
    simp only [rotateIn]
    rw [if_neg (by simp only [hc, hmem, not_true, or_self, not_false_eq_true]), if_pos hh, ← hactive, hidx]
    cases post with
    | nil =>
      cases pre with
      | nil => simp
      | cons p pre => simp
    | cons x post =>
      have hlt : pre.length + 1 < (pre ++ current :: x :: post).length := by simp
      rw [Nat.mod_eq_of_lt hlt]
      simp [getD_eq_getElem?_getD]

theorem rotateIn_start (hmem : current ∈ active) (hc : current ≠ 0) : rotateIn active current 0 = current := by
  cases active with
  | nil => cases hmem
  | cons first rest =>
    simp only [rotateIn]
    rw [if_neg (by simp only [hc, hmem, not_true, or_self, not_false_eq_true]), if_neg (by simp)]

theorem head_filter (hne : active ≠ []) (h : keep (active.head hne) = true) (hne' : active.filter keep ≠ []) :
    (active.filter keep).head hne' = active.head hne := by
  cases active with
  | nil => exact absurd rfl hne
  | cons x l => simp [filter_cons_of_pos (show keep x = true from h)]

theorem rotateIn_filter (hc : current = 0 ∨ keep current = true)
    (hnext : active ≠ [] → keep (rotateIn active current height) = true) :
    rotateIn (active.filter keep) current height = rotateIn active current height := by
  by_cases hne : active = []
  · rw [hne, filter_nil]
  have hkeep := hnext hne
  by_cases hfirst : current = 0 ∨ current ∉ active
  · rw [rotateIn_first hne hfirst] at hkeep ⊢
    have hne' : active.filter keep ≠ [] := ne_nil_of_mem (mem_filter.mpr ⟨head_mem hne, hkeep⟩)
    rw [rotateIn_first hne' (hfirst.imp_right fun h hm => h (mem_of_mem_filter hm)), head_filter hne hkeep]
  · rw [not_or, not_not] at hfirst
    obtain ⟨hzero, hmem⟩ := hfirst
    have hcur := hc.resolve_left hzero
    by_cases hh : height = 0
    · rw [hh, rotateIn_start hmem hzero, rotateIn_start (mem_filter.mpr ⟨hmem, hcur⟩) hzero]
    · obtain ⟨pre, post, rfl, hpre⟩ := eq_append_cons_of_mem hmem
      have hpre' : current ∉ pre.filter keep := fun h => hpre (mem_of_mem_filter h)
      rw [rotateIn_next hzero hpre hh] at hkeep ⊢
      have hfilter : (post ++ pre ++ [current]).filter keep =
          post.filter keep ++ pre.filter keep ++ [current] := by simp [hcur]
      rw [filter_append, filter_cons_of_pos hcur, rotateIn_next hzero hpre' hh,
        ← head_filter (by simp) hkeep (by rw [hfilter]; simp)]
      simp only [hfilter]

theorem rotateIn_mem (hne : active ≠ []) : rotateIn active current height ∈ active := by
  by_cases hfirst : current = 0 ∨ current ∉ active
  · rw [rotateIn_first hne hfirst]
    exact head_mem hne
  · rw [not_or, not_not] at hfirst
    by_cases hh : height = 0
    · rw [hh, rotateIn_start hfirst.2 hfirst.1]
      exact hfirst.2
    · obtain ⟨pre, post, rfl, hpre⟩ := eq_append_cons_of_mem hfirst.2
      rw [rotateIn_next hfirst.1 hpre hh]
      have hmem := head_mem (l := post ++ pre ++ [current]) (by simp)
      simp only [mem_append, mem_cons, not_mem_nil, or_false] at hmem ⊢
      tauto

end

/-! ## The reported kings -/

section
variable {active active' : Nat → List Address}

def kingAfter (active : Nat → List Address) (interval rotations : Nat) : Address :=
  ((List.range rotations).map (· * interval)).foldl (fun current height => rotateIn (active height) current height) 0

theorem kingAfter_succ (k : Nat) : kingAfter active interval (k + 1) =
    rotateIn (active (k * interval)) (kingAfter active interval k) (k * interval) := by
  simp [kingAfter, range_succ]

variable (active) in
theorem kingAfter_mem (hrises : ∀ h h' a, h ≤ h' → a ∈ active h → a ∈ active h') (k : Nat) :
    kingAfter active interval (k + 1) = 0 ∨ kingAfter active interval (k + 1) ∈ active (k * interval) := by
  induction k with
  | zero =>
    rw [kingAfter_succ]
    by_cases hne : active (0 * interval) = []
    · exact .inl (by rw [hne]; rfl)
    · exact .inr (rotateIn_mem hne)
  | succ k ih =>
    rw [kingAfter_succ]
    by_cases hne : active ((k + 1) * interval) = []
    · rw [hne, rotateIn_nil]
      exact ih.imp_right fun hmem => hne ▸ hrises _ _ _ (Nat.mul_le_mul_right _ k.le_succ) hmem
    · exact .inr (rotateIn_mem hne)

/-- Kings that are passed over do not matter as long as none of them would have reigned. -/
theorem kingAfter_filter (keep : Nat → Address → Bool) (hactive : ∀ h, active' h = (active h).filter (keep h))
    (hkeep : ∀ h h' a, h ≤ h' → keep h a = true → keep h' a = true) (n : Nat)
    (hreign : ∀ k < n, active (k * interval) ≠ [] → keep (k * interval) (kingAfter active interval (k + 1)) = true) :
    kingAfter active' interval n = kingAfter active interval n ∧
      (kingAfter active interval n = 0 ∨ keep (n * interval) (kingAfter active interval n) = true) := by
  induction n with
  | zero => exact ⟨rfl, .inl rfl⟩
  | succ n ih =>
    obtain ⟨hsame, hkept⟩ := ih fun k hk => hreign k (by omega)
    have hnext := hreign n n.lt_succ_self
    rw [kingAfter_succ] at hnext ⊢
    rw [kingAfter_succ, hactive, hsame]
    refine ⟨rotateIn_filter hkept hnext, ?_⟩
    have hlater := fun a => hkeep (n * interval) ((n + 1) * interval) a (Nat.mul_le_mul_right _ n.le_succ)
    by_cases hne : active (n * interval) = []
    · rw [hne, rotateIn_nil]
      exact hkept.imp_right (hlater _)
    · exact .inr (hlater _ (hnext hne))

end

namespace KingTable

variable {t : KingTable}

theorem rotatingKingAt_kingAfter (b : Nat) :
    t.rotatingKingAt interval b = kingAfter t.activeRotatingKingsAt interval (b / interval + 1) := rfl

theorem rotatingKingAt_mem (b : Nat) : t.rotatingKingAt interval b = 0 ∨ t.rotatingKingAt interval b ∈ t.kings := by
  refine (kingAfter_mem t.activeRotatingKingsAt (fun h h' a hle ha => ?_) _).imp_right mem_of_mem_filter
  simp only [activeRotatingKingsAt, mem_filter, Bool.not_eq_true', Option.any_eq_false, decide_eq_false_iff_not] at ha ⊢
  exact ⟨ha.1, fun info hinfo hlt => ha.2 info hinfo (by omega)⟩

theorem activeRotatingKingsAt_retain (height : Nat) :
    (t.retain keep).activeRotatingKingsAt height = (t.activeRotatingKingsAt height).filter keep := by
  unfold activeRotatingKingsAt retain
  rw [filter_filter, filter_filter]
  apply filter_congr
  intro a _
  cases hk : keep a <;> simp [hk]

theorem rotatingKingAt_retain (b : Nat)
    (h : ∀ k ≤ b / interval, ∀ a ∈ t.kings, keep a = false →
      kingAfter t.activeRotatingKingsAt interval (k + 1) ≠ a) :
    (t.retain keep).rotatingKingAt interval b = t.rotatingKingAt interval b := by
  refine (kingAfter_filter (fun _ => keep) activeRotatingKingsAt_retain (fun _ _ _ _ h => h) _
    fun k hk hne => ?_).1
  by_contra hkeep
  refine h k (by omega) _ ?_ (by simpa using hkeep) rfl
  rw [kingAfter_succ]
  exact mem_of_mem_filter (rotateIn_mem hne)

theorem retain_keeps_reports (hpos : 0 < interval) (u : Nat) :
    (∀ b < u, (t.retain keep).rotatingKingAt interval b = t.rotatingKingAt interval b) ↔
      ∀ b < u, ∀ a ∈ t.kings, keep a = false → t.rotatingKingAt interval b ≠ a := by
  constructor
  · intro h b hb a ha hkeep heq
    have hreported : (t.retain keep).rotatingKingAt interval b = 0 ∨
        (t.retain keep).rotatingKingAt interval b ∈ (t.retain keep).kings := rotatingKingAt_mem b
    rw [h b hb, heq] at hreported
    rcases hreported with hz | hmem
    · exact t.nonzero (hz ▸ ha)
    · have := (mem_filter.mp hmem).2
      rw [hkeep] at this
      exact absurd this (by decide)
  · intro h b hb
    refine rotatingKingAt_retain b fun k hk a ha hkeep => ?_
    -- each rotation up to `b` is the last one of the height it happens at
    have hlt : k * interval < u := by
      have := Nat.div_mul_le_self b interval
      have := Nat.mul_le_mul_right interval hk
      omega
    have := h (k * interval) hlt a ha hkeep
    rwa [rotatingKingAt_kingAfter, Nat.mul_div_cancel k hpos] at this

end KingTable

/-! ## Removals at a head -/

section
variable (env : KingEnv) (n : KingNode)

theorem removeUnderfunded_kings (hne : n.chain ≠ []) (b : Nat) :
    (n.removeUnderfundedRotatingKings env).1.table.rotatingKingAt env.interval b =
      (n.table.retain fun a => !n.underfunded env a).rotatingKingAt env.interval b := by
  unfold KingNode.removeUnderfundedRotatingKings
  rw [if_neg hne]
  split
  · rfl
  · rename_i hnone
    refine (KingTable.rotatingKingAt_retain b fun k _ a ha hkeep => ?_).symm
    rw [any_eq_true] at hnone
    exact absurd ⟨a, ha, by simpa using hkeep⟩ hnone

/-- The reported kings of the heights before a removal stay iff nobody who leaves was one of them. -/
theorem removal_keeps_past_kings :
    (∀ u, (∀ b < u, (n.pruneExpiredRotatingKings u).1.table.rotatingKingAt env.interval b =
        n.table.rotatingKingAt env.interval b) ↔
      ∀ b < u, ∀ a ∈ n.table.kings, n.expired u a = true → n.table.rotatingKingAt env.interval b ≠ a) ∧
    ((∀ b < n.headNumber, (n.removeUnderfundedRotatingKings env).1.table.rotatingKingAt env.interval b =
        n.table.rotatingKingAt env.interval b) ↔
      ∀ b < n.headNumber, ∀ a ∈ n.table.kings, n.underfunded env a = true →
        n.table.rotatingKingAt env.interval b ≠ a) := by
  constructor
  · intro u
    simp only [KingNode.pruneExpiredRotatingKings, KingTable.retain_keeps_reports env.interval_pos, Bool.not_eq_false']
  · by_cases hne : n.chain = []
    · simp [KingNode.headNumber, hne]
    · simp only [removeUnderfunded_kings env n hne, KingTable.retain_keeps_reports env.interval_pos,
        Bool.not_eq_false']

end

def loneKing : KingNode where
  table := KingTable.empty.lock 7
    { hash := 1, unlockTime := 0, unlockHeight := 200, activationHeight := 0, addedHeight := 0 }
  engine := { mainKing := 5, rotatingKings := [7] }
  storedAddresses := []
  storedLocks := []
  chain := List.replicate 201 { extra := [], time := 0, balance := fun _ => 200000 * ether }
  checked := []

/-- Its reigns before height 200 are gone once the lock ends. -/
theorem expiry_rewrites_past_king :
    loneKing.table.rotatingKingAt 100 150 = 7 ∧
    (loneKing.pruneExpiredRotatingKings loneKing.headNumber).1.table.rotatingKingAt 100 150 = 0 := by
  decide +kernel

/-! ## Markers in headers -/

def KingLock.heights (info : KingLock) : Nat × Nat × Nat := (info.addedHeight, info.activationHeight, info.unlockHeight)

def KingMarker.Records (m : KingMarker) (a : Address) (info : KingLock) : Prop :=
  m.address = a ∧ (m.addedHeight, m.activationHeight, m.unlockHeight) = info.heights

theorem toNat_putUint24 (v : Nat) : Bytes.toNat (putUint24 v) = min v 0xffffff := by
  rw [putUint24, Bytes.toNat_be, Nat.mod_eq_of_lt (by omega)]

theorem decode_encodeRotatingKingHeaderExtra (a : Address) (info : KingLock) :
    decodeRotatingKingHeaderExtra (encodeRotatingKingHeaderExtra a info) =
      some { address := a, addedHeight := min info.addedHeight 0xffffff,
             activationHeight := min info.activationHeight 0xffffff,
             unlockHeight := min info.unlockHeight 0xffffff, full := true } := by
  have hmagic : rkHeaderExtraMagic = [82, 75] := by decide
  have hparts : encodeRotatingKingHeaderExtra a info = 82 :: 75 :: 3 :: (a.bytes ++ (putUint24 info.addedHeight ++
      (putUint24 info.activationHeight ++ putUint24 info.unlockHeight))) := by
    simp [encodeRotatingKingHeaderExtra, hmagic]
  have ha : a.bytes.length = 20 := by simp [Address.bytes]
  have hp : ∀ v, (putUint24 v).length = 3 := fun v => Bytes.length_be 3 _
  rw [hparts]
  simp (disch := simp [hp]) [decodeRotatingKingHeaderExtra, hmagic, hp, toNat_putUint24, drop_append,
    drop_of_length_le, take_of_length_le]

theorem marker_keeps_heights_iff (a : Address) (info : KingLock) :
    ((∃ m, decodeRotatingKingHeaderExtra (encodeRotatingKingHeaderExtra a info) = some m ∧ m.Records a info) ∧
      ∀ m a' info', decodeRotatingKingHeaderExtra (encodeRotatingKingHeaderExtra a info) = some m →
        m.Records a' info' → a' = a ∧ info'.heights = info.heights) ↔
    info.addedHeight ≤ 0xffffff ∧ info.activationHeight ≤ 0xffffff ∧ info.unlockHeight ≤ 0xffffff := by
  rw [decode_encodeRotatingKingHeaderExtra]
  constructor
  · rintro ⟨⟨m, hm, -, hheights⟩, -⟩
    cases hm
    simpa [KingLock.heights] using hheights
  · rintro ⟨hadded, hactivation, hunlock⟩
    rw [min_eq_left hadded, min_eq_left hactivation, min_eq_left hunlock]
    refine ⟨⟨_, rfl, rfl, rfl⟩, ?_⟩
    rintro m a' info' hm ⟨rfl, hheights⟩
    cases hm
    exact ⟨rfl, hheights.symm⟩

theorem late_marker_loses_heights :
    decodeRotatingKingHeaderExtra (encodeRotatingKingHeaderExtra 7
      { hash := 0, unlockTime := 0, unlockHeight := 2 ^ 24 + 2, activationHeight := 2 ^ 24 + 1, addedHeight := 2 ^ 24 }) =
    some { address := 7, addedHeight := 2 ^ 24 - 1, activationHeight := 2 ^ 24 - 1, unlockHeight := 2 ^ 24 - 1,
           full := true } := by
  decide +kernel

end TkmChain

