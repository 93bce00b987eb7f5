import TkmChain.Registry

/-!
# The life cycle of a validator

The registry as an abstract machine: at most one record per address, and four acts
that rewrite it. A history lists the accepted acts, the latest first, each with the
record it found. What a history guarantees about penalties, burned bonds and
withdrawals is proved here, over every history.
-/

namespace TkmChain

open List Function

variable {en : HistoryEntry}

inductive ValidatorAct
  | register (record : ValidatorRecord)
  | exit
  | withdraw
  | slash (evidence : ValidatorSlashEvidence)

abbrev Validators := Address → Option ValidatorRecord

def recordedStake (r : Option ValidatorRecord) : Nat := r.elim 0 (·.stake)

namespace ValidatorAct

def next (height : Nat) : ValidatorAct → Option ValidatorRecord → Option ValidatorRecord
  | .register r, old =>
    if recordedStake old = 0 ∧ r.stake = validatorBondWei ∧ r.exitHeight = 0 ∧ r.jailedUntil = 0 ∧
        (height + validatorActivationDelay) % 2 ^ 64 ≤ r.activationHeight then some r else none
  | .exit, some r =>
    if 0 < r.stake ∧ r.exitHeight = 0 then
      some { r with exitHeight := height, jailedUntil := (height + validatorUnbondingPeriod) % 2 ^ 64 }
    else none
  | .withdraw, some r =>
    if 0 < r.stake ∧ r.exitHeight ≠ 0 ∧ (r.exitHeight + validatorUnbondingPeriod) % 2 ^ 64 ≤ height then
      some { r with stake := 0, exitHeight := height, jailedUntil := height }
    else none
  | .slash _, some r =>
    some { r with
      stake := 0, exitHeight := height, jailedUntil := (height + validatorUnbondingPeriod) % 2 ^ 64,
      slashCount := (r.slashCount + 1) % 2 ^ 64 }
  | _, none => none

section
variable {r : ValidatorRecord}

theorem next_register (h : (register r).next height old = some r') :
    r' = r ∧ recordedStake old = 0 ∧ r.stake = validatorBondWei ∧ r.exitHeight = 0 ∧ r.jailedUntil = 0 ∧
      (height + validatorActivationDelay) % 2 ^ 64 ≤ r.activationHeight := by
  rw [next] at h
  split at h
  · rename_i hg
    exact ⟨(Option.some.inj h).symm, hg⟩
  · cases h

theorem next_exit (h : exit.next height old = some r') :
    ∃ r, old = some r ∧ 0 < r.stake ∧ r.exitHeight = 0 ∧
      r' = { r with exitHeight := height, jailedUntil := (height + validatorUnbondingPeriod) % 2 ^ 64 } := by
  cases old with
  | none => cases h
  | some r =>
    rw [next] at h
    split at h
    · rename_i hg
      exact ⟨r, rfl, hg.1, hg.2, (Option.some.inj h).symm⟩
    · cases h

theorem next_withdraw (h : withdraw.next height old = some r') :
    ∃ r, old = some r ∧ 0 < r.stake ∧ r.exitHeight ≠ 0 ∧
      (r.exitHeight + validatorUnbondingPeriod) % 2 ^ 64 ≤ height ∧
      r' = { r with stake := 0, exitHeight := height, jailedUntil := height } := by
  cases old with
  | none => cases h
  | some r =>
    rw [next] at h
    split at h
    · rename_i hg
      exact ⟨r, rfl, hg.1, hg.2.1, hg.2.2, (Option.some.inj h).symm⟩
    · cases h

theorem next_slash (h : (slash e).next height old = some r') :
    ∃ r, old = some r ∧ r' = { r with
      stake := 0, exitHeight := height, jailedUntil := (height + validatorUnbondingPeriod) % 2 ^ 64,
      slashCount := (r.slashCount + 1) % 2 ^ 64 } := by
  cases old with
  | none => cases h
  | some r => exact ⟨r, rfl, (Option.some.inj h).symm⟩

end

end ValidatorAct

/-! ## Histories -/

/-- An accepted act: its height, the validator it concerns, the transaction data that carried it, and the validator's
record before. -/
structure HistoryEntry where
  height : Nat
  validator : Address
  act : ValidatorAct
  data : Bytes
  before : Option ValidatorRecord

def HistoryEntry.after (en : HistoryEntry) : Option ValidatorRecord := en.act.next en.height en.before

/-- The histories of the registry and the records they lead to, at a height; the first block has height 1. -/
inductive History : Nat → Validators → List HistoryEntry → Prop
  | start : History 0 (fun _ => none) []
  | accept {h : Nat} {v : Validators} {log : List HistoryEntry} {en : HistoryEntry} {r : ValidatorRecord} :
    History h v log → h ≤ en.height → 0 < en.height → en.height < 2 ^ 64 → en.before = v en.validator → en.after = some r →
    History en.height (Function.update v en.validator (some r)) (en :: log)

namespace History

theorem height_lt (hh : History h v log) : ∀ en ∈ log, en.height < 2 ^ 64 := by
  induction hh with
  | start => intro en hen; cases hen
  | accept _ _ _ hlt _ _ ih =>
    intro p hp
    rcases mem_cons.mp hp with rfl | hp
    · exact hlt
    · exact ih p hp

/-- A property of records holds along a history if every act establishes it for the record it writes and it survives
acts on other validators. -/
theorem records {I : Nat → List HistoryEntry → Address → ValidatorRecord → Prop}
    (hframe : ∀ {h log en a r}, h ≤ en.height → a ≠ en.validator → I h log a r → I en.height (en :: log) a r)
    (hact : ∀ {h v log en r}, History h v log → h ≤ en.height → 0 < en.height → en.before = v en.validator →
      (∀ q, en.before = some q → I h log en.validator q) → en.after = some r → I en.height (en :: log) en.validator r)
    (hh : History h v log) : ∀ a r, v a = some r → I h log a r := by
  induction hh with
  | start => intro a r hr; cases hr
  | @accept _ _ _ en _ hh hle hpos _ hbefore hafter ih =>
    intro a r hr
    by_cases heq : a = en.validator
    · subst heq
      rw [update_self] at hr
      obtain rfl := Option.some.inj hr
      exact hact hh hle hpos hbefore (fun q hq => ih _ q (hbefore ▸ hq)) hafter
    · rw [update_of_ne heq] at hr
      exact hframe hle heq (ih a r hr)

theorem stake_eq (hh : History h v log) : ∀ a r, v a = some r → r.stake = 0 ∨ r.stake = validatorBondWei := by
  refine records (I := fun _ _ _ r => r.stake = 0 ∨ r.stake = validatorBondWei) (fun _ _ hr => hr) ?_ hh
  intro h v log en r _ _ _ _ hold hafter
  rw [HistoryEntry.after] at hafter
  cases hact : en.act with
  | register q =>
    rw [hact] at hafter
    obtain ⟨rfl, _, hbond, _⟩ := ValidatorAct.next_register hafter
    exact Or.inr hbond
  | exit =>
    rw [hact] at hafter
    obtain ⟨q, hq, _, _, rfl⟩ := ValidatorAct.next_exit hafter
    exact hold q hq
  | withdraw =>
    rw [hact] at hafter
    obtain ⟨q, _, _, _, _, rfl⟩ := ValidatorAct.next_withdraw hafter
    exact Or.inl rfl
  | slash e =>
    rw [hact] at hafter
    obtain ⟨q, _, rfl⟩ := ValidatorAct.next_slash hafter
    exact Or.inl rfl

/-! ## Withdrawals -/

def LastExit (log : List HistoryEntry) (a : Address) (height : Nat) : Prop :=
  ∃ x, log.find? (·.validator = a) = some x ∧ x.act = .exit ∧ x.height = height

theorem LastExit.cons {a : Address} {height : Nat} (he : LastExit log a height)
    (hne : a ≠ en.validator) : LastExit (en :: log) a height := by
  obtain ⟨x, hx, hexit⟩ := he
  exact ⟨x, by rw [find?_cons_of_neg (by simpa using hne.symm), hx], hexit⟩

theorem lastExit (hh : History h v log) :
    ∀ a r, v a = some r → 0 < r.stake → r.exitHeight ≠ 0 → LastExit log a r.exitHeight := by
  refine records (I := fun _ log a r => 0 < r.stake → r.exitHeight ≠ 0 → LastExit log a r.exitHeight)
    (fun _ hne hr hs hx => (hr hs hx).cons hne) ?_ hh
  intro h v log en r _ _ _ _ _ hafter hstake hexit
  rw [HistoryEntry.after] at hafter
  cases hact : en.act with
  | register q =>
    rw [hact] at hafter
    obtain ⟨rfl, _, _, hzero, _⟩ := ValidatorAct.next_register hafter
    exact absurd hzero hexit
  | exit =>
    rw [hact] at hafter
    obtain ⟨q, _, _, _, rfl⟩ := ValidatorAct.next_exit hafter
    exact ⟨en, find?_cons_of_pos (by simp), hact, rfl⟩
  | withdraw =>
    rw [hact] at hafter
    obtain ⟨q, _, _, _, _, rfl⟩ := ValidatorAct.next_withdraw hafter
    exact absurd hstake (Nat.lt_irrefl 0)
  | slash e =>
    rw [hact] at hafter
    obtain ⟨q, _, rfl⟩ := ValidatorAct.next_slash hafter
    exact absurd hstake (Nat.lt_irrefl 0)

theorem withdraw_after_exit (hh : History h v log) (hsplit : log = l₀ ++ w :: rest) (hw : w.act = .withdraw) :
    ∃ x, LastExit rest w.validator x ∧ (x + validatorUnbondingPeriod) % 2 ^ 64 ≤ w.height := by
  induction hh generalizing l₀ with
  | start => simp at hsplit
  | @accept _ _ _ en r hh _ _ _ hbefore hafter ih =>
    cases l₀ with
    | nil =>
      obtain ⟨rfl, rfl⟩ := List.cons.inj hsplit
      rw [HistoryEntry.after, hw] at hafter
      obtain ⟨q, hq, hstake, hexit, hend, _⟩ := ValidatorAct.next_withdraw hafter
      exact ⟨q.exitHeight, hh.lastExit _ q (hbefore ▸ hq) hstake hexit, hend⟩
    | cons y l₀ => exact ih (List.cons.inj hsplit).2

def Unbonded (log : List HistoryEntry) : Prop :=
  ∀ l₀ w rest, log = l₀ ++ w :: rest → w.act = .withdraw →
    ∃ x, LastExit rest w.validator x ∧ x + validatorUnbondingPeriod ≤ w.height

/-- The unbonding period of every exit followed by a withdrawal ends at a height that is a machine word. -/
def ExitsInRange (log : List HistoryEntry) : Prop :=
  ∀ l₀ w rest x, log = l₀ ++ w :: rest → w.act = .withdraw → LastExit rest w.validator x →
    x + validatorUnbondingPeriod < 2 ^ 64

theorem unbonded_iff (hh : History h v log) : Unbonded log ↔ ExitsInRange log := by
  constructor
  · intro hu l₀ w rest x hsplit hw hx
    obtain ⟨y, hy, hend⟩ := hu l₀ w rest hsplit hw
    obtain ⟨p, hp, _, rfl⟩ := hx
    obtain ⟨q, hq, _, rfl⟩ := hy
    obtain rfl := Option.some.inj (hp.symm.trans hq)
    have hlt := hh.height_lt w (by rw [hsplit]; simp)
    omega
  · intro hr l₀ w rest hsplit hw
    obtain ⟨x, hx, hend⟩ := hh.withdraw_after_exit hsplit hw
    rw [Nat.mod_eq_of_lt (hr l₀ w rest x hsplit hw hx)] at hend
    exact ⟨x, hx, hend⟩

end History

/-! ## Penalties -/

namespace HistoryEntry

def Penalises (en : HistoryEntry) (a : Address) : Prop :=
  en.validator = a ∧ (en.act = .exit ∨ ∃ e, en.act = .slash e)

end HistoryEntry

def KeptOut : List HistoryEntry → Prop
  | [] => True
  | en :: log => KeptOut log ∧ ∀ p ∈ en :: log, p.Penalises en.validator → ∀ r, en.after = some r →
      ∀ k, p.height ≤ k → k < p.height + validatorUnbondingPeriod → r.activeAt k = false

def ClearOfPenalties : List HistoryEntry → Prop
  | [] => True
  | en :: log => ClearOfPenalties log ∧ ∀ r, en.act = .register r → ∀ p ∈ log, p.Penalises en.validator →
      p.height + validatorUnbondingPeriod ≤ r.activationHeight

theorem registered_inactive_iff {r : ValidatorRecord} (hs : 0 < r.stake) (hx : r.exitHeight = 0)
    (hj : r.jailedUntil = 0) {lo hi : Nat} (hlo : lo < hi) :
    (∀ k, lo ≤ k → k < hi → r.activeAt k = false) ↔ hi ≤ r.activationHeight := by
  constructor
  · intro hout
    by_contra hearly
    have hfalse := hout (max lo r.activationHeight) (le_max_left ..) (max_lt hlo (Nat.lt_of_not_le hearly))
    simp [ValidatorRecord.activeAt, hs, hx, hj] at hfalse
  · intro hlate k _ hk
    have hnot : ¬ r.activationHeight ≤ k := by omega
    simp [ValidatorRecord.activeAt, hnot]

/-- How a record with a stake stands to the penalties of its validator: activated behind them, or on its way out. -/
def OutOfPenalties (log : List HistoryEntry) (a : Address) (r : ValidatorRecord) : Prop :=
  0 < r.stake → ∀ p ∈ log, p.Penalises a →
    p.height + validatorUnbondingPeriod ≤ r.activationHeight ∨ (r.exitHeight ≠ 0 ∧ r.exitHeight ≤ p.height)

theorem OutOfPenalties.inactive {log : List HistoryEntry} {a : Address} {r : ValidatorRecord}
    (hr : OutOfPenalties log a r) (hp : p ∈ log) (hpen : p.Penalises a) {k : Nat} (hfrom : p.height ≤ k)
    (hto : k < p.height + validatorUnbondingPeriod) : r.activeAt k = false := by
  rw [ValidatorRecord.activeAt]
  by_cases hstake : 0 < r.stake
  · rcases hr hstake p hp hpen with hlate | ⟨hexit, hout⟩
    · have hnot : ¬ r.activationHeight ≤ k := by omega
      simp [hnot]
    · have hnot : ¬ k < r.exitHeight := by omega
      simp [hexit, hnot]
  · simp [hstake]

namespace History

theorem outOfPenalties (hh : History h v log) (hclear : ClearOfPenalties log) :
    ∀ a r, v a = some r → OutOfPenalties log a r := by
  intro a r hr
  refine records (I := fun _ log a r => ClearOfPenalties log → OutOfPenalties log a r) ?_ ?_ hh a r hr hclear
  · intro _ log en a r _ hne hs hclear hstake p hp hpen
    rcases mem_cons.mp hp with rfl | hp
    · exact absurd hpen.1.symm hne
    · exact hs hclear.1 hstake p hp hpen
  intro _ _ log en r _ _ hpos _ hold hafter hclear hstake p hp hpen
  rw [HistoryEntry.after] at hafter
  cases hact : en.act with
  | register q =>
    rw [hact] at hafter
    obtain ⟨rfl, _⟩ := ValidatorAct.next_register hafter
    rcases mem_cons.mp hp with rfl | hp
    · rcases hpen.2 with hx | ⟨e, hx⟩ <;> rw [hact] at hx <;> cases hx
    · exact Or.inl (hclear.2 r hact p hp hpen)
  | exit =>
    rw [hact] at hafter
    obtain ⟨q, hq, hqstake, hqexit, rfl⟩ := ValidatorAct.next_exit hafter
    rcases mem_cons.mp hp with rfl | hp
    · exact Or.inr ⟨Nat.pos_iff_ne_zero.mp hpos, le_rfl⟩
    · rcases hold q hq hclear.1 hqstake p hp hpen with hlate | ⟨hexit, _⟩
      · exact Or.inl hlate
      · exact absurd hqexit hexit
  | withdraw =>
    rw [hact] at hafter
    obtain ⟨q, _, _, _, _, rfl⟩ := ValidatorAct.next_withdraw hafter
    exact absurd hstake (Nat.lt_irrefl 0)
  | slash e =>
    rw [hact] at hafter
    obtain ⟨q, _, rfl⟩ := ValidatorAct.next_slash hafter
    exact absurd hstake (Nat.lt_irrefl 0)

theorem keptOut_iff (hh : History h v log) : KeptOut log ↔ ClearOfPenalties log := by
  induction hh with
  | start => exact Iff.rfl
  | @accept _ _ log en r hh hle hpos hlt hbefore hafter ih =>
    rw [KeptOut, ClearOfPenalties, ih]
    refine and_congr_right fun hclear => ⟨?_, ?_⟩
    · intro hkept q hact p hp hpen
      have hnext : (ValidatorAct.register q).next en.height en.before = some r := hact ▸ hafter
      obtain ⟨rfl, _, hbond, hexit, hjail, _⟩ := ValidatorAct.next_register hnext
      have hwindow : p.height < p.height + validatorUnbondingPeriod := Nat.lt_add_of_pos_right (by decide)
      exact (registered_inactive_iff (by rw [hbond]; decide) hexit hjail hwindow).mp
        (hkept p (mem_cons_of_mem _ hp) hpen r hafter)
    · intro hreg p hp hpen q hq k hfrom hto
      obtain rfl := Option.some.inj (hafter.symm.trans hq)
      have hnext : History en.height _ (en :: log) := .accept hh hle hpos hlt hbefore hafter
      exact (hnext.outOfPenalties ⟨hclear, hreg⟩ en.validator r (update_self ..)).inactive hp hpen hfrom hto

end History

/-! ## Burned bonds -/

structure Offence where
  validator : Address
  height : Nat
  (hashA hashB : Hash)

namespace Offence

def provenBy (o : Offence) (e : ValidatorSlashEvidence) : Bool :=
  e.validator = o.validator ∧ e.height = o.height ∧
    ((e.blockHashA = o.hashA ∧ e.blockHashB = o.hashB) ∨ (e.blockHashA = o.hashB ∧ e.blockHashB = o.hashA))

def chargedBy (o : Offence) (en : HistoryEntry) : Bool :=
  match en.act with
  | .slash e => o.provenBy e
  | _ => false

def burnedBy (o : Offence) (en : HistoryEntry) : Bool := o.chargedBy en && 0 < recordedStake en.before

theorem chargedBy_slash {o : Offence} (h : o.chargedBy en = true) : ∃ e, en.act = .slash e ∧ o.provenBy e = true := by
  rw [chargedBy] at h
  split at h
  · rename_i e hact
    exact ⟨e, hact, h⟩
  · cases h

end Offence

/-- A record closed by a slash is jailed beyond its exit height, one closed by a withdrawal is not. -/
def HistoryEntry.RegistersUnslashed (en : HistoryEntry) (a : Address) : Prop :=
  en.validator = a → ∀ r, en.act = .register r → ∀ old, en.before = some old → old.jailedUntil = old.exitHeight

theorem countP_le_one {α : Type*} {p : α → Bool} : ∀ {l : List α},
    l.Pairwise (fun x y => ¬ (p x = true ∧ p y = true)) → l.countP p ≤ 1
  | [], _ => by simp
  | x :: l, h => by
    obtain ⟨hx, hl⟩ := pairwise_cons.mp h
    have ih := countP_le_one hl
    by_cases hp : p x = true
    · have hnone : l.countP p = 0 := countP_eq_zero.mpr fun y hy hpy => hx y hy ⟨hp, hpy⟩
      rw [countP_cons_of_pos hp, hnone]
    · rwa [countP_cons_of_neg hp]

namespace History

theorem period_ne (n : Nat) : (n + validatorUnbondingPeriod) % 2 ^ 64 ≠ n := by
  have hperiod : validatorUnbondingPeriod = 21600 := rfl
  omega

theorem slashed_record {a : Address} (hh : History h v log) (hlog : ∀ en ∈ log, en.RegistersUnslashed a)
    (hp : p ∈ log) {e : ValidatorSlashEvidence} (hact : p.act = .slash e) (ha : p.validator = a) :
    ∃ r, v a = some r ∧ r.stake = 0 ∧ r.jailedUntil ≠ r.exitHeight := by
  induction hh with
  | start => cases hp
  | @accept _ v log en r' hh _ _ _ hbefore hafter ih =>
    by_cases hen : en.validator = a
    · subst hen
      refine ⟨r', update_self .., ?_⟩
      -- either this entry is the slash, or it found the record the slash left
      have hslashed : ∀ q, p ∈ log → en.before = some q → q.stake = 0 ∧ q.jailedUntil ≠ q.exitHeight := by
        intro q hp' hq
        obtain ⟨r, hr, hs⟩ := ih (fun x hx => hlog x (mem_cons_of_mem _ hx)) hp'
        rw [hbefore, hr] at hq
        exact Option.some.inj hq ▸ hs
      have hbad : ∀ q, en.before = some q → p ∈ log → 0 < q.stake → False := fun q hq hp' hpos =>
        absurd (hslashed q hp' hq).1 (Nat.pos_iff_ne_zero.mp hpos)
      rw [HistoryEntry.after] at hafter
      have hmem : en.act ≠ .slash e → p ∈ log := fun hne => by
        rcases mem_cons.mp hp with rfl | hp'
        · exact absurd hact hne
        · exact hp'
      cases hen : en.act with
      | register q =>
        have hp' := hmem (by rw [hen]; exact nofun)
        obtain ⟨old, hold, _⟩ := ih (fun x hx => hlog x (mem_cons_of_mem _ hx)) hp'
        have hb : en.before = some old := hbefore.trans hold
        exact absurd (hlog en (by simp) rfl q hen old hb) (hslashed old hp' hb).2
      | exit =>
        rw [hen] at hafter
        obtain ⟨q, hq, hpos, _⟩ := ValidatorAct.next_exit hafter
        exact (hbad q hq (hmem (by rw [hen]; exact nofun)) hpos).elim
      | withdraw =>
        rw [hen] at hafter
        obtain ⟨q, hq, hpos, _⟩ := ValidatorAct.next_withdraw hafter
        exact (hbad q hq (hmem (by rw [hen]; exact nofun)) hpos).elim
      | slash e' =>
        rw [hen] at hafter
        obtain ⟨q, _, rfl⟩ := ValidatorAct.next_slash hafter
        exact ⟨rfl, period_ne _⟩
    · have hp' : p ∈ log := by
        rcases mem_cons.mp hp with rfl | hp'
        · exact absurd ha hen
        · exact hp'
      obtain ⟨r, hr, hs⟩ := ih (fun x hx => hlog x (mem_cons_of_mem _ hx)) hp'
      exact ⟨r, by rw [update_of_ne (Ne.symm hen), hr], hs⟩

def NamesOffender (log : List HistoryEntry) : Prop :=
  ∀ en ∈ log, ∀ e, en.act = .slash e → en.validator = e.validator

theorem burned_once (hh : History h v log) (hn : NamesOffender log) (o : Offence)
    (hlog : ∀ en ∈ log, en.RegistersUnslashed o.validator) :
    log.Pairwise fun x y => ¬ (o.burnedBy x = true ∧ o.burnedBy y = true) := by
  induction hh with
  | start => exact List.Pairwise.nil
  | @accept _ v log en _ hh _ _ _ hbefore _ ih =>
    refine pairwise_cons.mpr ⟨?_, ih (fun x hx => hn x (mem_cons_of_mem _ hx))
      fun x hx => hlog x (mem_cons_of_mem _ hx)⟩
    rintro y hy ⟨hen, hby⟩
    rw [Offence.burnedBy, Bool.and_eq_true, decide_eq_true_eq] at hen hby
    have hname : ∀ x ∈ en :: log, o.chargedBy x = true → ∃ e, x.act = .slash e ∧ x.validator = o.validator := by
      intro x hx hc
      obtain ⟨e, hact, hpr⟩ := Offence.chargedBy_slash hc
      rw [Offence.provenBy, decide_eq_true_eq] at hpr
      exact ⟨e, hact, (hn x hx e hact).trans hpr.1⟩
    obtain ⟨e, hact, hval⟩ := hname y (mem_cons_of_mem _ hy) hby.1
    obtain ⟨_, _, hval'⟩ := hname en (by simp) hen.1
    obtain ⟨r, hr, hzero, _⟩ := hh.slashed_record (fun x hx => hlog x (mem_cons_of_mem _ hx)) hy hact hval
    rw [hbefore, hval', hr] at hen
    exact absurd hzero (Nat.pos_iff_ne_zero.mp hen.2)

end History

/-! ## Bonds paid in and out -/

namespace HistoryEntry

def paidIn (en : HistoryEntry) : Nat :=
  match en.act with
  | .register r => r.stake
  | _ => 0

def withdrawn (en : HistoryEntry) : Nat :=
  match en.act with
  | .withdraw => recordedStake en.before
  | _ => 0

def burned (en : HistoryEntry) : Nat :=
  match en.act with
  | .slash _ => recordedStake en.before
  | _ => 0

theorem stake_balance (h : en.after = some r) :
    r.stake + en.withdrawn + en.burned = recordedStake en.before + en.paidIn := by
  rw [after] at h
  cases hact : en.act with
  | register q =>
    rw [hact] at h
    obtain ⟨rfl, hzero, _⟩ := ValidatorAct.next_register h
    simp only [withdrawn, burned, paidIn, hact, hzero]
    omega
  | exit =>
    rw [hact] at h
    obtain ⟨q, hq, _, _, rfl⟩ := ValidatorAct.next_exit h
    simp only [withdrawn, burned, paidIn, hact, hq]
    rfl
  | withdraw =>
    rw [hact] at h
    obtain ⟨q, hq, _, _, _, rfl⟩ := ValidatorAct.next_withdraw h
    simp only [withdrawn, burned, paidIn, hact, Nat.zero_add, Nat.add_zero]
  | slash e =>
    rw [hact] at h
    obtain ⟨q, hq, rfl⟩ := ValidatorAct.next_slash h
    simp only [withdrawn, burned, paidIn, hact, Nat.zero_add, Nat.add_zero]

end HistoryEntry

end TkmChain
