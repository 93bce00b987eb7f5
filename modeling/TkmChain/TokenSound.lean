import TkmChain.Accounts
import TkmChain.Token

/-!
# Conservation of a token

A failed operation shows nothing; a successful one mints, burns, moves an amount
with its royalty, or leaves the books alone. The sum of the balances is the
supply along every run, whichever accounts coincide.
-/

namespace TkmChain

open Proc

/-! ## Books -/

def shift (f : Address → Int) (a : Address) (v : Int) : Address → Int := Function.update f a (f a + v)

theorem shift_zero (f : Address → Int) (a : Address) : shift f a 0 = f := by
  rw [shift, Int.add_zero, Function.update_eq_self]

theorem sum_shift (f : Address → Int) (a : Address) (v : Int) :
    ∑ x ∈ accounts, shift f a v x = ∑ x ∈ accounts, f x + v := by
  have := sum_accounts_update f a (f a + v)
  rw [← shift] at this
  omega

theorem shift_apply (f : Address → Int) (a x : Address) (v : Int) :
    shift f a v x = f x + if x = a then v else 0 := by
  unfold shift
  by_cases h : x = a
  · rw [h, Function.update_self, if_pos rfl]
  · rw [Function.update_of_ne h, if_neg h, Int.add_zero]

namespace TokenState

variable {s : TokenState}

theorem setBalance_balance : (s.setBalance a v).balance = Function.update s.balance a v := by
  funext x
  by_cases h : x = a
  · simp [balance, setBalance, h]
  · simp [balance, setBalance, h]

theorem credit_balance : (s.credit a v).balance = shift s.balance a v := setBalance_balance

theorem touch_balance : (s.touch a).balance = s.balance := by
  rw [touch, setBalance_balance, Function.update_eq_self]

theorem supply_of_some (h : s.totalSupply = some v) : s.supply = v := by rw [supply, h, Option.getD_some]

theorem supply_congr {t : TokenState} (h : t.totalSupply = s.totalSupply) : t.supply = s.supply := by
  rw [supply, h, supply]

structure Same (s t : TokenState) : Prop where
  totalSupply : t.totalSupply = s.totalSupply
  balance : t.balance = s.balance
  paused : t.paused = s.paused

instance : Std.Refl Same := ⟨fun _ => ⟨rfl, rfl, rfl⟩⟩

instance : IsTrans TokenState Same :=
  ⟨fun _ _ _ h h' => ⟨h'.1.trans h.1, h'.2.trans h.2, h'.3.trans h.3⟩⟩

end TokenState

open TokenState

section
variable {policy : TokenPolicy} {op : TokenOperation}

/-! ## Failed operations -/

theorem touch_moves (a : Address) : Moves Same (Proc.modify fun s => s.touch a : Proc TokenState TokenErr Unit) :=
  Moves.modify fun _ => ⟨rfl, touch_balance, rfl⟩

theorem performToken_fails : Fails Same (performToken policy op amount) := by
  unfold performToken
  split
  · refine .bind (.read _) fun _ => .bind (.read _) fun _ => Total.fails ?_
    exact (Total.modify _).bind fun _ => .modify _
  · refine .bind (.read _) fun _ => .bind (touch_moves _) fun _ => .bind (.read _) fun _ => Total.fails ?_
    exact (Total.modify _).bind fun _ => .modify _
  · refine .bind (.read _) fun _ => .bind (touch_moves _) fun _ => .bind (.read _) fun _ => .bind (.read _) fun _ =>
      Total.fails ?_
    refine (Total.modify _).bind fun _ => (Total.modify _).bind fun _ => ?_
    unfold Proc.runWhen
    split
    · exact .modify _
    · exact .pure _
  · exact .bind (.read _) fun _ => (Total.modify _).fails
  · exact .bind (.read _) fun _ => (Total.modify _).fails
  · exact (Moves.read _).fails
  · exact (Moves.read _).fails

structure TokenReady (policy : TokenPolicy) (op : TokenOperation) (s : TokenState) : Prop where
  cap : ∀ cap ∈ policy.maxSupply, 0 ≤ cap
  royalty : policy.royaltyBPS ≤ 10000
  amount : ¬ op.kind.switches → 0 ≤ op.amount.getD 0
  running : s.paused = true → op.kind = .unpause

def TokenState.supplied (s : TokenState) : TokenState := { s with totalSupply := some s.supply }

theorem applyToken_cases (policy : TokenPolicy) (op : TokenOperation) (s : TokenState) :
    (∃ e t, applyToken policy op s = (.error e, t) ∧
        (t = s ∨ (∀ cap ∈ policy.maxSupply, 0 ≤ cap) ∧ t = s.supplied)) ∨
      TokenReady policy op s ∧ applyToken policy op s = performToken policy op (op.amount.getD 0) s.supplied := by
  unfold applyToken
  rw [guard_bind]
  split
  · exact .inl ⟨_, s, rfl, .inl rfl⟩
  rename_i hpolicy
  rw [guard_bind]
  split
  · exact .inl ⟨_, s, rfl, .inl rfl⟩
  rename_i hamount
  simp only [not_or, not_exists, not_and, UInt16.not_lt, Int.not_lt] at hpolicy hamount
  obtain ⟨_, _, _, hcap, hroyalty, _⟩ := hpolicy
  rw [bind_apply, Proc.modify]
  simp only
  rw [guard_bind]
  split
  · exact .inl ⟨_, _, rfl, .inr ⟨hcap, rfl⟩⟩
  rw [guard_bind]
  split
  · exact .inl ⟨_, _, rfl, .inr ⟨hcap, rfl⟩⟩
  rename_i hpaused
  refine .inr ⟨⟨hcap, hroyalty, fun hk => ?_, fun hp => ?_⟩, rfl⟩
  · cases hop : op.amount with
    | none => exact Int.le_refl 0
    | some amount => exact (hamount hk).2 amount hop
  · by_contra hne
    exact hpaused ⟨hp, hne⟩

/-! ## Successful operations -/

inductive TokenEffect (policy : TokenPolicy) (op : TokenOperation) (v : Int) (s t : TokenState) : Prop
  | minted (hcap : ∀ cap ∈ policy.maxSupply, s.supply + v ≤ cap) (hs : t.totalSupply = some (s.supply + v))
      (hb : t.balance = shift s.balance op.toAddr v) (hk : op.kind = .mint)
  | burned (hv : v ≤ s.balance op.fromAddr) (hactor : op.actor = op.fromAddr)
      (hs : t.totalSupply = some (s.supply - v)) (hb : t.balance = shift s.balance op.fromAddr (-v))
      (hk : op.kind = .burn)
  | moved (hv : v ≤ s.balance op.fromAddr) (hactor : op.actor = op.fromAddr) (hs : t.totalSupply = s.totalSupply)
      (hb : t.balance = shift (shift (shift s.balance op.fromAddr (-v)) op.toAddr (v - royaltyFee policy v))
        policy.royaltyRecipient (royaltyFee policy v)) (hk : op.kind = .transfer)
  | kept (hs : t.totalSupply = s.totalSupply) (hb : t.balance = s.balance)

theorem royaltyFee_bounds (hr : policy.royaltyBPS ≤ 10000) (hv : 0 ≤ amount) :
    0 ≤ royaltyFee policy amount ∧ royaltyFee policy amount ≤ amount := by
  unfold royaltyFee
  have hbps : policy.royaltyBPS.toNat ≤ 10000 := by simpa using UInt16.le_iff_toNat_le.mp hr
  split
  · constructor
    · exact Int.ediv_nonneg (Int.mul_nonneg hv (Int.natCast_nonneg _)) (by decide)
    · refine Int.ediv_le_of_le_mul (by decide) ?_
      exact Int.mul_le_mul_of_nonneg_left (by exact_mod_cast hbps) hv
  · exact ⟨Int.le_refl 0, hv⟩

theorem performToken_ok (hv : ¬ op.kind.switches → 0 ≤ amount)
    (hr : policy.royaltyBPS ≤ 10000) (h : performToken policy op amount s = (.ok u, t)) :
    TokenEffect policy op amount s t := by
  cases hk : op.kind with
  | mint =>
    simp only [performToken, hk, run_rules, failIf_ok] at h
    obtain ⟨_, hcap, rfl⟩ := h
    refine .minted (fun cap hmem => ?_) rfl credit_balance hk
    by_contra hlt
    exact hcap ⟨cap, hmem, by omega⟩
  | burn =>
    simp only [performToken, hk, run_rules, failIf_ok, not_or, not_not] at h
    obtain ⟨⟨_, hactor, _⟩, hle, rfl⟩ := h
    rw [touch_balance, Int.not_lt] at hle
    refine .burned hle hactor rfl ?_ hk
    exact credit_balance.trans (by rw [touch_balance])
  | transfer =>
    simp only [performToken, hk, run_rules, failIf_ok, not_or, not_not] at h
    obtain ⟨⟨_, _, hactor⟩, hle, _, h⟩ := h
    rw [touch_balance, Int.not_lt] at hle
    have hfee := royaltyFee_bounds hr (hv (by rw [hk]; decide))
    rcases runWhen_ok.mp h with ⟨_, h⟩ | ⟨hzero, rfl⟩
    · obtain rfl := modify_ok.mp h
      refine .moved hle hactor rfl ?_ hk
      rw [credit_balance, credit_balance, credit_balance, touch_balance]
    · have hnone : royaltyFee policy amount = 0 := by
        have := of_decide_eq_false hzero
        omega
      refine .moved hle hactor rfl ?_ hk
      rw [credit_balance, credit_balance, touch_balance, hnone, shift_zero]
  | pause =>
    simp only [performToken, hk, run_rules] at h
    obtain ⟨_, rfl⟩ := h
    exact .kept rfl rfl
  | unpause =>
    simp only [performToken, hk, run_rules] at h
    obtain ⟨_, rfl⟩ := h
    exact .kept rfl rfl
  | shield =>
    simp only [performToken, hk, read_ok] at h
    obtain ⟨_, rfl⟩ := h
    exact .kept rfl rfl
  | other code =>
    simp only [performToken, hk, read_ok] at h
    cases h.1

/-! ## Whole runs -/

structure TokenSound (policy : TokenPolicy) (s : TokenState) : Prop where
  total : ∑ a ∈ accounts, s.balance a = s.supply
  nonneg : ∀ a, 0 ≤ s.balance a
  capped : ∀ supply ∈ s.totalSupply, ∀ cap ∈ policy.maxSupply, supply ≤ cap

structure TokenCall (op : TokenOperation) (s : TokenState) (r : Except TokenErr Unit) (t : TokenState) : Prop where
  halted : s.paused = true → r = .ok () → op.kind = .unpause
  owner : ∀ a, t.balance a < s.balance a → a = op.actor
  failed : ∀ e, r = .error e → t.supply = s.supply ∧ t.balance = s.balance ∧ t.paused = s.paused

section
variable {s t : TokenState} (h : TokenEffect policy op amount s t) (hv : ¬ op.kind.switches → 0 ≤ amount)
  (hr : policy.royaltyBPS ≤ 10000)
include h hv hr

theorem TokenEffect.sound (hs : TokenSound policy s) (hsome : s.totalSupply = some s.supply) :
    TokenSound policy t := by
  cases h with
  | minted hcap hsupply hb hk =>
    have hpos := hv (by rw [hk]; decide)
    refine ⟨?_, fun a => ?_, fun supply hmem cap hc => ?_⟩
    · rw [hb, sum_shift, hs.total, supply_of_some hsupply]
    · rw [hb, shift_apply]
      have := hs.nonneg a
      split <;> omega
    · rw [hsupply] at hmem
      cases hmem
      exact hcap cap hc
  | burned hle hactor hsupply hb hk =>
    have hpos := hv (by rw [hk]; decide)
    refine ⟨?_, fun a => ?_, fun supply hmem cap hc => ?_⟩
    · rw [hb, sum_shift, hs.total, supply_of_some hsupply, Int.sub_eq_add_neg]
    · rw [hb, shift_apply]
      have := hs.nonneg a
      split
      · rename_i h
        rw [h]
        omega
      · omega
    · rw [hsupply] at hmem
      cases hmem
      have := hs.capped _ hsome cap hc
      omega
  | moved hle hactor hsupply hb hk =>
    have hfee := royaltyFee_bounds hr (hv (by rw [hk]; decide))
    refine ⟨?_, fun a => ?_, fun supply hmem => hs.capped supply (hsupply ▸ hmem)⟩
    · rw [hb, sum_shift, sum_shift, sum_shift, hs.total, supply_congr hsupply]
      omega
    · rw [hb, shift_apply, shift_apply, shift_apply]
      have := hs.nonneg a
      by_cases ha : a = op.fromAddr
      · rw [if_pos ha, ha]
        split <;> split <;> omega
      · rw [if_neg ha]
        split <;> split <;> omega
  | kept hsupply hb =>
    exact ⟨by rw [hb, hs.total, supply_congr hsupply], fun a => hb ▸ hs.nonneg a,
      fun supply hmem => hs.capped supply (hsupply ▸ hmem)⟩

theorem TokenEffect.owner (a : Address) (hlt : t.balance a < s.balance a) : a = op.actor := by
  by_contra hne
  cases h with
  | minted hcap hsupply hb hk =>
    have hpos := hv (by rw [hk]; decide)
    rw [hb, shift_apply] at hlt
    split at hlt <;> omega
  | burned hle hactor hsupply hb hk =>
    rw [hactor] at hne
    rw [hb, shift_apply, if_neg hne] at hlt
    omega
  | moved hle hactor hsupply hb hk =>
    have hfee := royaltyFee_bounds hr (hv (by rw [hk]; decide))
    rw [hactor] at hne
    rw [hb, shift_apply, shift_apply, shift_apply, if_neg hne] at hlt
    split at hlt <;> split at hlt <;> omega
  | kept hsupply hb =>
    rw [hb] at hlt
    omega

end

theorem supplied_sound (hs : TokenSound policy s) (hcap : ∀ cap ∈ policy.maxSupply, 0 ≤ cap) :
    TokenSound policy s.supplied := by
  refine ⟨hs.total, hs.nonneg, fun supply hmem cap hc => ?_⟩
  cases hmem
  cases h : s.totalSupply with
  | none => simpa [TokenState.supply, h] using hcap cap hc
  | some n =>
    rw [supply_of_some h]
    exact hs.capped n h cap hc

theorem TokenState.Same.sound {s t : TokenState} (h : Same s t) (hs : TokenSound policy s) : TokenSound policy t :=
  ⟨by rw [h.balance, hs.total, supply_congr h.totalSupply], fun a => h.balance ▸ hs.nonneg a,
    fun supply hmem => hs.capped supply (h.totalSupply ▸ hmem)⟩

theorem TokenCall.of_same (hs : t.supply = s.supply) (hb : t.balance = s.balance)
    (hp : t.paused = s.paused) : TokenCall op s (.error e) t where
  halted _ h := nomatch h
  owner a h := absurd h (by rw [hb]; exact Int.lt_irrefl _)
  failed _ _ := ⟨hs, hb, hp⟩

theorem applyToken_step (policy : TokenPolicy) (op : TokenOperation) (hs : TokenSound policy s) :
    TokenSound policy (applyToken policy op s).2 ∧
      TokenCall op s (applyToken policy op s).1 (applyToken policy op s).2 := by
  rcases applyToken_cases policy op s with ⟨e, t, h, rfl | ⟨hcap, rfl⟩⟩ | ⟨hready, h⟩
  · rw [h]
    exact ⟨hs, .of_same rfl rfl rfl⟩
  · rw [h]
    exact ⟨supplied_sound hs hcap, .of_same rfl rfl rfl⟩
  · rw [h]
    have hsup := supplied_sound hs hready.cap
    rcases hrun : performToken policy op (op.amount.getD 0) s.supplied with ⟨r, t⟩
    cases r with
    | error e =>
      have hsame := performToken_fails _ _ _ hrun
      have hsupply : t.supply = s.supplied.supply := supply_congr hsame.totalSupply
      exact ⟨hsame.sound hsup, .of_same hsupply hsame.balance hsame.paused⟩
    | ok u =>
      have heff := performToken_ok hready.amount hready.royalty hrun
      exact ⟨heff.sound hready.amount hready.royalty hsup rfl,
        fun hp _ => hready.running hp, heff.owner hready.amount hready.royalty, fun e he => nomatch he⟩

theorem empty_sound : TokenSound policy .empty :=
  ⟨Finset.sum_eq_zero fun _ _ => rfl, fun _ => Int.le_refl 0, fun _ h => nomatch h⟩

theorem runToken_sound (ops : List TokenOperation) : TokenSound policy (runToken policy ops) := by
  induction ops using List.reverseRecOn with
  | nil => exact empty_sound
  | append_singleton ops op ih =>
    rw [runToken, List.foldl_append, ← runToken]
    exact (applyToken_step policy op ih).1

end

/-- Along every run the balances add up to the supply, none is negative and the supply keeps to its cap; while paused
only unpausing succeeds, a call takes from its actor alone, and a failed one shows nothing. -/
theorem token_books_balance (policy : TokenPolicy) (ops : List TokenOperation) (op : TokenOperation) :
    let s := runToken policy ops
    ∑ a ∈ accounts, s.balance a = s.supply ∧ (∀ a, 0 ≤ s.balance a) ∧
      (∀ supply ∈ s.totalSupply, ∀ cap ∈ policy.maxSupply, supply ≤ cap) ∧
      (s.paused = true → (applyToken policy op s).1 = .ok () → op.kind = .unpause) ∧
      (∀ a, (applyToken policy op s).2.balance a < s.balance a → a = op.actor) ∧
      ∀ e, (applyToken policy op s).1 = .error e → (applyToken policy op s).2.supply = s.supply ∧
        (applyToken policy op s).2.balance = s.balance ∧ (applyToken policy op s).2.paused = s.paused := by
  have hs : TokenSound policy (runToken policy ops) := runToken_sound ops
  obtain ⟨_, hcall⟩ := applyToken_step policy op hs
  exact ⟨hs.total, hs.nonneg, hs.capped, hcall.halted, hcall.owner, hcall.failed⟩

end TkmChain
