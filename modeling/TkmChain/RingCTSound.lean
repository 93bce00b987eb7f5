import TkmChain.RingCT

/-!
# Conservation of value in Shield6

The checks of a spend are equations between points, that is between amounts modulo the
order of the group. Range proofs bound the limbs of outputs, so amounts are below `2^128`,
and sixteen inputs or outputs and a public value stay below the order.
-/

namespace TkmChain.Shielded6

open List

variable {outputs : List WideCommitment} {amounts : List ℤ}

open Pedersen

theorem exists_of_forall₂ (h : List.Forall₂ R xs ys) :
    ∀ x ∈ xs, ∃ y ∈ ys, R x y := by
  induction h with
  | nil => exact nofun
  | cons hr _ ih =>
    refine forall_mem_cons.mpr ⟨⟨_, mem_cons_self, hr⟩, ?_⟩
    intro x hx
    obtain ⟨y, hy, hxy⟩ := ih x hx
    exact ⟨y, mem_cons_of_mem _ hy, hxy⟩

theorem forall₂_of_exists (h : ∀ x ∈ xs, ∃ y, R x y) :
    ∃ ys, List.Forall₂ R xs ys := by
  induction xs with
  | nil => exact ⟨[], .nil⟩
  | cons x xs ih =>
    obtain ⟨⟨y, hy⟩, hrest⟩ := forall_mem_cons.mp h
    obtain ⟨ys, hys⟩ := ih hrest
    exact ⟨y :: ys, .cons hy hys⟩

structure Knowledge where
  /-- Masks and values of known openings. -/
  openings : AddSubgroup (ℤ × ℤ)
  /-- Range proofs, with the commitments they were made for. -/
  proofs : List Hash → Bytes → Prop
  /-- Public values are committed to with mask zero. -/
  zero_mask : ∀ v, (0, v) ∈ openings

def Knowledge.Made (K : Knowledge) (outputs : List WideCommitment) (proof : Bytes) : Prop :=
  ∀ low high, decodeRangeProofBundle proof = .ok (low, high) →
    K.proofs (outputs.map (·.limbs.1)) low ∧ K.proofs (outputs.map (·.limbs.2)) high

def Knowledge.Disclosed (K : Knowledge) (amount : ℤ) (mask : Hash) : Prop :=
  ∀ scalar, decodeScalar mask = .ok scalar → ((scalar : ℤ), amount) ∈ K.openings

section
variable {𝔾 : Type} [AddCommGroup 𝔾] {C : Curve 𝔾} {K : Knowledge}

def Knowledge.Binding (K : Knowledge) (C : Curve 𝔾) : Prop := Pedersen.Binding C.generators K.openings groupOrder

def Knowledge.Opens (K : Knowledge) (C : Curve 𝔾) (encoded : Hash) (v : ℤ) : Prop :=
  ∃ p, C.setBytes encoded = some p ∧ Pedersen.Opens C.generators K.openings p v

def Knowledge.Amount (K : Knowledge) (C : Curve 𝔾) (output : WideCommitment) (amount : ℤ) : Prop :=
  ∃ low high : ℤ, K.Opens C output.limbs.1 low ∧ K.Opens C output.limbs.2 high ∧ (0 ≤ low ∧ low < 2 ^ 64) ∧
    (0 ≤ high ∧ high < 2 ^ 64) ∧ amount = low + 2 ^ 64 * high

def Knowledge.RangeSound (K : Knowledge) (C : Curve 𝔾) : Prop :=
  ∀ commitments points proof, K.proofs commitments proof → C.verifyAggregate commitments points proof = true →
    ∀ p ∈ points, ∃ v : ℤ, 0 ≤ v ∧ v < 2 ^ 64 ∧ Pedersen.Opens C.generators K.openings p v

theorem opens_points
    (hpoints : List.Forall₂ (fun e p => C.setBytes e = some p) encoded points) (hvs : List.Forall₂ (K.Opens C) encoded vs) :
    List.Forall₂ (Pedersen.Opens C.generators K.openings) points vs := by
  induction hpoints generalizing vs with
  | nil =>
    cases hvs
    exact .nil
  | cons hp _ ih =>
    cases hvs with
    | cons hv hvs =>
      obtain ⟨p', hp', hopens⟩ := hv
      obtain rfl : _ = p' := Option.some.inj (hp.symm.trans hp')
      exact .cons hopens (ih hvs)

theorem Knowledge.Amount.unique (hbinding : K.Binding C)
    (ha : K.Amount C output a) (hb : K.Amount C output b) : a = b := by
  obtain ⟨low, high, ⟨p, hp, hlow⟩, ⟨q, hq, hhigh⟩, ⟨hlow0, hlow64⟩, ⟨hhigh0, hhigh64⟩, rfl⟩ := ha
  obtain ⟨low', high', ⟨p', hp', hlow'⟩, ⟨q', hq', hhigh'⟩, ⟨hlow0', hlow64'⟩, ⟨hhigh0', hhigh64'⟩, rfl⟩ := hb
  obtain rfl : p = p' := Option.some.inj (hp.symm.trans hp')
  obtain rfl : q = q' := Option.some.inj (hq.symm.trans hq')
  have horder : (2 : ℤ) ^ 64 ≤ groupOrder := by decide
  rw [hbinding.eq_of_lt hlow hlow' hlow0 (by omega) hlow0' (by omega),
    hbinding.eq_of_lt hhigh hhigh' hhigh0 (by omega) hhigh0' (by omega)]

theorem Knowledge.Amount.bounds (h : K.Amount C output a) : 0 ≤ a ∧ a ≤ 2 ^ 128 := by
  obtain ⟨low, high, -, -, ⟨hlow0, hlow64⟩, ⟨hhigh0, hhigh64⟩, rfl⟩ := h
  constructor
  · omega
  · omega

theorem amounts_sum (hopens : ∀ output ∈ outputs, ∀ a, K.Amount C output a → K.Opens C output.commitment a)
    (hdecoded : List.Forall₂ (fun e p => C.setBytes e = some p) (outputs.map (·.commitment)) points)
    (hamounts : List.Forall₂ (K.Amount C) outputs amounts) (hlength : outputs.length ≤ maxRangeOutputs) :
    Pedersen.Opens C.generators K.openings points.sum amounts.sum ∧ 0 ≤ amounts.sum ∧ amounts.sum ≤ maxRangeOutputs * 2 ^ 128 := by
  constructor
  · apply opens_sum
    apply opens_points hdecoded
    clear hdecoded hlength
    induction hamounts with
    | nil => exact .nil
    | cons ha _ ih =>
      exact .cons (hopens _ mem_cons_self _ ha) (ih fun output hmem => hopens output (mem_cons_of_mem _ hmem))
  · apply sum_bounds
    · intro a ha
      obtain ⟨output, -, hamount⟩ := exists_of_forall₂ hamounts.flip a ha
      exact Knowledge.Amount.bounds hamount
    · decide
    · rw [← hamounts.length_eq]
      exact hlength

theorem amounts_unique (hbinding : K.Binding C)
    (hx : List.Forall₂ (K.Amount C) outputs xs) (hy : List.Forall₂ (K.Amount C) outputs ys) : xs = ys := by
  induction hx generalizing ys with
  | nil =>
    cases hy
    rfl
  | cons ha _ ih =>
    cases hy with
    | cons hb hrest => rw [ha.unique hbinding hb, ih hrest]

variable [DecidableEq 𝔾]

theorem decodePoint_ok (h : decodePoint C encoded allowIdentity = .ok p) :
    C.setBytes encoded = some p := by
  simp only [decodePoint, ok_rules] at h
  obtain ⟨_, hp, -, -, rfl⟩ := h
  exact hp

theorem decodePoints_ok (h : decodePoints C what index encoded = .ok points) :
    List.Forall₂ (fun e p => C.setBytes e = some p) encoded points := by
  induction encoded generalizing index points with
  | nil =>
    cases h
    exact .nil
  | cons e rest ih =>
    simp only [decodePoints, ok_rules] at h
    obtain ⟨p, hp, others, hothers, rfl⟩ := h
    exact .cons (decodePoint_ok hp) (ih hothers)

/-! ## Outputs -/

theorem checkLimbs_ok (h : checkLimbs C index outputs = .ok ()) :
    ∀ output ∈ outputs, combineAmountLimbs C output.limbs.1 output.limbs.2 = .ok output.commitment := by
  induction outputs generalizing index with
  | nil => exact nofun
  | cons output rest ih =>
    simp only [checkLimbs, ok_rules, not_not] at h
    obtain ⟨combined, hcombined, -, rfl, hrest⟩ := h
    exact forall_mem_cons.mpr ⟨hcombined, ih hrest⟩

theorem verifyRangeProof_opens (hrange : K.RangeSound C)
    (hmade : K.proofs commitments proof) (h : verifyRangeProof C commitments proof = .ok ()) :
    ∀ e ∈ commitments, ∃ v : ℤ, (0 ≤ v ∧ v < 2 ^ 64) ∧ K.Opens C e v := by
  simp only [verifyRangeProof, ok_rules] at h
  obtain ⟨-, -, points, hpoints, hverified⟩ := h
  have hsound := hrange commitments points proof hmade (by simpa using hverified)
  have hdecoded := decodePoints_ok hpoints
  intro e he
  obtain ⟨p, hp, hdecode⟩ := exists_of_forall₂ hdecoded e he
  obtain ⟨v, hv0, hv, hopens⟩ := hsound p hp
  exact ⟨v, ⟨hv0, hv⟩, p, hdecode, hopens⟩

theorem verifyRangeProof128_amounts (hrange : K.RangeSound C)
    (hmade : K.Made outputs proof) (h : verifyRangeProof128 C outputs proof = .ok ()) :
    (∀ output ∈ outputs, ∃ a, K.Amount C output a) ∧
      ∀ output ∈ outputs, ∀ a, K.Amount C output a → K.Opens C output.commitment a := by
  simp only [verifyRangeProof128, ok_rules] at h
  obtain ⟨-, -, ⟨⟩, hlimbs, ⟨lowProof, highProof⟩, hbundle, ⟨⟩, hlow, hhigh⟩ := h
  obtain ⟨hmadeLow, hmadeHigh⟩ := hmade lowProof highProof hbundle
  constructor
  · intro output hmem
    obtain ⟨low, hlow64, hlowOpens⟩ := verifyRangeProof_opens hrange hmadeLow hlow _ (mem_map_of_mem hmem)
    obtain ⟨high, hhigh64, hhighOpens⟩ := verifyRangeProof_opens hrange hmadeHigh hhigh _ (mem_map_of_mem hmem)
    exact ⟨_, low, high, hlowOpens, hhighOpens, hlow64, hhigh64, rfl⟩
  · rintro output hmem a ⟨low, high, ⟨p, hp, hlowOpens⟩, ⟨q, hq, hhighOpens⟩, -, -, rfl⟩
    have hcombined := checkLimbs_ok hlimbs output hmem
    simp only [combineAmountLimbs, ok_rules] at hcombined
    obtain ⟨p', hp', q', hq', hbytes⟩ := hcombined
    obtain rfl : p = p' := Option.some.inj (hp.symm.trans (decodePoint_ok hp'))
    obtain rfl : q = q' := Option.some.inj (hq.symm.trans (decodePoint_ok hq'))
    refine ⟨p + two64Scalar • q, by rw [← hbytes, C.setBytes_bytes], ?_⟩
    have hweighted := hlowOpens.add (hhighOpens.nsmul two64Scalar)
    exact hweighted

def Knowledge.Accepted (K : Knowledge) (C : Curve 𝔾) (output : WideCommitment) : Prop :=
  ∃ outputs proof, output ∈ outputs ∧ K.Made outputs proof ∧ verifyRangeProof128 C outputs proof = .ok ()

theorem decodeScalar_zero : decodeScalar 0 = .ok 0 := by decide

theorem publicPoint_opens (hpos : 0 ≤ publicValue) (h : publicPoint C publicValue = .ok p) :
    Pedersen.Opens C.generators K.openings p publicValue := by
  unfold publicPoint at h
  split at h
  · simp only [commitment128, ok_rules] at h
    obtain ⟨_, ⟨-, -, mask, hmask, rfl⟩, hpoint⟩ := h
    rw [decodeScalar_zero] at hmask
    obtain rfl : 0 = mask := Except.ok.inj hmask
    have hdecoded := decodePoint_ok hpoint
    rw [C.setBytes_bytes] at hdecoded
    rw [← Option.some.inj hdecoded]
    exact opens_commit (K.zero_mask _)
  · obtain rfl : publicValue = 0 := by omega
    cases h
    exact opens_zero

theorem spend_conserves (hbinding : K.Binding C)
    (hopens : ∀ output ∈ outputs, ∀ a, K.Amount C output a → K.Opens C output.commitment a)
    (hamounts : List.Forall₂ (K.Amount C) outputs amounts)
    (hbalance : verifyCommitmentBalance128 C pseudoOutputs (outputs.map (·.commitment)) publicValue = .ok ())
    (hinputs : List.Forall₂ (K.Opens C) pseudoOutputs inputs) (hbounds : ∀ a ∈ inputs, 0 ≤ a ∧ a ≤ 2 ^ 128) :
    inputs.sum = amounts.sum + publicValue := by
  have horder : (maxRangeOutputs + 1 : ℤ) * 2 ^ 128 < groupOrder := by decide
  simp only [verifyCommitmentBalance128, ok_rules, not_or, not_lt, not_not] at hbalance
  obtain ⟨-, ⟨-, hins, houts, -⟩, -, ⟨hpublic0, hpublic⟩, lhs, hlhs, rhs, hrhs, exit, hexit, heq⟩ := hbalance
  rw [length_map] at houts
  obtain ⟨hright, hright0, hrightmax⟩ := amounts_sum hopens (decodePoints_ok hrhs) hamounts houts
  have hleft := opens_sum (opens_points (decodePoints_ok hlhs) hinputs)
  have hsum := sum_bounds hbounds (by decide) (hinputs.length_eq ▸ hins)
  rw [heq] at hleft
  exact hbinding.eq_of_lt hleft (hright.add (publicPoint_opens hpublic0 hexit)) hsum.1 (by omega) (by omega) (by omega)

theorem deposit_conserves (hbinding : K.Binding C)
    (hopens : ∀ output ∈ outputs, ∀ a, K.Amount C output a → K.Opens C output.commitment a)
    (hamounts : List.Forall₂ (K.Amount C) outputs amounts) (hdisclosed : K.Disclosed amount mask)
    (hdeposit : verifyDepositCommitment C (outputs.map (·.commitment)) amount mask = .ok ()) : amounts.sum = amount := by
  have horder : (maxRangeOutputs + 1 : ℤ) * 2 ^ 128 < groupOrder := by decide
  simp only [verifyDepositCommitment, ok_rules, not_or, not_lt, not_le, not_not, commitment128] at hdeposit
  obtain ⟨-, ⟨-, houts, hamount0, hamount⟩, points, hpoints, _, ⟨-, -, scalar, hscalar, rfl⟩, expected, hexpected, hsum⟩ :=
    hdeposit
  rw [length_map] at houts
  obtain ⟨hright, hright0, hrightmax⟩ := amounts_sum hopens (decodePoints_ok hpoints) hamounts houts
  have hdecoded := decodePoint_ok hexpected
  rw [C.setBytes_bytes] at hdecoded
  rw [hsum, ← Option.some.inj hdecoded] at hright
  exact hbinding.eq_of_lt hright (opens_commit (hdisclosed scalar hscalar)) hright0 (by omega) (by omega) (by omega)

end

/-- Accepted spends and deposits of Shield6 neither create nor destroy value. -/
theorem shield6_conserves_value {𝔾 : Type} [AddCommGroup 𝔾] [DecidableEq 𝔾] (C : Curve 𝔾) (K : Knowledge)
    (hbinding : K.Binding C) (hrange : K.RangeSound C) (outputs : List WideCommitment) (proof : Bytes)
    (hmade : K.Made outputs proof) :
    (∀ (pseudoOutputs : List Hash) (publicValue : ℤ) (inputs : List ℤ),
      outputs = [] ∨ verifyRangeProof128 C outputs proof = .ok () →
      verifyCommitmentBalance128 C pseudoOutputs (outputs.map (·.commitment)) publicValue = .ok () →
      List.Forall₂ (fun pseudo a => K.Opens C pseudo a ∧ ∃ earlier, K.Accepted C earlier ∧ K.Amount C earlier a) pseudoOutputs
        inputs →
      ∃ amounts, List.Forall₂ (K.Amount C) outputs amounts ∧ (∀ others, List.Forall₂ (K.Amount C) outputs others → others = amounts) ∧
        inputs.sum = amounts.sum + publicValue) ∧
    ∀ (amount : ℤ) (mask : Hash), K.Disclosed amount mask → verifyRangeProof128 C outputs proof = .ok () →
      verifyDepositCommitment C (outputs.map (·.commitment)) amount mask = .ok () →
      ∃ amounts, List.Forall₂ (K.Amount C) outputs amounts ∧ (∀ others, List.Forall₂ (K.Amount C) outputs others → others = amounts) ∧
        amounts.sum = amount := by
  constructor
  · intro pseudoOutputs publicValue inputs hproof hbalance hinputs
    have hout : (∀ output ∈ outputs, ∃ a, K.Amount C output a) ∧
        ∀ output ∈ outputs, ∀ a, K.Amount C output a → K.Opens C output.commitment a := by
      rcases hproof with rfl | hproof
      · exact ⟨nofun, nofun⟩
      · exact verifyRangeProof128_amounts hrange hmade hproof
    obtain ⟨amounts, hamounts⟩ := forall₂_of_exists hout.1
    refine ⟨amounts, hamounts, fun others hothers => amounts_unique hbinding hothers hamounts, ?_⟩
    refine spend_conserves hbinding hout.2 hamounts hbalance (hinputs.imp fun _ _ h => h.1) ?_
    intro a ha
    obtain ⟨_, -, -, _, -, hamount⟩ := exists_of_forall₂ hinputs.flip a ha
    exact hamount.bounds
  · intro amount mask hdisclosed hproof hdeposit
    obtain ⟨hexists, hopens⟩ := verifyRangeProof128_amounts hrange hmade hproof
    obtain ⟨amounts, hamounts⟩ := forall₂_of_exists hexists
    exact ⟨amounts, hamounts, fun others hothers => amounts_unique hbinding hothers hamounts,
      deposit_conserves hbinding hopens hamounts hdisclosed hdeposit⟩

/-! Numbers modulo the order, with nothing hidden. -/

instance : NeZero groupOrder := ⟨by decide⟩

def plainCurve : Curve (ZMod groupOrder) where
  setBytes h := if h.toNat < groupOrder then some h.toNat else none
  bytes p := BitVec.ofNat 256 p.val
  setBytes_bytes p := by
    have hlt := p.val_lt
    have hbytes : (BitVec.ofNat 256 p.val).toNat = p.val := by
      rw [BitVec.toNat_ofNat]
      exact Nat.mod_eq_of_lt (hlt.trans (by decide))
    rw [hbytes, if_pos hlt, ZMod.natCast_zmod_val]
  generators := ⟨0, 1⟩
  verifyAggregate _ points _ := points.all (·.val < 2 ^ 64)

def plainKnowledge : Knowledge := ⟨⊤, fun _ _ => True, fun _ => AddSubgroup.mem_top _⟩

theorem plainKnowledge_opens (p : ZMod groupOrder) (v : ℤ) :
    Pedersen.Opens plainCurve.generators plainKnowledge.openings p v ↔ p = v := by
  simp [Pedersen.Opens, plainKnowledge, plainCurve, Generators.commit]

theorem plainKnowledge_binding : plainKnowledge.Binding plainCurve := by
  intro p v w hv hw
  rw [plainKnowledge_opens] at hv hw
  exact (ZMod.intCast_eq_intCast_iff v w groupOrder).mp (hv.symm.trans hw)

theorem plainKnowledge_rangeSound : plainKnowledge.RangeSound plainCurve := by
  intro commitments points proof _ hverified p hp
  have hlt : p.val < 2 ^ 64 := by simpa [plainCurve] using all_eq_true.mp hverified p hp
  refine ⟨p.val, by omega, by exact_mod_cast hlt, ?_⟩
  rw [plainKnowledge_opens, Int.cast_natCast, ZMod.natCast_zmod_val]

def plainCoin : WideCommitment := ⟨1 + 2 ^ 64, 1, 1⟩

theorem plainCurve_commit (mask value : ℤ) : plainCurve.generators.commit mask value = value := by
  simp [plainCurve, Generators.commit]

theorem plainCurve_combine (low high : Hash) (n m : ℕ) (hlow : plainCurve.setBytes low = some (n : ZMod groupOrder))
    (hhigh : plainCurve.setBytes high = some (m : ZMod groupOrder)) :
    combineAmountLimbs plainCurve low high = .ok (plainCurve.bytes ((n + two64Scalar * m : ℕ) : ZMod groupOrder)) := by
  simp only [combineAmountLimbs, decodePoint, hlow, hhigh, orFail, failIf, Bool.true_eq_false, false_and, if_false, bind,
    Except.bind, pure, Except.pure, nsmul_eq_mul, Nat.cast_add, Nat.cast_mul]

theorem plainCurve_commitment128 (mask : Hash) (scalar : ℕ) (value : ℤ) (h : 0 ≤ value ∧ value < 2 ^ 128)
    (hmask : decodeScalar mask = .ok scalar) :
    commitment128 plainCurve value mask = .ok (plainCurve.bytes (value : ZMod groupOrder)) := by
  have hrange : ¬ (value < 0 ∨ 2 ^ 128 ≤ value) := by omega
  simp only [commitment128, failIf, if_neg hrange, hmask, bind, Except.bind, pure, Except.pure, plainCurve_commit]

theorem plainCoin_verified : verifyRangeProof128 plainCurve [plainCoin] [0xc2, 1, 1] = .ok () := by
  have hcombined := plainCurve_combine 1 1 1 1 (by decide) (by decide)
  have hlimbs : checkLimbs plainCurve 0 [plainCoin] = .ok () := by
    simp only [checkLimbs, plainCoin, hcombined]
    decide +kernel
  simp only [verifyRangeProof128, hlimbs]
  decide +kernel

theorem shield6_conserves_value_plain :
    (∃ amounts, List.Forall₂ (plainKnowledge.Amount plainCurve) [plainCoin] amounts ∧
      [1 + 2 ^ 64, 1 + 2 ^ 64].sum = amounts.sum + (1 + 2 ^ 64)) ∧
    ∃ amounts, List.Forall₂ (plainKnowledge.Amount plainCurve) [plainCoin] amounts ∧ amounts.sum = 1 + 2 ^ 64 := by
  have hmade : plainKnowledge.Made [plainCoin] [0xc2, 1, 1] := fun _ _ _ => ⟨trivial, trivial⟩
  have hopens (h : Hash) (v : ℤ) (hv : plainCurve.setBytes h = some (v : ZMod groupOrder)) :
      plainKnowledge.Opens plainCurve h v := ⟨_, hv, (plainKnowledge_opens _ v).mpr rfl⟩
  have hcoin : plainKnowledge.Amount plainCurve plainCoin (1 + 2 ^ 64) :=
    ⟨1, 1, hopens 1 1 (by decide +kernel), hopens 1 1 (by decide +kernel), by decide, by decide, by decide⟩
  have hinput : plainKnowledge.Opens plainCurve (1 + 2 ^ 64) (1 + 2 ^ 64) ∧
      ∃ earlier, plainKnowledge.Accepted plainCurve earlier ∧ plainKnowledge.Amount plainCurve earlier (1 + 2 ^ 64) :=
    ⟨hopens _ _ (by decide +kernel), plainCoin, ⟨_, _, mem_cons_self, hmade, plainCoin_verified⟩, hcoin⟩
  obtain ⟨spend, deposit⟩ := shield6_conserves_value plainCurve plainKnowledge plainKnowledge_binding
    plainKnowledge_rangeSound [plainCoin] [0xc2, 1, 1] hmade
  constructor
  · have hexit : publicPoint plainCurve (1 + 2 ^ 64) = .ok (1 + 2 ^ 64) := by
      simp only [publicPoint, plainCurve_commitment128 0 0 (1 + 2 ^ 64) (by decide) decodeScalar_zero]
      decide +kernel
    have hbalance : verifyCommitmentBalance128 plainCurve [1 + 2 ^ 64, 1 + 2 ^ 64] [1 + 2 ^ 64] (1 + 2 ^ 64) = .ok () := by
      simp only [verifyCommitmentBalance128, hexit]
      decide +kernel
    obtain ⟨amounts, hamounts, -, hsum⟩ := spend [1 + 2 ^ 64, 1 + 2 ^ 64] (1 + 2 ^ 64) [1 + 2 ^ 64, 1 + 2 ^ 64]
      (.inr plainCoin_verified) hbalance (.cons hinput (.cons hinput .nil))
    exact ⟨amounts, hamounts, hsum⟩
  · have hdeposit : verifyDepositCommitment plainCurve [1 + 2 ^ 64] (1 + 2 ^ 64) 0 = .ok () := by
      simp only [verifyDepositCommitment, plainCurve_commitment128 0 0 (1 + 2 ^ 64) (by decide) decodeScalar_zero]
      decide +kernel
    obtain ⟨amounts, hamounts, -, hsum⟩ := deposit (1 + 2 ^ 64) 0 (fun _ _ => AddSubgroup.mem_top _) plainCoin_verified
      hdeposit
    exact ⟨amounts, hamounts, hsum⟩

end TkmChain.Shielded6
