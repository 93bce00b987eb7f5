import TkmChain.Merkle
import TkmChain.SolvencySound
import TkmChain.TreePaths

/-!
# The V6 output accumulator

The accumulator keeps the outputs by index, the index of every one-time key, the
frontier of the tree over the output leaves, and the root. A call that fails
changes nothing, so all of it is a function of the outputs appended so far.
-/

namespace TkmChain

open List Function

variable {i j : Nat}

open Merkle

def KeccakNonzero (B : Backend) : Prop := ∀ b, B.keccak256 b ≠ 0

def ZeroPointInvalid (B : Backend) : Prop := B.validPublicKey 0 = false ∧ B.validCommitment 0 = false

section
variable (B : Backend)

def v6NodeHash (l r : Hash) : Except Err Hash := .ok (shieldedV6HashNode B l r)

def v6EmptyLeaf : Hash := B.keccak256 (Bytes.ofText "TKM_SHIELD6_ACCUMULATOR_EMPTY_LEAF_V1")

def outputLeaf (i : Nat) (output : ShieldedV6Output) : Hash :=
  B.keccak256 (Bytes.ofText "TKM_SHIELD6_ACCUMULATOR_LEAF_V1" ++ Bytes.be 8 i ++ output.oneTimeKey.bytes ++
    output.commitment.bytes)

def outputLeaves (outputs : List ShieldedV6Output) : List Hash := outputs.mapIdx (outputLeaf B)

end

section
variable {B : Backend}

/-! ## Nodes -/

theorem node_ne_zero (hB : KeccakNonzero B)
    (h : node (v6NodeHash B) (padded (v6EmptyLeaf B) (outputLeaves B outputs)) n i = .ok d) : d ≠ 0 := by
  cases n with
  | zero =>
    rw [← Except.ok.inj h, padded, outputLeaves, getD_eq_getElem?_getD, getElem?_mapIdx]
    cases outputs[i]? with
    | none => exact hB _
    | some output => exact hB _
  | succ n =>
    rw [node, except_bind_ok] at h
    obtain ⟨l, _, h⟩ := h
    obtain ⟨r, _, h⟩ := except_bind_ok.mp h
    rw [← Except.ok.inj h]
    exact hB _

theorem shieldedV6EmptyFrom_empties (hz : empty (v6NodeHash B) (v6EmptyLeaf B) k = .ok z) :
    Empties (v6NodeHash B) (v6EmptyLeaf B) k (shieldedV6EmptyFrom B z n) := by
  induction n generalizing k z with
  | zero => exact ⟨hz, trivial⟩
  | succ n ih =>
    refine ⟨hz, ih ?_⟩
    rw [empty_succ, hz]
    rfl

theorem shieldedV6EmptyFrom_length (z : Hash) (n : Nat) : (shieldedV6EmptyFrom B z n).length = n + 1 := by
  induction n generalizing z with
  | zero => rfl
  | succ n ih => rw [shieldedV6EmptyFrom, length_cons, ih]

theorem shieldedV6EmptyNodes_empties : Empties (v6NodeHash B) (v6EmptyLeaf B) 0 (shieldedV6EmptyNodes B) :=
  shieldedV6EmptyFrom_empties rfl

theorem shieldedV6EmptyNodes_length : (shieldedV6EmptyNodes B).length = merkleDepth + 1 :=
  shieldedV6EmptyFrom_length _ _

/-! ## The frontier loop -/

def v6Front (st : StateDB) (k : Nat) : Hash := st.storage (shieldedV6FrontierSlot k)

theorem v6FrontierSlot_inj (hi : i < merkleDepth) (hj : j < merkleDepth)
    (h : shieldedV6FrontierSlot i = shieldedV6FrontierSlot j) : i = j := by
  rw [merkleDepth] at hi hj
  exact Bytes.be_inj (by omega) (by omega) (Slot.v6.inj h).2

theorem frontierClimb_spec (level : Nat)
    (hlevel : level + zeroes.length = merkleDepth)
    (hz : Empties (v6NodeHash B) (v6EmptyLeaf B) level zeroes)
    (hfront : Frontier (v6NodeHash B) (v6EmptyLeaf B) merkleDepth leaves (v6Front st))
    (hc : node (v6NodeHash B) (padded (v6EmptyLeaf B) (leaves ++ [x])) level (leaves.length / 2 ^ level) = .ok current) :
    Inserted (v6NodeHash B) (v6EmptyLeaf B) merkleDepth leaves x level (v6Front st)
        (v6Front (frontierClimb B zeroes level (leaves.length / 2 ^ level) st current).1)
        (frontierClimb B zeroes level (leaves.length / 2 ^ level) st current).2 ∧
      ∀ s, (∀ k, level ≤ k → k < merkleDepth → s ≠ shieldedV6FrontierSlot k) →
        (frontierClimb B zeroes level (leaves.length / 2 ^ level) st current).1.storage s = st.storage s := by
  induction zeroes generalizing level st current with
  | nil =>
    obtain rfl : level = merkleDepth := by simpa using hlevel
    exact ⟨Inserted.top hc, fun _ _ => rfl⟩
  | cons z zeroes ih =>
    rw [length_cons] at hlevel
    have hd : level < merkleDepth := by omega
    -- the slot of this level is out of reach of the levels above
    have hbelow : ∀ k, level + 1 ≤ k → k < merkleDepth → shieldedV6FrontierSlot level ≠ shieldedV6FrontierSlot k := by
      intro k hk hk' heq
      have := v6FrontierSlot_inj hd hk' heq
      omega
    rw [frontierClimb]
    by_cases hbit : leaves.length / 2 ^ level % 2 = 0
    · have hset : ∀ k < merkleDepth, k ≠ level →
          v6Front (st.setState (shieldedV6FrontierSlot level) current) k = v6Front st k := by
        intro k hk hne
        have hslot : shieldedV6FrontierSlot k ≠ shieldedV6FrontierSlot level := fun h => hne (v6FrontierSlot_inj hk hd h)
        exact update_of_ne hslot current st.storage
      obtain ⟨hinserted, hframe⟩ :=
        ih (level + 1) (by omega) hz.2 (hfront.overwrite hbit hset) (parent_empty hbit hz.1 hc)
      rw [if_pos hbit, ← div_pow_succ]
      constructor
      · apply hinserted.step
        · exact hframe _ hbelow
        · intro _
          rw [hc, v6Front, StateDB.setState_storage, update_self]
        · intro hodd
          omega
        · exact hset
      · intro s hs
        rw [hframe s fun k hk => hs k (by omega), StateDB.setState_storage,
          update_of_ne (hs level le_rfl hd)]
    · have hodd : leaves.length / 2 ^ level % 2 = 1 := by omega
      obtain ⟨hinserted, hframe⟩ := ih (level + 1) (by omega) hz.2 hfront (hfront.parent hd hodd hc)
      rw [if_neg hbit, ← div_pow_succ]
      constructor
      · apply hinserted.step
        · exact hframe _ hbelow
        · exact fun heven => absurd heven hbit
        · exact fun _ => rfl
        · exact fun _ _ _ => rfl
      · exact fun s hs => hframe s fun k hk => hs k (by omega)

/-! ## One append -/

def outputAppended (B : Backend) (output : ShieldedV6Output) (txHash : Hash) (st : StateDB) : StateDB :=
  let count := shieldedV6OutputCount st
  let r := frontierClimb B ((shieldedV6EmptyNodes B).take merkleDepth) 0 count st (outputLeaf B count output)
  let key := shieldedV6IndexKey count
  r.1.setStates
    [(.v6 .outputKey key, output.oneTimeKey), (.v6 .outputCommitment key, output.commitment),
     (.v6 .outputTx key, txHash), (.v6 .keyIndex output.oneTimeKey.bytes, uint64Hash (count + 1)),
     (.v6 .outputCount [], uint64Hash (count + 1)), (.v6 .outputRoot [], r.2)]

section
variable {st : StateDB}

theorem shieldedV6AppendOutput_ok :
    shieldedV6AppendOutput B output txHash st = (.ok (), st') ↔
      shieldedV6OutputCheck B output st = .ok () ∧ st' = outputAppended B output txHash st := by
  simp only [shieldedV6AppendOutput, Proc.run_rules]
  exact and_congr_right fun _ => eq_comm

theorem shieldedV6AppendOutput_error (h : shieldedV6AppendOutput B output txHash st = (.error e, st')) :
    shieldedV6OutputCheck B output st = .error e ∧ st' = st := by
  rcases Proc.bind_error.mp h with h | ⟨_, _, _, h⟩
  · obtain ⟨hcheck, rfl⟩ := Proc.read_error.mp h
    exact ⟨hcheck, rfl⟩
  · cases h

end

structure Accumulator (B : Backend) (st : StateDB) (outputs : List ShieldedV6Output) : Prop where
  room : outputs.length ≤ 2 ^ merkleDepth
  count : st.storage (.v6 .outputCount []) = uint64Hash outputs.length
  frontier : Frontier (v6NodeHash B) (v6EmptyLeaf B) merkleDepth (outputLeaves B outputs) (v6Front st)
  start : outputs = [] → st.storage (.v6 .outputRoot []) = 0
  root : outputs ≠ [] →
    root (v6NodeHash B) (v6EmptyLeaf B) merkleDepth (outputLeaves B outputs) = .ok (st.storage (.v6 .outputRoot []))
  stored : ∀ i output, outputs[i]? = some output →
    st.storage (.v6 .outputKey (shieldedV6IndexKey i)) = output.oneTimeKey ∧
      st.storage (.v6 .outputCommitment (shieldedV6IndexKey i)) = output.commitment
  valid : ∀ output ∈ outputs, B.validPublicKey output.oneTimeKey = true ∧ B.validCommitment output.commitment = true
  index : ∀ i output, outputs[i]? = some output →
    st.storage (.v6 .keyIndex output.oneTimeKey.bytes) = uint64Hash (i + 1)
  free : ∀ key, (∀ output ∈ outputs, output.oneTimeKey ≠ key) → st.storage (.v6 .keyIndex key.bytes) = 0

theorem outputLeaves_append (outputs : List ShieldedV6Output) (output : ShieldedV6Output) :
    outputLeaves B (outputs ++ [output]) = outputLeaves B outputs ++ [outputLeaf B outputs.length output] :=
  mapIdx_concat

@[simp] theorem outputLeaves_length (outputs : List ShieldedV6Output) :
    (outputLeaves B outputs).length = outputs.length := length_mapIdx

theorem uint64Hash_succ_ne_zero (h : n < 2 ^ 64 - 1) : uint64Hash (n + 1) ≠ 0 := by
  intro heq
  have := uint64FromHash_uint64Hash (n := n + 1) (by omega)
  rw [heq] at this
  simp [uint64FromHash] at this

namespace Accumulator

variable {st : StateDB} {outputs : List ShieldedV6Output}

theorem outputCount (h : Accumulator B st outputs) : shieldedV6OutputCount st = outputs.length := by
  have hroom := h.room
  rw [merkleDepth] at hroom
  rw [shieldedV6OutputCount, h.count, uint64FromHash_uint64Hash (by omega)]

theorem nil (h : ∀ r key, st.storage (.v6 r key) = 0) : Accumulator B st [] where
  room := by simp
  count := h _ _
  frontier := Frontier.nil
  start _ := h _ _
  root hne := absurd rfl hne
  stored := by simp
  valid := by simp
  index := by simp
  free _ _ := h _ _

theorem frontier_ne_zero (hB : KeccakNonzero B) (h : Accumulator B st outputs) (hlevel : level < merkleDepth)
    (hbit : shieldedV6OutputCount st / 2 ^ level % 2 = 1) : st.storage (shieldedV6FrontierSlot level) ≠ 0 := by
  rw [h.outputCount, ← outputLeaves_length (B := B)] at hbit
  exact node_ne_zero hB (h.frontier level hlevel hbit)

theorem climb (h : Accumulator B st outputs) (output : ShieldedV6Output) :
    let r := frontierClimb B ((shieldedV6EmptyNodes B).take merkleDepth) 0 outputs.length st
      (outputLeaf B outputs.length output)
    Inserted (v6NodeHash B) (v6EmptyLeaf B) merkleDepth (outputLeaves B outputs) (outputLeaf B outputs.length output) 0
        (v6Front st) (v6Front r.1) r.2 ∧
      ∀ s, (∀ k < merkleDepth, s ≠ shieldedV6FrontierSlot k) → r.1.storage s = st.storage s := by
  obtain ⟨hinserted, hframe⟩ := frontierClimb_spec (B := B) (x := outputLeaf B outputs.length output) 0
    (by rw [length_take, shieldedV6EmptyNodes_length]; rfl) (shieldedV6EmptyNodes_empties.take merkleDepth) h.frontier
    (by rw [Nat.pow_zero, Nat.div_one, node, padded_append_self])
  rw [Nat.pow_zero, Nat.div_one, outputLeaves_length] at hinserted hframe
  exact ⟨hinserted, fun s hs => hframe s fun k _ => hs k⟩

theorem append (h : Accumulator B st outputs) (hcheck : shieldedV6OutputCheck B output st = .ok ()) (txHash : Hash) :
    Accumulator B (outputAppended B output txHash st) (outputs ++ [output]) := by
  obtain ⟨hinserted, hframe⟩ := h.climb output
  simp only [shieldedV6OutputCheck, ok_rules, not_not, Bool.not_eq_true, Nat.not_le] at hcheck
  obtain ⟨_, hkey, _, hcommitment, _, hroom, _, hfree, _⟩ := hcheck
  rw [h.outputCount] at hroom
  have hlen : outputs.length < 2 ^ 32 := hroom
  have hnew : ∀ old ∈ outputs, old.oneTimeKey ≠ output.oneTimeKey := by
    intro old hold heq
    obtain ⟨i, hi⟩ := mem_iff_getElem?.mp hold
    have hlt := (List.getElem?_eq_some_iff.mp hi).1
    have := h.index i old hi
    rw [heq, hfree] at this
    exact uint64Hash_succ_ne_zero (by omega) this.symm
  have hkeys : ∀ {i old}, outputs[i]? = some old → shieldedV6IndexKey i ≠ shieldedV6IndexKey outputs.length := by
    intro i old hi heq
    have hlt := (List.getElem?_eq_some_iff.mp hi).1
    have := Bytes.be_inj (by omega) (by omega) heq
    omega
  rw [outputAppended, h.outputCount]
  generalize frontierClimb B ((shieldedV6EmptyNodes B).take merkleDepth) 0 outputs.length st
    (outputLeaf B outputs.length output) = climbed at hinserted hframe ⊢
  have hout : ∀ r key, r ≠ .frontier → climbed.1.storage (.v6 r key) = st.storage (.v6 r key) :=
    fun r key hr => hframe _ fun k _ heq => hr (Slot.v6.inj heq).1
  constructor
  · rw [length_append, length_singleton]
    exact hroom
  · simp [StateDB.setStates]
  · intro k hk hbit
    rw [outputLeaves_append] at hbit ⊢
    rw [hinserted.frontier h.frontier k hk hbit]
    simp [v6Front, StateDB.setStates, shieldedV6FrontierSlot]
  · intro hnil
    simp at hnil
  · intro _
    have hroot := hinserted.root
    rw [outputLeaves_length, Nat.div_eq_of_lt hroom] at hroot
    rw [outputLeaves_append]
    simp only [StateDB.setStates, foldl_cons, foldl_nil, StateDB.setState_storage, update_self]
    exact hroot
  · intro i out hi
    rcases getElem?_concat_cases hi with hi | ⟨rfl, rfl⟩
    · simp [StateDB.setStates, update_of_ne, hkeys hi, hout, h.stored i out hi]
    · simp [StateDB.setStates]
  · intro out hmem
    rcases mem_append.mp hmem with hmem | hmem
    · exact h.valid out hmem
    · obtain rfl := mem_singleton.mp hmem
      exact ⟨by simpa using hkey, by simpa using hcommitment⟩
  · intro i out hi
    rcases getElem?_concat_cases hi with hi | ⟨rfl, rfl⟩
    · have hne : out.oneTimeKey.bytes ≠ output.oneTimeKey.bytes :=
        fun heq => hnew out (mem_of_getElem? hi) (Hash.bytes_inj heq)
      simp [StateDB.setStates, update_of_ne, hne, hout, h.index i out hi]
    · simp [StateDB.setStates]
  · intro key hkey
    have hne : key.bytes ≠ output.oneTimeKey.bytes := fun heq => hkey output (by simp) (Hash.bytes_inj heq).symm
    have hold := h.free key fun old hold => hkey old (by simp [hold])
    simp [StateDB.setStates, update_of_ne, hne, hout, hold]

theorem check_error (hB : KeccakNonzero B) (h : Accumulator B st outputs)
    (hcheck : shieldedV6OutputCheck B output st = .error e) :
    e = .invalidShieldedTx "invalid Shield6 one-time key" ∨ e = .invalidShieldedTx "invalid Shield6 amount commitment" ∨
      e = .invalidShieldedTx "Shield6 output accumulator is full" ∨
      e = .invalidShieldedTx "duplicate Shield6 one-time output key" := by
  simp only [shieldedV6OutputCheck, except_bind_error, failIf_error] at hcheck
  rcases hcheck with ⟨_, he⟩ | ⟨_, _, ⟨_, he⟩ | ⟨_, _, ⟨_, he⟩ | ⟨_, _, ⟨_, he⟩ | ⟨_, _, hall⟩⟩⟩⟩
  · exact .inl he.symm
  · exact .inr (.inl he.symm)
  · exact .inr (.inr (.inl he.symm))
  · exact .inr (.inr (.inr he.symm))
  · rw [checkAll_ok (u := ()) |>.mpr fun level hlevel => failIf_ok.mpr fun hmissing =>
      h.frontier_ne_zero hB (mem_range.mp hlevel) hmissing.1 hmissing.2] at hall
    cases hall

theorem key_unique (h : Accumulator B st outputs) (hi : outputs[i]? = some a)
    (hj : outputs[j]? = some b) (hkey : a.oneTimeKey = b.oneTimeKey) : i = j := by
  have hlen := h.room
  rw [merkleDepth] at hlen
  have hilt := (List.getElem?_eq_some_iff.mp hi).1
  have hjlt := (List.getElem?_eq_some_iff.mp hj).1
  have heq := (h.index i a hi).symm.trans (hkey ▸ h.index j b hj)
  have hcount := congrArg uint64FromHash heq
  rw [uint64FromHash_uint64Hash (by omega), uint64FromHash_uint64Hash (by omega)] at hcount
  omega

theorem keys_nodup (h : Accumulator B st outputs) : (outputs.map (·.oneTimeKey)).Nodup := by
  rw [nodup_iff_getElem?_ne_getElem?]
  intro i j hij hj heq
  rw [length_map] at hj
  rw [getElem?_map, getElem?_map, getElem?_eq_getElem (by omega), getElem?_eq_getElem hj] at heq
  have := h.key_unique (getElem?_eq_getElem (by omega)) (getElem?_eq_getElem hj) (Option.some.inj heq)
  omega

theorem index_iff (h : Accumulator B st outputs) (hi : i < outputs.length) (key : Hash) :
    st.storage (.v6 .keyIndex key.bytes) = uint64Hash (i + 1) ↔
      st.storage (.v6 .outputKey (shieldedV6IndexKey i)) = key := by
  have hlen := h.room
  rw [merkleDepth] at hlen
  have hget : outputs[i]? = some outputs[i] := getElem?_eq_getElem hi
  rw [(h.stored i _ hget).1]
  constructor
  · intro hindex
    by_cases hkey : ∀ output ∈ outputs, output.oneTimeKey ≠ key
    · rw [h.free key hkey] at hindex
      exact absurd hindex.symm (uint64Hash_succ_ne_zero (by omega))
    · simp only [not_forall, not_not] at hkey
      obtain ⟨output, hmem, rfl⟩ := hkey
      obtain ⟨j, hj⟩ := mem_iff_getElem?.mp hmem
      have hjlt := (List.getElem?_eq_some_iff.mp hj).1
      have hcount := congrArg uint64FromHash ((h.index j output hj).symm.trans hindex)
      rw [uint64FromHash_uint64Hash (by omega), uint64FromHash_uint64Hash (by omega)] at hcount
      obtain rfl : i = j := by omega
      rw [hget] at hj
      rw [Option.some.inj hj]
  · rintro rfl
    exact h.index i _ hget

theorem read (hpoint : ZeroPointInvalid B) (h : Accumulator B st outputs) (hi : outputs[i]? = some output) :
    shieldedV6ReadOutput st i = .ok ⟨output.oneTimeKey, output.commitment⟩ := by
  obtain ⟨hkey, hcommitment⟩ := h.stored i output hi
  obtain ⟨hvalid, hvalid'⟩ := h.valid output (mem_of_getElem? hi)
  have hk : output.oneTimeKey ≠ 0 := by
    intro hzero
    rw [hzero, hpoint.1] at hvalid
    cases hvalid
  have hc : output.commitment ≠ 0 := by
    intro hzero
    rw [hzero, hpoint.2] at hvalid'
    cases hvalid'
  have hlt := (List.getElem?_eq_some_iff.mp hi).1
  simp only [shieldedV6ReadOutput, ok_rules, hkey, hcommitment, h.outputCount]
  exact ⟨(), Nat.not_le.mpr hlt, (), not_or.mpr ⟨hk, hc⟩, trivial⟩

theorem outputRoot (h : Accumulator B st outputs) :
    Merkle.root (v6NodeHash B) (v6EmptyLeaf B) merkleDepth (outputLeaves B outputs) = .ok (shieldedV6OutputRoot B st) := by
  rw [shieldedV6OutputRoot, h.outputCount]
  by_cases hnil : outputs = []
  · rw [if_pos ⟨h.start hnil, by rw [hnil]; rfl⟩, hnil]
    have hlast := (shieldedV6EmptyNodes_empties (B := B)).getD (d := 0) (j := merkleDepth) (by simp [shieldedV6EmptyNodes_length])
    rw [Nat.zero_add] at hlast
    exact (node_empty (Nat.zero_le _)).trans hlast
  · rw [if_neg fun hzero => hnil (length_eq_zero_iff.mp hzero.2)]
    exact h.root hnil

end Accumulator

/-! ## Sequences of calls -/

/-- Calls that append, successful or not, from a state without V6 slots; with the outputs appended so far. -/
inductive OutputCalls (B : Backend) : StateDB → List ShieldedV6Output → Prop
  | start {st : StateDB} (h : ∀ r key, st.storage (.v6 r key) = 0) : OutputCalls B st []
  | appended {st st' : StateDB} {outputs : List ShieldedV6Output} {output : ShieldedV6Output} {txHash : Hash}
      (h : OutputCalls B st outputs) (hcall : shieldedV6AppendOutput B output txHash st = (.ok (), st')) :
      OutputCalls B st' (outputs ++ [output])
  | failed {st st' : StateDB} {outputs : List ShieldedV6Output} {output : ShieldedV6Output} {txHash : Hash} {e : Err}
      (h : OutputCalls B st outputs) (hcall : shieldedV6AppendOutput B output txHash st = (.error e, st')) :
      OutputCalls B st' outputs

theorem OutputCalls.accumulator (h : OutputCalls B st outputs) :
    Accumulator B st outputs := by
  induction h with
  | start h => exact Accumulator.nil h
  | appended _ hcall ih =>
    obtain ⟨hcheck, rfl⟩ := shieldedV6AppendOutput_ok.mp hcall
    exact ih.append hcheck _
  | failed _ hcall ih =>
    obtain ⟨_, rfl⟩ := shieldedV6AppendOutput_error hcall
    exact ih

/-- The accumulator after any calls: its root is the Merkle root of the appended outputs, its indexes are inverse to
each other, all outputs are readable, and a further call that fails changes nothing and never misses a node. -/
theorem output_accumulator (hB : KeccakNonzero B) (hpoint : ZeroPointInvalid B) {st : StateDB}
    {outputs : List ShieldedV6Output} (h : OutputCalls B st outputs) :
    root (v6NodeHash B) (v6EmptyLeaf B) merkleDepth (outputLeaves B outputs) = .ok (shieldedV6OutputRoot B st) ∧
      shieldedV6OutputCount st = outputs.length ∧
      (∀ i < shieldedV6OutputCount st, ∀ key, st.storage (.v6 .keyIndex key.bytes) = uint64Hash (i + 1) ↔
        st.storage (.v6 .outputKey (shieldedV6IndexKey i)) = key) ∧
      (outputs.map (·.oneTimeKey)).Nodup ∧
      (∀ i output, outputs[i]? = some output →
        shieldedV6ReadOutput st i = .ok ⟨output.oneTimeKey, output.commitment⟩) ∧
      ∀ output txHash e st', shieldedV6AppendOutput B output txHash st = (.error e, st') → st' = st ∧
        ∀ level : Nat, e ≠ .invalidShieldedTx ("missing Shield6 accumulator frontier node at level " ++ toString level) := by
  have hacc := h.accumulator
  refine ⟨hacc.outputRoot, hacc.outputCount, ?_, hacc.keys_nodup, fun i output => hacc.read hpoint, ?_⟩
  · intro i hi key
    rw [hacc.outputCount] at hi
    exact hacc.index_iff hi key
  · intro output txHash e st' hcall
    obtain ⟨hcheck, hsame⟩ := shieldedV6AppendOutput_error hcall
    refine ⟨hsame, fun level heq => ?_⟩
    -- the texts differ in their first letter
    rcases hacc.check_error hB hcheck with rfl | rfl | rfl | rfl
    all_goals
      have hhead := congrArg (fun s => s.toList.head?) (Err.invalidShieldedTx.inj heq)
      simp at hhead

end

def pointBackend : Backend := { migrationBackend with
  keccak256 := fun _ => 1
  validPublicKey := fun key => key ≠ 0
  validCommitment := fun commitment => commitment ≠ 0 }

def firstOutput : ShieldedV6Output where
  oneTimeKey := 2
  ephemeralKey := 0
  commitment := 3
  amountLimbs := (0, 0)
  encryptedNote := []

theorem output_accumulator_one :
    shieldedV6ReadOutput (shieldedV6AppendOutput pointBackend firstOutput 1 emptyState).2 0 = .ok ⟨2, 3⟩ := by
  have hrun := OutputCalls.appended (B := pointBackend) (.start (fun _ _ => rfl))
    (Proc.ok_of_isOk (x := shieldedV6AppendOutput pointBackend firstOutput 1) (s := emptyState) (by decide +kernel))
  exact (output_accumulator (fun _ => (by decide : (1 : Hash) ≠ 0)) ⟨by decide, by decide⟩ hrun).2.2.2.2.1 0 firstOutput rfl

end TkmChain
