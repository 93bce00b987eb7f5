import TkmChain.Merkle
import TkmChain.SolvencySound
import TkmChain.TreePaths

/-!
# The V1/V2 tree

The tree keeps the frontier of complete subtrees and, for each commitment, the
path it had when it was appended. The frontier is that of the Merkle tree over
the commitments so far, and the paths stay those of the tree at their append.
-/

namespace TkmChain

open Merkle List Function

section
def nodeHash (B : Backend) (l r : Hash) : Except Err Hash := .ok (shieldedHashNode B l r)

/-! ## Empty subtrees and folds -/

theorem shieldedMerkleZeroes_empties (hz : empty (nodeHash B) 0 k = .ok z) :
    Empties (nodeHash B) 0 k (shieldedMerkleZeroes B z n) := by
  induction n generalizing k z with
  | zero => trivial
  | succ n ih =>
    refine ⟨hz, ih ?_⟩
    rw [empty_succ, hz]
    rfl

theorem shieldedMerkleZeroes_length (z : Hash) (n : Nat) : (shieldedMerkleZeroes B z n).length = n := by
  induction n generalizing z with
  | zero => rfl
  | succ n ih => rw [shieldedMerkleZeroes, length_cons, ih]

theorem zeroHashes_empty (h : level < merkleDepth) :
    empty (nodeHash B) 0 level = .ok ((shieldedMerkleZeroHashes B).getD level 0) := by
  have hempties : Empties (nodeHash B) 0 0 (shieldedMerkleZeroHashes B) := shieldedMerkleZeroes_empties rfl
  have hlength : (shieldedMerkleZeroHashes B).length = merkleDepth := shieldedMerkleZeroes_length _ _
  rw [← hempties.getD (hlength ▸ h), Nat.zero_add]

theorem fold_computeShieldedMerkleRoot (i : Nat) (path : List Hash) (c : Hash) :
    fold (nodeHash B) i path c = .ok (computeShieldedMerkleRoot B c path
      ((List.range path.length).map fun level => i / 2 ^ level % 2 = 1)) := by
  induction path generalizing i c with
  | nil => rfl
  | cons s path ih =>
    have hbits : (List.range (path.length + 1)).map (fun level => decide (i / 2 ^ level % 2 = 1)) =
        decide (i % 2 = 1) :: (List.range path.length).map fun level => decide (i / 2 / 2 ^ level % 2 = 1) := by
      rw [range_succ_eq_map, map_cons, map_map, Nat.pow_zero, Nat.div_one]
      congr 1
      apply map_congr_left
      intro level _
      rw [comp_apply, Nat.succ_eq_add_one, Nat.pow_succ, Nat.mul_comm, ← Nat.div_div_eq_div_mul]
    rw [fold, length_cons, hbits, computeShieldedMerkleRoot]
    by_cases h : i % 2 = 0
    · have hright : decide (i % 2 = 1) = false := by simp [h]
      rw [join, if_pos h, hright]
      exact ih (i / 2) _
    · have hright : decide (i % 2 = 1) = true := by simp; omega
      rw [join, if_neg h, hright]
      exact ih (i / 2) _

/-! ## The level loop -/

theorem uint64Hash_bytes_inj (hi : i < merkleDepth) (hj : j < merkleDepth)
    (h : (uint64Hash i).bytes = (uint64Hash j).bytes) : i = j := by
  have heq := congrArg BitVec.toNat (Hash.bytes_inj h)
  rw [merkleDepth] at hi hj
  rw [uint64Hash, uint64Hash, BitVec.toNat_ofNat, BitVec.toNat_ofNat, Nat.mod_eq_of_lt (by omega),
    Nat.mod_eq_of_lt (by omega)] at heq
  exact heq

theorem frontierSlot_inj (hi : i < merkleDepth) (hj : j < merkleDepth)
    (h : shieldedMerkleFrontierSlot i = shieldedMerkleFrontierSlot j) : i = j :=
  uint64Hash_bytes_inj hi hj (Slot.v1.inj h).2

theorem pathSlot_inj (hi : i < merkleDepth) (hj : j < merkleDepth)
    (h : shieldedCommitmentPathSlot c i = shieldedCommitmentPathSlot d j) : c = d ∧ i = j := by
  obtain ⟨hc, hlevel⟩ := append_inj (Slot.v1.inj h).2 (by simp [Hash.bytes])
  exact ⟨Hash.bytes_inj hc, uint64Hash_bytes_inj hi hj hlevel⟩

def legacyFront (st : StateDB) (k : Nat) : Hash := st.storage (shieldedMerkleFrontierSlot k)

theorem legacyFront_setPath (st : StateDB) (c v : Hash) (level k : Nat) :
    legacyFront (st.setState (shieldedCommitmentPathSlot c level) v) k = legacyFront st k :=
  update_of_ne (nofun : shieldedMerkleFrontierSlot k ≠ shieldedCommitmentPathSlot c level) v st.storage

theorem legacyFront_set (st : StateDB) (v : Hash) (hlevel : level < merkleDepth) (hk : k < merkleDepth)
    (hne : k ≠ level) : legacyFront (st.setState (shieldedMerkleFrontierSlot level) v) k = legacyFront st k := by
  have hslot : shieldedMerkleFrontierSlot k ≠ shieldedMerkleFrontierSlot level :=
    fun h => hne (frontierSlot_inj hk hlevel h)
  exact update_of_ne hslot v st.storage

/-- What the loop has written from `level` on: the frontier of the longer tree and the path of the new leaf. -/
structure LegacyClimb (B : Backend) (c : Hash) (leaves : List Hash) (level : Nat) (st st' : StateDB) (r : Hash) :
    Prop where
  inserted : Inserted (nodeHash B) 0 merkleDepth leaves c level (legacyFront st) (legacyFront st') r
  path : ∀ k, level ≤ k → k < merkleDepth →
    node (nodeHash B) (padded 0 (leaves ++ [c])) k ((leaves.length / 2 ^ k) ^^^ 1) =
      .ok (st'.storage (shieldedCommitmentPathSlot c k))
  frame : ∀ s, (∀ k, level ≤ k → k < merkleDepth → s ≠ shieldedMerkleFrontierSlot k) →
    (∀ k, level ≤ k → k < merkleDepth → s ≠ shieldedCommitmentPathSlot c k) → st'.storage s = st.storage s

theorem LegacyClimb.step (h : LegacyClimb B c leaves (level + 1) st₁ st' r) (hlevel : level < merkleDepth)
    (hleft : leaves.length / 2 ^ level % 2 = 0 →
      node (nodeHash B) (padded 0 (leaves ++ [c])) level (leaves.length / 2 ^ level) = .ok (legacyFront st₁ level))
    (hright : leaves.length / 2 ^ level % 2 = 1 → legacyFront st₁ level = legacyFront st level)
    (hpath : node (nodeHash B) (padded 0 (leaves ++ [c])) level ((leaves.length / 2 ^ level) ^^^ 1) =
      .ok (st₁.storage (shieldedCommitmentPathSlot c level)))
    (hframe : ∀ s, s ≠ shieldedMerkleFrontierSlot level → s ≠ shieldedCommitmentPathSlot c level →
      st₁.storage s = st.storage s) : LegacyClimb B c leaves level st st' r := by
  have hfront : legacyFront st' level = legacyFront st₁ level := by
    apply h.frame
    · intro k hk hd heq
      have := frontierSlot_inj hlevel hd heq
      omega
    · intro k _ _ heq
      cases heq
  have hwitness : st'.storage (shieldedCommitmentPathSlot c level) = st₁.storage (shieldedCommitmentPathSlot c level) := by
    apply h.frame
    · intro k _ _ heq
      cases heq
    · intro k hk hd heq
      have := (pathSlot_inj hlevel hd heq).2
      omega
  constructor
  · apply h.inserted.step hfront hleft hright
    intro k hd hne
    exact hframe _ (fun hs => hne (frontierSlot_inj hd hlevel hs)) nofun
  · intro k hk hd
    by_cases heq : k = level
    · subst heq
      rw [hwitness, hpath]
    · exact h.path k (by omega) hd
  · intro s hf hp
    rw [h.frame s (fun k hk => hf k (by omega)) (fun k hk => hp k (by omega))]
    exact hframe s (hf level le_rfl hlevel) (hp level le_rfl hlevel)

theorem merkleClimb_spec (hlevel : level + zeroes.length = merkleDepth)
    (hz : Empties (nodeHash B) 0 level zeroes)
    (hfront : Frontier (nodeHash B) 0 merkleDepth leaves (legacyFront st))
    (hc : node (nodeHash B) (padded 0 (leaves ++ [c])) level (leaves.length / 2 ^ level) = .ok current) :
    LegacyClimb B c leaves level st (merkleClimb B c leaves.length zeroes level st current).1
      (merkleClimb B c leaves.length zeroes level st current).2 := by
  induction zeroes generalizing level st current with
  | nil =>
    obtain rfl : level = merkleDepth := by simpa using hlevel
    exact ⟨Inserted.top hc, fun k hk hd => by omega, fun _ _ _ => rfl⟩
  | cons z zeroes ih =>
    rw [length_cons] at hlevel
    have hd : level < merkleDepth := by omega
    by_cases hbit : leaves.length / 2 ^ level % 2 = 0
    · rw [merkleClimb, if_pos hbit]
      refine (ih (by omega) hz.2 ?_ ?_).step hd ?_ ?_ ?_ ?_
      · apply hfront.overwrite hbit
        intro k hk hne
        rw [legacyFront_setPath, legacyFront_set st current hd hk hne]
      · exact parent_empty hbit hz.1 hc
      · intro _
        rw [hc, legacyFront_setPath, legacyFront, StateDB.setState_storage, update_self]
      · intro hodd
        omega
      · rw [sibling_empty hbit, hz.1, StateDB.setState_storage, update_self]
      · intro s hf hp
        rw [StateDB.setState_storage, update_of_ne hp, StateDB.setState_storage, update_of_ne hf]
    · have hodd : leaves.length / 2 ^ level % 2 = 1 := by omega
      rw [merkleClimb, if_neg hbit]
      refine (ih (by omega) hz.2 ?_ ?_).step hd ?_ ?_ ?_ ?_
      · intro k hk hodd'
        rw [hfront k hk hodd', legacyFront_setPath]
      · exact hfront.parent hd hodd hc
      · exact fun heven => absurd heven hbit
      · intro _
        rw [legacyFront_setPath]
      · rw [hfront.sibling hd hodd, StateDB.setState_storage, update_self]
        rfl
      · intro s _ hp
        rw [StateDB.setState_storage, update_of_ne hp]

/-! ## One append -/

def legacyAppended (B : Backend) (c txHash : Hash) (st : StateDB) : StateDB :=
  let index := shieldedMerkleNextIndex st
  let r := merkleClimb B c index (shieldedMerkleZeroHashes B) 0 st c
  r.1.setStates
    [(.v1 .commitmentIndex c.bytes, uint64Hash (index + 1)), (.v1 .nextIndex [], uint64Hash (index + 1)),
     (shieldedMerkleRootSlot r.2, txHash)]

theorem appendShieldedMerkleLeaf_iff :
    appendShieldedMerkleLeaf B c txHash st = (.ok (), st') ↔
      shieldedMerkleNextIndex st < 2 ^ merkleDepth ∧ st' = legacyAppended B c txHash st := by
  simp only [appendShieldedMerkleLeaf, Proc.run_rules, failIf_ok, Nat.not_le]
  constructor
  · rintro ⟨n, hn, hroom, rfl⟩
    obtain rfl : shieldedMerkleNextIndex _ = n := Except.ok.inj hn
    exact ⟨hroom, rfl⟩
  · rintro ⟨hroom, rfl⟩
    exact ⟨_, rfl, hroom, rfl⟩

structure LegacyEffect (B : Backend) (c txHash : Hash) (leaves : List Hash) (st st' : StateDB) (r : Hash) : Prop where
  root : root (nodeHash B) 0 merkleDepth (leaves ++ [c]) = .ok r
  known : st'.storage (shieldedMerkleRootSlot r) = txHash
  rootFrame : ∀ r', r' ≠ r → st'.storage (shieldedMerkleRootSlot r') = st.storage (shieldedMerkleRootSlot r')
  next : st'.storage (.v1 .nextIndex []) = uint64Hash (leaves.length + 1)
  index : st'.storage (.v1 .commitmentIndex c.bytes) = uint64Hash (leaves.length + 1)
  indexFrame : ∀ d, d ≠ c → st'.storage (.v1 .commitmentIndex d.bytes) = st.storage (.v1 .commitmentIndex d.bytes)
  frontier : Frontier (nodeHash B) 0 merkleDepth (leaves ++ [c]) (legacyFront st')
  path : ∀ k < merkleDepth, node (nodeHash B) (padded 0 (leaves ++ [c])) k ((leaves.length / 2 ^ k) ^^^ 1) =
    .ok (st'.storage (shieldedCommitmentPathSlot c k))
  pathFrame : ∀ d, d ≠ c → ∀ k < merkleDepth,
    st'.storage (shieldedCommitmentPathSlot d k) = st.storage (shieldedCommitmentPathSlot d k)

theorem LegacyClimb.effect {c : Hash} {leaves : List Hash} {st : StateDB}
    (h : LegacyClimb B c leaves 0 st st₁ r) (txHash : Hash) (hroom : leaves.length < 2 ^ merkleDepth)
    (hfront : Frontier (nodeHash B) 0 merkleDepth leaves (legacyFront st)) :
    LegacyEffect B c txHash leaves st (st₁.setStates
      [(.v1 .commitmentIndex c.bytes, uint64Hash (leaves.length + 1)),
       (.v1 .nextIndex [], uint64Hash (leaves.length + 1)), (shieldedMerkleRootSlot r, txHash)]) r := by
  have hroot := h.inserted.root
  rw [Nat.div_eq_of_lt hroom] at hroot
  constructor
  · exact hroot
  · simp [StateDB.setStates]
  · intro r' hne
    have hkey : r'.bytes ≠ r.bytes := fun hb => hne (Hash.bytes_inj hb)
    have hold := h.frame (shieldedMerkleRootSlot r') (fun _ _ _ h => by cases h) (fun _ _ _ h => by cases h)
    rw [← hold]
    simp [StateDB.setStates, shieldedMerkleRootSlot, update_of_ne, hkey]
  · simp [StateDB.setStates, shieldedMerkleRootSlot]
  · simp [StateDB.setStates, shieldedMerkleRootSlot]
  · intro d hne
    have hkey : d.bytes ≠ c.bytes := fun hb => hne (Hash.bytes_inj hb)
    have hold := h.frame (.v1 .commitmentIndex d.bytes) (fun _ _ _ h => by cases h) (fun _ _ _ h => by cases h)
    rw [← hold]
    simp [StateDB.setStates, shieldedMerkleRootSlot, update_of_ne, hkey]
  · have hsame : legacyFront (st₁.setStates
        [(.v1 .commitmentIndex c.bytes, uint64Hash (leaves.length + 1)),
         (.v1 .nextIndex [], uint64Hash (leaves.length + 1)), (shieldedMerkleRootSlot r, txHash)]) = legacyFront st₁ := by
      funext k
      simp [legacyFront, StateDB.setStates, shieldedMerkleRootSlot, shieldedMerkleFrontierSlot]
    rw [hsame]
    exact h.inserted.frontier hfront
  · intro k hk
    rw [h.path k (Nat.zero_le k) hk]
    simp [StateDB.setStates, shieldedMerkleRootSlot, shieldedCommitmentPathSlot]
  · intro d hne k hk
    have hold := h.frame (shieldedCommitmentPathSlot d k) (fun _ _ _ h => by cases h)
      (fun j _ hj hs => hne (pathSlot_inj hk hj hs).1)
    rw [← hold]
    simp [StateDB.setStates, shieldedMerkleRootSlot, shieldedCommitmentPathSlot]

structure LegacyTree (B : Backend) (st : StateDB) (leaves : List Hash) : Prop where
  room : leaves.length ≤ 2 ^ merkleDepth
  next : st.storage (.v1 .nextIndex []) = uint64Hash leaves.length
  frontier : Frontier (nodeHash B) 0 merkleDepth leaves (legacyFront st)
  index : ∀ i c, leaves[i]? = some c → st.storage (.v1 .commitmentIndex c.bytes) = uint64Hash (i + 1)
  path : ∀ i c, leaves[i]? = some c → ∀ k < merkleDepth,
    node (nodeHash B) (padded 0 (leaves.take (i + 1))) k ((i / 2 ^ k) ^^^ 1) =
      .ok (st.storage (shieldedCommitmentPathSlot c k))
  known : ∀ p, p <+: leaves → p ≠ [] →
    ∃ r, root (nodeHash B) 0 merkleDepth p = .ok r ∧ st.storage (shieldedMerkleRootSlot r) ≠ 0

namespace LegacyTree

theorem nextIndex (h : LegacyTree B st leaves) : shieldedMerkleNextIndex st = leaves.length := by
  have := h.room
  rw [merkleDepth] at this
  rw [shieldedMerkleNextIndex, h.next, uint64FromHash_uint64Hash (by omega)]

theorem start (h : st.storage (.v1 .nextIndex []) = 0) : LegacyTree B st [] where
  room := by simp
  next := h
  frontier := Frontier.nil
  index := by simp
  path := by simp
  known p hp hne := absurd (prefix_nil.mp hp) hne

theorem climb (h : LegacyTree B st leaves) (c : Hash) :
    LegacyClimb B c leaves 0 st (merkleClimb B c leaves.length (shieldedMerkleZeroHashes B) 0 st c).1
      (merkleClimb B c leaves.length (shieldedMerkleZeroHashes B) 0 st c).2 := by
  apply merkleClimb_spec
  · rw [shieldedMerkleZeroHashes, shieldedMerkleZeroes_length, Nat.zero_add]
  · exact shieldedMerkleZeroes_empties rfl
  · exact h.frontier
  · rw [Nat.pow_zero, Nat.div_one, node, padded_append_self]

theorem effect (h : LegacyTree B st leaves) (c txHash : Hash) (hroom : leaves.length < 2 ^ merkleDepth) :
    ∃ r, LegacyEffect B c txHash leaves st (legacyAppended B c txHash st) r := by
  have heffect := (h.climb c).effect txHash hroom h.frontier
  rw [legacyAppended, h.nextIndex]
  exact ⟨_, heffect⟩

theorem append (h : LegacyTree B st leaves) (hc : c ∉ leaves) (htx : txHash ≠ 0)
    (hroom : leaves.length < 2 ^ merkleDepth) : LegacyTree B (legacyAppended B c txHash st) (leaves ++ [c]) := by
  obtain ⟨r, heffect⟩ := h.effect c txHash hroom
  have hsplit : ∀ {i d}, (leaves ++ [c])[i]? = some d → (i = leaves.length ∧ d = c) ∨ (leaves[i]? = some d ∧ d ≠ c) := by
    intro i d hi
    rcases getElem?_concat_cases hi with hi | hi
    · exact .inr ⟨hi, fun hd => hc (hd ▸ mem_of_getElem? hi)⟩
    · exact .inl hi
  constructor
  · rw [length_append, length_singleton]
    exact hroom
  · rw [heffect.next, length_append, length_singleton]
  · exact heffect.frontier
  · intro i d hi
    rcases hsplit hi with ⟨rfl, rfl⟩ | ⟨hi, hne⟩
    · exact heffect.index
    · rw [heffect.indexFrame d hne, h.index i d hi]
  · intro i d hi k hk
    rcases hsplit hi with ⟨rfl, rfl⟩ | ⟨hi, hne⟩
    · rw [take_of_length_le (by simp)]
      exact heffect.path k hk
    · have hlt : i < leaves.length := (List.getElem?_eq_some_iff.mp hi).1
      rw [take_append_of_le_length (by omega), heffect.pathFrame d hne k hk]
      exact h.path i d hi k hk
  · intro p hp hne
    rcases prefix_concat_iff.mp hp with rfl | hp
    · refine ⟨r, heffect.root, ?_⟩
      rw [heffect.known]
      exact htx
    · obtain ⟨r', hr', hknown⟩ := h.known p hp hne
      refine ⟨r', hr', ?_⟩
      by_cases hrr : r' = r
      · rw [hrr, heffect.known]
        exact htx
      · rw [heffect.rootFrame r' hrr]
        exact hknown

/-! ## Witnesses -/

theorem fold_root {leaves : List Hash} {path : List Hash} {c : Hash} (hi : leaves[i]? = some c)
    (hlen : leaves.length ≤ 2 ^ merkleDepth) (hpath : path.length = merkleDepth)
    (hnodes : ∀ k (hk : k < path.length), node (nodeHash B) (padded 0 leaves) k ((i / 2 ^ k) ^^^ 1) = .ok path[k])
    (hr : root (nodeHash B) 0 merkleDepth leaves = .ok r) :
    computeShieldedMerkleRoot B c path (merklePathIndex i) = r := by
  have hlt : i < leaves.length := (List.getElem?_eq_some_iff.mp hi).1
  have his : IsPath (nodeHash B) (padded 0 leaves) 0 i path := by
    apply isPath_of_getElem
    intro k hk
    rw [Nat.zero_add]
    exact hnodes k hk
  have hleaf : node (nodeHash B) (padded 0 leaves) 0 i = .ok c := by
    rw [node, padded, getD_eq_getElem?_getD, hi]
    rfl
  have hfold := his.fold hleaf (r := r) (by
    rw [hpath, Nat.div_eq_of_lt (by omega), Nat.zero_add]
    exact hr)
  rw [fold_computeShieldedMerkleRoot, hpath] at hfold
  exact Except.ok.inj hfold

theorem witness (h : LegacyTree B st leaves) (hi : leaves[i]? = some c) :
    ∃ r, root (nodeHash B) 0 merkleDepth (leaves.take (i + 1)) = .ok r ∧
      st.storage (shieldedMerkleRootSlot r) ≠ 0 ∧
      shieldedCommitmentPath B st c = some ⟨c, i, r,
        (List.range merkleDepth).map fun level => st.storage (shieldedCommitmentPathSlot c level), merklePathIndex i⟩ := by
  have hlt : i < leaves.length := (List.getElem?_eq_some_iff.mp hi).1
  have hroom := h.room
  have hpos : leaves.take (i + 1) ≠ [] := by
    rw [← length_pos_iff, length_take]
    omega
  obtain ⟨r, hr, hknown⟩ := h.known _ ( take_prefix (i + 1) leaves) hpos
  refine ⟨r, hr, hknown, ?_⟩
  have hwitness : computeShieldedMerkleRoot B c
      ((List.range merkleDepth).map fun level => st.storage (shieldedCommitmentPathSlot c level)) (merklePathIndex i) = r := by
    have hleaf : (leaves.take (i + 1))[i]? = some c := by
      rw [getElem?_take_of_lt (Nat.lt_succ_self i), hi]
    apply fold_root hleaf _ (by simp) _ hr
    · rw [length_take]
      omega
    · intro k hk
      rw [getElem_map, getElem_range]
      exact h.path i c hi k (by simpa using hk)
  rw [merkleDepth] at hroom
  rw [shieldedCommitmentPath, h.index i c hi, uint64FromHash_uint64Hash (by omega)]
  simp only [Nat.add_eq_zero_iff, one_ne_zero, and_false, if_false, Nat.add_sub_cancel, hwitness]

theorem next_siblings (h : LegacyTree B st leaves) (c : Hash) (hk : k < merkleDepth) :
    node (nodeHash B) (padded 0 (leaves ++ [c])) k ((leaves.length / 2 ^ k) ^^^ 1) =
      .ok (if leaves.length / 2 ^ k % 2 = 0 then (shieldedMerkleZeroHashes B).getD k 0
        else st.storage (shieldedMerkleFrontierSlot k)) := by
  by_cases hbit : leaves.length / 2 ^ k % 2 = 0
  · rw [if_pos hbit, sibling_empty hbit, zeroHashes_empty hk]
  · rw [if_neg hbit]
    exact h.frontier.sibling hk (by omega)

theorem predicted (h : LegacyTree B st leaves) (hc : c ∉ leaves) (htx : txHash ≠ 0)
    (hroom : leaves.length < 2 ^ merkleDepth) :
    ∃ r, root (nodeHash B) 0 merkleDepth (leaves ++ [c]) = .ok r ∧
      (legacyAppended B c txHash st).storage (shieldedMerkleRootSlot r) = txHash ∧
      (shieldedNextMerklePath B st c).root = r ∧ (shieldedNextMerklePath B st c).index = leaves.length ∧
      shieldedCommitmentPath B (legacyAppended B c txHash st) c = some (shieldedNextMerklePath B st c) := by
  obtain ⟨r, heffect⟩ := h.effect c txHash hroom
  have htree := h.append hc htx hroom
  have hlast : (leaves ++ [c])[leaves.length]? = some c := getElem?_concat_length
  obtain ⟨r', hr', _, hstored⟩ := htree.witness hlast
  rw [take_of_length_le (by simp)] at hr'
  obtain rfl : r = r' := Except.ok.inj (heffect.root.symm.trans hr')
  have hpath : ((List.range merkleDepth).map fun level =>
      (legacyAppended B c txHash st).storage (shieldedCommitmentPathSlot c level)) =
      (List.range merkleDepth).map fun level =>
        if leaves.length / 2 ^ level % 2 = 0 then (shieldedMerkleZeroHashes B).getD level 0
        else st.storage (shieldedMerkleFrontierSlot level) := by
    apply map_congr_left
    intro level hlevel
    have hk := mem_range.mp hlevel
    exact Except.ok.inj ((heffect.path level hk).symm.trans (h.next_siblings c hk))
  have hnext : shieldedNextMerklePath B st c = ⟨c, leaves.length, r, (List.range merkleDepth).map fun level =>
      (legacyAppended B c txHash st).storage (shieldedCommitmentPathSlot c level), merklePathIndex leaves.length⟩ := by
    have hroot : computeShieldedMerkleRoot B c ((List.range merkleDepth).map fun level =>
        (legacyAppended B c txHash st).storage (shieldedCommitmentPathSlot c level))
        (merklePathIndex leaves.length) = r := by
      apply fold_root hlast _ (by simp) _ heffect.root
      · rw [length_append, length_singleton]
        exact hroom
      · intro k hk
        rw [getElem_map, getElem_range]
        exact heffect.path k (by simpa using hk)
    rw [shieldedNextMerklePath, h.nextIndex]
    simp only [← hpath, hroot]
  rw [hnext]
  exact ⟨r, heffect.root, heffect.known, rfl, rfl, hstored⟩

end LegacyTree

/-! ## Runs of appends -/

/-- The states after successful appends of distinct commitments to an empty tree, with the hashes of transactions. -/
inductive LegacyAppends (B : Backend) : StateDB → List Hash → Prop
  | start {st : StateDB} : st.storage (.v1 .nextIndex []) = 0 → LegacyAppends B st []
  | append {st st' : StateDB} {leaves : List Hash} (c txHash : Hash) : LegacyAppends B st leaves → c ∉ leaves →
      txHash ≠ 0 → appendShieldedMerkleLeaf B c txHash st = (.ok (), st') → LegacyAppends B st' (leaves ++ [c])

theorem LegacyAppends.tree {st : StateDB} {leaves : List Hash} (h : LegacyAppends B st leaves) :
    LegacyTree B st leaves := by
  induction h with
  | start hempty => exact LegacyTree.start hempty
  | append c txHash _ hc htx happend ih =>
    rw [appendShieldedMerkleLeaf_iff, ih.nextIndex] at happend
    obtain ⟨hroom, rfl⟩ := happend
    exact ih.append hc htx hroom

theorem LegacyTree.witness_unchanged
    (h : LegacyTree B st leaves) (h' : LegacyTree B st' (leaves ++ more)) (hc : c ∈ leaves) :
    shieldedCommitmentPath B st' c = shieldedCommitmentPath B st c := by
  obtain ⟨i, hlt, hget⟩ := getElem_of_mem hc
  have hi : leaves[i]? = some c := List.getElem?_eq_some_iff.mpr ⟨hlt, hget⟩
  have hi' : (leaves ++ more)[i]? = some c := by rw [getElem?_append_left hlt, hi]
  obtain ⟨r, hr, _, hw⟩ := h.witness hi
  obtain ⟨r', hr', _, hw'⟩ := h'.witness hi'
  have htake : (leaves ++ more).take (i + 1) = leaves.take (i + 1) := take_append_of_le_length (by omega)
  rw [htake] at hr'
  obtain rfl : r' = r := Except.ok.inj (hr'.symm.trans hr)
  have hpath : ((List.range merkleDepth).map fun level => st'.storage (shieldedCommitmentPathSlot c level)) =
      (List.range merkleDepth).map fun level => st.storage (shieldedCommitmentPathSlot c level) := by
    apply map_congr_left
    intro level hlevel
    have hk := mem_range.mp hlevel
    have hnode' := h'.path i c hi' level hk
    rw [htake] at hnode'
    exact Except.ok.inj (hnode'.symm.trans (h.path i c hi level hk))
  rw [hw, hw', hpath]

theorem root_ne_zero (hB : ∀ l, B.mimc l ≠ 0) (h : root (nodeHash B) 0 merkleDepth leaves = .ok r) : r ≠ 0 := by
  rw [root, merkleDepth, node, except_bind_ok] at h
  obtain ⟨a, _, h⟩ := h
  obtain ⟨b, _, h⟩ := except_bind_ok.mp h
  rw [← Except.ok.inj h]
  exact hB _

end

/-! ## The first note -/

def mimcBackend : Backend := { migrationBackend with mimc := fun _ => 1 }

end TkmChain
