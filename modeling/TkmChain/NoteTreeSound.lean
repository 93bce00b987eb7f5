import TkmChain.SolvencySound
import TkmChain.TipTreesSound

/-!
# The note tree

The tree shared by the V3, V4 and V5 notes, over any number of appends: its nodes
and its root are those of the Merkle tree over the commitments, every root stays
known, and the path of every commitment leads to the current root.
-/

namespace TkmChain

open Merkle List

section
variable {B : Backend} {st st' : StateDB} {leaves : List Digest} {c : Digest} {txHash : Hash}

/-! ## One append -/

structure NoteEffect (st st' : StateDB) (c r : Digest) (txHash : Hash) (n : Nat) : Prop where
  index : st'.storage (.v3 .commitmentIndex c.bytes) = uint64Hash (n + 1)
  indexFrame : ∀ key, key ≠ c.bytes → st'.storage (.v3 .commitmentIndex key) = st.storage (.v3 .commitmentIndex key)
  next : st'.storage (.v3 .nextIndex []) = uint64Hash (n + 1)
  root : st'.storage (.v3 .root r.bytes) = txHash
  rootFrame : ∀ key, key ≠ r.bytes → st'.storage (.v3 .root key) = st.storage (.v3 .root key)
  current : r.canonical = true → v3ReadDigest st' .currentRoot [] = .ok r

theorem appendShieldedV3Leaf_ok (h : appendShieldedV3Leaf B c txHash st = (.ok (), st')) :
    ∃ zeroes r s, shieldedV3NextIndex st < 2 ^ merkleDepth ∧ v3Zeroes B = .ok zeroes ∧
      climb B noteTree zeroes merkleDepth 0 (shieldedV3NextIndex st) c st = (.ok r, s) ∧
      (∀ k, noteTree.Node k → st'.storage k = s.storage k) ∧
      NoteEffect st st' c r txHash (shieldedV3NextIndex st) := by
  simp only [appendShieldedV3Leaf, Proc.run_rules, failIf_ok, Nat.not_le] at h
  obtain ⟨n, hn, hroom, zeroes, hz, r, s, hclimb, rfl⟩ := h
  obtain rfl : shieldedV3NextIndex _ = n := Except.ok.inj hn
  have hframe := (climb_nodes B noteTree zeroes _ _ _ _).ok hclimb
  refine ⟨zeroes, r, s, hroom, hz, hclimb, ?_, ?_⟩
  · rintro k (⟨b, key, rfl⟩ | ⟨key, rfl⟩)
    · simp [v3WriteDigest, StateDB.setStates, noteTree]
    · simp [v3WriteDigest, StateDB.setStates, noteTree]
  · constructor
    · simp [v3WriteDigest, StateDB.setStates]
    · intro key hkey
      have hold := hframe.storage (.v3 .commitmentIndex key) (TreeRoles.not_node (by simp) (by decide))
      simp [v3WriteDigest, StateDB.setStates, Function.update_of_ne, hkey, hold]
    · simp [v3WriteDigest, StateDB.setStates]
    · simp [v3WriteDigest, StateDB.setStates]
    · intro key hkey
      have hold := hframe.storage (.v3 .root key) (TreeRoles.not_node (by simp) (by decide))
      simp [v3WriteDigest, StateDB.setStates, Function.update_of_ne, hkey, hold]
    · intro hr
      apply v3ReadDigest_of_slots hr <;> simp [v3WriteDigest, StateDB.setStates]

/-! ## Runs of appends -/

def EmptyNotes (st : StateDB) : Prop :=
  st.storage (.v3 .nextIndex []) = 0 ∧ ∀ key, st.storage (.v3 .nodePresent key) = 0

/-- The states after successful appends of the given commitments to an empty tree. The hashes are those of
transactions, and the commitments have an encoding that reads back. -/
inductive NoteAppends (B : Backend) : StateDB → List Digest → Prop
  | start {st : StateDB} : EmptyNotes st → NoteAppends B st []
  | append {st st' : StateDB} {leaves : List Digest} (c : Digest) (txHash : Hash) : NoteAppends B st leaves →
      c.canonical = true → txHash ≠ 0 → appendShieldedV3Leaf B c txHash st = (.ok (), st') →
      NoteAppends B st' (leaves ++ [c])

structure NoteTree (B : Backend) (st : StateDB) (leaves : List Digest) : Prop where
  stored : ∀ zeroes, v3Zeroes B = .ok zeroes → Stored B noteTree st zeroes leaves
  zeroes : leaves ≠ [] → ∃ zeroes, v3Zeroes B = .ok zeroes
  canonical : ∀ d ∈ leaves, d.canonical = true
  room : leaves.length ≤ 2 ^ merkleDepth
  next : st.storage (.v3 .nextIndex []) = uint64Hash leaves.length
  index : ∀ c ∈ leaves, ∃ i, leaves[i]? = some c ∧ st.storage (.v3 .commitmentIndex c.bytes) = uint64Hash (i + 1)
  current : leaves ≠ [] → ∃ r, v3ReadDigest st .currentRoot [] = .ok r ∧ root B.hashPair 0 merkleDepth leaves = .ok r
  known : RootsKnown B .root st leaves

namespace NoteTree

theorem nextIndex (h : NoteTree B st leaves) : shieldedV3NextIndex st = leaves.length := by
  have := h.room
  rw [merkleDepth] at this
  rw [shieldedV3NextIndex, h.next, uint64FromHash_uint64Hash (by omega)]

theorem start (h : EmptyNotes st) : NoteTree B st [] where
  stored zeroes hz := Stored.nil hz h.2
  zeroes hne := absurd rfl hne
  canonical := nofun
  room := by simp
  next := h.1
  index := nofun
  current hne := absurd rfl hne
  known p hp hne := absurd (prefix_nil.mp hp) hne

theorem append (hB : HashCanonical B) (h : NoteTree B st leaves) (hc : c.canonical = true) (htx : txHash ≠ 0)
    (happend : appendShieldedV3Leaf B c txHash st = (.ok (), st')) : NoteTree B st' (leaves ++ [c]) := by
  obtain ⟨zeroes, r, s, hroom, hz, hclimb, hnodes, heffect⟩ := appendShieldedV3Leaf_ok happend
  rw [h.nextIndex] at hroom hclimb heffect
  have hcanon : ∀ d ∈ leaves ++ [c], d.canonical = true := by
    intro d hd
    rcases mem_append.mp hd with hd | hd
    · exact h.canonical d hd
    · rw [mem_singleton.mp hd]
      exact hc
  obtain ⟨hstored, hroot⟩ := (h.stored zeroes hz).append hB noteTree_separate hcanon hroom hclimb
  constructor
  · intro zeroes' hz'
    obtain rfl : zeroes' = zeroes := Except.ok.inj (hz'.symm.trans hz)
    exact hstored.congr hnodes
  · exact fun _ => ⟨zeroes, hz⟩
  · exact hcanon
  · rw [length_append, length_singleton]
    exact hroom
  · rw [heffect.next, length_append, length_singleton]
  · intro d hd
    by_cases hdc : d = c
    · subst hdc
      exact ⟨leaves.length, by simp, heffect.index⟩
    · have hmem : d ∈ leaves := by simpa [hdc] using hd
      obtain ⟨i, hi, hindex⟩ := h.index d hmem
      refine ⟨i, ?_, ?_⟩
      · rw [getElem?_append_left (List.getElem?_eq_some_iff.mp hi).1, hi]
      · rw [heffect.indexFrame _ (fun hb => hdc (Digest.bytes_inj hb)), hindex]
  · exact fun _ => ⟨r, heffect.current (node_canonical hB hcanon hroot), hroot⟩
  · exact RootsKnown.append h.known hroot heffect.root htx heffect.rootFrame

end NoteTree

theorem NoteAppends.tree (hB : HashCanonical B) (h : NoteAppends B st leaves) : NoteTree B st leaves := by
  induction h with
  | start hempty => exact NoteTree.start hempty
  | append c txHash _ hc htx happend ih => exact ih.append hB hc htx happend

namespace NoteTree

theorem root_iff (h : NoteTree B st leaves) {r : Digest} :
    shieldedV3Root B st = .ok r ↔ root B.hashPair 0 merkleDepth leaves = .ok r := by
  rw [shieldedV3Root, h.nextIndex]
  by_cases hne : leaves = []
  · subst hne
    rw [length_nil, if_pos rfl, v3Zeroes_root]
  · obtain ⟨r', hread, hroot⟩ := h.current hne
    rw [if_neg (by simpa using hne), hread, hroot]

theorem children (h : NoteTree B st leaves) {zeroes : List Digest} (hz : v3Zeroes B = .ok zeroes) {level index : Nat}
    (hl : level < merkleDepth) (hi : index < 2 ^ (merkleDepth - (level + 1))) :
    ∃ l r d, v3Node st level (2 * index) zeroes = .ok l ∧ v3Node st level (2 * index + 1) zeroes = .ok r ∧
      v3Node st (level + 1) index zeroes = .ok d ∧ B.hashPair l r = .ok d := by
  have hpow : 2 ^ (merkleDepth - (level + 1)) ≤ 2 ^ 32 := Nat.pow_le_pow_right (by omega) (by rw [merkleDepth]; omega)
  obtain ⟨l, hl', hnl⟩ := h.stored zeroes hz level (by omega) (2 * index) (by omega)
  obtain ⟨r, hr', hnr⟩ := h.stored zeroes hz level (by omega) (2 * index + 1) (by omega)
  obtain ⟨d, hd', hnd⟩ := h.stored zeroes hz (level + 1) (by omega) index (by omega)
  refine ⟨l, r, d, hl', hr', hd', ?_⟩
  rw [node, hnl, hnr] at hnd
  exact hnd

theorem path (h : NoteTree B st leaves) (hc : c ∈ leaves) :
    ∃ w, shieldedV3CommitmentPath B st c = .ok w ∧ w.found = true ∧ w.commitment = c ∧ leaves[w.index]? = some c ∧
      w.path.length = merkleDepth ∧ shieldedV3Root B st = .ok w.root ∧
      fold B.hashPair w.index w.path c = .ok w.root := by
  have hne : leaves ≠ [] := ne_nil_of_mem hc
  obtain ⟨zeroes, hz⟩ := h.zeroes hne
  obtain ⟨i, hi, hindex⟩ := h.index c hc
  have hroom := h.room
  have hlt : i < leaves.length := (List.getElem?_eq_some_iff.mp hi).1
  rw [merkleDepth] at hroom
  obtain ⟨path, r, hpath, hlen, hroot, hfold⟩ := (h.stored zeroes hz).path hi h.room
  obtain ⟨r', hread, hroot'⟩ := h.current hne
  obtain rfl : r = r' := Except.ok.inj (hroot.symm.trans hroot')
  refine ⟨⟨c, i, r, path, true⟩, ?_, rfl, rfl, hi, hlen, h.root_iff.mpr hroot, hfold⟩
  rw [shieldedV3CommitmentPath, hindex, uint64FromHash_uint64Hash (by omega)]
  simp only [Nat.add_eq_zero_iff, one_ne_zero, and_false, if_false, Nat.add_sub_cancel, ok_rules]
  exact ⟨zeroes, hz, path, hpath, r, hread, rfl⟩

end NoteTree

end

/-- After any sequence of successful appends to an empty tree: every node is the hash of its children, the root is
that of the padded tree over the commitments, every root so far is known, and every commitment is found with a path
that folds to the current root. -/
theorem note_tree_is_merkle (B : Backend) (hB : HashCanonical B) (st : StateDB) (leaves : List Digest)
    (run : NoteAppends B st leaves) :
    (∀ zeroes, v3Zeroes B = .ok zeroes → ∀ level < merkleDepth, ∀ index < 2 ^ (merkleDepth - (level + 1)),
      ∃ l r d, v3Node st level (2 * index) zeroes = .ok l ∧ v3Node st level (2 * index + 1) zeroes = .ok r ∧
        v3Node st (level + 1) index zeroes = .ok d ∧ B.hashPair l r = .ok d) ∧
    (∀ r, shieldedV3Root B st = .ok r ↔ root B.hashPair 0 merkleDepth leaves = .ok r) ∧
    (∀ p, p <+: leaves → p ≠ [] →
      ∃ r, root B.hashPair 0 merkleDepth p = .ok r ∧ st.storage (.v3 .root r.bytes) ≠ 0) ∧
    ∀ c ∈ leaves, ∃ w, shieldedV3CommitmentPath B st c = .ok w ∧ w.found = true ∧ w.commitment = c ∧
      leaves[w.index]? = some c ∧ w.path.length = merkleDepth ∧ shieldedV3Root B st = .ok w.root ∧
      fold B.hashPair w.index w.path c = .ok w.root := by
  have htree := run.tree hB
  refine ⟨?_, ?_, htree.known, ?_⟩
  · intro zeroes hz level hl index hi
    exact htree.children hz hl hi
  · intro r
    exact htree.root_iff
  · intro c hc
    exact htree.path hc

/-! ## A tree of one note -/

def noteBackend : Backend := { migrationBackend with hashPair := fun _ _ => .ok ⟨Vector.replicate 5 1⟩ }

theorem noteBackend_canonical : HashCanonical noteBackend := by
  intro a b d h
  cases h
  decide +kernel

theorem note_tree_is_merkle_one :
    ∃ w, shieldedV3CommitmentPath noteBackend
        (appendShieldedV3Leaf noteBackend ⟨Vector.replicate 5 2⟩ 1 emptyState).2 ⟨Vector.replicate 5 2⟩ = .ok w ∧
      w.found = true := by
  have hrun := NoteAppends.append ⟨Vector.replicate 5 2⟩ 1 (@NoteAppends.start _ emptyState ⟨rfl, fun _ => rfl⟩)
    (by decide +kernel) (by decide) (Proc.ok_of_isOk (x := appendShieldedV3Leaf noteBackend _ _) (by decide +kernel))
  obtain ⟨w, hw, hfound, _⟩ := (note_tree_is_merkle noteBackend noteBackend_canonical _ _ hrun).2.2.2
    ⟨Vector.replicate 5 2⟩ (by simp)
  exact ⟨w, hw, hfound⟩

end TkmChain
