import TkmChain.Merkle
import TkmChain.StampSound
import TkmChain.TreePaths

/-!
# The Tip5 trees are Merkle trees

A tree that stores all its nodes reads as the Merkle tree over its leaves. An
append rewrites the path of the new leaf, from the leaf up: below the level it has
reached the nodes are those of the new tree, above it those of the old one.
-/

namespace TkmChain

open Merkle

def HashCanonical (B : Backend) : Prop := ∀ a b d, B.hashPair a b = .ok d → d.canonical = true

theorem canonical_zero : (0 : Digest).canonical = true := by decide +kernel

section
/-! ## Canonical nodes and empty subtrees -/

theorem node_canonical (hB : HashCanonical B) (hl : ∀ d ∈ leaves, d.canonical = true)
    (h : node B.hashPair (padded 0 leaves) n i = .ok d) : d.canonical = true := by
  cases n with
  | zero =>
    rw [node] at h
    cases h
    rw [padded, List.getD_eq_getElem?_getD]
    cases hi : leaves[i]? with
    | none => exact canonical_zero
    | some d => exact hl d (List.mem_of_getElem? hi)
  | succ n =>
    simp only [node, ok_rules] at h
    obtain ⟨l, _, r, _, h⟩ := h
    exact hB l r d h

theorem v3ZeroesFrom_empties (h : v3ZeroesFrom B d n = .ok zeroes)
    (hd : empty B.hashPair 0 k = .ok d) : Empties B.hashPair 0 k zeroes ∧ zeroes.length = n + 1 := by
  induction n generalizing k d zeroes with
  | zero =>
    cases h
    exact ⟨⟨hd, trivial⟩, rfl⟩
  | succ n ih =>
    simp only [v3ZeroesFrom, ok_rules] at h
    obtain ⟨next, hnext, rest, hrest, rfl⟩ := h
    have hsucc : empty B.hashPair 0 (k + 1) = .ok next := by
      rw [empty_succ, hd]
      exact hnext
    obtain ⟨hempties, hlength⟩ := ih hrest hsucc
    exact ⟨⟨hd, hempties⟩, congrArg (· + 1) hlength⟩

theorem v3Zeroes_empty (h : v3Zeroes B = .ok zeroes) (hl : level ≤ merkleDepth) :
    empty B.hashPair 0 level = .ok (zeroes.getD level 0) := by
  obtain ⟨hempties, hlength⟩ := v3ZeroesFrom_empties (k := 0) h rfl
  have := hempties.getD (d := 0) (by omega : level < zeroes.length)
  rwa [Nat.zero_add] at this

theorem v3ZeroesFrom_last (hd : empty B.hashPair 0 k = .ok d) :
    (∃ zeroes, v3ZeroesFrom B d n = .ok zeroes ∧ zeroes.getD n 0 = r) ↔ empty B.hashPair 0 (k + n) = .ok r := by
  constructor
  · rintro ⟨zeroes, h, rfl⟩
    obtain ⟨hempties, hlength⟩ := v3ZeroesFrom_empties h hd
    exact hempties.getD (by omega)
  · intro h
    induction n generalizing k d with
    | zero =>
      rw [Nat.add_zero, hd] at h
      exact ⟨[d], rfl, Except.ok.inj h⟩
    | succ n ih =>
      rw [Nat.add_comm n 1, ← Nat.add_assoc] at h
      have hbelow : ∃ next, empty B.hashPair 0 (k + 1) = .ok next := by
        apply node_below (k := n)
        rw [Nat.zero_div]
        exact h
      obtain ⟨next, hnext⟩ := hbelow
      obtain ⟨zeroes, hz, hlast⟩ := ih hnext h
      rw [empty_succ, hd] at hnext
      have hpair : B.hashPair d d = .ok next := hnext
      refine ⟨d :: zeroes, ?_, hlast⟩
      simp only [v3ZeroesFrom, ok_rules]
      exact ⟨next, hpair, zeroes, hz, rfl⟩

theorem v3Zeroes_root :
    (v3Zeroes B).map (fun zeroes => zeroes.getD merkleDepth 0) = .ok r ↔ root B.hashPair 0 merkleDepth [] = .ok r := by
  have hlast := v3ZeroesFrom_last (B := B) (n := merkleDepth) (k := 0) (r := r) rfl
  rw [Nat.zero_add] at hlast
  rw [root, node_empty (by simp), ← hlast, except_map_ok]
  rfl

/-! ## Nodes in storage -/

theorem v3NodeKey_inj (hl : level < 2 ^ 32) (hl' : level' < 2 ^ 32)
    (hi : index < 2 ^ 64) (hi' : index' < 2 ^ 64) (h : v3NodeKey level index = v3NodeKey level' index') :
    level = level' ∧ index = index' := by
  obtain ⟨ha, hb⟩ := List.append_inj h (by simp)
  exact ⟨Bytes.be_inj (by simpa using hl) (by simpa using hl') ha,
    Bytes.be_inj (by simpa using hi) (by simpa using hi') hb⟩

def TreeRoles.Separate (t : TreeRoles) : Prop := ∀ r b, t.present ≠ .half r b

theorem noteTree_separate : noteTree.Separate := nofun

theorem bindingTree_separate : bindingTree.Separate := nofun

variable {t : TreeRoles}

theorem TreeRoles.not_node {r : Role} {key : Bytes} (h : ∀ b, r ≠ .half t.node b) (h' : r ≠ t.present) :
    ¬ t.Node (.v3 r key) := by
  rintro (⟨b, key', hk⟩ | ⟨key', hk⟩)
  · exact h b (Slot.v3.inj hk).1
  · exact h' (Slot.v3.inj hk).1

theorem treeNode_congr (h : ∀ k, t.Node k → st'.storage k = st.storage k) :
    treeNode t st' level index zeroes = treeNode t st level index zeroes := by
  rw [treeNode, treeNode, h _ (.inr ⟨_, rfl⟩), v3ReadDigest_congr fun b => h _ (.inl ⟨b, _, rfl⟩)]

theorem treeNode_write (ht : t.Separate) (hd : d.canonical = true) :
    treeNode t (writeNode t level index d st) level index zeroes = .ok d := by
  have hne : ∀ b, Slot.v3 (.half t.node b) (v3NodeKey level index) ≠ .v3 t.present (v3NodeKey level index) := by
    intro b h
    exact ht t.node b (Slot.v3.inj h).1.symm
  rw [treeNode, if_neg]
  · apply v3ReadDigest_of_slots hd
    · simp [writeNode, v3WriteDigest, Function.update_of_ne (hne false)]
    · simp [writeNode, v3WriteDigest, Function.update_of_ne (hne true)]
  · simp [writeNode, uint64Hash]

theorem treeNode_write_other (hl : level ≤ merkleDepth)
    (hl' : level' ≤ merkleDepth) (hi : index < 2 ^ 64) (hi' : index' < 2 ^ 64)
    (hne : ¬ (level' = level ∧ index' = index)) :
    treeNode t (writeNode t level index d st) level' index' zeroes = treeNode t st level' index' zeroes := by
  have hkey : v3NodeKey level' index' ≠ v3NodeKey level index := by
    intro h
    rw [merkleDepth] at hl hl'
    exact hne (v3NodeKey_inj (by omega) (by omega) hi' hi h)
  have hread : ∀ r, (writeNode t level index d st).storage (.v3 r (v3NodeKey level' index')) =
      st.storage (.v3 r (v3NodeKey level' index')) := by
    intro r
    simp [writeNode, v3WriteDigest, Function.update_of_ne, hkey]
  rw [treeNode, treeNode, hread, v3ReadDigest_congr fun b => hread _]

/-! ## The level loop -/

def NodeIs (B : Backend) (t : TreeRoles) (st : StateDB) (zeroes leaves : List Digest) (level index : Nat) : Prop :=
  ∃ d, treeNode t st level index zeroes = .ok d ∧ node B.hashPair (padded 0 leaves) level index = .ok d

def Stored (B : Backend) (t : TreeRoles) (st : StateDB) (zeroes leaves : List Digest) : Prop :=
  ∀ level ≤ merkleDepth, ∀ index < 2 ^ 64, NodeIs B t st zeroes leaves level index

theorem Stored.congr (h : Stored B t st zeroes leaves)
    (hs : ∀ k, t.Node k → st'.storage k = st.storage k) : Stored B t st' zeroes leaves := by
  intro level hl index hi
  obtain ⟨d, hd, hn⟩ := h level hl index hi
  exact ⟨d, (treeNode_congr hs).trans hd, hn⟩

theorem Stored.nil (hz : v3Zeroes B = .ok zeroes) (h : ∀ key, st.storage (.v3 t.present key) = 0) :
    Stored B t st zeroes [] := by
  intro level hl index _
  refine ⟨zeroes.getD level 0, ?_, ?_⟩
  · rw [treeNode, if_pos (h _)]
  · rw [node_empty (by simp), v3Zeroes_empty hz hl]

def Climbed (B : Backend) (t : TreeRoles) (zeroes leaves : List Digest) (x : Digest) (k : Nat) (st : StateDB) : Prop :=
  ∀ level ≤ merkleDepth, ∀ index < 2 ^ 64,
    NodeIs B t st zeroes (if level < k then leaves ++ [x] else leaves) level index

theorem Climbed.write (h : Climbed B t zeroes leaves x k st) (ht : t.Separate)
    (hk : k ≤ merkleDepth) (hlen : leaves.length < 2 ^ 64)
    (hc : node B.hashPair (padded 0 (leaves ++ [x])) k (leaves.length / 2 ^ k) = .ok current)
    (hcanon : current.canonical = true) :
    Climbed B t zeroes leaves x (k + 1) (writeNode t k (leaves.length / 2 ^ k) current st) := by
  have hcursor : leaves.length / 2 ^ k < 2 ^ 64 := lt_of_le_of_lt (Nat.div_le_self _ _) hlen
  intro level hl index hi
  by_cases hat : level = k ∧ index = leaves.length / 2 ^ k
  · obtain ⟨rfl, rfl⟩ := hat
    rw [if_pos (Nat.lt_succ_self _)]
    exact ⟨current, treeNode_write ht hcanon, hc⟩
  · obtain ⟨d, hd, hn⟩ := h level hl index hi
    refine ⟨d, (treeNode_write_other hk hl hcursor hi hat).trans hd, ?_⟩
    by_cases hlow : level < k
    · rw [if_pos hlow] at hn
      rw [if_pos (by omega), hn]
    · rw [if_neg hlow] at hn
      by_cases heq : level = k
      · subst heq
        rw [if_pos (Nat.lt_succ_self _), node_append_ne (fun hidx => hat ⟨rfl, hidx.symm⟩), hn]
      · rw [if_neg (by omega), hn]

theorem climb_stored (hB : HashCanonical B) (ht : t.Separate) (hlen : leaves.length < 2 ^ 64)
    (hcanon : ∀ d ∈ leaves ++ [x], d.canonical = true) 
    (h : climb B t zeroes n level (leaves.length / 2 ^ level) current st = (.ok r, st'))
    (hn : level + n = merkleDepth) (hclimbed : Climbed B t zeroes leaves x level st)
    (hc : node B.hashPair (padded 0 (leaves ++ [x])) level (leaves.length / 2 ^ level) = .ok current) :
    Stored B t st' zeroes (leaves ++ [x]) ∧
      node B.hashPair (padded 0 (leaves ++ [x])) merkleDepth (leaves.length / 2 ^ merkleDepth) = .ok r := by
  induction n generalizing level current st with
  | zero =>
    simp only [climb, Proc.run_rules] at h
    obtain ⟨hr, rfl⟩ := h
    obtain rfl : level = merkleDepth := by omega
    subst hr
    refine ⟨?_, hc⟩
    intro level' hl' index hi
    have := hclimbed.write ht le_rfl hlen hc (node_canonical hB hcanon hc) level' hl' index hi
    rwa [if_pos (by omega)] at this
  | succ n ih =>
    simp only [climb, Proc.run_rules] at h
    obtain ⟨sibling, hsibling, parent, hparent, hrest⟩ := h
    have hwritten := hclimbed.write ht (by omega) hlen hc (node_canonical hB hcanon hc)
    have hcursor : leaves.length / 2 ^ level < 2 ^ 64 := lt_of_le_of_lt (Nat.div_le_self _ _) hlen
    obtain ⟨d, hd, hnode⟩ := hwritten level (by omega) _ (xor_one_lt (by omega) hcursor)
    rw [if_pos (Nat.lt_succ_self _)] at hnode
    obtain rfl : d = sibling := Except.ok.inj (hd.symm.trans hsibling)
    have hup : node B.hashPair (padded 0 (leaves ++ [x])) (level + 1) (leaves.length / 2 ^ (level + 1)) = .ok parent := by
      rw [div_pow_succ, node_parent hc hnode]
      exact hparent
    rw [← div_pow_succ] at hrest
    exact ih hrest (by omega) hwritten hup

theorem Stored.append (hB : HashCanonical B) (ht : t.Separate) (h : Stored B t st zeroes leaves)
    (hcanon : ∀ d ∈ leaves ++ [x], d.canonical = true) (hroom : leaves.length < 2 ^ merkleDepth) 
    (hclimb : climb B t zeroes merkleDepth 0 leaves.length x st = (.ok r, st')) :
    Stored B t st' zeroes (leaves ++ [x]) ∧ root B.hashPair 0 merkleDepth (leaves ++ [x]) = .ok r := by
  have hlen : leaves.length < 2 ^ 64 := by
    rw [merkleDepth] at hroom
    omega
  have hclimb' : climb B t zeroes merkleDepth 0 (leaves.length / 2 ^ 0) x st = (.ok r, st') := by
    rw [Nat.pow_zero, Nat.div_one]
    exact hclimb
  have hleaf : node B.hashPair (padded 0 (leaves ++ [x])) 0 (leaves.length / 2 ^ 0) = .ok x := by
    rw [Nat.pow_zero, Nat.div_one, node, padded_append_self]
  have hclimbed : Climbed B t zeroes leaves x 0 st := by
    intro level hl index hi
    rw [if_neg (Nat.not_lt_zero _)]
    exact h level hl index hi
  obtain ⟨hstored, hroot⟩ := climb_stored hB ht hlen hcanon hclimb' (Nat.zero_add _) hclimbed hleaf
  rw [Nat.div_eq_of_lt hroom] at hroot
  exact ⟨hstored, hroot⟩

/-! ## Known roots -/

def RootsKnown (B : Backend) (r : Role) (st : StateDB) (leaves : List Digest) : Prop :=
  ∀ p, p <+: leaves → p ≠ [] → ∃ d, root B.hashPair 0 merkleDepth p = .ok d ∧ st.storage (.v3 r d.bytes) ≠ 0

theorem RootsKnown.append {r : Role} {txHash : Hash} (h : RootsKnown B r st leaves)
    (hroot : root B.hashPair 0 merkleDepth (leaves ++ [x]) = .ok d) (hnew : st'.storage (.v3 r d.bytes) = txHash)
    (htx : txHash ≠ 0) (hframe : ∀ key, key ≠ d.bytes → st'.storage (.v3 r key) = st.storage (.v3 r key)) :
    RootsKnown B r st' (leaves ++ [x]) := by
  intro p hp hne
  rcases List.prefix_concat_iff.mp hp with rfl | hp
  · refine ⟨d, hroot, ?_⟩
    rw [hnew]
    exact htx
  · obtain ⟨d', hd', hknown⟩ := h p hp hne
    refine ⟨d', hd', ?_⟩
    by_cases hkey : d'.bytes = d.bytes
    · rw [hkey, hnew]
      exact htx
    · rw [hframe _ hkey]
      exact hknown

/-! ## Paths -/

theorem treePath_stored (h : Stored B t st zeroes leaves) (hn : level + n = merkleDepth)
    (hc : cursor < 2 ^ 64) :
    ∃ path, treePath t st zeroes n level cursor = .ok path ∧ path.length = n ∧
      IsPath B.hashPair (padded 0 leaves) level cursor path := by
  induction n generalizing level cursor with
  | zero => exact ⟨[], rfl, rfl, trivial⟩
  | succ n ih =>
    obtain ⟨s, hs, hnode⟩ := h level (by omega) (cursor ^^^ 1) (xor_one_lt (by omega) hc)
    obtain ⟨path, hpath, hlen, his⟩ := ih (by omega : level + 1 + n = merkleDepth) (by omega : cursor / 2 < 2 ^ 64)
    refine ⟨s :: path, ?_, by simp [hlen], hnode, his⟩
    rw [treePath, hs]
    show (treePath t st zeroes n (level + 1) (cursor / 2) >>= _) = _
    rw [hpath]
    rfl

theorem Stored.path (h : Stored B t st zeroes leaves) (hi : leaves[i]? = some c)
    (hlen : leaves.length ≤ 2 ^ merkleDepth) :
    ∃ path r, treePath t st zeroes merkleDepth 0 i = .ok path ∧ path.length = merkleDepth ∧
      root B.hashPair 0 merkleDepth leaves = .ok r ∧ fold B.hashPair i path c = .ok r := by
  have hlt : i < leaves.length := (List.getElem?_eq_some_iff.mp hi).1
  rw [merkleDepth] at hlen
  obtain ⟨path, hpath, hplen, his⟩ := treePath_stored h (Nat.zero_add merkleDepth) (by omega : i < 2 ^ 64)
  obtain ⟨r, _, hr⟩ := h merkleDepth le_rfl 0 (by omega)
  refine ⟨path, r, hpath, hplen, hr, ?_⟩
  have hleaf : node B.hashPair (padded 0 leaves) 0 i = .ok c := by
    rw [node, padded, List.getD_eq_getElem?_getD, hi]
    rfl
  apply his.fold hleaf
  have htop : i / 2 ^ merkleDepth = 0 := Nat.div_eq_of_lt (by rw [merkleDepth]; omega)
  rw [hplen, htop, Nat.zero_add]
  exact hr

end

end TkmChain
