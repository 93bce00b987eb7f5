import Mathlib

/-!
# Merkle trees over padded leaves

The tree over a list of leaves, padded with one empty leaf, for a hash that can
fail. Nodes are addressed by level and index. Two ways to keep such a tree while
leaves are appended are related to it: all nodes, of which an append rewrites one
path (`node_append_ne`, `node_parent`), and the frontier of complete left
siblings (`Frontier`).
-/

namespace Merkle

open List

variable {α ε : Type} (hash : α → α → Except ε α)

/-- Node `i` of level `n`, leaves being level zero. -/
def node (leaf : Nat → α) : (n i : Nat) → Except ε α
  | 0, i => .ok (leaf i)
  | n + 1, i => do
    let l ← node leaf n (2 * i)
    let r ← node leaf n (2 * i + 1)
    hash l r

def padded (zero : α) (leaves : List α) (i : Nat) : α := leaves.getD i zero

def root (zero : α) (depth : Nat) (leaves : List α) : Except ε α := node hash (padded zero leaves) depth 0

def empty (zero : α) (n : Nat) : Except ε α := node hash (fun _ => zero) n 0

def join (i : Nat) (current sibling : α) : Except ε α :=
  if i % 2 = 0 then hash current sibling else hash sibling current

def fold : (i : Nat) → List α → α → Except ε α
  | _, [], d => .ok d
  | i, sibling :: path, d => do
    let parent ← join hash i d sibling
    fold (i / 2) path parent

variable {hash}

theorem div_pow_succ (j n : Nat) : j / 2 ^ (n + 1) = j / 2 ^ n / 2 := by
  rw [Nat.pow_succ, Nat.div_div_eq_div_mul]

theorem node_congr (h : ∀ j, j / 2 ^ n = i → leaf j = leaf' j) : node hash leaf n i = node hash leaf' n i := by
  induction n generalizing i with
  | zero => rw [node, node, h i (by simp)]
  | succ n ih =>
    have hbelow : ∀ c, c / 2 = i → node hash leaf n c = node hash leaf' n c := by
      intro c hc
      apply ih
      intro j hj
      apply h
      rw [div_pow_succ, hj, hc]
    rw [node, node, hbelow (2 * i) (by omega), hbelow (2 * i + 1) (by omega)]

theorem node_const (n i j : Nat) : node hash (fun _ => zero) n i = node hash (fun _ => zero) n j := by
  induction n generalizing i j with
  | zero => rfl
  | succ n ih => rw [node, node, ih (2 * i) (2 * j), ih (2 * i + 1) (2 * j + 1)]

theorem empty_succ (n : Nat) : empty hash zero (n + 1) = (do hash (← empty hash zero n) (← empty hash zero n)) := by
  rw [empty, node, node_const n (2 * 0) 0, node_const n (2 * 0 + 1) 0]
  rfl

/-- The empty subtrees of the levels from `k` on. -/
def Empties (hash : α → α → Except ε α) (zero : α) : Nat → List α → Prop
  | _, [] => True
  | k, z :: zeroes => empty hash zero k = .ok z ∧ Empties hash zero (k + 1) zeroes

theorem Empties.getD (h : Empties hash zero k zeroes) (hj : j < zeroes.length) :
    empty hash zero (k + j) = .ok (zeroes.getD j d) := by
  induction zeroes generalizing k j with
  | nil => cases hj
  | cons z zeroes ih =>
    cases j with
    | zero => exact h.1
    | succ j =>
      rw [getD_cons_succ, Nat.add_comm j 1, ← Nat.add_assoc]
      exact ih h.2 (Nat.lt_of_succ_lt_succ hj)

theorem Empties.take (h : Empties hash zero k zeroes) (n : Nat) : Empties hash zero k (zeroes.take n) := by
  induction zeroes generalizing k n with
  | nil => simp [Empties]
  | cons z zeroes ih =>
    cases n with
    | zero => trivial
    | succ n => exact ⟨h.1, ih h.2 n⟩

/-! ## Padding -/

theorem getElem?_concat_cases {l : List α} {a b : α} {i : Nat} (h : (l ++ [a])[i]? = some b) :
    l[i]? = some b ∨ (i = l.length ∧ b = a) := by
  by_cases hlt : i < l.length
  · rw [getElem?_append_left hlt] at h
    exact .inl h
  · have hlen := (List.getElem?_eq_some_iff.mp h).1
    rw [length_append, length_singleton] at hlen
    obtain rfl : i = l.length := by omega
    rw [getElem?_concat_length] at h
    exact .inr ⟨rfl, (Option.some.inj h).symm⟩

theorem node_empty (h : leaves.length ≤ i * 2 ^ n) : node hash (padded zero leaves) n i = empty hash zero n := by
  rw [empty, node_const n 0 i]
  apply node_congr
  intro j hj
  have hle : i * 2 ^ n ≤ j := hj ▸ Nat.div_mul_le_self j (2 ^ n)
  rw [padded, getD_eq_default _ _ (by omega)]

theorem padded_append_left (h : j ≠ leaves.length) :
    padded zero (leaves ++ [x]) j = padded zero leaves j := by
  rw [padded, padded]
  by_cases hj : j < leaves.length
  · rw [getD_append _ _ _ _ hj]
  · rw [getD_eq_default _ _ (by simp; omega), getD_eq_default _ _ (by omega)]

@[simp] theorem padded_append_self : padded zero (leaves ++ [x]) leaves.length = x := by
  simp [padded]

theorem node_append_ne (h : leaves.length / 2 ^ n ≠ i) :
    node hash (padded zero (leaves ++ [x])) n i = node hash (padded zero leaves) n i := by
  apply node_congr
  intro j hj
  apply padded_append_left
  intro hlast
  exact h (hlast ▸ hj)

/-! ## Paths -/

theorem xor_one (i : Nat) : i ^^^ 1 = if i % 2 = 0 then i + 1 else i - 1 := by
  split
  · rename_i h
    exact Nat.xor_one_of_even (Nat.even_iff.mpr h)
  · rename_i h
    exact Nat.xor_one_of_odd (Nat.odd_iff.mpr (by omega))

theorem xor_one_lt (hk : 0 < k) (h : i < 2 ^ k) : i ^^^ 1 < 2 ^ k :=
  Nat.xor_lt_two_pow h (Nat.one_lt_two_pow (by omega))

theorem node_parent (hd : node hash leaf n i = .ok d) (hs : node hash leaf n (i ^^^ 1) = .ok s) :
    node hash leaf (n + 1) (i / 2) = join hash i d s := by
  rw [xor_one] at hs
  rw [node, join]
  by_cases h : i % 2 = 0
  · have hleft : 2 * (i / 2) = i := by omega
    rw [if_pos h] at hs ⊢
    rw [hleft, hd, hs]
    rfl
  · have hleft : 2 * (i / 2) = i - 1 := by omega
    have hright : 2 * (i / 2) + 1 = i := by omega
    rw [if_neg h] at hs ⊢
    rw [hright, hleft, hd, hs]
    rfl

theorem node_below (h : node hash leaf (n + k) (i / 2 ^ k) = .ok r) :
    ∃ d, node hash leaf n i = .ok d := by
  induction k generalizing r with
  | zero => exact ⟨r, by simpa using h⟩
  | succ k ih =>
    rw [div_pow_succ, ← Nat.add_assoc, node] at h
    have hhalf : i / 2 ^ k = 2 * (i / 2 ^ k / 2) ∨ i / 2 ^ k = 2 * (i / 2 ^ k / 2) + 1 := by omega
    cases hl : node hash leaf (n + k) (2 * (i / 2 ^ k / 2)) with
    | error e => rw [hl] at h; cases h
    | ok l =>
      cases hr : node hash leaf (n + k) (2 * (i / 2 ^ k / 2) + 1) with
      | error e => rw [hl, hr] at h; cases h
      | ok r =>
        rcases hhalf with hhalf | hhalf
        · rw [← hhalf] at hl
          exact ih hl
        · rw [← hhalf] at hr
          exact ih hr

/-- The siblings met on the way up from node `i` of level `n`. -/
def IsPath (hash : α → α → Except ε α) (leaf : Nat → α) : (n i : Nat) → List α → Prop
  | _, _, [] => True
  | n, i, sibling :: path => node hash leaf n (i ^^^ 1) = .ok sibling ∧ IsPath hash leaf (n + 1) (i / 2) path

theorem isPath_of_getElem (h : ∀ k (hk : k < path.length), node hash leaf (n + k) ((i / 2 ^ k) ^^^ 1) = .ok path[k]) :
    IsPath hash leaf n i path := by
  induction path generalizing n i with
  | nil => trivial
  | cons s path ih =>
    constructor
    · have h0 := h 0 (by simp)
      rw [Nat.add_zero, Nat.pow_zero, Nat.div_one] at h0
      exact h0
    · apply ih
      intro k hk
      have hk' := h (k + 1) (by simpa using hk)
      rw [getElem_cons_succ, Nat.pow_succ, Nat.mul_comm, ← Nat.div_div_eq_div_mul, ← Nat.add_assoc,
        Nat.add_right_comm] at hk'
      exact hk'

theorem IsPath.fold (hpath : IsPath hash leaf n i path) (hd : node hash leaf n i = .ok d)
    (hr : node hash leaf (n + path.length) (i / 2 ^ path.length) = .ok r) : fold hash i path d = .ok r := by
  induction path generalizing n i d with
  | nil =>
    rw [length_nil, Nat.add_zero, Nat.pow_zero, Nat.div_one, hd] at hr
    exact hr
  | cons s path ih =>
    obtain ⟨hs, hrest⟩ := hpath
    have hr' : node hash leaf (n + 1 + path.length) (i / 2 / 2 ^ path.length) = .ok r := by
      rw [length_cons, Nat.pow_succ, Nat.mul_comm, ← Nat.div_div_eq_div_mul, ← Nat.add_assoc] at hr
      rw [Nat.add_right_comm]
      exact hr
    obtain ⟨parent, hparent⟩ := node_below hr'
    rw [Merkle.fold, ← node_parent hd hs, hparent]
    exact ih hrest hparent hr'

/-! ## Frontiers -/

theorem succ_div_pow (m k : Nat) :
    (m + 1) / 2 ^ k = m / 2 ^ k ∨ ((m + 1) / 2 ^ k = m / 2 ^ k + 1 ∧ (m + 1) / 2 ^ k * 2 ^ k = m + 1) := by
  rw [Nat.succ_div]
  split
  · rename_i h
    right
    refine ⟨rfl, ?_⟩
    have := Nat.succ_div_of_dvd h
    rw [← this, Nat.div_mul_cancel h]
  · left
    rfl

/-- The complete left siblings on the path of the next leaf, one for each bit of the number of leaves. -/
def Frontier (hash : α → α → Except ε α) (zero : α) (depth : Nat) (leaves : List α) (front : Nat → α) : Prop :=
  ∀ k < depth, leaves.length / 2 ^ k % 2 = 1 →
    node hash (padded zero leaves) k (leaves.length / 2 ^ k - 1) = .ok (front k)

namespace Frontier

theorem nil : Frontier hash zero depth [] front := by
  intro k _ h
  simp at h

theorem sibling (h : Frontier hash zero depth leaves front) (hk : k < depth)
    (hbit : leaves.length / 2 ^ k % 2 = 1) :
    node hash (padded zero (leaves ++ [x])) k ((leaves.length / 2 ^ k) ^^^ 1) = .ok (front k) := by
  rw [xor_one, if_neg (by omega), node_append_ne (by omega)]
  exact h k hk hbit

theorem append (h : Frontier hash zero depth leaves front)
    (hnew : ∀ k < depth, leaves.length / 2 ^ k % 2 = 0 →
      node hash (padded zero (leaves ++ [x])) k (leaves.length / 2 ^ k) = .ok (front' k))
    (hold : ∀ k < depth, leaves.length / 2 ^ k % 2 = 1 → front' k = front k) :
    Frontier hash zero depth (leaves ++ [x]) front' := by
  intro k hk hbit
  rw [length_append, length_singleton] at hbit ⊢
  rcases succ_div_pow leaves.length k with hsame | ⟨hnext, _⟩
  · rw [hsame] at hbit ⊢
    rw [node_append_ne (by omega), h k hk hbit, hold k hk hbit]
  · rw [hnext] at hbit ⊢
    rw [Nat.add_sub_cancel]
    exact hnew k hk (by omega)

theorem overwrite (h : Frontier hash zero depth leaves front) (hbit : leaves.length / 2 ^ level % 2 = 0)
    (hframe : ∀ k < depth, k ≠ level → front' k = front k) : Frontier hash zero depth leaves front' := by
  intro k hk hodd
  have hne : k ≠ level := by
    rintro rfl
    omega
  rw [h k hk hodd, hframe k hk hne]

theorem parent (h : Frontier hash zero depth leaves front) (hk : k < depth) (hbit : leaves.length / 2 ^ k % 2 = 1)
    (hc : node hash (padded zero (leaves ++ [x])) k (leaves.length / 2 ^ k) = .ok c) :
    node hash (padded zero (leaves ++ [x])) (k + 1) (leaves.length / 2 ^ (k + 1)) = hash (front k) c := by
  rw [div_pow_succ, node_parent hc (h.sibling hk hbit), join, if_neg (by omega)]

end Frontier

theorem sibling_empty (hbit : leaves.length / 2 ^ k % 2 = 0) :
    node hash (padded zero (leaves ++ [x])) k ((leaves.length / 2 ^ k) ^^^ 1) = empty hash zero k := by
  rw [xor_one, if_pos hbit]
  apply node_empty
  have := Nat.lt_mul_div_succ leaves.length (Nat.two_pow_pos k)
  rw [length_append, length_singleton, Nat.mul_comm]
  omega

theorem parent_empty (hbit : leaves.length / 2 ^ k % 2 = 0) (hz : empty hash zero k = .ok z)
    (hc : node hash (padded zero (leaves ++ [x])) k (leaves.length / 2 ^ k) = .ok c) :
    node hash (padded zero (leaves ++ [x])) (k + 1) (leaves.length / 2 ^ (k + 1)) = hash c z := by
  rw [div_pow_succ, node_parent hc ((sibling_empty hbit).trans hz), join, if_pos hbit]

/-- A loop up the path of a new leaf `x`, from `level` to the root `r`, has turned `front` into `front'`. -/
structure Inserted (hash : α → α → Except ε α) (zero : α) (depth : Nat) (leaves : List α) (x : α) (level : Nat)
    (front front' : Nat → α) (r : α) : Prop where
  root : node hash (padded zero (leaves ++ [x])) depth (leaves.length / 2 ^ depth) = .ok r
  left : ∀ k, level ≤ k → k < depth → leaves.length / 2 ^ k % 2 = 0 →
    node hash (padded zero (leaves ++ [x])) k (leaves.length / 2 ^ k) = .ok (front' k)
  right : ∀ k, level ≤ k → k < depth → leaves.length / 2 ^ k % 2 = 1 → front' k = front k

namespace Inserted

theorem top (h : node hash (padded zero (leaves ++ [x])) depth (leaves.length / 2 ^ depth) = .ok r) :
    Inserted hash zero depth leaves x depth front front r :=
  ⟨h, fun k hk hd => by omega, fun k hk hd => by omega⟩

theorem step (h : Inserted hash zero depth leaves x (level + 1) front₁ front' r)
    (hkeep : front' level = front₁ level)
    (hleft : leaves.length / 2 ^ level % 2 = 0 →
      node hash (padded zero (leaves ++ [x])) level (leaves.length / 2 ^ level) = .ok (front₁ level))
    (hright : leaves.length / 2 ^ level % 2 = 1 → front₁ level = front level)
    (hframe : ∀ k < depth, k ≠ level → front₁ k = front k) :
    Inserted hash zero depth leaves x level front front' r := by
  constructor
  · exact h.root
  · intro k hk hd hbit
    by_cases heq : k = level
    · subst heq
      rw [hkeep, hleft hbit]
    · exact h.left k (by omega) hd hbit
  · intro k hk hd hbit
    by_cases heq : k = level
    · subst heq
      rw [hkeep, hright hbit]
    · rw [h.right k (by omega) hd hbit, hframe k hd heq]

theorem frontier (h : Inserted hash zero depth leaves x 0 front front' r) (hf : Frontier hash zero depth leaves front) :
    Frontier hash zero depth (leaves ++ [x]) front' :=
  hf.append (fun k => h.left k (Nat.zero_le k)) (fun k => h.right k (Nat.zero_le k))

end Inserted

end Merkle
