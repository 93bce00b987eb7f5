import Mathlib

/-!
# Blocks and their ancestors

A block together with everything before it. Hashes are free of collisions, so a
block stands for its hash and two blocks are equal when their whole histories are.
The canonical chain of a node is the branch of its head, and what is computed by
going through a chain block by block is a fold over a branch.
-/

inductive Branch (β : Type)
  | genesis (b : β)
  | child (parent : Branch β) (b : β)
  deriving DecidableEq

namespace Branch

variable {β σ : Type}

def content : Branch β → β
  | genesis b => b
  | child _ b => b

def number : Branch β → Nat
  | genesis _ => 0
  | child parent _ => parent.number + 1

def parent : Branch β → Option (Branch β)
  | genesis _ => none
  | child parent _ => some parent

def ancestor (n : Nat) : Branch β → Option (Branch β)
  | genesis b => if n = 0 then some (genesis b) else none
  | child parent b => if n = parent.number + 1 then some (child parent b) else parent.ancestor n

def blocks : Branch β → List (Branch β)
  | genesis _ => []
  | child parent b => parent.blocks ++ [child parent b]

def fold (init : Branch β → σ) (step : σ → Branch β → σ) : Branch β → σ
  | genesis b => init (genesis b)
  | child parent b => step (parent.fold init step) (child parent b)

variable {t a p : Branch β} {b : β} {n : Nat}

theorem parent_eq_some (h : t.parent = some p) : ∃ b, t = child p b := by
  cases t with
  | genesis b => cases h
  | child q b =>
    cases h
    exact ⟨b, rfl⟩

theorem ancestor_number (h : t.ancestor n = some a) : a.number = n := by
  induction t with
  | genesis b =>
    rw [ancestor] at h
    split at h
    · rename_i hn
      cases h
      exact hn.symm
    · cases h
  | child parent b ih =>
    rw [ancestor] at h
    split at h
    · rename_i hn
      cases h
      exact hn.symm
    · exact ih h

theorem ancestor_self (t : Branch β) : t.ancestor t.number = some t := by
  cases t with
  | genesis b => rfl
  | child parent b => exact if_pos rfl

theorem ancestor_isSome (h : n ≤ t.number) : ∃ a, t.ancestor n = some a := by
  induction t with
  | genesis b => exact ⟨_, if_pos (Nat.le_zero.mp h)⟩
  | child parent b ih =>
    by_cases hn : n = parent.number + 1
    · exact ⟨_, if_pos hn⟩
    · obtain ⟨a, ha⟩ := ih (Nat.le_of_lt_succ (Nat.lt_of_le_of_ne h hn))
      exact ⟨a, (if_neg hn).trans ha⟩

theorem ancestor_le (h : t.ancestor n = some a) : n ≤ t.number := by
  induction t with
  | genesis b =>
    rw [ancestor] at h
    split at h
    · exact Nat.le_of_eq ‹_›
    · cases h
  | child parent b ih =>
    rw [ancestor] at h
    split at h
    · exact Nat.le_of_eq ‹_›
    · exact Nat.le_trans (ih h) (Nat.le_succ _)

theorem ancestor_zero (h : t.ancestor 0 = some a) : ∃ b, a = genesis b := by
  have hn := ancestor_number h
  cases a with
  | genesis b => exact ⟨b, rfl⟩
  | child parent b => cases hn

theorem ancestor_parent (h : t.ancestor n = some (child p b)) : t.ancestor p.number = some p := by
  induction t with
  | genesis c =>
    rw [ancestor] at h
    split at h <;> cases h
  | child parent c ih =>
    rw [ancestor] at h ⊢
    split at h
    · cases h
      rw [if_neg (Nat.ne_of_lt (Nat.lt_succ_self _))]
      exact ancestor_self _
    · have hp := ih h
      rwa [if_neg (Nat.ne_of_lt (Nat.lt_succ_of_le (ancestor_le hp)))]

theorem ancestor_succ (h : t.ancestor n = some p) (h' : t.ancestor (n + 1) = some a) : ∃ b, a = child p b := by
  have hn := ancestor_number h'
  cases a with
  | genesis b => cases hn
  | child q b =>
    have hq := ancestor_parent h'
    rw [Nat.succ.inj hn, h, Option.some.injEq] at hq
    exact ⟨b, by rw [hq]⟩

theorem mem_blocks (h : t.ancestor n = some (child p b)) : child p b ∈ t.blocks := by
  induction t with
  | genesis c =>
    rw [ancestor] at h
    split at h <;> cases h
  | child parent c ih =>
    rw [ancestor] at h
    rw [blocks, List.mem_append]
    split at h
    · cases h
      exact .inr (List.mem_singleton_self _)
    · exact .inl (ih h)

theorem ancestor_of_mem_blocks (h : a ∈ t.blocks) : t.ancestor a.number = some a := by
  induction t with
  | genesis c => cases h
  | child parent c ih =>
    rw [blocks, List.mem_append, List.mem_singleton] at h
    rcases h with h | rfl
    · have ha := ih h
      rw [ancestor, if_neg (Nat.ne_of_lt (Nat.lt_succ_of_le (ancestor_le ha)))]
      exact ha
    · exact ancestor_self _

theorem exists_parent (h : a ∈ t.blocks) : ∃ p b, a = child p b := by
  induction t with
  | genesis c => cases h
  | child parent c ih =>
    rw [blocks, List.mem_append, List.mem_singleton] at h
    rcases h with h | rfl
    · exact ih h
    · exact ⟨parent, c, rfl⟩

theorem blocks_ancestor (h : t.ancestor n = some a) : ∀ x ∈ a.blocks, x ∈ t.blocks := by
  induction t with
  | genesis c =>
    rw [ancestor] at h
    split at h
    · cases h
      exact fun x hx => hx
    · cases h
  | child parent c ih =>
    rw [ancestor] at h
    split at h
    · cases h
      exact fun x hx => hx
    · exact fun x hx => List.mem_append_left _ (ih h x hx)

end Branch
