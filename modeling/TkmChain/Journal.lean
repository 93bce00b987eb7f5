import Mathlib

/-!
# Undo journals

A state that remembers what each write replaced and can go back to a snapshot.
Snapshots are numbered; going back to one drops it and all later ones, and a
number that is no longer on the list cannot be reverted to. `Grown` says that a
journal was only written to, and `revert_snapshot` that going back undoes that.
-/

structure Revision where
  (id journalIndex : Nat)
  deriving DecidableEq, Repr

/-- `entries` holds the states the writes replaced, the last one first; the
revisions are in the order they were taken. -/
structure Journal (σ : Type) where
  current : σ
  entries : List σ
  validRevisions : List Revision
  nextRevisionId : Nat
  sorted : validRevisions.Pairwise fun a b => a.id < b.id ∧ a.journalIndex ≤ b.journalIndex
  bounded : ∀ r ∈ validRevisions, r.id < nextRevisionId ∧ r.journalIndex ≤ entries.length

namespace Journal

open List

variable {σ : Type}

def undo : Nat → σ → List σ → σ × List σ
  | 0, s, past => (s, past)
  | _ + 1, s, [] => (s, [])
  | n + 1, _, p :: past => undo n p past

theorem undo_length : ∀ (n : Nat) (s : σ) (past : List σ), (undo n s past).2.length = past.length - n
  | 0, _, _ => rfl
  | _ + 1, _, [] => by simp [undo]
  | n + 1, _, p :: past => by
    rw [undo, undo_length n p past, length_cons]
    omega

theorem undo_suffix : ∀ {s' : σ} {past' : List σ}, s :: past <:+ s' :: past' →
    undo (past'.length - past.length) s' past' = (s, past)
  | s', [], h => by
    have hlen := h.length_le
    rw [length_cons, length_cons, length_nil] at hlen
    cases past with
    | nil => cases h.eq_of_length rfl; rfl
    | cons p past => simp at hlen
  | s', p :: past', h => by
    rcases suffix_cons_iff.mp h with heq | h
    · cases heq
      rw [Nat.sub_self, undo]
    · have hlen := h.length_le
      rw [length_cons, length_cons] at hlen
      have hstep : (p :: past').length - past.length = (past'.length - past.length) + 1 := by
        rw [length_cons]; omega
      rw [hstep, undo]
      exact undo_suffix h

/-! ## Operations -/

def ofState (s : σ) : Journal σ where
  current := s
  entries := []
  validRevisions := []
  nextRevisionId := 0
  sorted := List.Pairwise.nil
  bounded := by simp

def write (f : σ → σ) (j : Journal σ) : Journal σ where
  current := f j.current
  entries := j.current :: j.entries
  validRevisions := j.validRevisions
  nextRevisionId := j.nextRevisionId
  sorted := j.sorted
  bounded r hr := ⟨(j.bounded r hr).1, Nat.le_succ_of_le (j.bounded r hr).2⟩

def snapshot (j : Journal σ) : Journal σ where
  current := j.current
  entries := j.entries
  validRevisions := j.validRevisions ++ [⟨j.nextRevisionId, j.entries.length⟩]
  nextRevisionId := j.nextRevisionId + 1
  sorted := by
    rw [pairwise_append]
    refine ⟨j.sorted, pairwise_singleton _ _, ?_⟩
    intro a ha b hb
    cases mem_singleton.mp hb
    exact j.bounded a ha
  bounded r hr := by
    rcases mem_append.mp hr with hr | hr
    · exact ⟨Nat.lt_succ_of_lt (j.bounded r hr).1, (j.bounded r hr).2⟩
    · cases mem_singleton.mp hr
      exact ⟨Nat.lt_succ_self _, Nat.le_refl _⟩

def find (j : Journal σ) (id : Nat) : Option Revision :=
  (j.validRevisions.dropWhile (·.id < id)).head?.filter (·.id = id)

section
variable {j : Journal σ} {id : Nat} {r : Revision} (h : j.find id = some r)
include h

theorem find_mem :
    r ∈ j.validRevisions.dropWhile (·.id < id) :=
  mem_of_mem_head? (Option.filter_eq_some_iff.mp h).1

theorem find_bounded :
    r.journalIndex ≤ j.entries.length :=
  (j.bounded r ((dropWhile_suffix _).subset (find_mem h))).2

theorem find_sorted :
    ∀ a ∈ j.validRevisions.takeWhile (·.id < id), a.journalIndex ≤ r.journalIndex := by
  intro a ha
  have hs := j.sorted
  rw [← takeWhile_append_dropWhile (p := (·.id < id)) (l := j.validRevisions), pairwise_append] at hs
  exact (hs.2.2 a ha r (find_mem h)).2

end

/-- `none` where the code panics. -/
def revertToSnapshot (id : Nat) (j : Journal σ) : Option (Journal σ) :=
  match h : j.find id with
  | none => none
  | some r => some
    { current := (undo (j.entries.length - r.journalIndex) j.current j.entries).1
      entries := (undo (j.entries.length - r.journalIndex) j.current j.entries).2
      validRevisions := j.validRevisions.takeWhile (·.id < id)
      nextRevisionId := j.nextRevisionId
      sorted := j.sorted.sublist (takeWhile_sublist _)
      bounded := by
        intro a ha
        have hle := find_bounded h
        have hlen := undo_length (j.entries.length - r.journalIndex) j.current j.entries
        have hidx := find_sorted h a ha
        exact ⟨(j.bounded a ((takeWhile_sublist _).subset ha)).1, by omega⟩ }

/-- What `Finalise` leaves: the state without a way back. -/
def reset (j : Journal σ) : Journal σ := ofState j.current

/-! ## Going back after writes -/

structure Grown (j j' : Journal σ) : Prop where
  states : j.current :: j.entries <:+ j'.current :: j'.entries
  revisions : j'.validRevisions = j.validRevisions
  nextRevisionId : j'.nextRevisionId = j.nextRevisionId

namespace Grown

variable {j j' j'' : Journal σ}

protected theorem rfl : Grown j j := ⟨suffix_refl _, Eq.refl _, Eq.refl _⟩

protected theorem trans (h : Grown j j') (h' : Grown j' j'') : Grown j j'' :=
  ⟨h.states.trans h'.states, h'.revisions.trans h.revisions, h'.nextRevisionId.trans h.nextRevisionId⟩

theorem write (f : σ → σ) : Grown j (j.write f) := ⟨suffix_cons _ _, Eq.refl _, Eq.refl _⟩

end Grown

theorem find_snapshot {j j' : Journal σ} (h : Grown j.snapshot j') :
    j'.find j.nextRevisionId = some ⟨j.nextRevisionId, j.entries.length⟩ ∧
      j'.validRevisions.takeWhile (·.id < j.nextRevisionId) = j.validRevisions := by
  have hold : ∀ r ∈ j.validRevisions, decide (r.id < j.nextRevisionId) = true :=
    fun r hr => decide_eq_true (j.bounded r hr).1
  have hrev : j'.validRevisions = j.validRevisions ++ [⟨j.nextRevisionId, j.entries.length⟩] := h.revisions
  rw [find, hrev, dropWhile_append_of_pos hold, takeWhile_append_of_pos hold]
  simp

theorem revert_snapshot {j j' : Journal σ} (h : Grown j.snapshot j') :
    ∃ back, j'.revertToSnapshot j.nextRevisionId = some back ∧ back.current = j.current ∧
      back.entries = j.entries ∧ back.validRevisions = j.validRevisions := by
  obtain ⟨hfind, htake⟩ := find_snapshot h
  have hundo := undo_suffix h.states
  unfold revertToSnapshot
  split
  · rename_i hnone
    rw [hnone] at hfind
    cases hfind
  · rename_i r hsome
    rw [hsome] at hfind
    cases hfind
    exact ⟨_, rfl, congrArg Prod.fst hundo, congrArg Prod.snd hundo, htake⟩

end Journal
