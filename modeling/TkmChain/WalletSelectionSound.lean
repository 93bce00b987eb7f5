import TkmChain.Greedy
import TkmChain.WalletScan

/-!
# Selection of Shield6 notes

The largest notes are taken first, so what at most sixteen notes cover the selection covers.
It refuses every payment while a note of amount zero is among the notes.
-/

namespace TkmChain.Shielded6

open List

/-! ## The selection -/

open Greedy

variable {notes : List Note} {amount chain : Nat}

def Covered (notes : List Note) (amount : Nat) : Prop :=
  ∃ chosen : List Note, chosen.Sublist notes ∧ chosen.length ≤ shieldedV6MaxInputs ∧ (∀ note ∈ chosen, 0 < note.amount) ∧
    amount ≤ (chosen.map (·.amount)).sum

structure FromWallet (chain : Nat) (notes : List Note) : Prop where
  chain_ne : chain ≠ 0
  chainID : ∀ note ∈ notes, note.chainID = chain
  assetID : ∀ note ∈ notes, note.assetID = assetTKM
  amount_lt : ∀ note ∈ notes, note.amount < 2 ^ 128
  nodup : (notes.map (·.index)).Nodup

/-- `single` is the smallest of the notes that covers the amount alone. -/
def Best (amount : Nat) (notes : List Note) (single : Option Note) : Prop :=
  (∀ s ∈ single, s ∈ notes ∧ amount ≤ s.amount) ∧
    ∀ note ∈ notes, amount ≤ note.amount → ∃ s ∈ single, s.amount ≤ note.amount

theorem Best.add (h : Best amount notes single) (note : Note) : Best amount (notes ++ [note])
    (if amount ≤ note.amount ∧ ∀ s ∈ single, note.amount < s.amount then some note else single) := by
  split
  next hbetter =>
    refine ⟨fun s hs => ?_, fun n hn hcovers => ⟨note, rfl, ?_⟩⟩
    · obtain rfl := Option.some.inj hs
      exact ⟨by simp, hbetter.1⟩
    · rcases mem_append.mp hn with hn | hn
      · obtain ⟨s, hs, hle⟩ := h.2 n hn hcovers
        exact (hbetter.2 s hs).le.trans hle
      · exact Nat.le_of_eq (congrArg Note.amount (mem_singleton.mp hn).symm)
  next hworse =>
    refine ⟨fun s hs => ⟨mem_append_left _ (h.1 s hs).1, (h.1 s hs).2⟩, fun n hn hcovers => ?_⟩
    rcases mem_append.mp hn with hn | hn
    · exact h.2 n hn hcovers
    · rw [mem_singleton.mp hn] at hcovers ⊢
      simpa [hcovers] using hworse

theorem addCandidate_ok (amount : Nat) {found : Candidates} {note : Note} (hchain : note.chainID ≠ 0)
    (hasset : note.assetID = assetTKM) (hpos : 0 < note.amount) (hlt : note.amount < 2 ^ 128)
    (hsame : found.chainID = 0 ∨ found.chainID = note.chainID) (hindex : note.index ∉ found.notes.map (·.index)) :
    ∃ single, addCandidate amount found note = .ok ⟨found.notes ++ [note], single, note.chainID⟩ ∧
      (Best amount found.notes found.single → Best amount (found.notes ++ [note]) single) := by
  have hvalid : ¬ (note.chainID = 0 ∨ note.assetID ≠ assetTKM ∨ note.amount = 0 ∨ 2 ^ 128 ≤ note.amount) := by
    simp only [hchain, hasset, ne_eq, not_true_eq_false, false_or, not_or]
    omega
  have hone : ¬ (found.chainID ≠ 0 ∧ found.chainID ≠ note.chainID) := by
    rintro ⟨hne, hother⟩
    exact hsame.elim hne hother
  simp only [addCandidate, failIf, if_neg hvalid, if_neg hone, if_neg hindex, bind, Except.bind, pure, Except.pure,
    decide_eq_true_eq]
  exact ⟨_, rfl, fun h => h.add note⟩

theorem foldlM_addCandidate (amount : Nat) (found : Candidates) (hchain : chain ≠ 0)
    (hchains : ∀ note ∈ notes, note.chainID = chain) (hassets : ∀ note ∈ notes, note.assetID = assetTKM)
    (hpos : ∀ note ∈ notes, 0 < note.amount) (hlt : ∀ note ∈ notes, note.amount < 2 ^ 128)
    (hnodup : ((found.notes ++ notes).map (·.index)).Nodup) (hfound : found.chainID = 0 ∨ found.chainID = chain)
    (hbest : Best amount found.notes found.single) :
    ∃ result, notes.foldlM (addCandidate amount) found = .ok result ∧ result.notes = found.notes ++ notes ∧
      Best amount result.notes result.single := by
  induction notes generalizing found with
  | nil => exact ⟨found, rfl, (append_nil _).symm, hbest⟩
  | cons note notes ih =>
    obtain ⟨hchain₁, hchains⟩ := forall_mem_cons.mp hchains
    obtain ⟨hasset, hassets⟩ := forall_mem_cons.mp hassets
    obtain ⟨hpos₁, hpos⟩ := forall_mem_cons.mp hpos
    obtain ⟨hlt₁, hlt⟩ := forall_mem_cons.mp hlt
    have hindex : note.index ∉ found.notes.map (·.index) := by
      rw [map_append, map_cons] at hnodup
      intro hmem
      exact (nodup_append.mp hnodup).2.2 _ hmem _ mem_cons_self rfl
    rw [append_cons] at hnodup
    obtain ⟨single, hadd, hkeeps⟩ := addCandidate_ok amount (hchain₁ ▸ hchain) hasset hpos₁ hlt₁ (hchain₁ ▸ hfound) hindex
    obtain ⟨result, hrest, hnotes, hresult⟩ := ih ⟨found.notes ++ [note], single, note.chainID⟩ hchains hassets hpos hlt
      hnodup (.inr hchain₁) (hkeeps hbest)
    refine ⟨result, ?_, ?_, hresult⟩
    · simp only [foldlM_cons, hadd, bind, Except.bind]
      exact hrest
    · rw [hnotes, append_assoc, singleton_append]

theorem coverAmount_eq (amount inputs total : Nat) (notes : List Note) : coverAmount amount inputs total notes =
    (cover (·.amount) amount inputs total notes).map fun chosen => (chosen, total + worth (·.amount) chosen) := by
  fun_induction coverAmount with
  | case1 => rfl
  | case2 => rfl
  | case3 inputs total note rest henough => simp [cover, henough]
  | case4 inputs total note rest henough ih =>
    rw [cover, if_neg henough, ih, Option.map_map, Option.map_map]
    simp [Function.comp_def, Nat.add_assoc]

def largestFirst (notes : List Note) : List Note := notes.insertionSort fun a b => b.amount ≤ a.amount

theorem largestFirst_perm (notes : List Note) : (largestFirst notes).Perm notes := perm_insertionSort _ _

theorem largestFirst_sorted (notes : List Note) : (largestFirst notes).Pairwise fun a b => b.amount ≤ a.amount :=
  pairwise_insertionSort (fun a b : Note => b.amount ≤ a.amount) notes

section
variable {owned : List ShieldedV6OwnedNote} (hnotes : owned.map (·.note) = notes) (h : FromWallet chain notes)
  (hpositive : ∀ note ∈ notes, 0 < note.amount) (hpos : 0 < amount) (hfits : amount < 2 ^ 128)
include hnotes h hpositive hpos hfits

/-- The smallest covering note, or else the fewest of the largest notes. -/
theorem selectShieldedV6Notes_cases :
    (∃ s ∈ notes, selectShieldedV6Notes owned amount = .ok ([s], s.amount) ∧ amount ≤ s.amount ∧
      ∀ note ∈ notes, amount ≤ note.amount → s.amount ≤ note.amount) ∨
    (∀ note ∈ notes, note.amount < amount) ∧ ∀ chosen total, selectShieldedV6Notes owned amount = .ok (chosen, total) ↔
      cover (·.amount) amount shieldedV6MaxInputs 0 (largestFirst notes) = some chosen ∧
        total = worth (·.amount) chosen := by
  have hamount : ¬ (amount = 0 ∨ 2 ^ 128 ≤ amount) := by omega
  obtain ⟨found, hfold, hfound, hbest⟩ := foldlM_addCandidate amount ⟨[], none, 0⟩ h.chain_ne h.chainID h.assetID
    hpositive h.amount_lt h.nodup (.inl rfl) ⟨nofun, nofun⟩
  rw [nil_append] at hfound
  rw [hfound] at hbest
  have hselect : selectShieldedV6Notes owned amount = chooseShieldedV6Notes amount found := by
    simp only [selectShieldedV6Notes, failIf, if_neg hamount, hnotes, hfold, bind, Except.bind]
  rw [hselect, chooseShieldedV6Notes, hfound]
  cases hsingle : found.single with
  | some s =>
    rw [hsingle] at hbest
    refine .inl ⟨s, (hbest.1 s rfl).1, rfl, (hbest.1 s rfl).2, fun note hnote hcovers => ?_⟩
    obtain ⟨t, ht, hle⟩ := hbest.2 note hnote hcovers
    obtain rfl := Option.some.inj ht
    exact hle
  | none =>
    rw [hsingle] at hbest
    refine .inr ⟨fun note hnote => ?_, fun chosen total => ?_⟩
    · by_contra hcovers
      obtain ⟨t, ht, -⟩ := hbest.2 note hnote (by omega)
      cases ht
    · simp only [orFail_ok, coverAmount_eq, Option.map_eq_some_iff, Prod.mk.injEq, Nat.zero_add]
      constructor
      · rintro ⟨c, hc, rfl, rfl⟩
        exact ⟨hc, rfl⟩
      · rintro ⟨hc, rfl⟩
        exact ⟨chosen, hc, rfl, rfl⟩

theorem selectShieldedV6Notes_exists {other : List Note} (hother : other.Subperm notes)
    (hlength : other.length ≤ shieldedV6MaxInputs) (hsum : amount ≤ worth (·.amount) other) :
    ∃ chosen, selectShieldedV6Notes owned amount = .ok chosen := by
  rcases selectShieldedV6Notes_cases hnotes h hpositive hpos hfits with ⟨s, -, hs, -⟩ | ⟨-, hselect⟩
  · exact ⟨_, hs⟩
  · obtain ⟨chosen, hchosen⟩ := cover_exists hpos (largestFirst_sorted notes) (largestFirst_perm notes) hother hlength hsum
    exact ⟨_, (hselect chosen _).mpr ⟨hchosen, rfl⟩⟩

theorem selectShieldedV6Notes_covered (hcovered : Covered notes amount) :
    ∃ chosen, selectShieldedV6Notes owned amount = .ok chosen := by
  obtain ⟨other, hsub, hlength, -, hsum⟩ := hcovered
  exact selectShieldedV6Notes_exists hnotes h hpositive hpos hfits hsub.subperm hlength hsum

end

theorem foldlM_addCandidate_pos {found result : Candidates} (h : notes.foldlM (addCandidate amount) found = .ok result) :
    ∀ note ∈ notes, note.amount ≠ 0 := by
  induction notes generalizing found with
  | nil => simp
  | cons note notes ih =>
    rw [foldlM_cons, except_bind_ok] at h
    obtain ⟨next, hadd, hrest⟩ := h
    simp only [addCandidate, ok_rules, not_or] at hadd
    obtain ⟨-, ⟨-, -, hpos, -⟩, -⟩ := hadd
    exact forall_mem_cons.mpr ⟨hpos, ih hrest⟩

theorem selectShieldedV6Notes_pos {owned : List ShieldedV6OwnedNote} {chosen : List Note × Nat}
    (h : selectShieldedV6Notes owned amount = .ok chosen) :
    amount < 2 ^ 128 ∧ ∀ note ∈ owned.map (·.note), 0 < note.amount := by
  simp only [selectShieldedV6Notes, ok_rules, not_or, Nat.not_le] at h
  obtain ⟨-, ⟨-, hfits⟩, found, hfold, -⟩ := h
  exact ⟨hfits, fun note hmem => Nat.pos_of_ne_zero (foldlM_addCandidate_pos hfold note hmem)⟩

/-! ## Optimality -/

/-- The call on its caller's slice: what is sorted is `candidates`, a slice of the call. -/
def selectShieldedV6NotesCall (amount : Nat) : Proc (List ShieldedV6OwnedNote) String (List Note × Nat) :=
  Proc.read fun notes => selectShieldedV6Notes notes amount

structure Optimal (notes : List Note) (amount : Nat) (chosen : List Note) (total : Nat) : Prop extends
    Fewest (·.amount) amount shieldedV6MaxInputs notes chosen where
  distinct : (chosen.map (·.index)).Nodup
  total_eq : total = worth (·.amount) chosen
  change : ∀ note ∈ chosen, total - amount < note.amount

theorem nodup_of_subperm (h : List.Subperm chosen notes) (hnodup : (notes.map (·.index)).Nodup) :
    (chosen.map (·.index)).Nodup := by
  obtain ⟨l, hperm, hsub⟩ := h
  exact (hperm.map _).nodup_iff.mp (hnodup.sublist (hsub.map _))

/-- For positive notes of TKM and of one chain with distinct indices the selection finds the fewest notes that cover the
amount, and it fails only if sixteen notes cannot. -/
theorem shieldedV6_selection_optimal (owned : List ShieldedV6OwnedNote) (chain amount : Nat)
    (h : FromWallet chain (owned.map (·.note))) (hpositive : ∀ note ∈ owned.map (·.note), 0 < note.amount)
    (hpos : 0 < amount) (hfits : amount < 2 ^ 128) :
    (selectShieldedV6NotesCall amount owned).2 = owned ∧
    ((selectShieldedV6NotesCall amount).Succeeds owned ↔ ∃ other : List Note, other.Subperm (owned.map (·.note)) ∧
      other.length ≤ shieldedV6MaxInputs ∧ amount ≤ worth (·.amount) other) ∧
    ∀ chosen total, (selectShieldedV6NotesCall amount owned).1 = .ok (chosen, total) →
      Optimal (owned.map (·.note)) amount chosen total := by
  have hoptimal : ∀ chosen total, selectShieldedV6Notes owned amount = .ok (chosen, total) →
      Optimal (owned.map (·.note)) amount chosen total := by
    intro chosen total hselected
    rcases selectShieldedV6Notes_cases rfl h hpositive hpos hfits with ⟨s, hs, hselect, hcovers, hleast⟩ | ⟨hsmall, hselect⟩
    · rw [hselect] at hselected
      cases hselected
      refine ⟨fewest_single hpos (by decide) hs hcovers hleast, nodup_singleton _, rfl, fun note hnote => ?_⟩
      rw [mem_singleton.mp hnote]
      omega
    · obtain ⟨hchosen, rfl⟩ := (hselect chosen total).mp hselected
      have hfewest := fewest_cover hpos (largestFirst_sorted _) (largestFirst_perm _) hsmall hchosen
      refine ⟨hfewest, nodup_of_subperm hfewest.among h.nodup, rfl, fun note hnote => ?_⟩
      have hexcess : worth (·.amount) chosen < amount + note.amount :=
        cover_excess hpos (largestFirst_sorted _) hchosen hnote
      have henough : amount ≤ worth (·.amount) chosen := hfewest.enough
      omega
  refine ⟨rfl, ⟨?_, ?_⟩, hoptimal⟩
  · rintro ⟨⟨chosen, total⟩, _, hcall⟩
    have hbest := hoptimal chosen total (Proc.read_ok.mp hcall).1
    exact ⟨chosen, hbest.among, hbest.few, hbest.enough⟩
  · rintro ⟨other, hother, hlength, hworth⟩
    obtain ⟨chosen, hchosen⟩ := selectShieldedV6Notes_exists rfl h hpositive hpos hfits hother hlength hworth
    exact ⟨_, _, Proc.read_ok.mpr ⟨hchosen, rfl⟩⟩

def tkmNote (chain index amount : Nat) : ShieldedV6OwnedNote :=
  ⟨⟨chain, assetTKM, index, amount, 0, (0, 0), 1⟩, 1, 1⟩

theorem shieldedV6_selection_optimal_two :
    Optimal [(tkmNote 1 0 3).note, (tkmNote 1 1 5).note, (tkmNote 1 2 4).note] 8
      [(tkmNote 1 1 5).note, (tkmNote 1 2 4).note] 9 :=
  (shieldedV6_selection_optimal [tkmNote 1 0 3, tkmNote 1 1 5, tkmNote 1 2 4] 1 8
    ⟨by decide, by decide, by decide, by decide, by decide⟩ (by decide) (by decide) (by decide)).2.2 _ _ rfl

/-- Notes of two chains are refused though one of them covers the amount. -/
theorem shieldedV6_selection_two_chains :
    (∃ other : List Note, other.Subperm [(tkmNote 1 0 5).note, (tkmNote 2 1 5).note] ∧
      other.length ≤ shieldedV6MaxInputs ∧ 5 ≤ worth (·.amount) other) ∧
    ¬ (selectShieldedV6NotesCall 5).Succeeds [tkmNote 1 0 5, tkmNote 2 1 5] := by
  refine ⟨⟨[(tkmNote 1 0 5).note], by decide, by decide, by decide⟩, ?_⟩
  rintro ⟨r, _, h⟩
  cases h

end TkmChain.Shielded6
