import TkmChain.Slots

/-!
# Slots never alias

No text of a domain begins another, and within a domain no role with its slash begins
another, so a preimage is read back from its front whatever the bytes of the key.
-/

namespace TkmChain

open List

instance : Fintype DigestRole := derive_fintype% _

instance : Fintype LedgerRole := derive_fintype% _

instance : Fintype Role := derive_fintype% _

instance : Fintype V1Role := derive_fintype% _

instance : Fintype V4Role := derive_fintype% _

instance : Fintype V6Role := derive_fintype% _

instance : Fintype SlotDomain := derive_fintype% _


theorem SlotDomain.text_free : ∀ a b : SlotDomain, Bytes.ofText a.text <+: Bytes.ofText b.text → a = b := by
  decide +kernel

theorem V1Role.text_free : ∀ a b : V1Role, Bytes.ofText a.text <+: Bytes.ofText b.text → a = b := by decide +kernel

theorem V4Role.text_free :
    ∀ a b : V4Role, Bytes.ofText a.text ++ Bytes.ofText "/" <+: Bytes.ofText b.text ++ Bytes.ofText "/" → a = b := by
  decide +kernel

theorem V6Role.text_free :
    ∀ a b : V6Role, Bytes.ofText a.text ++ Bytes.ofText "/" <+: Bytes.ofText b.text ++ Bytes.ofText "/" → a = b := by
  decide +kernel

theorem Role.path_free : ∀ a b : Role, a.path <+: b.path → a = b := by decide +kernel

theorem code_append_inj {code : α → Bytes} (hfree : ∀ a b, code a <+: code b → a = b)
    (h : code a ++ k = code b ++ l) : a = b ∧ k = l := by
  have hab : a = b := by
    rcases append_eq_append_iff.mp h with ⟨m, hm, _⟩ | ⟨m, hm, _⟩
    · exact hfree a b ⟨m, hm.symm⟩
    · exact (hfree b a ⟨m, hm.symm⟩).symm
  subst hab
  exact ⟨rfl, append_cancel_left h⟩

/-- Asset ids are 64-bit numbers. -/
def Slot.Encodable : Slot → Prop
  | .v3Asset asset .. => asset < 2 ^ 64
  | _ => True

theorem preimage_inj {s t : Slot} (hs : s.Encodable) (ht : t.Encodable) (h : s.preimage = t.preimage) : s = t := by
  unfold Slot.preimage at h
  obtain ⟨hdomain, hpath⟩ := code_append_inj SlotDomain.text_free h
  cases s <;> cases t <;> cases hdomain <;> simp only [Slot.path] at hpath
  case v1.v1 => obtain ⟨rfl, rfl⟩ := code_append_inj V1Role.text_free hpath; rfl
  case v3.v3 => obtain ⟨rfl, rfl⟩ := code_append_inj Role.path_free hpath; rfl
  case v4.v4 => obtain ⟨rfl, rfl⟩ := code_append_inj V4Role.text_free hpath; rfl
  case v6.v6 => obtain ⟨rfl, rfl⟩ := code_append_inj V6Role.text_free hpath; rfl
  case v3Asset.v3Asset =>
    obtain ⟨hasset, hrest⟩ := append_inj hpath (by simp)
    have h64 : 2 ^ 64 = 256 ^ 8 := by norm_num
    obtain rfl := Bytes.be_inj (hs.trans_eq h64) (ht.trans_eq h64) hasset
    obtain ⟨rfl, rfl⟩ := code_append_inj Role.path_free (append_cancel_left hrest)
    rfl

/-- The slots in use, of encodable assets; their hashes meet only where their preimages do. -/
structure SlotsInUse (sha512 : Bytes → Bytes) (keccak256 : Bytes → Hash) (used : Slot → Prop) : Prop where
  collisionFree : ∀ s t, used s → used t → s.hash sha512 keccak256 = t.hash sha512 keccak256 → s.preimage = t.preimage
  encodable : ∀ s, used s → s.Encodable

/-- Slots in use are stored apart, and a record written over any number of them leaves every other one unchanged. -/
theorem slots_never_alias {sha512 : Bytes → Bytes} {keccak256 : Bytes → Hash} {used : Slot → Prop}
    (h : SlotsInUse sha512 keccak256 used) :
    (∀ s t, used s → used t → s ≠ t → s.hash sha512 keccak256 ≠ t.hash sha512 keccak256) ∧
      ∀ (storage : Hash → Hash) (record : List (Slot × Hash)) t, (∀ w ∈ record, used w.1) → used t →
        t ∉ record.map (·.1) →
        record.foldl (fun m w => Function.update m (w.1.hash sha512 keccak256) w.2) storage (t.hash sha512 keccak256) =
          storage (t.hash sha512 keccak256) := by
  have hapart : ∀ s t, used s → used t → s ≠ t → s.hash sha512 keccak256 ≠ t.hash sha512 keccak256 :=
    fun s t hs ht hne heq => hne (preimage_inj (h.encodable s hs) (h.encodable t ht) (h.collisionFree s t hs ht heq))
  refine ⟨hapart, fun storage record t hrecord ht hout => ?_⟩
  induction record generalizing storage with
  | nil => rfl
  | cons w record ih =>
    simp only [map_cons, mem_cons, not_or] at hout
    rw [foldl_cons, ih _ (fun x hx => hrecord x (mem_cons_of_mem _ hx)) hout.2]
    exact Function.update_of_ne (hapart t w.1 ht (hrecord w (mem_cons_self ..)) hout.1) ..

/-- The two halves of a digest and an output count, under functions that keep their preimages apart. -/
theorem slots_never_alias_digest :
    let slot (s : Slot) := s.hash id Hash.ofBytes
    Function.update (Function.update (fun _ => (0 : Hash)) (slot (.v3 (.half .currentRoot false) [])) 1)
      (slot (.v3 (.half .currentRoot true) [])) 2 (slot (.v6 .outputCount [])) = 0 := by
  have hused : SlotsInUse id Hash.ofBytes fun s =>
      s = .v3 (.half .currentRoot false) [] ∨ s = .v3 (.half .currentRoot true) [] ∨ s = .v6 .outputCount [] := by
    constructor
    · rintro s t (rfl | rfl | rfl) (rfl | rfl | rfl) <;> decide +kernel
    · rintro s (rfl | rfl | rfl) <;> trivial
  exact (slots_never_alias hused).2 (fun _ => 0)
    [(.v3 (.half .currentRoot false) [], 1), (.v3 (.half .currentRoot true) [], 2)]
    (.v6 .outputCount []) (by simp) (by simp) (by simp)

end TkmChain
