import TkmChain.RegistrySound
import TkmChain.TreesSound

/-!
# The stamp registry is append-only

Stamps enter a book, one line per address and owner, in the order of the owner index.
Registrations append a line and nothing else touches the book, so the relation between
addresses and owners is an injection that only grows.
-/

namespace TkmChain

open List Function

/-! ## Digests in storage -/

theorem Bytes.drop_be (k w n : Nat) : (Bytes.be (k + w) n).drop k = Bytes.be w n := by
  induction k with
  | zero => rw [Nat.zero_add, drop_zero]
  | succ k ih => rw [Nat.add_right_comm, Bytes.be, drop_succ_cons, ih]

theorem take_drop_flatMap {α : Type} {f : α → Bytes} {c : Nat} (hf : ∀ x, (f x).length = c) :
    ∀ (l : List α) (i : Nat) (h : i < l.length), ((l.flatMap f).drop (c * i)).take c = f l[i]
  | x :: l, 0, _ => by
    rw [Nat.mul_zero, drop_zero, flatMap_cons, take_left' (hf x)]
    rfl
  | x :: l, i + 1, h => by
    rw [flatMap_cons, Nat.mul_succ, Nat.add_comm, ← drop_drop, drop_left' (hf x),
      take_drop_flatMap hf l i (Nat.lt_of_succ_lt_succ h)]
    rfl

namespace Digest

theorem length_bytes (d : Digest) : d.bytes.length = 40 := by
  simp [bytes, length_flatMap]

theorem ofFn_bytes (d : Digest) : (⟨Vector.ofFn fun i : Fin 5 =>
    UInt64.ofNat (Bytes.toNat ((d.bytes.drop (8 * i.val)).take 8).reverse)⟩ : Digest) = d := by
  cases d with
  | mk words =>
    rw [Digest.mk.injEq]
    apply Vector.ext
    intro i hi
    have hblock := take_drop_flatMap (c := 8) (f := fun w : UInt64 => (Bytes.be 8 w.toNat).reverse) (by simp) words.toList i
      (by simpa using hi)
    have hword : words[i].toNat < 256 ^ 8 := by simpa using words[i].toNat_lt
    rw [Vector.getElem_ofFn, bytes, hblock, reverse_reverse, Bytes.toNat_be, Vector.getElem_toList,
      Nat.mod_eq_of_lt hword, UInt64.ofNat_toNat]

theorem bytes_inj {d d' : Digest} (h : d.bytes = d'.bytes) : d = d' := by
  rw [← ofFn_bytes d, h, ofFn_bytes]

end Digest

theorem digestFromBytes_bytes : digestFromBytes d.bytes = .ok d' ↔ d' = d ∧ d.canonical = true := by
  simp only [digestFromBytes, ok_rules, d.length_bytes, Digest.ofFn_bytes, not_not]
  constructor
  · rintro ⟨_, _, _, hc, rfl⟩
    exact ⟨rfl, hc⟩
  · rintro ⟨rfl, hc⟩
    exact ⟨(), trivial, (), hc, rfl⟩

theorem v3ReadDigest_of_slots (hc : d.canonical = true)
    (h0 : st.storage (.v3 (.half r false) key) = Hash.ofBytes (d.bytes.take 32))
    (h1 : st.storage (.v3 (.half r true) key) = Hash.ofBytes (d.bytes.drop 32)) : v3ReadDigest st r key = .ok d := by
  have hlen : (d.bytes.drop 32).length = 8 := by rw [length_drop, d.length_bytes]
  have htail : Bytes.toNat (d.bytes.drop 32) < 256 ^ 8 := hlen ▸ Bytes.toNat_lt _
  have hword : (Hash.ofBytes (d.bytes.drop 32)).toNat = Bytes.toNat (d.bytes.drop 32) := by
    rw [Hash.ofBytes, BitVec.toNat_ofNat, Nat.mod_eq_of_lt (by omega)]
  have hdrop : (Hash.ofBytes (d.bytes.drop 32)).bytes.drop 24 = d.bytes.drop 32 := by
    have hbe := Bytes.be_toNat (d.bytes.drop 32)
    rw [hlen] at hbe
    rw [Hash.bytes, hword, Bytes.drop_be 24 8, hbe]
  have hhead : (Hash.ofBytes (d.bytes.take 32)).bytes = d.bytes.take 32 :=
    Hash.bytes_ofBytes (by rw [length_take, d.length_bytes]; rfl)
  simp only [v3ReadDigest, ok_rules, h0, h1]
  refine ⟨(), ?_, ?_⟩
  · rw [hword]
    omega
  · rw [hhead, hdrop, take_append_drop, digestFromBytes_bytes]
    exact ⟨rfl, hc⟩

/-! ## What a registration writes -/

def stampNextIndexSlot : Slot := .v3 .stampNextIndex []

def StampSlot : Slot → Prop
  | .v3 .stampAddress _ | .v3 (.half .stampAddressOwner _) _ | .v3 .stampOwnerIndex _ | .v3 .stampNextIndex _ => True
  | _ => False

theorem stampSlot_address (a : Address) : StampSlot (stampAddressSlot a) := trivial

theorem stampSlot_owner (b : Bool) (a : Address) : StampSlot (.v3 (.half .stampAddressOwner b) a.bytes) := trivial

theorem stampSlot_index (d : Digest) : StampSlot (stampOwnerIndexSlot d) := trivial

theorem stampSlot_next : StampSlot stampNextIndexSlot := trivial

theorem stampTree_node_not_stampSlot (hk : StampSlot k) : ¬ stampTree.Node k := by
  rintro (⟨b, key, rfl⟩ | ⟨key, rfl⟩)
  · exact hk
  · exact hk

section
variable
  {st st' : StateDB}

theorem appendAntarticalStamp_ok (h : appendAntarticalStamp B chainID owner txHash st = (.ok (), st')) :
    ∃ n, n = uint64FromHash (st.storage stampNextIndexSlot) ∧ n < 2 ^ merkleDepth ∧
      st'.storage (stampOwnerIndexSlot owner) = uint64Hash (n + 1) ∧
      st'.storage stampNextIndexSlot = uint64Hash (n + 1) ∧
      ∀ k, StampSlot k → k ≠ stampOwnerIndexSlot owner → k ≠ stampNextIndexSlot → st'.storage k = st.storage k := by
  simp only [appendAntarticalStamp, Proc.run_rules, failIf_ok, Nat.not_le] at h
  obtain ⟨n, hn, hroom, zeroes, _, leaf, _, current, s, hclimb, rfl⟩ := h
  have hframe := (climb_nodes B stampTree zeroes _ _ _ _).ok hclimb
  refine ⟨n, (Except.ok.inj hn).symm, hroom, ?_, ?_, ?_⟩
  · simp [v3WriteDigest, StateDB.setStates, stampOwnerIndexSlot]
  · simp [v3WriteDigest, StateDB.setStates, stampNextIndexSlot]
  · intro k hk howner hnext
    have hroot : ∀ b key, k ≠ .v3 (.half .stampCurrentRoot b) key := by rintro b key rfl; exact hk
    have hnew : ∀ key, k ≠ .v3 .stampRoot key := by rintro key rfl; exact hk
    rw [← hframe.storage k (stampTree_node_not_stampSlot hk)]
    simp only [v3WriteDigest, StateDB.setStates, foldl_cons, foldl_nil, StateDB.setState_storage]
    have hnext : k ≠ .v3 .stampNextIndex [] := hnext
    have howner : k ≠ .v3 .stampOwnerIndex owner.bytes := howner
    rw [update_of_ne (hroot _ _), update_of_ne (hroot _ _), update_of_ne (hnew _),
      update_of_ne hnext, update_of_ne howner]

/-- The effect of a registration: address `a` gets the stamp of `owner`, at place `n` of the index. -/
structure StampEffect (st st' : StateDB) (a : Address) (owner : Digest) (txHash : Hash) (n : Nat) : Prop where
  stamp : st'.storage (stampAddressSlot a) = txHash
  owned : v3ReadDigest st' .stampAddressOwner a.bytes = .ok owner
  index : st'.storage (stampOwnerIndexSlot owner) = uint64Hash (n + 1)
  next : st'.storage stampNextIndexSlot = uint64Hash (n + 1)
  frame : ∀ k, StampSlot k → k ≠ stampAddressSlot a → (∀ b, k ≠ .v3 (.half .stampAddressOwner b) a.bytes) →
    k ≠ stampOwnerIndexSlot owner → k ≠ stampNextIndexSlot → st'.storage k = st.storage k

theorem recordStamp_effect
    (hc : e.owner.canonical = true) (hindex : s.storage (stampOwnerIndexSlot e.owner) = uint64Hash (n + 1))
    (hnext : s.storage stampNextIndexSlot = uint64Hash (n + 1))
    (hframe : ∀ k, StampSlot k → k ≠ stampOwnerIndexSlot e.owner → k ≠ stampNextIndexSlot →
      s.storage k = st.storage k) :
    StampEffect st (recordStamp a e txHash s) a e.owner txHash n := by
  have hnonce : (if s.nonce poolAddress = 0 then s.setNonce poolAddress 1 else s).storage = s.storage := by
    split <;> rfl
  refine ⟨?_, v3ReadDigest_of_slots hc ?_ ?_, ?_, ?_, ?_⟩
  · simp [recordStamp, v3WriteDigest, StateDB.setStates, stampAddressSlot]
  · simp [recordStamp, v3WriteDigest, StateDB.setStates]
  · simp [recordStamp, v3WriteDigest, StateDB.setStates]
  · rw [← hindex, ← hnonce]
    simp [recordStamp, v3WriteDigest, StateDB.setStates, stampAddressSlot, stampOwnerIndexSlot]
  · rw [← hnext, ← hnonce]
    simp [recordStamp, v3WriteDigest, StateDB.setStates, stampAddressSlot, stampNextIndexSlot]
  · intro k hk ha howner hi hn
    have hcommit : ∀ b key, k ≠ .v3 (.stampCommitment b) key := by rintro b key rfl; exact hk
    rw [← hframe k hk hi hn, ← hnonce]
    simp only [recordStamp, v3WriteDigest, StateDB.setStates, foldl_cons, foldl_nil,
      StateDB.setState_storage]
    rw [update_of_ne (hcommit _ _), update_of_ne (hcommit _ _), update_of_ne (howner _),
      update_of_ne (howner _), update_of_ne ha]

theorem processAntarticalStamp_iff : processAntarticalStamp B cfg num time tx st = (.ok (), st') ↔
    ∃ sender e a, validateAntarticalStampBasics B cfg num time tx = .ok () ∧ B.sender cfg num time tx = .ok sender ∧
      decodeAntarticalStamp B tx.data = .ok e ∧ antarticalStampBeneficiary B sender e = .ok a ∧
      (e.beneficiaryPublicKey ≠ [] → isAntarticalStamped st sender = true) ∧
      if st.storage (stampAddressSlot a) = tx.hash then st' = st
      else st.storage (stampAddressSlot a) = 0 ∧ st.codeSize poolAddress = 0 ∧
        st.storage (stampOwnerIndexSlot e.owner) = 0 ∧ validateAntarticalStampProof B tx = .ok () ∧
        ∃ s, appendAntarticalStamp B e.stamp.chainID e.owner tx.hash st = (.ok (), s) ∧
          st' = recordStamp a e tx.hash s := by
  simp only [processAntarticalStamp, Proc.run_rules]
  constructor
  · rintro ⟨hbasics, sender, hsend, e, he, a, ha, hsponsor, existing, hexisting, h⟩
    obtain rfl := Except.ok.inj hexisting
    rw [failIf_ok, not_and, not_not] at hsponsor
    refine ⟨sender, e, a, hbasics, hsend, he, ha, hsponsor, ?_⟩
    split at h <;> rename_i hsame
    · rw [if_pos hsame]
      exact (Proc.pure_ok.mp h).2.symm
    · rw [if_neg hsame]
      simp only [Proc.run_rules, Proc.orRevert_ok, ok_rules, not_not] at h
      obtain ⟨⟨hnone, hcode, hfresh, hproof⟩, s, happend, rfl⟩ := h
      exact ⟨hnone, hcode, hfresh, hproof, s, happend, rfl⟩
  · rintro ⟨sender, e, a, hbasics, hsend, he, ha, hsponsor, h⟩
    refine ⟨hbasics, sender, hsend, e, he, a, ha, failIf_ok.mpr (by simpa using hsponsor), _, rfl, ?_⟩
    split at h <;> rename_i hsame
    · rw [if_pos hsame, h]
      rfl
    · rw [if_neg hsame]
      simp only [Proc.run_rules, Proc.orRevert_ok, ok_rules, not_not]
      obtain ⟨hnone, hcode, hfresh, hproof, s, happend, rfl⟩ := h
      exact ⟨⟨hnone, hcode, hfresh, hproof⟩, s, happend, rfl⟩

theorem stampBasics_owner (he : decodeAntarticalStamp B tx.data = .ok e)
    (h : validateAntarticalStampBasics B cfg num time tx = .ok u) : e.owner.canonical = true := by
  simp only [validateAntarticalStampBasics, ok_rules, he, Except.ok.injEq] at h
  obtain ⟨_, _, _, _, _, rfl, _, _, _, _, _, hd, _⟩ := h
  exact (digestFromBytes_bytes.mp hd).2

theorem processAntarticalStamp_effect (h : processAntarticalStamp B cfg num time tx st = (.ok (), st')) :
    st' = st ∨ ∃ a owner n, st.storage (stampAddressSlot a) = 0 ∧ st.storage (stampOwnerIndexSlot owner) = 0 ∧
      n = uint64FromHash (st.storage stampNextIndexSlot) ∧ n < 2 ^ merkleDepth ∧
      StampEffect st st' a owner tx.hash n := by
  obtain ⟨sender, e, a, hbasics, _, he, _, _, h⟩ := processAntarticalStamp_iff.mp h
  split at h
  · exact Or.inl h
  · obtain ⟨hnone, _, hfresh, _, s, happend, rfl⟩ := h
    obtain ⟨n, hn, hroom, hindex, hnext, hframe⟩ := appendAntarticalStamp_ok happend
    exact Or.inr ⟨a, e.owner, n, hnone, hfresh, hn, hroom,
      recordStamp_effect (stampBasics_owner he hbasics) hindex hnext hframe⟩

theorem StampEffect.stamped {a b : Address} {n : Nat} (h : StampEffect st st' a owner txHash n) (hne : txHash ≠ 0)
    (hb : isAntarticalStamped st b = true) : isAntarticalStamped st' b = true := by
  rw [isAntarticalStamped, decide_eq_true_eq] at hb ⊢
  by_cases hab : b = a
  · rw [hab, h.stamp]
    exact hne
  · rwa [h.frame _ (stampSlot_address b) (fun heq => hab (Address.bytes_inj (Slot.v3.inj heq).2)) nofun nofun nofun]

theorem processAntarticalStamp_again (h : processAntarticalStamp B cfg num time tx st = (.ok (), st'))
    (hsame : ∀ k, StampSlot k → st₂.storage k = st'.storage k) :
    processAntarticalStamp B cfg num time tx st₂ = (.ok (), st₂) := by
  obtain ⟨sender, e, a, hbasics, hsend, he, ha, hsponsor, hcase⟩ := processAntarticalStamp_iff.mp h
  have hstamped (b : Address) : isAntarticalStamped st₂ b = isAntarticalStamped st' b := by
    rw [isAntarticalStamped, hsame _ (stampSlot_address b), ← isAntarticalStamped]
  split at hcase
  · rename_i hseen
    subst hcase
    refine processAntarticalStamp_iff.mpr ⟨sender, e, a, hbasics, hsend, he, ha, ?_, ?_⟩
    · intro hb
      rw [hstamped]
      exact hsponsor hb
    · rw [if_pos (by rw [hsame _ (stampSlot_address a), hseen])]
  · obtain ⟨hnone, _, hfresh, _, s, happend, rfl⟩ := hcase
    obtain ⟨n, _, _, hindex, hnext, hframe⟩ := appendAntarticalStamp_ok happend
    have heff : StampEffect st (recordStamp a e tx.hash s) a e.owner tx.hash n :=
      recordStamp_effect (stampBasics_owner he hbasics) hindex hnext hframe
    refine processAntarticalStamp_iff.mpr ⟨sender, e, a, hbasics, hsend, he, ha, ?_, ?_⟩
    · intro hb
      rw [hstamped]
      exact heff.stamped tx.hash_ne (hsponsor hb)
    · rw [if_pos (by rw [hsame _ (stampSlot_address a), heff.stamp])]

end

/-! ## The book of stamps -/

structure StampBook (st : StateDB) (book : List (Address × Digest)) : Prop where
  stamped : ∀ a, isAntarticalStamped st a = true ↔ a ∈ book.map (·.1)
  owned : ∀ p ∈ book, v3ReadDigest st .stampAddressOwner p.1.bytes = .ok p.2
  addresses : (book.map (·.1)).Nodup
  owners : (book.map (·.2)).Nodup
  index : ∀ i p, book[i]? = some p → st.storage (stampOwnerIndexSlot p.2) = uint64Hash (i + 1)
  unindexed : ∀ d, d ∉ book.map (·.2) → st.storage (stampOwnerIndexSlot d) = 0
  next : st.storage stampNextIndexSlot = uint64Hash book.length
  size : book.length ≤ 2 ^ merkleDepth

namespace StampBook

theorem empty (h : ∀ k, StampSlot k → st.storage k = 0) : StampBook st [] := by
  refine ⟨fun a => ?_, nofun, nodup_nil, nodup_nil, nofun, fun d _ => h _ (stampSlot_index d), ?_,
    Nat.zero_le _⟩
  · simp [isAntarticalStamped, h _ (stampSlot_address a)]
  · rw [h _ stampSlot_next]
    rfl

theorem congr (h : StampBook st book) (hs : ∀ k, StampSlot k → st'.storage k = st.storage k) : StampBook st' book := by
  refine ⟨fun a => ?_, fun p hp => ?_, h.addresses, h.owners, fun i p hp => ?_, fun d hd => ?_, ?_, h.size⟩
  · rw [isAntarticalStamped, hs _ (stampSlot_address a), ← isAntarticalStamped, h.stamped]
  · rw [v3ReadDigest_congr fun b => hs _ (stampSlot_owner b p.1), h.owned p hp]
  · rw [hs _ (stampSlot_index p.2), h.index i p hp]
  · rw [hs _ (stampSlot_index d), h.unindexed d hd]
  · rw [hs _ stampSlot_next, h.next]

theorem index_lt (h : StampBook st book) (hp : book[i]? = some p) :
    i < book.length ∧ i + 1 < 2 ^ 64 := by
  have hi := (List.getElem?_eq_some_iff.mp hp).1
  have hsize := h.size
  have hdepth : merkleDepth = 32 := rfl
  rw [hdepth] at hsize
  omega

theorem length_lt (h : StampBook st book) : book.length < 2 ^ 64 := by
  have hsize := h.size
  have hdepth : merkleDepth = 32 := rfl
  rw [hdepth] at hsize
  omega

theorem indexed_iff (h : StampBook st book) : st.storage (stampOwnerIndexSlot d) ≠ 0 ↔ d ∈ book.map (·.2) := by
  constructor
  · intro hne
    by_contra hd
    exact hne (h.unindexed d hd)
  · intro hd h0
    obtain ⟨p, hp, rfl⟩ := mem_map.mp hd
    obtain ⟨i, hi⟩ := mem_iff_getElem?.mp hp
    have hsmall := (h.index_lt hi).2
    have hzero : uint64FromHash (uint64Hash (i + 1)) = 0 := by
      rw [← h.index i p hi, h0]
      rfl
    rw [uint64FromHash_uint64Hash hsmall] at hzero
    cases hzero

theorem append (h : StampBook st book) (heff : StampEffect st st' a owner txHash book.length) (hne : txHash ≠ 0)
    (hnone : st.storage (stampAddressSlot a) = 0) (hfresh : st.storage (stampOwnerIndexSlot owner) = 0)
    (hroom : book.length < 2 ^ merkleDepth) : StampBook st' (book ++ [(a, owner)]) := by
  have ha : a ∉ book.map (·.1) := fun hmem => by
    have := (h.stamped a).mpr hmem
    simp [isAntarticalStamped, hnone] at this
  have howner : owner ∉ book.map (·.2) := fun hmem => h.indexed_iff.mpr hmem hfresh
  have hindex (e : Digest) (he : e ≠ owner) :
      st'.storage (stampOwnerIndexSlot e) = st.storage (stampOwnerIndexSlot e) :=
    heff.frame _ (stampSlot_index e) nofun nofun (fun heq => he (Digest.bytes_inj (Slot.v3.inj heq).2)) nofun
  refine ⟨fun b => ?_, fun p hp => ?_, ?_, ?_, fun i p hp => ?_, fun e he => ?_, ?_, ?_⟩
  · by_cases hb : b = a
    · subst hb
      rw [isAntarticalStamped, heff.stamp, decide_eq_true_eq]
      exact iff_of_true hne (by simp)
    · have hkeep := heff.frame _ (stampSlot_address b) (fun heq => hb (Address.bytes_inj (Slot.v3.inj heq).2)) nofun
        nofun nofun
      rw [isAntarticalStamped, hkeep, ← isAntarticalStamped, h.stamped]
      simp [hb]
  · rcases mem_append.mp hp with hp | hp
    · have hpa : p.1 ≠ a := fun heq => ha (heq ▸ mem_map_of_mem hp)
      rw [← h.owned p hp]
      refine v3ReadDigest_congr fun b => heff.frame _ (stampSlot_owner b p.1) nofun (fun c heq => ?_) nofun nofun
      exact hpa (Address.bytes_inj (Slot.v3.inj heq).2)
    · rw [mem_singleton.mp hp]
      exact heff.owned
  · rw [map_append, nodup_append]
    refine ⟨h.addresses, nodup_singleton _, ?_⟩
    rintro b hb c hc rfl
    obtain rfl : b = a := mem_singleton.mp hc
    exact ha hb
  · rw [map_append, nodup_append]
    refine ⟨h.owners, nodup_singleton _, ?_⟩
    rintro e he c hc rfl
    obtain rfl : e = owner := mem_singleton.mp hc
    exact howner he
  · by_cases hi : i < book.length
    · rw [getElem?_append_left hi] at hp
      have hpo : p.2 ≠ owner := fun heq => howner (heq ▸ mem_map_of_mem (mem_of_getElem? hp))
      rw [hindex p.2 hpo, h.index i p hp]
    · rw [getElem?_append_right (Nat.le_of_not_lt hi), getElem?_singleton] at hp
      split at hp
      · rename_i hzero
        obtain rfl := Option.some.inj hp
        obtain rfl : i = book.length := by omega
        exact heff.index
      · cases hp
  · rw [map_append, mem_append, not_or] at he
    rw [hindex e (by simpa using he.2), h.unindexed e he.1]
  · rw [heff.next, length_append]
    rfl
  · rw [length_append]
    exact hroom

end StampBook

/-! ## Runs of the registry -/

inductive StampStep (B : Backend) (cfg : ChainConfig) : StateDB → StateDB → Prop
  | process (num time : Nat) (tx : Tx) (st : StateDB) :
    StampStep B cfg st (processAntarticalStamp B cfg num time tx st).2
  | other {st st' : StateDB} (hs : ∀ k, StampSlot k → st'.storage k = st.storage k) : StampStep B cfg st st'

abbrev StampRun (B : Backend) (cfg : ChainConfig) : StateDB → StateDB → Prop := Relation.ReflTransGen (StampStep B cfg)

def stampOf (st : StateDB) (a : Address) (d : Digest) : Prop :=
  isAntarticalStamped st a = true ∧ v3ReadDigest st .stampAddressOwner a.bytes = .ok d

def stampOwnerIndex (st : StateDB) (d : Digest) : Nat := uint64FromHash (st.storage (stampOwnerIndexSlot d))

def stampNextIndex (st : StateDB) : Nat := uint64FromHash (st.storage stampNextIndexSlot)

section
variable
  {d : Digest}

theorem StampBook.step (h : StampBook st book) (hstep : StampStep B cfg st st') :
    ∃ more, StampBook st' (book ++ more) := by
  cases hstep with
  | other hs => exact ⟨[], (append_nil book).symm ▸ h.congr hs⟩
  | process num time tx =>
    cases hrun : processAntarticalStamp B cfg num time tx st with
    | mk result s =>
      cases result with
      | error e => exact ⟨[], (append_nil book).symm ▸ processAntarticalStamp_atomic B cfg num time tx st e s hrun ▸ h⟩
      | ok u =>
        rcases processAntarticalStamp_effect hrun with rfl | ⟨a, owner, n, hnone, hfresh, hn, hroom, heff⟩
        · exact ⟨[], (append_nil book).symm ▸ h⟩
        · rw [h.next, uint64FromHash_uint64Hash h.length_lt] at hn
          subst hn
          exact ⟨[(a, owner)], h.append heff tx.hash_ne hnone hfresh hroom⟩

theorem StampBook.run (h : StampBook st book) (hrun : StampRun B cfg st st') :
    ∃ more, StampBook st' (book ++ more) := by
  induction hrun with
  | refl => exact ⟨[], (append_nil book).symm ▸ h⟩
  | tail _ hstep ih =>
    obtain ⟨more, hbook⟩ := ih
    obtain ⟨more', hbook'⟩ := hbook.step hstep
    exact ⟨more ++ more', append_assoc .. ▸ hbook'⟩

theorem StampBook.stampOf_iff (h : StampBook st book) : stampOf st a d ↔ (a, d) ∈ book := by
  constructor
  · rintro ⟨hstamped, howned⟩
    obtain ⟨p, hp, rfl⟩ := mem_map.mp ((h.stamped a).mp hstamped)
    obtain rfl := Except.ok.inj ((h.owned p hp).symm.trans howned)
    exact hp
  · intro hp
    exact ⟨(h.stamped a).mpr (mem_map_of_mem hp), h.owned _ hp⟩

theorem StampBook.index_eq (h : StampBook st book) (hp : book[i]? = some (a, d)) :
    stampOwnerIndex st d = i + 1 := by
  rw [stampOwnerIndex, h.index i _ hp, uint64FromHash_uint64Hash (h.index_lt hp).2]

theorem StampBook.index_eq_iff (h : StampBook st book) :
    stampOwnerIndex st d = i + 1 ↔ ∃ a, book[i]? = some (a, d) := by
  constructor
  · intro hi
    by_cases hd : d ∈ book.map (·.2)
    · obtain ⟨⟨a, _⟩, hp, rfl⟩ := mem_map.mp hd
      obtain ⟨j, hj⟩ := mem_iff_getElem?.mp hp
      obtain rfl : j = i := Nat.succ.inj ((h.index_eq hj).symm.trans hi)
      exact ⟨a, hj⟩
    · rw [stampOwnerIndex, h.unindexed d hd] at hi
      simp [uint64FromHash] at hi
  · rintro ⟨a, hp⟩
    exact h.index_eq hp

/-- From an empty registry, the owners of the stamped addresses are an injection that only grows, indexed from one to
the number of stamps, and a registration processed again does nothing. -/
theorem stamps_append_only (hempty : ∀ k, StampSlot k → st₀.storage k = 0) (hrun : StampRun B cfg st₀ st) :
    (∀ a, isAntarticalStamped st a = true → ∃! d, stampOf st a d) ∧
    (∀ a a' d, stampOf st a d → stampOf st a' d → a = a') ∧
    (∀ st', StampRun B cfg st st' → ∀ a d, stampOf st a d →
      stampOf st' a d ∧ stampOwnerIndex st' d = stampOwnerIndex st d) ∧
    (∀ d, stampOwnerIndex st d ≠ 0 ↔ ∃ a, stampOf st a d) ∧
    (∀ d, stampOwnerIndex st d ≤ stampNextIndex st) ∧
    (∀ i, 1 ≤ i → i ≤ stampNextIndex st → ∃! d, stampOwnerIndex st d = i) ∧
    ∀ num time tx st' st₂, processAntarticalStamp B cfg num time tx st = (.ok (), st') →
      (∀ k, StampSlot k → st₂.storage k = st'.storage k) →
      processAntarticalStamp B cfg num time tx st₂ = (.ok (), st₂) := by
  obtain ⟨book, hbook⟩ := (StampBook.empty hempty).run hrun
  rw [nil_append] at hbook
  have hnext : stampNextIndex st = book.length := by
    rw [stampNextIndex, hbook.next, uint64FromHash_uint64Hash hbook.length_lt]
  refine ⟨fun a ha => ?_, fun a a' d ha ha' => ?_, fun st' hrun' a d ha => ?_, fun d => ?_, fun d => ?_,
    fun i hpos hle => ?_, fun num time tx st' st₂ h hsame => processAntarticalStamp_again h hsame⟩
  · obtain ⟨⟨_, d⟩, hp, rfl⟩ := mem_map.mp ((hbook.stamped a).mp ha)
    refine ⟨d, hbook.stampOf_iff.mpr hp, fun d' hd' => ?_⟩
    exact Except.ok.inj (hd'.2.symm.trans (hbook.owned _ hp))
  · rw [hbook.stampOf_iff] at ha ha'
    exact congrArg Prod.fst (inj_on_of_nodup_map hbook.owners ha ha' rfl)
  · obtain ⟨more, hbook'⟩ := hbook.run hrun'
    rw [hbook.stampOf_iff] at ha
    obtain ⟨i, hi⟩ := mem_iff_getElem?.mp ha
    have hi' : (book ++ more)[i]? = some (a, d) := by
      rw [getElem?_append_left (hbook.index_lt hi).1, hi]
    exact ⟨hbook'.stampOf_iff.mpr (mem_append_left _ ha), by rw [hbook'.index_eq hi', hbook.index_eq hi]⟩
  · constructor
    · intro hne
      obtain ⟨i, hi⟩ := Nat.exists_eq_succ_of_ne_zero hne
      obtain ⟨a, hp⟩ := hbook.index_eq_iff.mp hi
      exact ⟨a, hbook.stampOf_iff.mpr (mem_of_getElem? hp)⟩
    · rintro ⟨a, ha⟩
      obtain ⟨i, hi⟩ := mem_iff_getElem?.mp (hbook.stampOf_iff.mp ha)
      rw [hbook.index_eq hi]
      exact Nat.succ_ne_zero i
  · rw [hnext]
    cases hi : stampOwnerIndex st d with
    | zero => exact Nat.zero_le _
    | succ i =>
      obtain ⟨a, hp⟩ := hbook.index_eq_iff.mp hi
      exact (hbook.index_lt hp).1
  · obtain ⟨i, rfl⟩ := Nat.exists_eq_add_of_le' hpos
    rw [hnext] at hle
    obtain ⟨⟨a, d⟩, hp⟩ : ∃ p, book[i]? = some p := ⟨_, getElem?_eq_getElem hle⟩
    refine ⟨d, hbook.index_eq hp, fun d' hd' => ?_⟩
    obtain ⟨a', hp'⟩ := hbook.index_eq_iff.mp hd'
    exact congrArg Prod.snd (Option.some.inj (hp'.symm.trans hp))

end

def stampingBackend : Backend := { Backend.accepting (fun _ => ⟨2, [], [], 0, [], 0, none, none, []⟩) 7 seven_ne_pool with
  decodeStamp := fun _ => .ok
    { version := 1, owner := ⟨Vector.replicate 5 1⟩, stamp := ⟨mainnetChainID, (1, 2), [], []⟩,
      proof := [1, 0, 0, 0, 0, 0, 0, 0, 0, 0, 0, 0], beneficiaryPublicKey := [], validUntil := 0, authorization := [] } }

def stampTx : Tx where
  hash := 1
  hash_ne := Hash.one_ne
  type := .pqTkm
  chainId := mainnetChainID
  nonce := 0
  gasTipCap := 0
  gasFeeCap := 0
  gas := 21000
  toAddr := some poolAddress
  value := 0
  data := Bytes.ofText antarticalStampMagic
  algorithm := algorithmMLDSA87
  publicKey := []

def stampConfig : ChainConfig where
  chainID := some mainnetChainID
  londonBlock := some 0
  antarticalTime := some 0

def unstamped : StateDB where
  balance := fun _ => 0
  nonce := fun _ => 0
  codeSize := fun _ => 0
  storage := fun _ => 0
  poolOverdrawn := false

/-- The first registration takes the index 1. -/
theorem stamps_append_only_first :
    ∃! d, stampOwnerIndex (processAntarticalStamp stampingBackend stampConfig 1 0 stampTx unstamped).2 d = 1 := by
  have hrun : StampRun stampingBackend stampConfig unstamped
      (processAntarticalStamp stampingBackend stampConfig 1 0 stampTx unstamped).2 := .single (.process 1 0 stampTx unstamped)
  obtain ⟨_, _, _, _, _, hindex, _⟩ := stamps_append_only (fun _ _ => rfl) hrun
  exact hindex 1 (by decide) (by decide +kernel)

end TkmChain
