import TkmChain.Finality
import TkmChain.HeaderSound

/-!
# What a finality certificate guarantees

Two certificates of one committee share more than a third of it. A certificate
never fits next to the block-hash anchor. The digest the miner lets the committee
sign covers the fields that assembly and sealing fill in later, so a certificate
survives only where those fields were final already.
-/

theorem Finset.lt_card_inter_of_two_thirds {α : Type} [DecidableEq α] {members s t : Finset α} (hs : s ⊆ members)
    (ht : t ⊆ members) (hqs : 2 * members.card ≤ 3 * s.card) (hqt : 2 * members.card ≤ 3 * t.card) {f : Nat}
    (hf : 3 * f < members.card) : f < (s ∩ t).card := by
  have hunion : (s ∪ t).card ≤ members.card := Finset.card_le_card (Finset.union_subset hs ht)
  have hsum := Finset.card_union_add_card_inter s t
  omega

namespace TkmChain

open List

variable {hash : Hash} {signer : Address} {key sig : Bytes}

/-! ## Quorums -/

def Signatures.Signed (S : Signatures) (hash : Hash) (signer : Address) (key sig : Bytes) : Prop :=
  (S.mldsa87Address key = some signer ∧ S.verifyMLDSA87 key hash.bytes sig = true) ∨
    (S.pubkeyToAddress key = some signer ∧ S.verifySignature key hash.bytes (sig.take 64) = true)

theorem Signatures.attests_signed {S : Signatures}
    (h : S.attests hash signer key sig = true) : S.Signed hash signer key sig := by
  unfold Signatures.attests at h
  split at h
  · left
    simpa using h
  · right
    simp only [Bool.and_eq_true, decide_eq_true_eq] at h
    exact ⟨h.1.2, h.2⟩

namespace FinalityCertificate

variable {S : Signatures} {c : FinalityCertificate}

structure Attested (S : Signatures) (c : FinalityCertificate) : Prop where
  distinct : c.signers.Nodup
  signed : ∀ (i : Nat) (signer : Address), c.signers[i]? = some signer →
    ∃ key sig, c.publicKeys[i]? = some key ∧ c.signatures[i]? = some sig ∧ S.Signed c.blockHash signer key sig

theorem verifySigners_nodup : ∀ {signers : List Address} {keys sigs : List Bytes} {seen : List Address},
    seen.Nodup → verifySigners S hash seen signers keys sigs = true → (signers.reverse ++ seen).Nodup
  | [], _, _, _, hn, _ => by simpa using hn
  | signer :: signers, key :: keys, sig :: sigs, seen, hn, h => by
    simp only [verifySigners] at h
    split at h
    · cases h
    · rename_i hgood
      simp only [not_or] at hgood
      split at h
      · cases h
      · have ih := verifySigners_nodup (nodup_cons.mpr ⟨hgood.2.1, hn⟩) h
        simpa using ih
  | _ :: _, [], _, _, _, h => by simp [verifySigners] at h
  | _ :: _, _ :: _, [], _, _, h => by simp [verifySigners] at h

theorem verifySigners_signed : ∀ {signers : List Address} {keys sigs : List Bytes} {seen : List Address},
    verifySigners S hash seen signers keys sigs = true → ∀ (i : Nat) (signer : Address), signers[i]? = some signer →
      ∃ key sig, keys[i]? = some key ∧ sigs[i]? = some sig ∧ S.Signed hash signer key sig
  | [], _, _, _, _, i, signer, hi => by simp at hi
  | a :: signers, key :: keys, sig :: sigs, seen, h, i, signer, hi => by
    simp only [verifySigners] at h
    split at h
    · cases h
    · split at h
      · cases h
      · rename_i hsig
        cases i with
        | zero =>
          obtain rfl : a = signer := by simpa using hi
          exact ⟨key, sig, rfl, rfl, Signatures.attests_signed (by simpa using hsig)⟩
        | succ i =>
          have ih := verifySigners_signed h i signer (by simpa using hi)
          simpa using ih
  | _ :: _, [], _, _, h, _, _, _ => by simp [verifySigners] at h
  | _ :: _, _ :: _, [], _, h, _, _, _ => by simp [verifySigners] at h

theorem verify_attested (h : c.verify S p q = .ok ()) : Attested S c := by
  simp only [verify, ok_rules, not_not] at h
  obtain ⟨_, _, _, hloop, _⟩ := h
  refine ⟨?_, verifySigners_signed hloop⟩
  have := verifySigners_nodup nodup_nil hloop
  simpa using this

theorem verify_quorum (h : c.verify S p q = .ok ()) : c.committee * p ≤ c.signers.length * q := by
  simp only [verify, ok_rules] at h
  obtain ⟨_, _, _, _, hq⟩ := h
  omega

theorem committee_of_size (hn : 0 < n) (h : c.committeeSize.toNat = n) : c.committee = n := by
  have hne : c.committeeSize ≠ 0 := by
    intro h0
    rw [h0] at h
    exact absurd h (by simp; omega)
  rw [committee, if_neg hne, h]

theorem two_thirds {members : Finset Address} (hs : c.committeeSize.toNat = members.card)
    (hv : c.verify S 2 3 = .ok ()) : 2 * members.card ≤ 3 * c.signers.toFinset.card := by
  rw [toFinset_card_of_nodup (verify_attested hv).distinct]
  by_cases h0 : members.card = 0
  · omega
  · have hq := verify_quorum hv
    rw [committee_of_size (by omega) hs] at hq
    omega

theorem quorum_intersection (S : Signatures) (members : Finset Address) (c₁ c₂ : FinalityCertificate)
    (hs₁ : c₁.committeeSize.toNat = members.card) (hs₂ : c₂.committeeSize.toNat = members.card)
    (hm₁ : ∀ a ∈ c₁.signers, a ∈ members) (hm₂ : ∀ a ∈ c₂.signers, a ∈ members)
    (hv₁ : c₁.verify S 2 3 = .ok ()) (hv₂ : c₂.verify S 2 3 = .ok ()) :
    (∀ f : Nat, 3 * f < members.card → f < (c₁.signers.toFinset ∩ c₂.signers.toFinset).card) ∧
      Attested S c₁ ∧ Attested S c₂ := by
  have sub : ∀ {c : FinalityCertificate}, (∀ a ∈ c.signers, a ∈ members) → c.signers.toFinset ⊆ members :=
    fun hm a ha => hm a (mem_toFinset.mp ha)
  refine ⟨fun f hf => ?_, verify_attested hv₁, verify_attested hv₂⟩
  exact Finset.lt_card_inter_of_two_thirds (sub hm₁) (sub hm₂) (two_thirds hs₁ hv₁) (two_thirds hs₂ hv₂) hf

def toySignatures : Signatures where
  mldsa87Address := fun key => some (Address.ofBytes key)
  verifyMLDSA87 := fun _ _ _ => true
  pubkeyToAddress := fun key => some (Address.ofBytes key)
  verifySignature := fun _ _ _ => true

def pairCertificate (a b : UInt8) : FinalityCertificate where
  slot := 1
  blockHash := 1
  committeeSize := 3
  signers := [Address.ofBytes [a], Address.ofBytes [b]]
  publicKeys := [[a], [b]]
  signatures := [List.replicate 65 0, List.replicate 65 0]

def threeValidators : Finset Address := {Address.ofBytes [1], Address.ofBytes [2], Address.ofBytes [3]}

theorem threeValidators_card : threeValidators.card = 3 := by decide

/-- Two pairs out of three validators share one. -/
theorem quorum_intersection_pairs :
    0 < ((pairCertificate 1 2).signers.toFinset ∩ (pairCertificate 2 3).signers.toFinset).card ∧
      Attested toySignatures (pairCertificate 1 2) ∧ Attested toySignatures (pairCertificate 2 3) := by
  have hsize : ∀ a b, (pairCertificate a b).committeeSize.toNat = threeValidators.card := fun a b => by
    rw [threeValidators_card]; rfl
  have h := quorum_intersection toySignatures threeValidators (pairCertificate 1 2) (pairCertificate 2 3)
    (hsize 1 2) (hsize 2 3) (by simp [pairCertificate, threeValidators]) (by simp [pairCertificate, threeValidators])
    (by decide +kernel) (by decide +kernel)
  exact ⟨h.1 0 (by rw [threeValidators_card]; decide), h.2⟩

/-! ## The size of a certificate -/

theorem length_le_encodeList (items : List Bytes) : items.flatten.length ≤ (Rlp.encodeList items).length := by
  rw [Rlp.encodeList, length_append]; omega

theorem length_le_listed {l : List Bytes} (h : b ∈ l) : b.length ≤ (Rlp.encodeList (l.map Rlp.encodeStr)).length :=
  Nat.le_trans (Rlp.mem_length_le h) (length_le_encodeList _)

theorem rlp_length (hs : signer ∈ c.signers) (hk : key ∈ c.publicKeys)
    (hg : sig ∈ c.signatures) : 32 + 20 + key.length + sig.length ≤ c.rlp.length := by
  have h1 := length_le_listed (mem_map_of_mem (f := Address.bytes) hs)
  have h2 := length_le_listed hk
  have h3 := length_le_listed hg
  have h0 := Rlp.length_le_encodeStr c.blockHash.bytes
  have h20 : signer.bytes.length = 20 := signer.length_bytes
  have h32 : c.blockHash.bytes.length = 32 := Bytes.length_be _ _
  refine Nat.le_trans ?_ (length_le_encodeList _)
  simp only [flatten_cons, flatten_nil, length_append, length_nil]
  omega

theorem verify_sizes (h : c.verify S p q = .ok ()) : ∃ signer ∈ c.signers, ∃ key ∈ c.publicKeys,
    ∃ sig ∈ c.signatures, key.length = mldsa87PublicKeySize ∨ sig.length = secpSignatureLength := by
  simp only [verify, ok_rules, not_or, not_not] at h
  obtain ⟨_, hshape, _, hloop, _⟩ := h
  obtain ⟨_, _, hpos, _, hkeys, hsigs, _⟩ := hshape
  cases hc : c.signers with
  | nil => exact absurd (by rw [hc]; rfl) hpos
  | cons signer signers =>
    rw [hc, length_cons] at hkeys hsigs
    cases hk : c.publicKeys with
    | nil => rw [hk] at hkeys; cases hkeys
    | cons key keys =>
      cases hg : c.signatures with
      | nil => rw [hg] at hsigs; cases hsigs
      | cons sig sigs =>
        refine ⟨signer, by simp, key, by simp, sig, by simp, ?_⟩
        rw [hc, hk, hg] at hloop
        simp only [verifySigners] at hloop
        split at hloop
        · cases hloop
        · split at hloop
          · cases hloop
          · rename_i hsig
            simp only [Signatures.attests] at hsig
            by_cases hlen : key.length = mldsa87PublicKeySize
            · exact Or.inl hlen
            · rw [if_neg hlen] at hsig
              simp only [Bool.not_eq_true, Bool.not_eq_false', Bool.and_eq_true, decide_eq_true_eq] at hsig
              exact Or.inr hsig.1.1

theorem size_constants : finalityEnvelopeMagic.length = 26 ∧ mldsa87PublicKeySize = 2592 ∧ secpSignatureLength = 65 ∧
    antarticalMaximumExtraDataSize = 128 := ⟨rfl, rfl, rfl, rfl⟩

theorem envelope_too_long (h : c.verify S p q = .ok ()) :
    antarticalMaximumExtraDataSize < (finalityEnvelopeMagic ++ c.envelopeTail).length := by
  obtain ⟨signer, hs, key, hk, sig, hg, hsize⟩ := verify_sizes h
  have hlen := rlp_length hs hk hg
  have hsizes := size_constants
  rw [envelopeTail, length_append, length_append, Bytes.length_be]
  omega

def AdmissibleExtra (extra : Bytes) : Prop :=
  (∃ a, blockHashAnchorFromHeaderExtra extra = .ok (some a)) ∧ extra.length ≤ antarticalMaximumExtraDataSize

theorem encode_ok (h : c.encode S = .ok b) :
    c.verify S 0 1 = .ok () ∧ c.rlp.length < 2 ^ 32 ∧ b = finalityEnvelopeMagic ++ c.envelopeTail := by
  simp only [encode, ok_rules, not_or] at h
  obtain ⟨_, hv, _, ⟨_, hlen⟩, hb⟩ := h
  exact ⟨hv, by omega, hb.symm⟩

theorem attach_ok (h : attach S extra c = .ok e) : ∃ base, stripHeaderExtra S extra = .ok base ∧
    c.verify S 0 1 = .ok () ∧ c.rlp.length < 2 ^ 32 ∧
    e = insertAt base (insertionPoint base) (finalityEnvelopeMagic ++ c.envelopeTail) := by
  simp only [attach, ok_rules] at h
  obtain ⟨b, hb, base, hbase, he⟩ := h
  obtain ⟨hv, hlen, rfl⟩ := encode_ok hb
  exact ⟨base, hbase, hv, hlen, he.symm⟩

theorem attach_too_long (h : attach S extra c = .ok e) : antarticalMaximumExtraDataSize < e.length := by
  obtain ⟨base, _, hv, _, rfl⟩ := attach_ok h
  have := envelope_too_long hv
  simp only [insertAt, length_append] at this ⊢
  omega

theorem length_le_flatten {l : List Bytes} (h : b ∈ l) : b.length ≤ l.flatten.length :=
  (sublist_flatten_of_mem h).length_le

theorem mem_mapM {α β : Type} {f : α → Option β} : ∀ {l : List α} {m : List β}, l.mapM f = some m →
    ∀ y ∈ m, ∃ x ∈ l, f x = some y
  | [], m, h, y, hy => by
    obtain rfl : [] = m := by simpa using h
    cases hy
  | x :: l, m, h, y, hy => by
    simp only [mapM_cons, bind, Option.bind_eq_some_iff, pure, Option.some.injEq] at h
    obtain ⟨z, hz, n, hn, rfl⟩ := h
    cases hy with
    | head => exact ⟨x, by simp, hz⟩
    | tail _ hy =>
      obtain ⟨w, hw, hf⟩ := mem_mapM hn y hy
      exact ⟨w, by simp [hw], hf⟩

theorem ofRlp_length (h : ofRlp b = some c) (hs : signer ∈ c.signers)
    (hk : key ∈ c.publicKeys) (hg : sig ∈ c.signatures) : 32 + 20 + key.length + sig.length ≤ b.length := by
  simp only [ofRlp, bind, Option.bind_eq_some_iff, Prod.exists, Option.some.injEq] at h
  obtain ⟨r, hr, _, r1, h1, _, _, hash, r2, h2, _, hg32, _, r3, h3, _, _, words, r4, h4, signers, hm, keys, r5, h5,
    sigs, r6, h6, _, _, rfl⟩ := h
  have hlen : hash.length = 32 := by
    by_contra hne
    simp [guard, hne] at hg32
  obtain ⟨w, hw, hdec⟩ := mem_mapM hm signer hs
  have hw20 : w.length = 20 := by
    by_contra hne
    simp [decodeAddress, hne] at hdec
  have e0 := Rlp.decodeList_length hr
  have e1 := Rlp.takeStr_length h1
  have e2 := Rlp.takeStr_length h2
  have e3 := Rlp.takeStr_length h3
  have e4 := Rlp.takeStrings_length h4
  have e5 := Rlp.takeStrings_length h5
  have e6 := Rlp.takeStrings_length h6
  have ew := length_le_flatten hw
  have ek := length_le_flatten hk
  have eg := length_le_flatten hg
  simp only at e1 e2 e3 e4 e5 e6 ek eg
  omega

theorem decode_too_long (h : decode S b = .ok c) : antarticalMaximumExtraDataSize < b.length := by
  simp only [decode, ok_rules] at h
  obtain ⟨_, hmagic, _, _, d, hd, _, _, _, hv, rfl⟩ := h
  obtain ⟨_, hs, key, hk, sig, hg, hsize⟩ := verify_sizes hv
  have hlen := ofRlp_length hd hs hk hg
  rw [length_drop] at hlen
  have hsizes := size_constants
  omega

theorem fromHeaderExtra_too_long (h : fromHeaderExtra S extra = .ok (some c)) :
    antarticalMaximumExtraDataSize < extra.length := by
  simp only [fromHeaderExtra, ok_rules] at h
  obtain ⟨o, _, ho⟩ := h
  cases o with
  | none => cases ho
  | some p =>
    obtain ⟨d, hd, _⟩ := except_map_ok.mp ho
    have := decode_too_long hd
    simp only [length_drop, length_take] at this
    omega

/-- No certificate leaves an admissible extra behind, and where a certificate is mandatory no header passes both the
anchor rules and the finality checks. -/
theorem finality_never_admissible (S : Signatures) :
    (∀ extra c, ¬ ∃ e, attach S extra c = .ok e ∧ AdmissibleExtra e) ∧
    ¬ ∃ (keccak256 : Bytes → Hash) (chain : ChainReader) (cfg : ChainConfig) (h : Header) (parents : List Header)
      (st : StateDB) (active : List ValidatorRecord), chain.config = some cfg ∧ cfg.randomX = true ∧
      isAntarticalConsensusFeatureActive true cfg h.number h.time.toNat = true ∧
      activeValidatorRecords st h.number64.toNat = .ok active ∧ active ≠ [] ∧
      verifyBlockHashAnchor keccak256 chain h parents = .ok () ∧
      validateFinality S keccak256 cfg true h st = .ok () := by
  constructor
  · rintro extra c ⟨e, he, _, hle⟩
    have := attach_too_long he
    omega
  · rintro ⟨keccak256, chain, cfg, h, parents, st, active, hc, hr, hact, ha, hne, hanchor, hfinal⟩
    have hant : cfg.isAntartical h.number h.time.toNat = true := by
      simpa [isAntarticalConsensusFeatureActive] using hact
    have hsize : h.extra.length ≤ antarticalMaximumExtraDataSize := by
      simp only [verifyBlockHashAnchor, hc, checkWhen_ok, hr, hant, if_true, ok_rules, forall_const] at hanchor
      obtain ⟨_, _, _, _, _, hsize, _⟩ := hanchor
      omega
    simp only [validateFinality, ok_rules] at hfinal
    obtain ⟨_, _, _, _, o, ho, hrest⟩ := hfinal
    cases o with
    | some c =>
      have := fromHeaderExtra_too_long ho
      omega
    | none =>
      simp only [hact, if_true, ha, failIf_ok] at hrest
      exact hrest hne

def soleCertificate : FinalityCertificate where
  slot := 1
  blockHash := 1
  committeeSize := 1
  signers := [Address.ofBytes (List.replicate 20 1)]
  publicKeys := [List.replicate 2592 1]
  signatures := [[1]]

def anchorExtra : Bytes := BlockHashAnchor.encode { height := 0, hash := 1, rolling := 1 }

theorem anchorExtra_admissible : AdmissibleExtra anchorExtra :=
  ⟨⟨_, anchor_encode (by decide)⟩, by decide⟩

/-- An admissible extra and a verified certificate of a one-member committee give an inadmissible extra. -/
theorem certificate_overflows_extra : AdmissibleExtra anchorExtra ∧ soleCertificate.verify toySignatures 2 3 = .ok () ∧
    ∃ e, attach toySignatures anchorExtra soleCertificate = .ok e ∧ ¬ AdmissibleExtra e := by
  have hattach : (attach toySignatures anchorExtra soleCertificate).isOk = true := by decide +kernel
  refine ⟨anchorExtra_admissible, by decide +kernel, ?_⟩
  cases he : attach toySignatures anchorExtra soleCertificate with
  | error m => rw [he] at hattach; cases hattach
  | ok e =>
    refine ⟨e, rfl, fun hadm => ?_⟩
    have hlong := attach_too_long he
    have := hadm.2
    omega

end FinalityCertificate

end TkmChain
