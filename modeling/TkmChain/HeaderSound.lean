import TkmChain.Header

/-!
# What an accepted header commits to

The seal hash determines the thirteen fields it encodes and nothing else, so one
proof of work seals every choice of the optional fields. Verification reads
neither the parent's time nor the difficulty schedule: a parent that can have a
child at all has one with a wrong time and a wrong difficulty.
-/

namespace TkmChain

open List

variable {h₁ h₂ h p : Header} {c : ChainConfig} {keccak256 : Bytes → Hash} {chain : ChainReader}

theorem be_toNat_inj {w : Nat} {a b : BitVec (8 * w)} (h : Bytes.be w a.toNat = Bytes.be w b.toNat) : a = b := by
  have hlt : ∀ c : BitVec (8 * w), c.toNat < 256 ^ w := fun c => by
    have hc := c.isLt
    rwa [Nat.pow_mul] at hc
  exact BitVec.eq_of_toNat_eq (Bytes.be_inj (hlt a) (hlt b) h)

def lengthHash (b : Bytes) : Hash := Hash.ofBytes b + BitVec.ofNat 256 b.length

/-! ## The seal hash -/

namespace Header

theorem width_time (n : UInt64) : Bytes.width n.toNat ≤ 8 := Bytes.width_le n.toNat_lt

def sealPreimage (h : Header) : Bytes := Rlp.encodeList (h.sealFields.map Rlp.encodeStr)

theorem sealFields_size (h : Header) : h.sealFields.flatten.length < 2 ^ 63 + 1024 := by
  have hf := h.fits
  have h1 := width_time h.gasLimit
  have h2 := width_time h.gasUsed
  have h3 := width_time h.time
  simp only [sealFields, flatten_cons, flatten_nil, length_append, Hash.bytes, Address.bytes,
    Bytes.length_be, Bytes.length_minimal, length_nil]
  omega

theorem sealFields_length (h : Header) : ∀ b ∈ h.sealFields, b.length < 2 ^ 64 := fun b hb => by
  have hs := h.sealFields_size
  have hle := (sublist_flatten_of_mem hb).length_le
  omega

theorem sealFields_of_preimage (h : h₁.sealPreimage = h₂.sealPreimage) : h₁.sealFields = h₂.sealFields := by
  have hlen : h₁.sealFields.length = h₂.sealFields.length := by simp only [sealFields, length_cons]
  have hcontent := congrArg (· ++ []) (Rlp.encodeList_inj h)
  exact (Rlp.encodeStrings_append_inj hlen h₁.sealFields_length h₂.sealFields_length hcontent).1

structure SameOptional (h₁ h₂ : Header) : Prop where
  baseFee : h₁.baseFee = h₂.baseFee
  withdrawalsHash : h₁.withdrawalsHash = h₂.withdrawalsHash
  blobGasUsed : h₁.blobGasUsed = h₂.blobGasUsed
  excessBlobGas : h₁.excessBlobGas = h₂.excessBlobGas
  parentBeaconRoot : h₁.parentBeaconRoot = h₂.parentBeaconRoot
  requestsHash : h₁.requestsHash = h₂.requestsHash
  blockAccessListHash : h₁.blockAccessListHash = h₂.blockAccessListHash
  slotNumber : h₁.slotNumber = h₂.slotNumber

theorem eq_of_sealFields (hs : h₁.sealFields = h₂.sealFields) (ho : h₁.SameOptional h₂)
    (hm : h₁.mixDigest = h₂.mixDigest) (hn : h₁.nonce = h₂.nonce) : h₁ = h₂ := by
  simp only [sealFields, List.cons.injEq, and_true] at hs
  obtain ⟨hp, hu, hc, hr, ht, hrc, hb, hd, hnum, hgl, hgu, htm, he⟩ := hs
  apply Header.ext
  · exact Hash.bytes_inj hp
  · exact Hash.bytes_inj hu
  · exact Address.bytes_inj hc
  · exact Hash.bytes_inj hr
  · exact Hash.bytes_inj ht
  · exact Hash.bytes_inj hrc
  · exact be_toNat_inj (w := 256) hb
  · exact Bytes.minimal_inj hd
  · exact Bytes.minimal_inj hnum
  · exact UInt64.toNat_inj.mp (Bytes.minimal_inj hgl)
  · exact UInt64.toNat_inj.mp (Bytes.minimal_inj hgu)
  · exact UInt64.toNat_inj.mp (Bytes.minimal_inj htm)
  · exact he
  · exact hm
  · exact hn
  · exact ho.baseFee
  · exact ho.withdrawalsHash
  · exact ho.blobGasUsed
  · exact ho.excessBlobGas
  · exact ho.parentBeaconRoot
  · exact ho.requestsHash
  · exact ho.blockAccessListHash
  · exact ho.slotNumber

def mandatoryFields (h : Header) : List Bytes := h.sealFields ++ [h.mixDigest.bytes, Bytes.be 8 h.nonce.toNat]

theorem mandatoryFields_length (h : Header) : ∀ b ∈ h.mandatoryFields, b.length < 2 ^ 64 := by
  intro b hmem
  simp only [mandatoryFields, mem_append, mem_cons, not_mem_nil, or_false] at hmem
  rcases hmem with hmem | rfl | rfl
  · exact h.sealFields_length b hmem
  · rw [Hash.bytes, Bytes.length_be]; decide
  · rw [Bytes.length_be]; decide

theorem mandatoryFields_count (h : Header) : h.mandatoryFields.length = 15 := rfl

theorem encodeRLP_content (h : Header) : h.encodeRLP = Rlp.encodeList ((h.mandatoryFields.map Rlp.encodeStr) ++
    (setFields h.optionalFields).map Rlp.encodeStr) := by
  rw [encodeRLP, map_append]
  rfl

theorem encodeRLP_fields (heq : h₁.encodeRLP = h₂.encodeRLP) : h₁.mandatoryFields = h₂.mandatoryFields ∧
      ((setFields h₁.optionalFields).map Rlp.encodeStr).flatten =
        ((setFields h₂.optionalFields).map Rlp.encodeStr).flatten := by
  rw [encodeRLP_content, encodeRLP_content] at heq
  have hcontent := Rlp.encodeList_inj heq
  rw [flatten_append, flatten_append] at hcontent
  have hcount : h₁.mandatoryFields.length = h₂.mandatoryFields.length := by
    rw [mandatoryFields_count, mandatoryFields_count]
  exact Rlp.encodeStrings_append_inj hcount h₁.mandatoryFields_length h₂.mandatoryFields_length hcontent

end Header

/-! ## One proof of work, one header -/

namespace RandomX

variable (rx : RandomX)

def SkipsSeal (h : Header) : Prop := rx.fullFake ∨ rx.closed ∨ h.number64 = 0

instance (h : Header) : Decidable (rx.SkipsSeal h) := inferInstanceAs (Decidable (_ ∨ _ ∨ _))

variable {rx}

theorem isRandomXMonero_tx (h : c.isRandomXMonero n = true) : c.isRandomXTx n = true := by
  simp only [ChainConfig.isRandomXMonero, Bool.and_eq_true] at h
  exact h.1

theorem verifySeal_monero (hm : c.isRandomXMonero h.number = true)
    (hs : ¬ rx.SkipsSeal h) (ha : rx.verifySeal (some c) h = .ok ()) :
    ∃ vm, rx.vm (rx.epochForBlock (some c) h.number64) = .ok vm ∧ h.mixDigest = rx.randomXHash h h.nonce vm := by
  simp only [SkipsSeal, not_or] at hs
  obtain ⟨hf, hc, hn⟩ := hs
  unfold verifySeal at ha
  rw [if_neg (by simp [hf, hc]), if_neg hn, if_neg (by simp [isRandomXMonero_tx hm])] at ha
  simp only [Option.any_some, hm, if_true, ok_rules, verifyMoneroProof] at ha
  obtain ⟨_, _, _, _, _, _, vm, hvm, _, hmix, _⟩ := ha
  exact ⟨vm, hvm, not_not.mp hmix⟩

/-- Two accepted headers with one seal hash and one nonce are equal exactly when they agree on the fields the seal
hash leaves out. -/
theorem one_seal_one_header_iff (rx : RandomX) (c : ChainConfig) (h₁ h₂ : Header)
    (hk : Set.InjOn rx.keccak256 {h₁.sealPreimage, h₂.sealPreimage})
    (hm₁ : c.isRandomXMonero h₁.number = true) (hm₂ : c.isRandomXMonero h₂.number = true)
    (ha₁ : rx.verifySeal (some c) h₁ = .ok ()) (ha₂ : rx.verifySeal (some c) h₂ = .ok ())
    (hs : h₁.sealHash rx.keccak256 = h₂.sealHash rx.keccak256) (hn : h₁.nonce = h₂.nonce) :
    h₁ = h₂ ↔ h₁.SameOptional h₂ ∧ (rx.SkipsSeal h₁ → h₁.mixDigest = h₂.mixDigest) := by
  constructor
  · rintro rfl
    exact ⟨⟨rfl, rfl, rfl, rfl, rfl, rfl, rfl, rfl⟩, fun _ => rfl⟩
  · rintro ⟨ho, hmix⟩
    have hf : h₁.sealFields = h₂.sealFields :=
      Header.sealFields_of_preimage (hk (by simp) (by simp) hs)
    have hnum : h₁.number = h₂.number := by
      simp only [Header.sealFields, List.cons.injEq] at hf
      exact Bytes.minimal_inj hf.2.2.2.2.2.2.2.2.1
    refine Header.eq_of_sealFields hf ho ?_ hn
    by_cases hskip : rx.SkipsSeal h₁
    · exact hmix hskip
    · have hskip₂ : ¬ rx.SkipsSeal h₂ := by rwa [SkipsSeal, Header.number64, ← hnum]
      obtain ⟨vm, hvm, e₁⟩ := verifySeal_monero hm₁ hskip ha₁
      obtain ⟨vm', hvm', e₂⟩ := verifySeal_monero hm₂ hskip₂ ha₂
      rw [Header.number64, ← hnum] at hvm'
      obtain rfl : vm = vm' := Except.ok.inj (hvm.symm.trans hvm')
      rw [e₁, e₂, randomXHash, randomXHash, hs, hn]

def moneroConfig : ChainConfig :=
  { chainID := some mainnetChainID, londonBlock := some 0, randomXTxBlock := some 0, randomXMoneroBlock := some 0 }

def toyEngine : RandomX where
  keccak256 := Hash.ofBytes
  vm := fun _ => .ok fun input => Hash.ofBytes (input.drop 32)
  legacyVM := fun _ => none
  gapCheckpoint := fun _ => none
  checkpoint := fun _ => none

def sealedHeader (baseFee : Option Nat) : Header where
  parentHash := 0
  difficulty := minDifficulty
  number := 1
  time := 120
  mixDigest := 2 ^ 56
  nonce := 2 ^ 56
  baseFee := baseFee
  fits := by decide

theorem sealedHeader_preimages (f g : Option Nat) :
    Set.InjOn toyEngine.keccak256 {(sealedHeader f).sealPreimage, (sealedHeader g).sealPreimage} := by
  have h : (sealedHeader f).sealPreimage = (sealedHeader g).sealPreimage := rfl
  rw [h, Set.pair_eq_singleton]
  exact Set.injOn_singleton _ _

theorem one_seal_one_header_iff_baseFee :
    sealedHeader none = sealedHeader (some 7) ↔ (sealedHeader none).SameOptional (sealedHeader (some 7)) ∧
      (toyEngine.SkipsSeal (sealedHeader none) → (sealedHeader none).mixDigest = (sealedHeader (some 7)).mixDigest) :=
  one_seal_one_header_iff toyEngine moneroConfig _ _ (sealedHeader_preimages _ _) (by decide) (by decide)
    (by decide +kernel) (by decide +kernel) rfl rfl

/-- One proof of work seals a header without a base fee and one with a base fee. -/
theorem seal_leaves_baseFee_open :
    Set.InjOn toyEngine.keccak256 {(sealedHeader none).sealPreimage, (sealedHeader (some 7)).sealPreimage} ∧
    moneroConfig.isRandomXMonero 1 = true ∧
    toyEngine.verifySeal (some moneroConfig) (sealedHeader none) = .ok () ∧
    toyEngine.verifySeal (some moneroConfig) (sealedHeader (some 7)) = .ok () ∧
    (sealedHeader none).sealHash toyEngine.keccak256 = (sealedHeader (some 7)).sealHash toyEngine.keccak256 ∧
    (sealedHeader none).nonce = (sealedHeader (some 7)).nonce ∧ sealedHeader none ≠ sealedHeader (some 7) := by
  refine ⟨sealedHeader_preimages _ _, by decide, by decide +kernel, by decide +kernel, rfl, rfl, ?_⟩
  intro h
  have := congrArg Header.baseFee h
  simp [sealedHeader] at this

end RandomX

/-! ## The block-hash anchor -/

namespace BlockHashAnchor

def tail (a : BlockHashAnchor) : Bytes := Bytes.be 8 a.height.toNat ++ a.hash.bytes ++ a.rolling.bytes

def encode (a : BlockHashAnchor) : Bytes := blockHashAnchorMagic ++ a.tail

theorem tail_length (a : BlockHashAnchor) : a.tail.length = 72 := by
  simp [tail, Hash.bytes]

theorem encode_length (a : BlockHashAnchor) : a.encode.length = 96 := by
  rw [encode, length_append, tail_length]
  rfl

end BlockHashAnchor

theorem indexOf_append (m t : Bytes) : indexOf m (m ++ t) = some 0 := by
  cases m with
  | nil => cases t <;> simp [indexOf]
  | cons x m => simp [indexOf]

theorem ofNat_be8 (n : UInt64) : UInt64.ofNat (Bytes.toNat (Bytes.be 8 n.toNat)) = n := by
  have hn := n.toNat_lt
  apply UInt64.toNat_inj.mp
  rw [Bytes.toNat_be, UInt64.toNat_ofNat']
  omega

theorem be8_ofNat (h : b.length = 8) : Bytes.be 8 (UInt64.ofNat (Bytes.toNat b)).toNat = b := by
  have hb := Bytes.toNat_lt b
  have he := Bytes.be_toNat b
  rw [h] at hb he
  rw [UInt64.toNat_ofNat', Nat.mod_eq_of_lt (by omega), he]

theorem anchor_encode (h : indexOf blockHashAnchorMagic a.tail = none) :
    blockHashAnchorFromHeaderExtra a.encode = .ok (some a) := by
  have hd : a.encode.drop (0 + blockHashAnchorMagic.length) = a.tail := by
    rw [Nat.zero_add, BlockHashAnchor.encode, drop_left]
  have h8 : a.tail.take 8 = Bytes.be 8 a.height.toNat := by
    rw [BlockHashAnchor.tail, append_assoc, take_left' (by simp)]
  have hh : (a.tail.drop 8).take 32 = a.hash.bytes := by
    rw [BlockHashAnchor.tail, append_assoc, drop_left' (by simp), take_left' (by simp [Hash.bytes])]
  have hr : (a.tail.drop 40).take 32 = a.rolling.bytes := by
    rw [BlockHashAnchor.tail, drop_left' (by simp [Hash.bytes]), take_of_length_le (by simp [Hash.bytes])]
  have hi : indexOf blockHashAnchorMagic a.encode = some 0 := indexOf_append _ _
  simp only [blockHashAnchorFromHeaderExtra, hi, hd, h, a.encode_length, h8, hh, hr, ofNat_be8, Hash.ofBytes_bytes]
  rfl

theorem anchor_parsed
    (h : blockHashAnchorFromHeaderExtra extra = .ok (some a)) : indexOf blockHashAnchorMagic a.tail = none := by
  unfold blockHashAnchorFromHeaderExtra at h
  split at h
  · cases h
  · rename_i i _
    simp only at h
    split at h
    · cases h
    · rename_i hbad
      rw [not_or, not_not] at hbad
      obtain ⟨hnone, hlen⟩ := hbad
      generalize htail : extra.drop (i + blockHashAnchorMagic.length) = t at h hnone
      have ht : t.length = 72 := by
        rw [← htail, length_drop]
        have : blockHashAnchorEncodedSize = blockHashAnchorMagic.length + 72 := rfl
        omega
      simp only [Except.ok.injEq, Option.some.injEq] at h
      have h40 : (t.drop 40).take 32 = (t.drop 8).drop 32 := by
        rw [drop_drop]
        exact take_of_length_le (by simp [ht])
      have he : a.tail = t := by
        rw [← h, BlockHashAnchor.tail, be8_ofNat (by simp [ht]), Hash.bytes_ofBytes (by simp [ht]),
          Hash.bytes_ofBytes (by simp [ht]), append_assoc, h40, take_append_drop, take_append_drop]
      rw [he]
      simpa using hnone

/-! ## Children of a known parent -/

def Anchorable (keccak256 : Bytes → Hash) (c : ChainConfig) (a : Hash) (p : Header) : Prop :=
  p.number + 1 < 2 ^ 64 ∧ ∃ rolling, previousRolling c p = .ok rolling ∧
    indexOf blockHashAnchorMagic
      (BlockHashAnchor.tail ⟨p.number64, a, blockHashAnchorCommitment keccak256 rolling p.number64 a⟩) = none

def Childless (keccak256 : Bytes → Hash) (chain : ChainReader) (a : Hash) (p : Header) : Prop :=
  ∃ c, chain.config = some c ∧ c.randomX = true ∧ c.isAntartical (p.number + 1) 0 = true ∧
    ¬ Anchorable keccak256 c a p

theorem verifyBlockHashAnchor_anchorable (hc : chain.config = some c) (hr : c.randomX = true)
    (hact : c.isAntartical h.number h.time.toNat = true)
    (hp : chain.getHeader h.parentHash (h.number64 - 1) = some p)
    (hok : verifyBlockHashAnchor keccak256 chain h [] = .ok ()) : Anchorable keccak256 c h.parentHash p := by
  simp only [verifyBlockHashAnchor, hc, checkWhen_ok, hr, hact, if_true, ok_rules, candidateParent, reverse_nil,
    find?_nil, Option.none_or, hp, validateBlockHashAnchor, forall_const] at hok
  obtain ⟨o, ho, anchor, rfl, _, _, _, _, q, hq, rolling, hroll, _, hval, hcom⟩ := hok
  obtain rfl : p = q := Option.some.inj hq
  rw [not_or, not_or, not_not, not_not] at hval
  obtain ⟨hn0, hheight, hhash⟩ := hval
  have hnum := chain.getHeader_number _ _ _ hp
  have hp64 : p.number64 = h.number64 - 1 := by rw [Header.number64, hnum, UInt64.ofNat_toNat]
  refine ⟨?_, rolling, hroll, ?_⟩
  · have hne : h.number64.toNat ≠ 0 := fun h0 => hn0 (UInt64.toNat_inj.mp h0)
    have hlt := h.number64.toNat_lt
    rw [hnum, UInt64.toNat_sub, UInt64.toNat_one]
    omega
  · have ha := anchor_parsed ho
    rwa [hp64, ← hheight, ← not_not.mp hcom, ← hhash]

theorem parent_lt_number (hpos : 0 < h.number) (hn : h.number64 - 1 = n) : n.toNat + 1 ≤ h.number := by
  rw [← hn, UInt64.toNat_sub, UInt64.toNat_one, Header.number64, UInt64.toNat_ofNat']
  omega

namespace RandomX

theorem verifyHeader_anchor {rx : RandomX} {ps : List Header}
    (hok : rx.verifyHeader chain h ps = .ok ()) : verifyBlockHashAnchor rx.keccak256 chain h ps = .ok () := by
  simp only [verifyHeader, ok_rules] at hok
  obtain ⟨_, _, _, ha, _⟩ := hok
  exact ha

theorem childless_rejects {rx : RandomX} (hpos : 0 < h.number)
    (hp : chain.getHeader h.parentHash (h.number64 - 1) = some p)
    (hc : Childless rx.keccak256 chain h.parentHash p) : rx.verifyHeader chain h [] ≠ .ok () := by
  intro hok
  obtain ⟨c, hcfg, hr, hact, hno⟩ := hc
  have hnum := chain.getHeader_number _ _ _ hp
  have hle := parent_lt_number hpos rfl
  rw [← hnum] at hle
  exact hno (verifyBlockHashAnchor_anchorable hcfg hr
    (ChainConfig.isLondonTimeFork_mono hle (Nat.zero_le _) hact) hp (verifyHeader_anchor hok))

def lenientVM : Nat → Except String (Bytes → Hash) := fun _ => .ok fun _ => 1

theorem verifySeal_lenient {rx : RandomX} {config : Option ChainConfig} (hvm : rx.vm = lenientVM)
    (hd : h.difficulty = 1 ∨ h.difficulty = 2) (hm : h.mixDigest = 1) (hn : h.nonce = 1) :
    rx.verifySeal config h = .ok () := by
  have hpos : h.difficulty ≠ 0 := by omega
  have hmonero : meetsMoneroDifficulty 1 h.difficulty = true := by
    rcases hd with hd | hd <;> rw [hd] <;> decide
  have hlegacy : (1 : Hash).toNat ≤ maxUint256 / h.difficulty := by
    rcases hd with hd | hd <;> rw [hd] <;> decide
  unfold verifySeal
  split
  · rfl
  split
  · rfl
  split
  · rfl
  simp only [ok_rules]
  refine ⟨(), hpos, (), by simp [hm], (), by simp [hn], _, by rw [hvm]; rfl, ?_⟩
  split
  · simp only [verifyMoneroProof, ok_rules]
    exact ⟨(), not_not.mpr hm, not_not.mpr hmonero⟩
  · rw [verifyLegacyProof, failIf_ok, not_not]
    exact Or.inl (decide_eq_true hlegacy)

def daoPinned (c : ChainConfig) (n : Nat) : Bool :=
  c.daoForkBlock.any fun fork => fork ≤ n && n < fork + daoForkExtraRange && c.daoForkSupport

theorem daoPinned_far (h : daoPinned c n = true) : daoPinned c (n + 2 ^ 64) = false := by
  unfold daoPinned at h ⊢
  cases hf : c.daoForkBlock with
  | none => rfl
  | some fork =>
    simp only [hf, Option.any_some, Bool.and_eq_true, decide_eq_true_eq] at h
    simp only [Option.any_some, Bool.and_eq_false_iff, decide_eq_false_iff_not]
    refine Or.inl (Or.inr ?_)
    unfold daoForkExtraRange
    omega

theorem verifyDAO_ok (he : h.extra = daoForkBlockExtra ↔ daoPinned c h.number = true) :
    verifyDAOHeaderExtraData c h = .ok () := by
  unfold verifyDAOHeaderExtraData
  unfold daoPinned at he
  cases hf : c.daoForkBlock with
  | none => rfl
  | some fork =>
    simp only [hf, Option.any_some, Bool.and_eq_true, decide_eq_true_eq] at he ⊢
    split
    · rfl
    · rename_i hin
      rw [not_or, Nat.not_lt, Nat.not_le] at hin
      split
      · rename_i hs
        rw [failIf_ok, not_not]
        exact he.mpr ⟨hin, hs⟩
      · rename_i hs
        rw [failIf_ok]
        exact fun hx => hs (he.mp hx).2

def rogueChild (a : Hash) (n d : Nat) (extra : Bytes)
    (fits : extra.length + Bytes.width d + Bytes.width n < 2 ^ 63) : Header where
  parentHash := a
  difficulty := d
  number := n
  time := 0
  extra := extra
  mixDigest := 1
  nonce := 1
  fits := fits

theorem plainExtra_anchor
    (hno : ∀ c, chain.config = some c → c.randomX = true → c.isAntartical h.number h.time.toNat = false)
    (he : h.extra = [] ∨ h.extra = daoForkBlockExtra) : verifyBlockHashAnchor keccak256 chain h [] = .ok () := by
  have hparse : blockHashAnchorFromHeaderExtra h.extra = .ok none := by
    rcases he with he | he <;> rw [he] <;> decide
  have hlen : ¬ maximumExtraDataSize < h.extra.length := by
    rcases he with he | he <;> rw [he] <;> decide
  unfold verifyBlockHashAnchor
  cases hc : chain.config with
  | none => rfl
  | some c =>
    simp only [checkWhen_ok]
    intro hr
    rw [hparse, hno c hc hr]
    simp only [ok_rules, Bool.false_eq_true, if_false]
    exact ⟨none, rfl, by simp [hlen]⟩

theorem anchored_anchor (hc : chain.config = some c) (hact : c.isAntartical h.number h.time.toNat = true)
    (hpos : h.number ≠ 0) (hp : chain.getHeader h.parentHash (h.number64 - 1) = some p)
    (hlt : p.number + 1 < 2 ^ 64) (hroll : previousRolling c p = .ok rolling)
    (he : h.extra = BlockHashAnchor.encode
      ⟨p.number64, h.parentHash, blockHashAnchorCommitment keccak256 rolling p.number64 h.parentHash⟩)
    (hfree : indexOf blockHashAnchorMagic (BlockHashAnchor.tail
      ⟨p.number64, h.parentHash, blockHashAnchorCommitment keccak256 rolling p.number64 h.parentHash⟩) = none) :
    verifyBlockHashAnchor keccak256 chain h [] = .ok () := by
  have hnum := chain.getHeader_number _ _ _ hp
  have hp64 : p.number64 = h.number64 - 1 := by rw [Header.number64, hnum, UInt64.ofNat_toNat]
  have hn0 : h.number64 ≠ 0 := by
    intro h0
    rw [h0] at hnum
    rw [hnum] at hlt
    exact absurd hlt (by decide)
  have hlen := congrArg List.length he
  rw [BlockHashAnchor.encode_length] at hlen
  simp only [verifyBlockHashAnchor, hc, checkWhen_ok, hact, if_true, ok_rules, candidateParent, reverse_nil,
    find?_nil, Option.none_or, hp, validateBlockHashAnchor]
  intro _
  refine ⟨_, he ▸ anchor_encode hfree, _, rfl, (), by rw [hlen]; decide, (), hpos, p, rfl, rolling, hroll, (), ?_, ?_⟩
  · rw [not_or, not_or, not_not, not_not]
    exact ⟨hn0, hp64, rfl⟩
  · exact not_not.mpr rfl

theorem number64_next (n : UInt64) : UInt64.ofNat (n.toNat + 1) - 1 = n := by
  rw [UInt64.ofNat_add, UInt64.ofNat_toNat]
  exact UInt64.add_sub_cancel n 1

theorem number64_far (n : UInt64) : UInt64.ofNat (n.toNat + 1 + 2 ^ 64) - 1 = n := by
  have h : UInt64.ofNat (2 ^ 64) = 0 := rfl
  rw [UInt64.ofNat_add, h, UInt64.add_zero, number64_next]

theorem width_number {n : UInt64} {k : Nat} (hk : k ≤ n.toNat + 1 + 2 ^ 64) : Bytes.width k ≤ 9 := by
  have hn := n.toNat_lt
  exact Bytes.width_le (by omega)

theorem exists_rogueChild (rx : RandomX) {a : Hash} {n : UInt64} {d : Nat}
    (hvm : rx.vm = lenientVM) (hp : chain.getHeader a n = some p) (hno : ¬ Childless rx.keccak256 chain a p)
    (hd : d = 1 ∨ d = 2) :
    ∃ h : Header, 0 < h.number ∧ h.parentHash = a ∧ h.number64 - 1 = n ∧ h.time = 0 ∧ h.difficulty = d ∧
      rx.verifyHeader chain h [] = .ok () := by
  have hnum := chain.getHeader_number _ _ _ hp
  have hwd : Bytes.width d ≤ 1 := Bytes.width_le (by omega)
  have accept : ∀ h : Header, 0 < h.number → h.mixDigest = 1 → h.nonce = 1 → h.difficulty = d →
      (∀ c, chain.config = some c → verifyDAOHeaderExtraData c h = .ok ()) →
      verifyBlockHashAnchor rx.keccak256 chain h [] = .ok () → rx.verifyHeader chain h [] = .ok () := by
    intro h hpos hm hn hdh hdao hanchor
    simp only [verifyHeader, ok_rules]
    refine ⟨(), ?_, (), hanchor, ?_⟩
    · cases hc : chain.config with
      | none => rfl
      | some c => exact hdao c hc
    · split
      · rfl
      · exact verifySeal_lenient hvm (hdh ▸ hd) hm hn
  by_cases hact : ∃ c, chain.config = some c ∧ c.randomX = true ∧ c.isAntartical (p.number + 1) 0 = true
  · -- the anchor is required: write it, past the blocks whose extra data the DAO rule fixes
    obtain ⟨c, hc, hr, hact⟩ := hact
    have hanch : Anchorable rx.keccak256 c a p := by
      by_contra hna
      exact hno ⟨c, hc, hr, hact, hna⟩
    obtain ⟨hlt, rolling, hroll, hfree⟩ := hanch
    have hk : ∃ k, n.toNat + 1 ≤ k ∧ k ≤ n.toNat + 1 + 2 ^ 64 ∧ UInt64.ofNat k - 1 = n ∧ daoPinned c k = false := by
      cases hpin : daoPinned c (n.toNat + 1) with
      | false => exact ⟨_, Nat.le_refl _, Nat.le_add_right _ _, number64_next n, hpin⟩
      | true => exact ⟨_, Nat.le_add_right _ _, Nat.le_refl _, number64_far n, daoPinned_far hpin⟩
    obtain ⟨k, hge, hle, hk64, hpin⟩ := hk
    have hwk := width_number hle
    let anchor : BlockHashAnchor := ⟨p.number64, a, blockHashAnchorCommitment rx.keccak256 rolling p.number64 a⟩
    have hlen := anchor.encode_length
    let h := rogueChild a k d anchor.encode (by omega)
    have hpos : 0 < h.number := by show 0 < k; omega
    refine ⟨h, hpos, rfl, hk64, rfl, rfl, accept h hpos rfl rfl rfl ?_ ?_⟩
    · intro c' hc'
      obtain rfl : c = c' := Option.some.inj (hc.symm.trans hc')
      apply verifyDAO_ok
      show anchor.encode = daoForkBlockExtra ↔ daoPinned c k = true
      rw [hpin]
      refine ⟨fun he => ?_, fun hf => absurd hf (by decide)⟩
      have hl := congrArg List.length he
      rw [hlen] at hl
      exact absurd hl (by decide)
    · apply anchored_anchor hc _ (Nat.ne_of_gt hpos) (hk64.symm ▸ hp) hlt hroll rfl hfree
      exact ChainConfig.isLondonTimeFork_mono (by show p.number + 1 ≤ k; omega) (Nat.zero_le _) hact
  · have hfar : ∀ c, chain.config = some c → c.randomX = true → c.isAntartical (n.toNat + 1) 0 = false := by
      intro c hc hr
      rw [← hnum]
      exact Bool.eq_false_iff.mpr fun ha => hact ⟨c, hc, hr, ha⟩
    have hwk := width_number (Nat.le_add_right (n.toNat + 1) (2 ^ 64))
    let pinned : Bool := chain.config.any fun c => daoPinned c (n.toNat + 1)
    have hlen : (if pinned then daoForkBlockExtra else []).length ≤ 13 := by
      split <;> decide
    let h := rogueChild a (n.toNat + 1) d (if pinned then daoForkBlockExtra else []) (by omega)
    have hpos : 0 < h.number := Nat.succ_pos _
    refine ⟨h, hpos, rfl, number64_next n, rfl, rfl, accept h hpos rfl rfl rfl ?_ ?_⟩
    · intro c hc
      apply verifyDAO_ok
      have hpin : pinned = daoPinned c (n.toNat + 1) := by simp only [pinned, hc, Option.any_some]
      show (if pinned then daoForkBlockExtra else []) = daoForkBlockExtra ↔ daoPinned c (n.toNat + 1) = true
      rw [← hpin]
      cases pinned <;> decide
    · apply plainExtra_anchor hfar
      show (if pinned then daoForkBlockExtra else []) = [] ∨ (if pinned then daoForkBlockExtra else []) = _
      cases pinned
      · exact Or.inl rfl
      · exact Or.inr rfl

/-- Header verification enforces the schedule on the children of `p` only where it accepts no child at all. -/
theorem schedule_enforced_iff (rx : RandomX) (chain : ChainReader) (a : Hash) (n : UInt64) (p : Header)
    (hp : chain.getHeader a n = some p) :
    (∀ vm (h : Header), 0 < h.number → h.parentHash = a → h.number64 - 1 = n →
      ({ rx with vm := vm } : RandomX).verifyHeader chain h [] = .ok () →
      h.number = p.number + 1 ∧ p.time < h.time ∧ h.difficulty = calcDifficulty chain h.time (some p)) ↔
    Childless rx.keccak256 chain a p := by
  constructor
  · intro hall
    by_contra hno
    have hrogue := exists_rogueChild { rx with vm := lenientVM } rfl hp hno (Or.inl rfl)
    obtain ⟨h, hpos, ha, hn, ht, _, hok⟩ := hrogue
    have := (hall lenientVM h hpos ha hn hok).2.1
    rw [ht] at this
    exact absurd this (by simp)
  · rintro hno vm h hpos rfl rfl hok
    exact absurd hok (childless_rejects hpos hp hno)

def parentHeader : Header where
  parentHash := 0
  difficulty := minDifficulty
  number := 5
  time := 1000
  fits := by decide

def oneParent : ChainReader where
  config := some moneroConfig
  getHeader := fun hash n => if hash = 7 ∧ n = 5 then some parentHeader else none
  getHeader_number := by
    intro hash n p h
    split at h
    · rename_i hk
      rw [← Option.some.inj h, hk.2]
      rfl
    · cases h

def nextHeader (difficulty : Nat) (time : UInt64) (fits : Bytes.width difficulty < 2 ^ 62) : Header where
  parentHash := 7
  difficulty := difficulty
  number := 6
  time := time
  mixDigest := 2 ^ 56
  nonce := 2 ^ 56
  fits := by
    have : Bytes.width 6 = 1 := by decide
    rw [this, length_nil]
    omega

theorem oneParent_not_childless (keccak256 : Bytes → Hash) : ¬ Childless keccak256 oneParent 7 parentHeader := by
  rintro ⟨c, hc, _, hact, _⟩
  rw [← Option.some.inj hc] at hact
  exact absurd hact (by decide)

theorem schedule_not_enforced_oneParent :
    ¬ ∀ vm (h : Header), 0 < h.number → h.parentHash = 7 → h.number64 - 1 = 5 →
      ({ toyEngine with vm := vm } : RandomX).verifyHeader oneParent h [] = .ok () →
      h.number = parentHeader.number + 1 ∧ parentHeader.time < h.time ∧
        h.difficulty = calcDifficulty oneParent h.time (some parentHeader) := by
  rw [schedule_enforced_iff toyEngine oneParent 7 5 parentHeader rfl]
  exact oneParent_not_childless _

/-- A header of difficulty one, and one older than its parent, are accepted. -/
theorem cheap_and_stale_accepted :
    oneParent.getHeader 7 5 = some parentHeader ∧
    toyEngine.verifyHeader oneParent (nextHeader 1 1120 (by decide)) [] = .ok () ∧
    calcDifficulty oneParent 1120 (some parentHeader) = 1310 ∧
    toyEngine.verifyHeader oneParent (nextHeader 1572 900 (by decide)) [] = .ok () ∧
    calcDifficulty oneParent 900 (some parentHeader) = 1572 ∧ ¬ parentHeader.time < 900 := by
  refine ⟨rfl, ?_⟩
  decide +kernel

/-! ## Seeds of epochs -/

section
variable (rx : RandomX)

/-- What the rounds of the seed hash. -/
def seedInput : Nat → Bytes
  | 0 => epochGenesis
  | i + 1 => (rx.keccak256 (seedInput i)).bytes

theorem seedRounds_succ : ∀ i, rx.seedRounds (i + 1) = (rx.keccak256 (rx.seedInput i)).bytes
  | 0 => rfl
  | i + 1 => by rw [seedRounds, if_neg (Nat.succ_ne_zero i), seedRounds_succ i, seedInput]

theorem seedHash_eq (e : UInt64) : rx.seedHash e = rx.keccak256 (rx.seedInput (e.toNat - 1)) := by
  unfold seedHash
  by_cases he : e = 0
  · subst he
    rfl
  · obtain ⟨i, hi⟩ := Nat.exists_eq_succ_of_ne_zero fun h : e.toNat = 0 => he (UInt64.toNat_inj.mp h)
    rw [if_neg he, hi, seedRounds_succ, Hash.ofBytes_bytes, Nat.succ_sub_one]

/-- Keccak does not collide on what the seeds of 64-bit epochs hash. It never gives the genesis text, whose length is not
that of a digest. -/
def SeedsCollisionFree : Prop :=
  ∀ i j, i < 2 ^ 64 → j < 2 ^ 64 → rx.keccak256 (rx.seedInput i) = rx.keccak256 (rx.seedInput j) →
    rx.seedInput i = rx.seedInput j

variable {rx}

theorem seedInput_inj (hfree : rx.SeedsCollisionFree) :
    ∀ i j, i < 2 ^ 64 → j < 2 ^ 64 → rx.seedInput i = rx.seedInput j → i = j
  | 0, 0, _, _, _ => rfl
  | 0, j + 1, _, _, h | j + 1, 0, _, _, h => by
    have hlen := congrArg List.length h
    simp [seedInput, Hash.bytes, epochGenesis, Bytes.ofText] at hlen
  | i + 1, j + 1, hi, hj, h =>
    have hprev := hfree i j (by omega) (by omega) (Hash.bytes_inj h)
    congrArg (· + 1) (seedInput_inj hfree i j (by omega) (by omega) hprev)

/-- Two epochs have two seeds unless they are the epochs zero and one. -/
theorem seedHash_ne_iff (hfree : rx.SeedsCollisionFree) {e e' : UInt64} (hne : e ≠ e') :
    rx.seedHash e ≠ rx.seedHash e' ↔ 2 ≤ e.toNat ∨ 2 ≤ e'.toNat := by
  have hsame : rx.seedHash e = rx.seedHash e' ↔ e.toNat - 1 = e'.toNat - 1 := by
    have he := e.toNat_lt
    have he' := e'.toNat_lt
    rw [seedHash_eq, seedHash_eq]
    exact ⟨fun h => seedInput_inj hfree _ _ (by omega) (by omega) (hfree _ _ (by omega) (by omega) h), fun h => by rw [h]⟩
  have hnat : e.toNat ≠ e'.toNat := fun h => hne (UInt64.toNat_inj.mp h)
  rw [Ne, hsame]
  omega

end

/-- Counting up from the genesis text, which has no cycle below `2 ^ 256`. -/
def countingEngine : RandomX := { toyEngine with keccak256 := fun b => BitVec.ofNat 256 (Bytes.toNat b + 1) }

theorem toNat_seedInput : ∀ i < 2 ^ 64, Bytes.toNat (countingEngine.seedInput i) = Bytes.toNat epochGenesis + i
  | 0, _ => rfl
  | i + 1, hi => by
    have hsmall : Bytes.toNat epochGenesis < 2 ^ 184 := by decide
    rw [seedInput, Hash.bytes, Bytes.toNat_be, countingEngine, BitVec.toNat_ofNat, ← countingEngine,
      toNat_seedInput i (by omega)]
    omega

theorem countingEngine_collisionFree : countingEngine.SeedsCollisionFree := by
  intro i j hi hj h
  have hsmall : Bytes.toNat epochGenesis < 2 ^ 184 := by decide
  have hnat := congrArg BitVec.toNat h
  simp only [countingEngine, BitVec.toNat_ofNat] at hnat
  rw [← countingEngine, toNat_seedInput i hi, toNat_seedInput j hj] at hnat
  obtain rfl : i = j := by omega
  rfl

theorem seedHash_ne_iff_two : countingEngine.seedHash 0 ≠ countingEngine.seedHash 2 :=
  (seedHash_ne_iff countingEngine_collisionFree (by decide)).mpr (.inr (by decide))

theorem seedHash_epoch_one : countingEngine.SeedsCollisionFree ∧ countingEngine.seedHash 0 = countingEngine.seedHash 1 :=
  ⟨countingEngine_collisionFree, by decide +kernel⟩

end RandomX

end TkmChain
