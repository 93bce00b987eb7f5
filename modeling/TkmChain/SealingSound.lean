import TkmChain.FinalitySound
import TkmChain.Marker

/-!
# A certificate through assembly and sealing

The miner attaches a certificate over the header as it is before the block is
assembled. Removing the certificate from the finished header gives back the extra
data that was signed, so the digest is the signed one exactly when assembly and
sealing changed no other field.
-/

namespace TkmChain

open List

namespace FinalityCertificate

variable {S : Signatures} {c : FinalityCertificate} {base : Bytes}

/-! ## The envelope is read back -/

theorem mapM_decodeAddress : ∀ l : List Address, (l.map Address.bytes).mapM decodeAddress = some l
  | [] => rfl
  | a :: l => by
    rw [map_cons, mapM_cons, mapM_decodeAddress l]
    simp [decodeAddress]

theorem decodeUint64_minimal_toNat (n : UInt64) : decodeUint64 (Bytes.minimal n.toNat) = some n.toNat :=
  Rlp.decodeNat_minimal n.toNat_lt

theorem ofRlp_rlp (h : c.rlp.length < 2 ^ 32) : ofRlp c.rlp = some c := by
  have hflat := Nat.lt_of_le_of_lt (length_le_encodeList _) h
  have hlist : Rlp.decodeList c.rlp = some _ := Rlp.decodeList_encodeList (by omega)
  simp only [flatten_cons, flatten_nil, append_nil] at hflat hlist
  simp only [length_append] at hflat
  have hkeys := length_le_encodeList (c.publicKeys.map Rlp.encodeStr)
  have hsigs := length_le_encodeList (c.signatures.map Rlp.encodeStr)
  have hsigners := length_le_encodeList ((c.signers.map Address.bytes).map Rlp.encodeStr)
  have hslot : (Bytes.minimal c.slot.toNat).length ≤ 8 := by rw [Bytes.length_minimal]; exact Header.width_time _
  have hsize : (Bytes.minimal c.committeeSize.toNat).length ≤ 8 := by
    rw [Bytes.length_minimal]; exact Header.width_time _
  have hhash : c.blockHash.bytes.length = 32 := Bytes.length_be _ _
  have hlast : Rlp.takeStrings (Rlp.encodeList (c.signatures.map Rlp.encodeStr)) = some (c.signatures, []) := by
    have := Rlp.takeStrings_encodeList (l := c.signatures) (by omega) []
    rwa [append_nil] at this
  simp only [ofRlp, hlist, Rlp.encodeNat, bind, Option.bind_some, decodeUint64_minimal_toNat,
    Rlp.takeStr_encodeStr (b := Bytes.minimal c.slot.toNat) (by omega),
    Rlp.takeStr_encodeStr (b := Bytes.minimal c.committeeSize.toNat) (by omega),
    Rlp.takeStr_encodeStr (b := c.blockHash.bytes) (by omega), hhash, guard, if_true,
    pure, Rlp.takeStrings_encodeList (l := c.signers.map Address.bytes) (by omega), mapM_decodeAddress,
    Rlp.takeStrings_encodeList (l := c.publicKeys) (by omega), hlast, UInt64.ofNat_toNat, Hash.ofBytes_bytes]

theorem rlp_pos (hv : c.verify S 0 1 = .ok ()) : c.rlp.length ≠ 0 := by
  obtain ⟨_, hs, _, hk, _, hg, _⟩ := verify_sizes hv
  have := rlp_length hs hk hg
  omega

theorem decode_envelope (hv : c.verify S 0 1 = .ok ()) (h : c.rlp.length < 2 ^ 32) :
    decode S (finalityEnvelopeMagic ++ c.envelopeTail) = .ok c := by
  have hslot : c.slot ≠ 0 := by
    simp only [verify, ok_rules, not_or] at hv
    obtain ⟨_, hshape, _⟩ := hv
    exact hshape.1
  have hpos := rlp_pos hv
  have hlen : (finalityEnvelopeMagic ++ c.envelopeTail).length = finalityEnvelopeMagic.length + 4 + c.rlp.length := by
    rw [envelopeTail, length_append, length_append, Bytes.length_be]; omega
  have hsize : Bytes.toNat (List.take 4 (List.drop finalityEnvelopeMagic.length
      (finalityEnvelopeMagic ++ c.envelopeTail))) = c.rlp.length := by
    rw [drop_left, envelopeTail, take_left' (by simp), Bytes.toNat_be]
    omega
  have hbody : List.drop (finalityEnvelopeMagic.length + 4) (finalityEnvelopeMagic ++ c.envelopeTail) = c.rlp := by
    rw [← drop_drop, drop_left, envelopeTail, drop_left' (by simp)]
  simp only [decode, hsize, hbody, ofRlp_rlp h, orFail, hv, hslot, failIf, bind, Except.bind, pure, Except.pure]
  rw [if_neg (by rw [hlen, take_left]; simp), if_neg (by rw [hlen]; omega)]
  rfl

/-! ## Where the envelope is found -/

theorem magic_unbordered : Unbordered finalityEnvelopeMagic := by decide

theorem magic_ne_nil : finalityEnvelopeMagic ≠ [] := by decide

theorem magic_ends_before_anchor (h0 : 0 < k) (hk : k < finalityEnvelopeMagic.length) :
    ¬ finalityEnvelopeMagic.drop k <+: blockHashAnchorMagic ++ t := by
  have hall : ∀ k ∈ List.range finalityEnvelopeMagic.length, 0 < k →
      ¬ ((finalityEnvelopeMagic.drop k).take blockHashAnchorMagic.length).isPrefixOf blockHashAnchorMagic = true := by
    decide
  intro hp
  refine hall k (mem_range.mpr hk) h0 ( isPrefixOf_iff_prefix.mpr ?_)
  have := hp.take blockHashAnchorMagic.length
  rwa [take_left] at this

theorem insertion_tail (base : Bytes) : base.drop (insertionPoint base) = [] ∨
    ∃ t, base.drop (insertionPoint base) = blockHashAnchorMagic ++ t := by
  unfold insertionPoint
  split
  · rename_i i hi
    split
    · obtain ⟨t, ht⟩ := indexOf_prefix_drop hi
      exact Or.inr ⟨t, ht.symm⟩
    · exact Or.inl (by simp)
  · exact Or.inl (by simp)

theorem magic_infix_append (h : finalityEnvelopeMagic <:+: x ++ base.drop (insertionPoint base)) :
    finalityEnvelopeMagic <:+: x ∨ finalityEnvelopeMagic <:+: base.drop (insertionPoint base) := by
  rcases infix_append_cases h with h | h | ⟨k, h0, hk, hp⟩
  · exact Or.inl h
  · exact Or.inr h
  · exfalso
    rcases insertion_tail base with ht | ⟨t, ht⟩
    · rw [ht, prefix_nil, drop_eq_nil_iff] at hp
      omega
    · rw [ht] at hp
      exact magic_ends_before_anchor h0 hk hp

/-- The marker occurs neither in the extra data without the certificate nor once more in the envelope. -/
structure Unmarked (base : Bytes) (c : FinalityCertificate) : Prop where
  base : indexOf finalityEnvelopeMagic base = none
  tail : indexOf finalityEnvelopeMagic c.envelopeTail = none

variable {a : Bytes}

theorem span_ok_single (h : span (a ++ (finalityEnvelopeMagic ++ t) ++ b) = .ok o) :
    ¬ finalityEnvelopeMagic <:+: a ∧ ¬ finalityEnvelopeMagic <:+: t ++ b := by
  rw [append_assoc, append_assoc] at h
  have ha : ¬ finalityEnvelopeMagic <:+: a := by
    intro hin
    cases hi : indexOf finalityEnvelopeMagic a with
    | none => exact (indexOf_eq_none magic_ne_nil).mp hi hin
    | some j =>
      have hj := indexOf_lt_length hi
      have hsecond : (indexOf finalityEnvelopeMagic
          ((a ++ (finalityEnvelopeMagic ++ (t ++ b))).drop (j + finalityEnvelopeMagic.length))).isSome = true := by
        rw [drop_append_of_le_length hj]
        cases hs : indexOf finalityEnvelopeMagic (a.drop (j + finalityEnvelopeMagic.length) ++
            (finalityEnvelopeMagic ++ (t ++ b))) with
        | some _ => rfl
        | none =>
          refine absurd ?_ ((indexOf_eq_none magic_ne_nil).mp hs)
          exact ⟨a.drop (j + finalityEnvelopeMagic.length), t ++ b, by simp⟩
      simp only [span, indexOf_append_left hi, ok_rules] at h
      obtain ⟨_, hnone, _⟩ := h
      exact hnone hsecond
  refine ⟨ha, ?_⟩
  have hi := indexOf_insert (r := t ++ b) magic_unbordered ha
  simp only [span, hi, ok_rules] at h
  obtain ⟨_, hnone, _⟩ := h
  rw [← drop_drop, drop_left, drop_left, Bool.not_eq_true, Option.isSome_eq_false_iff,
    Option.isNone_iff_eq_none] at hnone
  exact (indexOf_eq_none magic_ne_nil).mp hnone

theorem span_insert (ha : ¬ finalityEnvelopeMagic <:+: a) (htb : ¬ finalityEnvelopeMagic <:+: c.envelopeTail ++ b)
    (hpos : c.rlp.length ≠ 0) (hlen : c.rlp.length < 2 ^ 32) :
    span (a ++ (finalityEnvelopeMagic ++ c.envelopeTail) ++ b) =
      .ok (some (a.length, (a ++ (finalityEnvelopeMagic ++ c.envelopeTail)).length)) := by
  have htail : c.envelopeTail.length = 4 + c.rlp.length := by
    rw [envelopeTail, length_append, Bytes.length_be]
  have hi := indexOf_insert (r := c.envelopeTail ++ b) magic_unbordered ha
  have hrest : (a ++ (finalityEnvelopeMagic ++ (c.envelopeTail ++ b))).drop (a.length + finalityEnvelopeMagic.length) =
      c.envelopeTail ++ b := by
    rw [← drop_drop, drop_left, drop_left]
  have hsize : Bytes.toNat ((c.envelopeTail ++ b).take 4) = c.rlp.length := by
    rw [envelopeTail, append_assoc, take_left' (by simp), Bytes.toNat_be]
    omega
  have hnone := (indexOf_eq_none magic_ne_nil).mpr htb
  rw [append_assoc, append_assoc]
  simp only [span, hi, hrest, hsize, hnone, failIf, Option.isSome_none, Bool.false_eq_true, if_false, bind,
    Except.bind, pure, Except.pure, length_append, htail]
  rw [if_neg (by omega)]
  simp only
  rw [if_neg (by omega)]
  simp only [Except.ok.injEq, Option.some.injEq, Prod.mk.injEq, true_and]
  omega

theorem Unmarked.span_insert (h : Unmarked base c) (hv : c.verify S 0 1 = .ok ()) (hlen : c.rlp.length < 2 ^ 32) :
    span (base.take (insertionPoint base) ++ (finalityEnvelopeMagic ++ c.envelopeTail) ++
        base.drop (insertionPoint base)) =
      .ok (some ((base.take (insertionPoint base)).length,
        (base.take (insertionPoint base) ++ (finalityEnvelopeMagic ++ c.envelopeTail)).length)) := by
  have hbase := (indexOf_eq_none magic_ne_nil).mp h.base
  have htail := (indexOf_eq_none magic_ne_nil).mp h.tail
  refine FinalityCertificate.span_insert ?_ ?_ (rlp_pos hv) hlen
  · intro hin
    exact hbase (hin.trans ( take_prefix _ _).isInfix)
  · intro hin
    rcases magic_infix_append hin with hin | hin
    · exact htail hin
    · exact hbase (hin.trans (drop_suffix _ _).isInfix)

theorem take_drop_middle (a e b : Bytes) : ((a ++ e ++ b).take (a ++ e).length).drop a.length = e := by
  rw [take_left, drop_left]

theorem cut_middle (a e b : Bytes) : (a ++ e ++ b).take a.length ++ (a ++ e ++ b).drop (a ++ e).length = a ++ b := by
  rw [drop_left, append_assoc, take_left]

theorem fromHeaderExtra_insert (hv : c.verify S 0 1 = .ok ()) (hlen : c.rlp.length < 2 ^ 32)
    (o : Option FinalityCertificate) :
    fromHeaderExtra S (insertAt base (insertionPoint base) (finalityEnvelopeMagic ++ c.envelopeTail)) = .ok o ↔
      Unmarked base c ∧ o = some c := by
  have hsplit := take_append_drop (insertionPoint base) base
  constructor
  · intro h
    have hspan : ∃ p, span (insertAt base (insertionPoint base) (finalityEnvelopeMagic ++ c.envelopeTail)) = .ok p := by
      simp only [fromHeaderExtra, ok_rules] at h
      obtain ⟨p, hp, _⟩ := h
      exact ⟨p, hp⟩
    obtain ⟨p, hp⟩ := hspan
    obtain ⟨ha, htb⟩ := span_ok_single hp
    have hbase : ¬ finalityEnvelopeMagic <:+: base := by
      intro hin
      rw [← hsplit] at hin
      rcases magic_infix_append hin with hin | hin
      · exact ha hin
      · exact htb (hin.trans (suffix_append _ _).isInfix)
    have htail : ¬ finalityEnvelopeMagic <:+: c.envelopeTail :=
      fun hin => htb (hin.trans (prefix_append _ _).isInfix)
    refine ⟨⟨(indexOf_eq_none magic_ne_nil).mpr hbase, (indexOf_eq_none magic_ne_nil).mpr htail⟩, ?_⟩
    rw [insertAt, fromHeaderExtra, FinalityCertificate.span_insert ha htb (rlp_pos hv) hlen] at h
    simp only [bind, Except.bind, take_drop_middle, decode_envelope hv hlen, Except.map, Except.ok.injEq] at h
    exact h.symm
  · rintro ⟨h, rfl⟩
    rw [insertAt, fromHeaderExtra, h.span_insert hv hlen]
    simp only [bind, Except.bind, take_drop_middle, decode_envelope hv hlen, Except.map]

theorem stripHeaderExtra_insert (hv : c.verify S 0 1 = .ok ()) (hlen : c.rlp.length < 2 ^ 32) (h : Unmarked base c) :
    stripHeaderExtra S (insertAt base (insertionPoint base) (finalityEnvelopeMagic ++ c.envelopeTail)) = .ok base := by
  rw [insertAt, stripHeaderExtra, h.span_insert hv hlen]
  simp only [bind, Except.bind, take_drop_middle, decode_envelope hv hlen, Except.map, cut_middle,
    take_append_drop]

/-- An attached certificate is read back, and taking it out or replacing it leaves nothing of it. -/
theorem attach_round_trip (S : Signatures) (extra extra' : Bytes) (c : FinalityCertificate)
    (h : attach S extra c = .ok extra') (hmark : ∀ base, stripHeaderExtra S extra = .ok base → Unmarked base c) :
    fromHeaderExtra S extra' = .ok (some c) ∧ stripHeaderExtra S extra' = stripHeaderExtra S extra ∧
      ∀ c', attach S extra' c' = attach S extra c' := by
  simp only [attach, ok_rules] at h
  obtain ⟨encoded, hencode, base, hbase, rfl⟩ := h
  obtain ⟨hv, hlen, rfl⟩ := encode_ok hencode
  have hout := stripHeaderExtra_insert hv hlen (hmark base hbase)
  refine ⟨(fromHeaderExtra_insert hv hlen _).mpr ⟨hmark base hbase, rfl⟩, hout.trans hbase.symm, fun c' => ?_⟩
  rw [attach, attach, hout, hbase]

theorem attach_round_trip_pair : fromHeaderExtra toySignatures
    (finalityEnvelopeMagic ++ (pairCertificate 7 8).envelopeTail) = .ok (some (pairCertificate 7 8)) := by
  refine (attach_round_trip toySignatures [] _ (pairCertificate 7 8) (by decide +kernel) fun base hbase => ?_).1
  cases hbase
  exact ⟨by decide, by decide +kernel⟩

end FinalityCertificate

/-! ## The digest of a header -/

namespace Header

variable {h g : Header} {base : Bytes}

theorem withExtra_ok (hok : h.withExtra base = .ok g) : ∃ hf, g = { h with extra := base, fits := hf } := by
  unfold withExtra at hok
  split at hok
  · rename_i hf
    exact ⟨hf, (Except.ok.inj hok).symm⟩
  · cases hok

theorem setFields_withdrawals (hx : x.length = 32) :
    ((setFields (f :: some x :: fs)).map Rlp.encodeStr).flatten ≠
      ((setFields (f :: none :: fs)).map Rlp.encodeStr).flatten := by
  intro heq
  rw [setFields, if_neg (by simp), setFields, if_neg (by simp)] at heq
  rw [setFields] at heq
  simp only [map_cons, flatten_cons, Option.getD_some] at heq
  split at heq
  · exact Rlp.encodeStr_ne_nil _ (append_eq_nil_iff.mp heq).1
  · rw [map_cons, flatten_cons] at heq
    have htail := append_cancel_left heq
    rw [setFields] at htail
    split at htail
    · exact Rlp.encodeStr_ne_nil _ (append_eq_nil_iff.mp htail).1
    · rw [map_cons, flatten_cons] at htail
      have hnil : x = [] := (Rlp.encodeStr_append_inj (by omega) (by simp) htail).1
      rw [hnil] at hx
      cases hx

theorem encodeRLP_inj {h₁ h₂ : Header} (hb : h₁.baseFee = h₂.baseFee) (hbg : h₁.blobGasUsed = h₂.blobGasUsed)
    (he : h₁.excessBlobGas = h₂.excessBlobGas) (hp : h₁.parentBeaconRoot = h₂.parentBeaconRoot)
    (hr : h₁.requestsHash = h₂.requestsHash) (ha : h₁.blockAccessListHash = h₂.blockAccessListHash)
    (hs : h₁.slotNumber = h₂.slotNumber) (hw : h₂.withdrawalsHash = none) (heq : h₁.encodeRLP = h₂.encodeRLP) :
    h₁ = h₂ := by
  obtain ⟨hfields, hopt⟩ := encodeRLP_fields heq
  obtain ⟨hseal, htail⟩ := append_inj hfields rfl
  simp only [List.cons.injEq, and_true] at htail
  have hwith : h₁.withdrawalsHash = none := by
    cases hw₁ : h₁.withdrawalsHash with
    | none => rfl
    | some x =>
      simp only [optionalFields, hw₁, hw, hb, hbg, he, hp, hr, ha, hs, Option.map_some, Option.map_none] at hopt
      exact absurd hopt (setFields_withdrawals (Bytes.length_be _ _))
  exact eq_of_sealFields hseal ⟨hb, hwith.trans hw.symm, hbg, he, hp, hr, ha, hs⟩ (Hash.bytes_inj htail.1)
    (be_toNat_inj (w := 8) htail.2)

end Header

theorem lightClientPreimage_inj {id : Nat} {x y : Hash} (h : lightClientPreimage id x = lightClientPreimage id y) :
    x = y := by
  have hflat := Rlp.encodeList_inj h
  simp only [flatten_cons, flatten_nil] at hflat
  have hbytes := append_cancel_left (append_cancel_left hflat)
  have hlen : ∀ z : Hash, z.bytes.length < 2 ^ 64 := fun z => by rw [Hash.bytes, Bytes.length_be]; decide
  exact Hash.bytes_inj (Rlp.encodeStr_append_inj (hlen x) (hlen y) hbytes).1

section
variable (S : Signatures) (keccak256 : Bytes → Hash) (cfg : ChainConfig)

def digestPreimages (h : Header) : List Bytes :=
  match FinalityCertificate.stripHeaderExtra S h.extra, cfg.chainID with
  | .ok base, some id =>
    match h.withExtra base with
    | .ok g => [g.encodeRLP, lightClientPreimage id (g.hash keccak256)]
    | .error _ => []
  | _, _ => []

variable {S keccak256 cfg} {h f g k : Header} {base : Bytes}

theorem headerFinalityDigest_ok (hs : FinalityCertificate.stripHeaderExtra S h.extra = .ok base)
    (hg : h.withExtra base = .ok g) : headerFinalityDigest S keccak256 cfg.chainID h = .ok d ↔
      ∃ id, cfg.chainID = some id ∧ ¬ (id = 0 ∨ 2 ^ 256 ≤ id ∨ g.hash keccak256 = 0) ∧
        keccak256 (lightClientPreimage id (g.hash keccak256)) = d := by
  simp only [headerFinalityDigest, hs, lightClientFinalityDigest, ok_rules, Except.ok.injEq]
  constructor
  · rintro ⟨_, rfl, g', hg', id, hid, _, hbad, hd⟩
    obtain rfl : g = g' := Except.ok.inj (hg.symm.trans hg')
    exact ⟨id, hid, hbad, hd⟩
  · rintro ⟨id, hid, hbad, hd⟩
    exact ⟨base, rfl, g, hg, id, hid, (), hbad, hd⟩

theorem headerFinalityDigest_eq_iff
    (hk : Set.InjOn keccak256 {b | b ∈ digestPreimages S keccak256 cfg h ++ digestPreimages S keccak256 cfg f})
    (hs : FinalityCertificate.stripHeaderExtra S h.extra = .ok base) (hg : h.withExtra base = .ok g)
    (fs : FinalityCertificate.stripHeaderExtra S f.extra = .ok base) (fk : f.withExtra base = .ok k)
    (hd : headerFinalityDigest S keccak256 cfg.chainID h = .ok d) :
    headerFinalityDigest S keccak256 cfg.chainID f = .ok d ↔ k.encodeRLP = g.encodeRLP := by
  obtain ⟨id, hid, hbad, rfl⟩ := (headerFinalityDigest_ok hs hg).mp hd
  have hmem : digestPreimages S keccak256 cfg h ++ digestPreimages S keccak256 cfg f =
      [g.encodeRLP, lightClientPreimage id (g.hash keccak256)] ++
        [k.encodeRLP, lightClientPreimage id (k.hash keccak256)] := by
    simp only [digestPreimages, hs, fs, hid, hg, fk]
  rw [hmem] at hk
  rw [headerFinalityDigest_ok fs fk]
  constructor
  · rintro ⟨id', hid', _, hpre⟩
    obtain rfl : id = id' := Option.some.inj (hid.symm.trans hid')
    have hlight := hk (by simp) (by simp) hpre
    exact hk (by simp) (by simp) (lightClientPreimage_inj hlight)
  · intro henc
    have hhash : k.hash keccak256 = g.hash keccak256 := by rw [Header.hash, Header.hash, henc]
    exact ⟨id, hid, by rwa [hhash], by rw [hhash]⟩

end

/-! ## From the signed header to the finished block -/

structure AlreadyFinal {τ ρ : Type} (D : Derivation τ ρ) (h : Header) (txs : List τ) (uncles : List Header)
    (receipts : List ρ) (nonce : BitVec 64) (mixDigest : Hash) : Prop where
  txHash : h.txHash = if txs = [] then emptyTxsHash else D.txRoot txs
  receiptHash : h.receiptHash = if receipts = [] then emptyReceiptsHash else D.receiptRoot receipts
  bloom : receipts ≠ [] → h.bloom = D.mergeBloom receipts
  uncleHash : h.uncleHash = if uncles = [] then emptyUncleHash else D.uncleHash uncles
  withdrawalsHash : h.withdrawalsHash = none
  nonce : h.nonce = nonce
  mixDigest : h.mixDigest = mixDigest

section
variable {τ ρ : Type} {D : Derivation τ ρ} {h a g k : Header}
  {nonce : BitVec 64} {mixDigest : Hash} {base e : Bytes}

theorem encodeRLP_finished_iff (ha : h.withExtra e = .ok a) (hg : h.withExtra base = .ok g)
    (hk : (sealed (newBlock D a txs uncles receipts) nonce mixDigest).withExtra base = .ok k) :
    k.encodeRLP = g.encodeRLP ↔ AlreadyFinal D h txs uncles receipts nonce mixDigest := by
  obtain ⟨_, ha'⟩ := Header.withExtra_ok ha
  obtain ⟨_, hg'⟩ := Header.withExtra_ok hg
  obtain ⟨_, hk'⟩ := Header.withExtra_ok hk
  subst ha'
  constructor
  · intro heq
    have hgk : g = k := by
      refine Header.encodeRLP_inj ?_ ?_ ?_ ?_ ?_ ?_ ?_ ?_ heq.symm
      all_goals rw [hk']
      all_goals first | rw [hg']; rfl | rfl
    rw [hg', hk'] at hgk
    have hb := congrArg Header.bloom hgk
    refine ⟨congrArg Header.txHash hgk, congrArg Header.receiptHash hgk, fun hne => ?_,
      congrArg Header.uncleHash hgk, congrArg Header.withdrawalsHash hgk, congrArg Header.nonce hgk,
      congrArg Header.mixDigest hgk⟩
    simpa [sealed, newBlock, hne] using hb
  · intro hfin
    have hbloom : (if receipts = [] then h.bloom else D.mergeBloom receipts) = h.bloom := by
      split
      · rfl
      · rename_i hne
        exact (hfin.bloom hne).symm
    rw [hk', hg']
    simp only [sealed, newBlock, hbloom, ← hfin.txHash, ← hfin.receiptHash, ← hfin.uncleHash, ← hfin.nonce,
      ← hfin.mixDigest, ← hfin.withdrawalsHash]

end

theorem checkSigners_ok : checkSigners S c active signer quorum = .ok u ↔
      (c.signers.all fun s => s ∈ active.map (·.address)) = true ∧ c.verify S 2 3 = .ok u := by
  simp only [checkSigners, ok_rules, not_not, exists_const]

def MetadataAgrees (keccak256 : Bytes → Hash) (extra : Bytes) (c : FinalityCertificate) : Prop :=
  ∃ m, HeaderMetadata.fromExtra extra = .ok m ∧ ∀ r, m = some r → r.finality = c.commitment keccak256

section
variable {S : Signatures} {keccak256 : Bytes → Hash} {cfg : ChainConfig} {ready : Bool} {h a f : Header} {st : StateDB}
  {active : List ValidatorRecord} {c : FinalityCertificate} {m : Option HeaderMetadata}

structure Attached (S : Signatures) (keccak256 : Bytes → Hash) (cfg : ChainConfig) (h a : Header)
    (active : List ValidatorRecord) (c : FinalityCertificate) (base : Bytes) : Prop where
  slot : c.slot = h.number64
  size : c.committeeSize.toNat = active.length
  digest : headerFinalityDigest S keccak256 cfg.chainID h = .ok c.blockHash
  signers : (c.signers.all fun s => s ∈ active.map (·.address)) = true
  quorum : c.verify S 2 3 = .ok ()
  stripped : FinalityCertificate.stripHeaderExtra S h.extra = .ok base
  verified : c.verify S 0 1 = .ok ()
  short : c.rlp.length < 2 ^ 32
  extra : h.withExtra (FinalityCertificate.insertAt base (FinalityCertificate.insertionPoint base)
    (finalityEnvelopeMagic ++ c.envelopeTail)) = .ok a

theorem attachCertificate_ok (h : attachCertificate S keccak256 cfg f active c = .ok a) :
    ∃ base, Attached S keccak256 cfg f a active (c.fillSlot f.number64) base := by
  simp only [attachCertificate, ok_rules, not_or, not_not] at h
  obtain ⟨_, ⟨hslot, hsize⟩, _, hdigest, _, hcheck, e, he, ha⟩ := h
  obtain ⟨hsigners, hquorum⟩ := checkSigners_ok.mp hcheck
  obtain ⟨base, hbase, hv, hlen, rfl⟩ := FinalityCertificate.attach_ok he
  exact ⟨base, hslot, hsize, hdigest, hsigners, hquorum, hbase, hv, hlen, ha⟩

section
variable (hgate : isAntarticalConsensusFeatureActive ready cfg h.number h.time.toNat = true)
  (hact : activeValidatorRecords st h.number64.toNat = .ok active) (hne : active ≠ [])
include hgate hact hne

theorem commitFinality_eq :
    commitFinality S keccak256 cfg ready h st (some (.ok c)) =
      (attachCertificate S keccak256 cfg h active c).mapError .text := by
  simp only [commitFinality, hgate, if_true, hact, bind, Except.bind, hne, if_false, orFail, Except.mapError]

theorem commitFinality_ok (hcommit : commitFinality S keccak256 cfg ready h st (some (.ok c)) = .ok a) :
    ∃ base, Attached S keccak256 cfg h a active (c.fillSlot h.number64) base := by
  rw [commitFinality_eq hgate hact hne, except_mapError_ok] at hcommit
  exact attachCertificate_ok hcommit

end

theorem validateCertificate_ok (hant : cfg.isAntartical f.number f.time.toNat = true) (hslot : c.slot = f.number64)
    (hact : activeValidatorRecords st f.number64.toNat = .ok active) (hne : active ≠ [])
    (hsize : c.committeeSize.toNat = active.length)
    (hsigners : (c.signers.all fun s => s ∈ active.map (·.address)) = true) (hquorum : c.verify S 2 3 = .ok ()) :
    validateCertificate S keccak256 cfg f st m c = .ok () ↔
      headerFinalityDigest S keccak256 cfg.chainID f = .ok c.blockHash ∧
        ∀ r, m = some r → r.finality = c.commitment keccak256 := by
  simp only [validateCertificate, hact, ok_rules, hant, not_true, not_false_iff, hslot, hsize, hne, checkSigners_ok,
    hsigners, hquorum, ne_eq, exists_const, true_and, not_not]
  cases m with
  | none => simp
  | some r => simp

/-- A certificate the miner attached passes the finality checks of the finished block exactly when assembly and
sealing left the signed fields alone, the marker is unambiguous and the metadata commits to the certificate. -/
theorem certificate_survives_iff {τ ρ : Type} (S : Signatures) (keccak256 : Bytes → Hash) (cfg : ChainConfig)
    (ready : Bool) (D : Derivation τ ρ) (h a : Header) (st : StateDB) (active : List ValidatorRecord)
    (c : FinalityCertificate) (txs : List τ) (uncles : List Header) (receipts : List ρ) (nonce : BitVec 64)
    (mixDigest : Hash)
    (hgate : isAntarticalConsensusFeatureActive ready cfg h.number h.time.toNat = true)
    (hact : activeValidatorRecords st h.number64.toNat = .ok active) (hne : active ≠ [])
    (hcommit : commitFinality S keccak256 cfg ready h st (some (.ok c)) = .ok a)
    (hk : Set.InjOn keccak256 {b | b ∈ digestPreimages S keccak256 cfg h ++
      digestPreimages S keccak256 cfg (sealed (newBlock D a txs uncles receipts) nonce mixDigest)}) :
    validateFinality S keccak256 cfg ready (sealed (newBlock D a txs uncles receipts) nonce mixDigest) st = .ok () ↔
      AlreadyFinal D h txs uncles receipts nonce mixDigest ∧
      ∃ base, FinalityCertificate.stripHeaderExtra S h.extra = .ok base ∧
        FinalityCertificate.Unmarked base (c.fillSlot h.number64) ∧
        MetadataAgrees keccak256 (FinalityCertificate.insertAt base (FinalityCertificate.insertionPoint base)
          (finalityEnvelopeMagic ++ (c.fillSlot h.number64).envelopeTail)) (c.fillSlot h.number64) := by
  obtain ⟨base, hat⟩ := commitFinality_ok hgate hact hne hcommit
  generalize c.fillSlot h.number64 = c at hat ⊢
  generalize hf : sealed (newBlock D a txs uncles receipts) nonce mixDigest = f at hk ⊢
  obtain ⟨_, ha⟩ := Header.withExtra_ok hat.extra
  have hfe : f.extra = FinalityCertificate.insertAt base (FinalityCertificate.insertionPoint base)
      (finalityEnvelopeMagic ++ c.envelopeTail) := by rw [← hf, ha]; rfl
  have hnum : f.number = h.number := by rw [← hf, ha]; rfl
  have hnum64 : f.number64 = h.number64 := by rw [Header.number64, Header.number64, hnum]
  have htime : f.time = h.time := by rw [← hf, ha]; rfl
  have hdiff : f.difficulty = h.difficulty := by rw [← hf, ha]; rfl
  have hant : cfg.isAntartical f.number f.time.toNat = true := by
    rw [hnum, htime]
    simp only [isAntarticalConsensusFeatureActive, Bool.and_eq_true] at hgate
    exact hgate.1
  -- the digest was taken, so the header fits with the signed extra data, and so does the finished one
  obtain ⟨g, hg⟩ : ∃ g, h.withExtra base = .ok g := by
    have hd := hat.digest
    simp only [headerFinalityDigest, hat.stripped, ok_rules, Except.ok.injEq] at hd
    obtain ⟨_, rfl, g, hg, _⟩ := hd
    exact ⟨g, hg⟩
  obtain ⟨k, hfk⟩ : ∃ k, f.withExtra base = .ok k := by
    obtain ⟨hfit, _⟩ := Header.withExtra_ok hg
    rw [Header.withExtra, dif_pos (by rw [hnum, hdiff]; exact hfit)]
    exact ⟨_, rfl⟩
  have hfinal : FinalityCertificate.Unmarked base c → (headerFinalityDigest S keccak256 cfg.chainID f = .ok c.blockHash ↔
      AlreadyFinal D h txs uncles receipts nonce mixDigest) := by
    intro hun
    have hfs : FinalityCertificate.stripHeaderExtra S f.extra = .ok base := by
      rw [hfe]; exact FinalityCertificate.stripHeaderExtra_insert hat.verified hat.short hun
    rw [headerFinalityDigest_eq_iff hk hat.stripped hg hfs hfk hat.digest]
    rw [← hf] at hfk
    exact encodeRLP_finished_iff hat.extra hg hfk
  have hcert : ∀ m, validateCertificate S keccak256 cfg f st m c = .ok () ↔ _ := fun m =>
    validateCertificate_ok hant (hat.slot.trans hnum64.symm) (by rw [hnum64]; exact hact) hne hat.size hat.signers
      hat.quorum
  simp only [validateFinality, ok_rules, hant, not_true, and_false, hfe, not_false_iff, exists_const, true_and,
    FinalityCertificate.fromHeaderExtra_insert hat.verified hat.short]
  constructor
  · rintro ⟨m, hm, _, ⟨hun, rfl⟩, hok⟩
    obtain ⟨hd, hmeta⟩ := (hcert m).mp hok
    exact ⟨(hfinal hun).mp hd, base, hat.stripped, hun, m, hm, hmeta⟩
  · rintro ⟨hfin, base', hbase', hun, m, hm, hmeta⟩
    obtain rfl : base = base' := Except.ok.inj (hat.stripped.symm.trans hbase')
    exact ⟨m, hm, some c, ⟨hun, rfl⟩, (hcert m).mpr ⟨(hfinal hun).mpr hfin, hmeta⟩⟩

end

/-! ## A committee of one -/

section Example

open FinalityCertificate

def soleValidator : ValidatorRecord where
  version := 1
  address := Address.ofBytes [7]
  publicKey := [7]
  rewardAddress := Address.ofBytes [7]
  stake := validatorBondWei
  activationHeight := 1
  registeredAt := 0

def committeeState : StateDB :=
  indexValidator (storeRecord ⟨fun _ => 0, fun _ => 0, fun _ => 0, fun _ => 0, false⟩ soleValidator)
    soleValidator.address

theorem committeeState_active : activeValidatorRecords committeeState 1 = .ok [soleValidator] := by
  have hrecords : validatorRecords committeeState = .ok [soleValidator] := by decide
  have hactive : [soleValidator].filter (·.activeAt 1) = [soleValidator] := by decide
  simp only [activeValidatorRecords, hrecords, bind, Except.bind, hactive, mergeSort_singleton, pure, Except.pure]

def finalityConfig : ChainConfig :=
  { chainID := some mainnetChainID, londonBlock := some 0, antarticalTime := some 0 }

def unsignedHeader (filled : Bool) : Header where
  parentHash := 1
  uncleHash := if filled then emptyUncleHash else 0
  txHash := if filled then emptyTxsHash else 0
  receiptHash := if filled then emptyReceiptsHash else 0
  difficulty := 1310
  number := 1
  time := 1
  extra := anchorExtra
  fits := by decide +kernel

def signedCertificate (filled : Bool) : FinalityCertificate where
  slot := 0
  blockHash := (headerFinalityDigest toySignatures lengthHash finalityConfig.chainID
    (unsignedHeader filled)).toOption.getD 0
  committeeSize := 1
  signers := [soleValidator.address]
  publicKeys := [[7]]
  signatures := [List.replicate 65 0]

def certifiedExtra (filled : Bool) : Bytes :=
  insertAt anchorExtra (insertionPoint anchorExtra)
    (finalityEnvelopeMagic ++ ((signedCertificate filled).fillSlot 1).envelopeTail)

def certifiedHeader (filled : Bool) : Header :=
  { unsignedHeader filled with
    extra := certifiedExtra filled
    fits := by cases filled <;> decide +kernel }

def noRoots : Derivation Unit Unit where
  txRoot := fun _ => 0
  receiptRoot := fun _ => 0
  mergeBloom := fun _ => 0
  uncleHash := fun _ => 0

theorem unsigned_number64 (filled : Bool) : (unsignedHeader filled).number64 = 1 := rfl

theorem unsigned_active (filled : Bool) :
    activeValidatorRecords committeeState (unsignedHeader filled).number64.toNat = .ok [soleValidator] := by
  have hone : (1 : UInt64).toNat = 1 := rfl
  rw [unsigned_number64, hone, committeeState_active]

theorem attach_certified (filled : Bool) : attachCertificate toySignatures lengthHash finalityConfig
    (unsignedHeader filled) [soleValidator] (signedCertificate filled) = .ok (certifiedHeader filled) := by
  have hok : (attachCertificate toySignatures lengthHash finalityConfig (unsignedHeader filled) [soleValidator]
      (signedCertificate filled)).isOk = true := by cases filled <;> decide +kernel
  cases ha : attachCertificate toySignatures lengthHash finalityConfig (unsignedHeader filled) [soleValidator]
      (signedCertificate filled) with
  | error e => rw [ha] at hok; cases hok
  | ok a =>
    obtain ⟨base, hat⟩ := attachCertificate_ok ha
    rw [unsigned_number64] at hat
    have hstrip : stripHeaderExtra toySignatures anchorExtra = .ok anchorExtra := by decide +kernel
    obtain rfl : anchorExtra = base := Except.ok.inj (hstrip.symm.trans hat.stripped)
    obtain ⟨_, rfl⟩ := Header.withExtra_ok hat.extra
    rfl

theorem commit_certified (filled : Bool) : commitFinality toySignatures lengthHash finalityConfig true
    (unsignedHeader filled) committeeState (some (.ok (signedCertificate filled))) = .ok (certifiedHeader filled) := by
  have hgate : isAntarticalConsensusFeatureActive true finalityConfig (unsignedHeader filled).number
      (unsignedHeader filled).time.toNat = true := by cases filled <;> decide
  rw [commitFinality_eq hgate (unsigned_active filled) (cons_ne_nil _ _), attach_certified]
  rfl

theorem certificate_survives_filled :
    validateFinality toySignatures lengthHash finalityConfig true
      (sealed (newBlock noRoots (certifiedHeader true) [] [] []) 0 0) committeeState = .ok () := by
  have hinj : ∀ x ∈ digestPreimages toySignatures lengthHash finalityConfig (unsignedHeader true) ++
      digestPreimages toySignatures lengthHash finalityConfig
        (sealed (newBlock noRoots (certifiedHeader true) [] [] []) 0 0),
      ∀ y ∈ digestPreimages toySignatures lengthHash finalityConfig (unsignedHeader true) ++
        digestPreimages toySignatures lengthHash finalityConfig
          (sealed (newBlock noRoots (certifiedHeader true) [] [] []) 0 0), lengthHash x = lengthHash y → x = y := by
    decide +kernel
  refine (certificate_survives_iff toySignatures lengthHash finalityConfig true noRoots (unsignedHeader true)
    (certifiedHeader true) committeeState [soleValidator] (signedCertificate true) [] [] [] 0 0 (by decide +kernel)
    (unsigned_active true) (by simp) (commit_certified true) (fun x hx y hy => hinj x hx y hy)).mpr ?_
  refine ⟨⟨rfl, rfl, fun hne => absurd rfl hne, rfl, rfl, rfl, rfl⟩, anchorExtra, by decide +kernel,
    ⟨by decide +kernel, by decide +kernel⟩, none, by decide +kernel, nofun⟩

/-- The miner's own header has no roots yet: its certificate is rejected in the finished block. -/
theorem certificate_lost_in_assembly :
    commitFinality toySignatures lengthHash finalityConfig true (unsignedHeader false) committeeState
      (some (.ok (signedCertificate false))) = .ok (certifiedHeader false) ∧
    validateFinality toySignatures lengthHash finalityConfig true
      (sealed (newBlock noRoots (certifiedHeader false) [] [] []) 5 6) committeeState =
        .error "Antartical finality digest mismatch" :=
  ⟨commit_certified false, by decide +kernel⟩

end Example

end TkmChain
