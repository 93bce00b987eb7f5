import TkmChain.Registry

/-!
# The validator registry holds what was written

A record that fits its encoding is read back, writing one leaves the others
alone, and a well-formed registry stays well-formed under every operation, its
stakes moving as the operation says.
-/

namespace TkmChain

open List Function

variable {a b : Address} {i : Nat}

/-! ## Words and addresses -/

theorem Address.ofBytes_word (a : Address) : Address.ofBytes (Hash.ofBytes a.bytes).bytes = a := by
  have ha : a.toNat < 2 ^ 256 := by have := a.isLt; omega
  have hw : (Hash.ofBytes a.bytes).toNat = a.toNat := by
    rw [Hash.ofBytes, Address.toNat_bytes, BitVec.toNat_ofNat, Nat.mod_eq_of_lt ha]
  rw [Address.ofBytes, Hash.bytes, Bytes.toNat_be, hw, Nat.mod_eq_of_lt (by simpa using ha), BitVec.ofNat_toNat,
    BitVec.setWidth_eq]

theorem Address.word_inj (h : Hash.ofBytes a.bytes = Hash.ofBytes b.bytes) : a = b := by
  rw [← Address.ofBytes_word a, h, Address.ofBytes_word]

theorem Address.word_ne_zero (h : a ≠ 0) : Hash.ofBytes a.bytes ≠ 0 := by
  intro h0
  apply h
  rw [← Address.ofBytes_word a, h0]
  decide

theorem uint64FromHash_uint64Hash (h : n < 2 ^ 64) : uint64FromHash (uint64Hash n) = n := by
  have h256 : n < 2 ^ 256 := by omega
  rw [uint64FromHash, uint64Hash, BitVec.toNat_ofNat, Nat.mod_eq_of_lt h256, Nat.mod_eq_of_lt h]

/-! ## Chunks -/

theorem take_drop_append_replicate (raw : Bytes) {k m : Nat} (h : k + 32 ≤ raw.length + m) :
    ((raw ++ List.replicate m 0).drop k).take 32 =
      (raw.drop k).take 32 ++ List.replicate (32 - ((raw.drop k).take 32).length) 0 := by
  rw [drop_append, take_append, drop_replicate, take_replicate]
  congr 2
  rw [length_take, length_drop]
  omega

theorem chunkWord_bytes (raw : Bytes) {m : Nat} (h : 32 * i + 32 ≤ raw.length + m) :
    (chunkWord raw i).bytes = ((raw ++ List.replicate m 0).drop (32 * i)).take 32 := by
  rw [take_drop_append_replicate raw h, chunkWord, Hash.bytes_ofBytes]
  rw [length_append, length_replicate, length_take]
  omega

theorem readChunks_eq :
    ∀ {n : Nat}, 32 * n ≤ raw.length + m → (∀ i < n, st.storage (validatorChunkSlot a i) = chunkWord raw i) →
      readChunks st a n = (raw ++ List.replicate m 0).take (32 * n)
  | 0, _, _ => by simp [readChunks]
  | n + 1, hm, h => by
    rw [readChunks, readChunks_eq (m := m) (by omega) fun i hi => h i (by omega), h n (by omega),
      chunkWord_bytes raw (by omega), Nat.mul_succ, take_add]

/-! ## Slots of a record -/

theorem chunkSlot_inj (hi : i < 2 ^ 64) (hj : j < 2 ^ 64)
    (h : validatorChunkSlot a i = validatorChunkSlot b j) : a = b ∧ i = j := by
  have h : a.bytes ++ Bytes.be 8 i = b.bytes ++ Bytes.be 8 j := by simpa [validatorChunkSlot] using h
  obtain ⟨ha, hb⟩ := append_inj h (by simp)
  exact ⟨Address.bytes_inj ha, Bytes.be_inj (by simpa using hi) (by simpa using hj) hb⟩

theorem writeChunks_other :
    ∀ {n : Nat}, (∀ i < n, k ≠ validatorChunkSlot a i) → (writeChunks st a raw n).storage k = st.storage k
  | 0, _ => rfl
  | n + 1, h => by
    rw [writeChunks, StateDB.setState_storage, update_of_ne (h n (by omega)),
      writeChunks_other fun i hi => h i (by omega)]

theorem writeChunks_chunk :
    ∀ {n i : Nat}, n ≤ 2 ^ 64 → i < n → (writeChunks st a raw n).storage (validatorChunkSlot a i) = chunkWord raw i
  | n + 1, i, hn, hi => by
    rw [writeChunks, StateDB.setState_storage]
    by_cases h : i = n
    · rw [h, update_self]
    · have hne : validatorChunkSlot a i ≠ validatorChunkSlot a n :=
        fun heq => h (chunkSlot_inj (by omega) (by omega) heq).2
      rw [update_of_ne hne, writeChunks_chunk (by omega) (by omega)]

theorem readValidatorRecord_congr
    (hc : st'.storage (validatorChunkCountSlot a) = st.storage (validatorChunkCountSlot a))
    (hl : st'.storage (validatorByteLengthSlot a) = st.storage (validatorByteLengthSlot a))
    (hs : ∀ i < 2 ^ 64, st'.storage (validatorChunkSlot a i) = st.storage (validatorChunkSlot a i)) :
    readValidatorRecord st' a = readValidatorRecord st a := by
  have hread : ∀ n, n ≤ 2 ^ 64 → readChunks st' a n = readChunks st a n := by
    intro n
    induction n with
    | zero => intro _; rfl
    | succ n ih => intro hn; rw [readChunks, readChunks, ih (by omega), hs n (by omega)]
  have hlt : uint64FromHash (st.storage (validatorChunkCountSlot a)) < 2 ^ 64 := Nat.mod_lt _ (by decide)
  simp only [readValidatorRecord, hc, hl, hread _ (Nat.le_of_lt hlt)]

theorem storeRecord_frame (h1 : k ≠ validatorChunkCountSlot r.address) (h2 : k ≠ validatorByteLengthSlot r.address)
    (h3 : ∀ i, k ≠ validatorChunkSlot r.address i) : (storeRecord st r).storage k = st.storage k := by
  simp only [storeRecord, StateDB.setState_storage]
  rw [update_of_ne h2, update_of_ne h1, writeChunks_other fun i _ => h3 i]

/-! ## Reading a record back -/

structure ValidatorRecord.Fits (r : ValidatorRecord) : Prop where
  version : r.version < 2 ^ 64
  stake : r.stake < 2 ^ 256
  activationHeight : r.activationHeight < 2 ^ 64
  exitHeight : r.exitHeight < 2 ^ 64
  jailedUntil : r.jailedUntil < 2 ^ 64
  registeredAt : r.registeredAt < 2 ^ 64
  slashCount : r.slashCount < 2 ^ 64

theorem decodeUint64_minimal (h : n < 2 ^ 64) : decodeUint64 (Bytes.minimal n) = some n :=
  Rlp.decodeNat_minimal (by simpa using h)

/-- What is 64 bits wide in a record has 64 bits; the stake has any size. -/
def ValidatorRecord.Sized (r : ValidatorRecord) : Prop :=
  ∀ n ∈ [r.version, r.activationHeight, r.exitHeight, r.jailedUntil, r.registeredAt, r.slashCount], n < 2 ^ 64

theorem ValidatorRecord.Fits.sized {r : ValidatorRecord} (h : r.Fits) : r.Sized := by
  simp only [Sized, forall_mem_cons]
  exact ⟨h.version, h.activationHeight, h.exitHeight, h.jailedUntil, h.registeredAt, h.slashCount, nofun⟩

theorem ofFields_fields {r : ValidatorRecord} (h : r.Sized) : ValidatorRecord.ofFields r.fields = some r := by
  have haddr (a : Address) : decodeAddress a.bytes = some a := by simp [decodeAddress]
  have hstake : Rlp.decodeNat (Bytes.minimal r.stake).length (Bytes.minimal r.stake) = some r.stake := by
    rw [Bytes.length_minimal]
    exact Rlp.decodeNat_minimal (Bytes.lt_pow_width _)
  simp only [ValidatorRecord.Sized, forall_mem_cons] at h
  simp only [ValidatorRecord.fields, ValidatorRecord.ofFields, decodeUint64_minimal, h, haddr, hstake]
  rfl

theorem decode_encode {r : ValidatorRecord} (h : r.Sized) (hlen : (encodeValidatorRecord r).length < 2 ^ 64) :
    decodeValidatorRecord (encodeValidatorRecord r) = .ok r := by
  have hflat : (r.fields.map Rlp.encodeStr).flatten.length < 2 ^ 64 := by
    have : (encodeValidatorRecord r).length = _ := length_append
    omega
  have hfield : ∀ b ∈ r.fields, b.length < 2 ^ 64 := by
    intro b hb
    have hle : b.length ≤ (Rlp.encodeStr b).length := Rlp.length_le_encodeStr b
    have hmem := (sublist_flatten_of_mem (mem_map_of_mem (f := Rlp.encodeStr) hb)).length_le
    omega
  have hs : Rlp.strings 10 (r.fields.map Rlp.encodeStr).flatten = some r.fields :=
    Rlp.strings_encodeStr hfield (by simp [ValidatorRecord.fields])
  rw [decodeValidatorRecord, encodeValidatorRecord, Rlp.decodeList_encodeList hflat, Option.bind_some, hs,
    Option.bind_some, ofFields_fields h]
  rfl

theorem readValidatorRecord_store {st : StateDB} {r : ValidatorRecord} (h : r.Sized)
    (hpos : chunkCount (encodeValidatorRecord r) ≠ 0) (hmax : chunkCount (encodeValidatorRecord r) ≤ 256) :
    readValidatorRecord (storeRecord st r) r.address = .ok r := by
  have hlen : (encodeValidatorRecord r).length ≤ 32 * chunkCount (encodeValidatorRecord r) := by
    unfold chunkCount; omega
  have hl0 : (encodeValidatorRecord r).length ≠ 0 := by
    intro h0
    apply hpos
    unfold chunkCount
    omega
  generalize hraw : encodeValidatorRecord r = raw at *
  have hcount : (storeRecord st r).storage (validatorChunkCountSlot r.address) = uint64Hash (chunkCount raw) := by
    simp only [storeRecord, StateDB.setState_storage, hraw]
    rw [update_of_ne (by simp [validatorChunkCountSlot, validatorByteLengthSlot]), update_self]
  have hbytes : (storeRecord st r).storage (validatorByteLengthSlot r.address) = uint64Hash raw.length := by
    simp only [storeRecord, StateDB.setState_storage, hraw]
    rw [update_self]
  have hchunk : ∀ i < chunkCount raw,
      (storeRecord st r).storage (validatorChunkSlot r.address i) = chunkWord raw i := by
    intro i hi
    simp only [storeRecord, StateDB.setState_storage, hraw]
    rw [update_of_ne (by simp [validatorChunkSlot, validatorByteLengthSlot]),
      update_of_ne (by simp [validatorChunkSlot, validatorChunkCountSlot]),
      writeChunks_chunk (by omega) hi]
  have hread := readChunks_eq (m := 32 * chunkCount raw - raw.length) (by omega) hchunk
  have htake : (readChunks (storeRecord st r) r.address (chunkCount raw)).take raw.length = raw := by
    rw [hread, take_take, Nat.min_eq_left hlen, take_left']
    rfl
  have hrl : (readChunks (storeRecord st r) r.address (chunkCount raw)).length = 32 * chunkCount raw := by
    rw [hread, length_take, length_append, length_replicate]
    omega
  simp only [readValidatorRecord, hcount, hbytes, uint64FromHash_uint64Hash (show chunkCount raw < 2 ^ 64 by omega),
    uint64FromHash_uint64Hash (show raw.length < 2 ^ 64 by omega), ok_rules]
  refine ⟨(), hpos, (), by omega, ?_⟩
  rw [htake, ← hraw]
  exact decode_encode h (by rw [hraw]; omega)

theorem readValidatorRecord_store_other {st : StateDB} {r : ValidatorRecord} (h : a ≠ r.address) :
    readValidatorRecord (storeRecord st r) a = readValidatorRecord st a := by
  have hb : a.bytes ≠ r.address.bytes := fun he => h (Address.bytes_inj he)
  apply readValidatorRecord_congr
  · apply storeRecord_frame <;> simp [validatorChunkCountSlot, validatorByteLengthSlot, validatorChunkSlot, hb]
  · apply storeRecord_frame <;> simp [validatorChunkCountSlot, validatorByteLengthSlot, validatorChunkSlot, hb]
  · intro i _
    refine storeRecord_frame ?_ ?_ fun j hj => ?_
    · simp [validatorChunkCountSlot, validatorChunkSlot]
    · simp [validatorByteLengthSlot, validatorChunkSlot]
    · have he : a.bytes ++ Bytes.be 8 i = r.address.bytes ++ Bytes.be 8 j := by simpa [validatorChunkSlot] using hj
      exact hb (append_inj he (by simp)).1

/-! ## Well-formed registries -/

/-- The index lists `idx`, each address once and with a readable record, and no
other address has a record. -/
structure RegistryOk (st : StateDB) (idx : List Address) : Prop where
  count : validatorCount st = idx.length
  bound : idx.length ≤ validatorMaxSetSize
  entry : ∀ i a, idx[i]? = some a → st.storage (validatorIndexSlot i) = Hash.ofBytes a.bytes
  nonzero : ∀ a ∈ idx, a ≠ 0
  nodup : idx.Nodup
  record : ∀ a ∈ idx, ∃ r, readValidatorRecord st a = .ok r ∧ r.address = a ∧ r.Fits
  indexed : ∀ a r, readValidatorRecord st a = .ok r → a ∈ idx

def totalStake (st : StateDB) (idx : List Address) : Nat := (idx.map (stakeOf st)).sum

theorem stakeOf_ok (h : readValidatorRecord st a = .ok r) :
    stakeOf st a = r.stake := by simp [stakeOf, h]

theorem registryOk_empty (h : ∀ k, k.kind = .registry → st.storage k = 0) : RegistryOk st [] := by
  have hc (a : Address) : st.storage (validatorChunkCountSlot a) = 0 := h _ rfl
  refine ⟨?_, by simp, by simp, by simp, by simp, by simp, ?_⟩
  · have h0 : st.storage validatorCountSlot = 0 := h _ rfl
    simp [validatorCount, h0, uint64FromHash]
  · intro a r hr
    simp [readValidatorRecord, hc, uint64FromHash, ok_rules] at hr

section
variable {st : StateDB} {idx : List Address}

theorem RegistryOk.of_read (h : RegistryOk st idx)
    (hr : readValidatorRecord st a = .ok r) : a ∈ idx ∧ r.address = a ∧ r.Fits := by
  have hm := h.indexed a r hr
  obtain ⟨q, hq, ha, hf⟩ := h.record a hm
  rw [hr, Except.ok.injEq] at hq
  exact ⟨hm, hq ▸ ha, hq ▸ hf⟩

theorem validatorAt_ok (h : RegistryOk st idx) (hi : idx[i]? = some a) :
    validatorAt st i = readValidatorRecord st a := by
  have hne := Address.word_ne_zero (h.nonzero a (mem_of_getElem? hi))
  simp only [validatorAt, h.entry i a hi, Address.ofBytes_word, failIf, hne, if_false]
  rfl

theorem validatorsBelow_ok (h : RegistryOk st idx) :
    ∀ {n : Nat}, n ≤ idx.length → ∃ records, validatorsBelow st n = .ok records ∧
      records.map .ok = (idx.take n).map (readValidatorRecord st)
  | 0, _ => ⟨[], rfl, by simp⟩
  | n + 1, hn => by
    obtain ⟨records, hr, hs⟩ := validatorsBelow_ok h (n := n) (by omega)
    have hi : idx[n]? = some idx[n] := getElem?_eq_getElem (by omega)
    obtain ⟨r, hread, _⟩ := h.record _ (mem_of_getElem? hi)
    refine ⟨records ++ [r], ?_, ?_⟩
    · simp only [validatorsBelow, hr, validatorAt_ok h hi, hread]
      rfl
    · rw [map_append, hs, take_add_one, hi, map_append]
      simp [hread]

theorem validatorRecords_read (h : RegistryOk st idx) :
    ∃ records, validatorRecords st = .ok records ∧ records.map .ok = idx.map (readValidatorRecord st) := by
  obtain ⟨records, hr, hs⟩ := validatorsBelow_ok h (Nat.le_refl _)
  refine ⟨records, ?_, by rw [hs, take_length]⟩
  simp only [validatorRecords, ok_rules, h.count]
  exact ⟨(), by have := h.bound; omega, hr⟩

theorem RegistryOk.mem_records {records : List ValidatorRecord} (h : RegistryOk st idx)
    (hs : records.map .ok = idx.map (readValidatorRecord st)) :
    r ∈ records ↔ readValidatorRecord st r.address = .ok r := by
  have hmem : r ∈ records ↔ ∃ a ∈ idx, readValidatorRecord st a = .ok r := by
    rw [← mem_map, ← hs]
    simp
  rw [hmem]
  constructor
  · rintro ⟨a, _, hr⟩
    rwa [(h.of_read hr).2.1]
  · intro hr
    exact ⟨_, (h.of_read hr).1, hr⟩

def ofRecord (d : α) (f : ValidatorRecord → α) : Except Err ValidatorRecord → α
  | .ok r => f r
  | .error _ => d

theorem validatorRecords_ok (h : RegistryOk st idx) : ∃ records, validatorRecords st = .ok records ∧
    records.map (·.stake) = idx.map (stakeOf st) ∧ ∀ r ∈ records, r.Fits := by
  obtain ⟨records, hr, hs⟩ := validatorRecords_read h
  refine ⟨records, hr, ?_, fun r hm => (h.of_read ((h.mem_records hs).mp hm)).2.2⟩
  have hstakes := congrArg (map (ofRecord 0 (·.stake))) hs
  rwa [map_map, map_map] at hstakes

theorem validatorRecords_congr (hs : ∀ k, k.kind = .registry → st'.storage k = st.storage k) :
    validatorRecords st' = validatorRecords st := by
  have hread (a : Address) : readValidatorRecord st' a = readValidatorRecord st a :=
    readValidatorRecord_congr (hs _ rfl) (hs _ rfl) fun i _ => hs _ rfl
  have hbelow : ∀ n, validatorsBelow st' n = validatorsBelow st n := by
    intro n
    induction n with
    | zero => rfl
    | succ n ih => rw [validatorsBelow, validatorsBelow, ih, validatorAt, validatorAt, hs _ rfl, hread]
  rw [validatorRecords, validatorRecords, validatorCount, validatorCount, hs _ rfl, hbelow]

theorem RegistryOk.congr (h : RegistryOk st idx)
    (hs : ∀ k, k.kind = .registry → t.storage k = st.storage k) :
    RegistryOk t idx ∧ totalStake t idx = totalStake st idx := by
  have hread (a : Address) : readValidatorRecord t a = readValidatorRecord st a :=
    readValidatorRecord_congr (hs _ rfl) (hs _ rfl) fun i _ => hs _ rfl
  refine ⟨⟨?_, h.bound, ?_, h.nonzero, h.nodup, ?_, ?_⟩, ?_⟩
  · rw [validatorCount, hs _ rfl]; exact h.count
  · intro i a hi
    rw [hs _ rfl]
    exact h.entry i a hi
  · intro a ha
    rw [hread]
    exact h.record a ha
  · intro a r hr
    rw [hread] at hr
    exact h.indexed a r hr
  · have : stakeOf t = stakeOf st := by
      funext a
      simp only [stakeOf, hread]
    rw [totalStake, this, totalStake]

end

/-! ## Writing a record -/

theorem sum_map_update {f g : Address → Nat} {l : List Address} (hn : l.Nodup) (ha : a ∈ l)
    (hfg : ∀ b, b ≠ a → g b = f b) : (l.map g).sum + f a = (l.map f).sum + g a := by
  have hrest : (l.erase a).map g = (l.erase a).map f := map_congr_left fun b hb => hfg b (hn.mem_erase_iff.mp hb).1
  rw [((perm_cons_erase ha).map g).sum_nat, ((perm_cons_erase ha).map f).sum_nat, map_cons, map_cons, sum_cons, sum_cons,
    hrest]
  omega

structure ValidatorRecord.Storable (r : ValidatorRecord) : Prop where
  fits : r.Fits
  pos : chunkCount (encodeValidatorRecord r) ≠ 0
  max : chunkCount (encodeValidatorRecord r) ≤ 256

theorem writeValidatorRecord_iff :
    writeValidatorRecord r st = (.ok (), st') ↔
      (chunkCount (encodeValidatorRecord r) ≠ 0 ∧ chunkCount (encodeValidatorRecord r) ≤ 256) ∧
        st' = storeRecord st r := by
  simp only [writeValidatorRecord, Proc.run_rules, failIf_ok, not_or, Nat.not_lt]
  exact and_congr_right fun _ => eq_comm

/-- A written record reads back as it was, whatever was stored before, and no other record changes. -/
theorem validator_record_reads_back {r : ValidatorRecord} (hr : r.Sized) (hfits : (encodeValidatorRecord r).length ≤ 8192)
    (st : StateDB) : ∃ st', writeValidatorRecord r st = (.ok (), st') ∧ readValidatorRecord st' r.address = .ok r ∧
      ∀ a ≠ r.address, readValidatorRecord st' a = readValidatorRecord st a := by
  have hpos : chunkCount (encodeValidatorRecord r) ≠ 0 := by
    unfold chunkCount encodeValidatorRecord Rlp.encodeList Rlp.header
    split <;> simp
  have hmax : chunkCount (encodeValidatorRecord r) ≤ 256 := by
    unfold chunkCount
    omega
  exact ⟨_, writeValidatorRecord_iff.mpr ⟨⟨hpos, hmax⟩, rfl⟩, readValidatorRecord_store hr hpos hmax, fun a ha =>
    readValidatorRecord_store_other ha⟩

def staked : ValidatorRecord where
  version := 1
  address := 7
  publicKey := [1]
  rewardAddress := 8
  stake := 10 ^ 80
  activationHeight := 720
  registeredAt := 1

theorem staked_reads_back : staked.Sized ∧ ∀ st, ∃ st', writeValidatorRecord staked st = (.ok (), st') ∧
    readValidatorRecord st' 7 = .ok staked ∧ ∀ a ≠ 7, readValidatorRecord st' a = readValidatorRecord st a :=
  have hsized : staked.Sized := by simp [ValidatorRecord.Sized, staked]
  ⟨hsized, validator_record_reads_back hsized (by decide +kernel)⟩

theorem storeRecord_storage (h : k.kind ≠ .registry) :
    (storeRecord st r).storage k = st.storage k := by
  apply storeRecord_frame
  · rintro rfl; exact h rfl
  · rintro rfl; exact h rfl
  · rintro i rfl; exact h rfl

section
variable {st : StateDB} {idx : List Address} {r : ValidatorRecord}

theorem storeRecord_stakeOf (hr : r.Storable) (a : Address) :
    stakeOf (storeRecord st r) a = if a = r.address then r.stake else stakeOf st a := by
  split
  · rename_i ha
    rw [ha]
    exact stakeOf_ok (readValidatorRecord_store hr.fits.sized hr.pos hr.max)
  · rename_i ha
    simp only [stakeOf, readValidatorRecord_store_other ha]

theorem storeRecord_index (st : StateDB) (r : ValidatorRecord) (i : Nat) :
    (storeRecord st r).storage (validatorIndexSlot i) = st.storage (validatorIndexSlot i) := by
  apply storeRecord_frame <;>
    simp [validatorIndexSlot, validatorChunkCountSlot, validatorByteLengthSlot, validatorChunkSlot]

theorem storeRecord_count (st : StateDB) (r : ValidatorRecord) :
    validatorCount (storeRecord st r) = validatorCount st := by
  have : (storeRecord st r).storage validatorCountSlot = st.storage validatorCountSlot := by
    apply storeRecord_frame <;>
      simp [validatorCountSlot, validatorChunkCountSlot, validatorByteLengthSlot, validatorChunkSlot]
  rw [validatorCount, this, validatorCount]

theorem RegistryOk.store (h : RegistryOk st idx) (hr : r.Storable) (ha : r.address ∈ idx) :
    RegistryOk (storeRecord st r) idx ∧
      totalStake (storeRecord st r) idx + stakeOf st r.address = totalStake st idx + r.stake := by
  have hself : readValidatorRecord (storeRecord st r) r.address = .ok r :=
    readValidatorRecord_store hr.fits.sized hr.pos hr.max
  refine ⟨⟨?_, h.bound, ?_, h.nonzero, h.nodup, ?_, ?_⟩, ?_⟩
  · rw [storeRecord_count, h.count]
  · intro i a hi
    rw [storeRecord_index, h.entry i a hi]
  · intro a hm
    by_cases he : a = r.address
    · exact ⟨r, he ▸ hself, he.symm, hr.fits⟩
    · rw [readValidatorRecord_store_other he]
      exact h.record a hm
  · intro a q hq
    by_cases he : a = r.address
    · exact he ▸ ha
    · rw [readValidatorRecord_store_other he] at hq
      exact h.indexed a q hq
  · have hsum := sum_map_update (f := stakeOf st) (g := stakeOf (storeRecord st r)) h.nodup ha
      fun b hb => by rw [storeRecord_stakeOf hr, if_neg hb]
    rw [storeRecord_stakeOf hr, if_pos rfl] at hsum
    exact hsum

/-! ## Indexing a validator -/

theorem indexSlot_inj (hi : i < 2 ^ 64) (hj : j < 2 ^ 64) (h : validatorIndexSlot i = validatorIndexSlot j) :
    i = j := by
  have h : Bytes.be 8 i = Bytes.be 8 j := by simpa [validatorIndexSlot] using h
  exact Bytes.be_inj (by simpa using hi) (by simpa using hj) h

def appendIndex (st : StateDB) (a : Address) : StateDB :=
  (st.setState (validatorIndexSlot (validatorCount st)) (Hash.ofBytes a.bytes)).setState validatorCountSlot
    (uint64Hash (validatorCount st + 1))

theorem readValidatorRecord_appendIndex (st : StateDB) (a b : Address) :
    readValidatorRecord (appendIndex st a) b = readValidatorRecord st b := by
  apply readValidatorRecord_congr <;>
    simp [appendIndex, validatorChunkCountSlot, validatorByteLengthSlot, validatorChunkSlot, validatorIndexSlot,
      validatorCountSlot]

theorem indexValidator_mem (hc : validatorCount st = idx.length)
    (he : ∀ i b, idx[i]? = some b → st.storage (validatorIndexSlot i) = Hash.ofBytes b.bytes) :
    indexValidator st a = if a ∈ idx then st else appendIndex st a := by
  have hany : ((List.range (validatorCount st)).any fun i =>
      st.storage (validatorIndexSlot i) = Hash.ofBytes a.bytes) = true ↔ a ∈ idx := by
    simp only [any_eq_true, mem_range, decide_eq_true_eq, hc]
    constructor
    · rintro ⟨i, hi, heq⟩
      have hget : idx[i]? = some idx[i] := getElem?_eq_getElem hi
      rw [he i _ hget] at heq
      rw [← Address.word_inj heq]
      exact getElem_mem hi
    · intro ha
      obtain ⟨i, hi, rfl⟩ := mem_iff_getElem.mp ha
      exact ⟨i, hi, he i _ (getElem?_eq_getElem hi)⟩
  unfold indexValidator
  by_cases ha : a ∈ idx
  · rw [if_pos ha, if_pos (hany.mpr ha)]
  · rw [if_neg ha, if_neg (hany.not.mpr ha)]
    rfl

theorem appendIndex_entry (hc : validatorCount st = idx.length) (hb : idx.length < validatorMaxSetSize)
    (he : ∀ i b, idx[i]? = some b → st.storage (validatorIndexSlot i) = Hash.ofBytes b.bytes) (a : Address) :
    ∀ i b, (idx ++ [a])[i]? = some b → (appendIndex st a).storage (validatorIndexSlot i) = Hash.ofBytes b.bytes := by
  intro i b hi
  have hmax : validatorMaxSetSize = 4096 := rfl
  have hlen : i < (idx ++ [a]).length := (List.getElem?_eq_some_iff.mp hi).1
  rw [length_append, length_singleton] at hlen
  have hcount : validatorIndexSlot i ≠ validatorCountSlot := by simp [validatorIndexSlot, validatorCountSlot]
  rw [appendIndex, StateDB.setState_storage, update_of_ne hcount, StateDB.setState_storage, hc]
  by_cases hlt : i < idx.length
  · rw [getElem?_append_left hlt] at hi
    have hne : validatorIndexSlot i ≠ validatorIndexSlot idx.length := by
      intro h
      have := indexSlot_inj (by omega) (by omega) h
      omega
    rw [update_of_ne hne, he i b hi]
  · have heq : i = idx.length := by omega
    rw [heq, getElem?_append_right (Nat.le_refl _), Nat.sub_self] at hi
    rw [heq, update_self, Option.some.inj hi]

theorem stakeOf_append (hr : r.Storable) (a : Address) :
    stakeOf (appendIndex (storeRecord st r) r.address) a = if a = r.address then r.stake else stakeOf st a := by
  rw [← storeRecord_stakeOf hr, stakeOf, readValidatorRecord_appendIndex, stakeOf]

theorem RegistryOk.registerNew (h : RegistryOk st idx) (hr : r.Storable) (h0 : r.address ≠ 0) (ha : r.address ∉ idx)
    (hb : idx.length < validatorMaxSetSize) :
    RegistryOk (appendIndex (storeRecord st r) r.address) (idx ++ [r.address]) ∧
      totalStake (appendIndex (storeRecord st r) r.address) (idx ++ [r.address]) = totalStake st idx + r.stake := by
  have hc : validatorCount (storeRecord st r) = idx.length := by rw [storeRecord_count, h.count]
  have hmax : validatorMaxSetSize = 4096 := rfl
  refine ⟨⟨?_, ?_, ?_, ?_, ?_, ?_, ?_⟩, ?_⟩
  · rw [validatorCount, appendIndex, StateDB.setState_storage, update_self, hc,
      uint64FromHash_uint64Hash (by omega), length_append, length_singleton]
  · rw [length_append, length_singleton]
    exact hb
  · apply appendIndex_entry hc hb
    intro i b hi
    rw [storeRecord_index, h.entry i b hi]
  · intro a hm
    rcases mem_append.mp hm with hm | hm
    · exact h.nonzero a hm
    · rw [mem_singleton.mp hm]
      exact h0
  · refine nodup_append.mpr ⟨h.nodup, nodup_singleton _, ?_⟩
    rintro a hm b hb rfl
    exact ha (mem_singleton.mp hb ▸ hm)
  · intro a hm
    rw [readValidatorRecord_appendIndex]
    by_cases heq : a = r.address
    · rw [heq]
      exact ⟨r, readValidatorRecord_store hr.fits.sized hr.pos hr.max, rfl, hr.fits⟩
    · rw [readValidatorRecord_store_other heq]
      rcases mem_append.mp hm with hm | hm
      · exact h.record a hm
      · exact absurd (mem_singleton.mp hm) heq
  · intro a q hq
    rw [readValidatorRecord_appendIndex] at hq
    by_cases heq : a = r.address
    · simp [heq]
    · rw [readValidatorRecord_store_other heq] at hq
      exact mem_append.mpr (.inl (h.indexed a q hq))
  · have hold : idx.map (stakeOf (appendIndex (storeRecord st r) r.address)) = idx.map (stakeOf st) := by
      refine map_congr_left fun a hm => ?_
      have hne : a ≠ r.address := fun heq => ha (heq ▸ hm)
      rw [stakeOf_append hr, if_neg hne]
    rw [totalStake, map_append, hold, sum_append, map_singleton, sum_singleton, stakeOf_append hr,
      if_pos rfl, totalStake]

theorem RegistryOk.register (h : RegistryOk st idx) (hr : r.Storable) (h0 : r.address ≠ 0)
    (hz : stakeOf st r.address = 0) (hb : idx.length < validatorMaxSetSize) :
    ∃ idx', RegistryOk (indexValidator (storeRecord st r) r.address) idx' ∧
      totalStake (indexValidator (storeRecord st r) r.address) idx' = totalStake st idx + r.stake := by
  have hc : validatorCount (storeRecord st r) = idx.length := by rw [storeRecord_count, h.count]
  have he : ∀ i b, idx[i]? = some b → (storeRecord st r).storage (validatorIndexSlot i) = Hash.ofBytes b.bytes := by
    intro i b hi
    rw [storeRecord_index, h.entry i b hi]
  rw [indexValidator_mem hc he]
  by_cases ha : r.address ∈ idx
  · obtain ⟨hok, hsum⟩ := h.store hr ha
    rw [if_pos ha]
    exact ⟨idx, hok, by omega⟩
  · rw [if_neg ha]
    exact ⟨_, h.registerNew hr h0 ha hb⟩

end

/-! ## Operations -/

/-- What an accepted operation does: the registry stays well formed, the stakes grow
by at most `bond` over what the pool gains, and other books are untouched. -/
structure RegistryMove (bond : Nat) (idx : List Address) (st st' : StateDB) : Prop where
  registry : ∃ idx', RegistryOk st' idx' ∧ st.pool + totalStake st' idx' ≤ st'.pool + totalStake st idx + bond
  overdrawn : st'.poolOverdrawn = st.poolOverdrawn
  storage : ∀ k, k.kind ≠ .registry → k.kind ≠ .other → st'.storage k = st.storage k

theorem indexValidator_frame (st : StateDB) (a : Address) :
    Frame (fun k => k.kind = .registry) st (indexValidator st a) := by
  simp only [indexValidator]
  split
  · exact Frame.rfl
  · exact Frame.trans (Frame.setState (K := fun k => k.kind = .registry) rfl) (Frame.setState rfl)

theorem writeChunks_registryFrame (st : StateDB) (a : Address) (raw : Bytes) :
    ∀ n, Frame (fun k => k.kind = .registry) st (writeChunks st a raw n)
  | 0 => Frame.rfl
  | n + 1 => (writeChunks_registryFrame st a raw n).trans (Frame.setState rfl)

theorem storeRecord_registryFrame (st : StateDB) (r : ValidatorRecord) :
    Frame (fun k => k.kind = .registry) st (storeRecord st r) :=
  ((writeChunks_registryFrame st r.address _ _).trans (Frame.setState rfl)).trans (Frame.setState rfl)

def registeredRecord (num : Nat) (sender : Address) (e : ValidatorRegistration) : ValidatorRecord where
  version := e.version
  address := sender
  publicKey := e.publicKey
  rewardAddress := e.rewardAddress
  stake := validatorBondWei
  activationHeight := e.activationHeight.toNat
  registeredAt := num % 2 ^ 64

namespace ValidatorRecord

variable (r : ValidatorRecord) (num : Nat)

def exited : ValidatorRecord :=
  { r with exitHeight := num % 2 ^ 64, jailedUntil := (num + validatorUnbondingPeriod) % 2 ^ 64 }

def closed : ValidatorRecord := { r with stake := 0, exitHeight := num % 2 ^ 64, jailedUntil := num % 2 ^ 64 }

def slashed : ValidatorRecord :=
  { r with
    stake := 0, exitHeight := num % 2 ^ 64, jailedUntil := (num + validatorUnbondingPeriod) % 2 ^ 64,
    slashCount := (r.slashCount + 1) % 2 ^ 64 }

end ValidatorRecord

section
variable {st : StateDB} {idx : List Address}

theorem registeredRecord_fits (hv : e.version = validatorEnvelopeVersion) : (registeredRecord num sender e).Fits :=
  ⟨show e.version < 2 ^ 64 by rw [hv]; decide, show validatorBondWei < 2 ^ 256 by decide,
    e.activationHeight.toNat_lt, Nat.two_pow_pos _, Nat.two_pow_pos _, Nat.mod_lt _ (Nat.two_pow_pos _),
    Nat.two_pow_pos _⟩

namespace ValidatorRecord

variable {r : ValidatorRecord} (hf : r.Fits)
include hf

theorem exited_fits : (r.exited num).Fits :=
  ⟨hf.version, hf.stake, hf.activationHeight, Nat.mod_lt _ (Nat.two_pow_pos _), Nat.mod_lt _ (Nat.two_pow_pos _),
    hf.registeredAt, hf.slashCount⟩

theorem closed_fits : (r.closed num).Fits :=
  ⟨hf.version, Nat.two_pow_pos _, hf.activationHeight, Nat.mod_lt _ (Nat.two_pow_pos _),
    Nat.mod_lt _ (Nat.two_pow_pos _), hf.registeredAt, hf.slashCount⟩

theorem slashed_fits : (r.slashed num).Fits :=
  ⟨hf.version, Nat.two_pow_pos _, hf.activationHeight, Nat.mod_lt _ (Nat.two_pow_pos _),
    Nat.mod_lt _ (Nat.two_pow_pos _), hf.registeredAt, Nat.mod_lt _ (Nat.two_pow_pos _)⟩

end ValidatorRecord

theorem processValidatorRegistration_iff : processValidatorRegistration B cfg num time tx st = (.ok (), st') ↔
    ∃ sender e, validateValidatorRegistrationBasics B cfg num time tx = .ok () ∧
      B.sender cfg num time tx = .ok sender ∧ decodeValidatorRegistration B tx.data = .ok e ∧
      validateValidatorRegistrationState B st sender tx.data (num % 2 ^ 64) = .ok () ∧
      validatorRegistrationFeeWei ≤ (st.balance sender).toNat ∧
      (chunkCount (encodeValidatorRecord (registeredRecord num sender e)) ≠ 0 ∧
        chunkCount (encodeValidatorRecord (registeredRecord num sender e)) ≤ 256) ∧
      st' = indexValidator (storeRecord (st.subBalance sender (BitVec.ofNat 256 validatorRegistrationFeeWei))
        (registeredRecord num sender e)) sender := by
  simp only [processValidatorRegistration, Proc.run_rules, failIf_ok, Nat.not_lt]
  constructor
  · rintro ⟨hbasics, sender, hsend, hstate, e, he, hfee, _, hwrite, rfl⟩
    obtain ⟨hc, rfl⟩ := writeValidatorRecord_iff.mp hwrite
    exact ⟨sender, e, hbasics, hsend, he, hstate, hfee, hc, rfl⟩
  · rintro ⟨sender, e, hbasics, hsend, he, hstate, hfee, hc, rfl⟩
    exact ⟨hbasics, sender, hsend, hstate, e, he, hfee, _, writeValidatorRecord_iff.mpr ⟨hc, rfl⟩, rfl⟩

theorem processValidatorAction_exit_iff (hx : hasValidatorExitPrefix tx.data = true) :
    processValidatorAction B cfg num time tx st = (.ok (), st') ↔
      ∃ sender r, validateValidatorActionBasics B cfg num time tx = .ok () ∧ B.sender cfg num time tx = .ok sender ∧
        readValidatorRecord st sender = .ok r ∧ (r.stake ≠ 0 ∧ r.exitHeight = 0) ∧ r.publicKey = tx.publicKey ∧
        (chunkCount (encodeValidatorRecord (r.exited num)) ≠ 0 ∧
          chunkCount (encodeValidatorRecord (r.exited num)) ≤ 256) ∧
        st' = storeRecord st (r.exited num) := by
  simp only [processValidatorAction, Proc.run_rules, failIf_ok, hx, if_true, writeValidatorRecord_iff, not_not]
  constructor
  · rintro ⟨hbasics, sender, hsend, hstate, r, hread, hkey, hc, rfl⟩
    simp only [validateValidatorActionState, hread, hx, if_true, failIf_ok, not_or, not_not] at hstate
    exact ⟨sender, r, hbasics, hsend, hread, hstate, hkey, hc, rfl⟩
  · rintro ⟨sender, r, hbasics, hsend, hread, hstate, hkey, hc, rfl⟩
    refine ⟨hbasics, sender, hsend, ?_, r, hread, hkey, hc, rfl⟩
    simp only [validateValidatorActionState, hread, hx, if_true, failIf_ok, not_or, not_not]
    exact hstate

theorem processValidatorAction_withdrawal_iff (hx : hasValidatorExitPrefix tx.data = false) :
    processValidatorAction B cfg num time tx st = (.ok (), st') ↔
      ∃ sender r, validateValidatorActionBasics B cfg num time tx = .ok () ∧ B.sender cfg num time tx = .ok sender ∧
        readValidatorRecord st sender = .ok r ∧ hasValidatorWithdrawalPrefix tx.data = true ∧
        (r.stake ≠ 0 ∧ r.exitHeight ≠ 0 ∧
          (r.exitHeight + validatorUnbondingPeriod) % 2 ^ 64 ≤ num % 2 ^ 64) ∧ r.publicKey = tx.publicKey ∧
        r.stake ≤ st.pool ∧
        (chunkCount (encodeValidatorRecord (r.closed num)) ≠ 0 ∧
          chunkCount (encodeValidatorRecord (r.closed num)) ≤ 256) ∧
        st' = storeRecord ((st.subBalance poolAddress (BitVec.ofNat 256 r.stake)).addBalance sender
          (BitVec.ofNat 256 r.stake)) (r.closed num) := by
  simp only [processValidatorAction, Proc.run_rules, failIf_ok, hx, Bool.false_eq_true, if_false,
    writeValidatorRecord_iff, not_not, Nat.not_lt]
  constructor
  · rintro ⟨hbasics, sender, hsend, hstate, r, hread, hkey, hpool, hc, rfl⟩
    simp only [validateValidatorActionState, hread, hx, Bool.false_eq_true, if_false] at hstate
    split at hstate
    · rename_i hw
      simp only [failIf_ok, not_or, Nat.not_lt] at hstate
      exact ⟨sender, r, hbasics, hsend, hread, hw, hstate, hkey, hpool, hc, rfl⟩
    · cases hstate
  · rintro ⟨sender, r, hbasics, hsend, hread, hw, hstate, hkey, hpool, hc, rfl⟩
    refine ⟨hbasics, sender, hsend, ?_, r, hread, hkey, hpool, hc, rfl⟩
    simp only [validateValidatorActionState, hread, hx, Bool.false_eq_true, if_false, hw, if_true, failIf_ok, not_or,
      Nat.not_lt]
    exact hstate

theorem processValidatorSlash_iff : processValidatorSlash B cfg num time tx st = (.ok (), st') ↔
    ∃ e r, validateValidatorSlashBasics B cfg num time tx = .ok () ∧ decodeValidatorSlash B tx.data = .ok e ∧
      readValidatorRecord st e.validator = .ok r ∧ r.publicKey = e.publicKey ∧
      st.storage (validatorEvidenceSlot (B.keccak256 tx.data)) = 0 ∧ (0 < r.stake → r.stake ≤ st.pool) ∧
      (chunkCount (encodeValidatorRecord (r.slashed num)) ≠ 0 ∧
        chunkCount (encodeValidatorRecord (r.slashed num)) ≤ 256) ∧
      st' = (storeRecord (if 0 < r.stake then st.subBalance poolAddress (BitVec.ofNat 256 r.stake) else st)
        (r.slashed num)).setState (validatorEvidenceSlot (B.keccak256 tx.data)) tx.hash := by
  simp only [processValidatorSlash, Proc.run_rules, failIf_ok, not_and, not_not, Nat.not_lt]
  constructor
  · rintro ⟨hbasics, e, he, r, hread, hkey, hnew, hpool, _, hwrite, rfl⟩
    obtain ⟨hc, rfl⟩ := writeValidatorRecord_iff.mp hwrite
    exact ⟨e, r, hbasics, he, hread, hkey, hnew, hpool, hc, rfl⟩
  · rintro ⟨e, r, hbasics, he, hread, hkey, hnew, hpool, hc, rfl⟩
    exact ⟨hbasics, e, he, r, hread, hkey, hnew, hpool, _, writeValidatorRecord_iff.mpr ⟨hc, rfl⟩, rfl⟩

theorem validatorRegistrationBasics_ok
    (hs : B.sender cfg num time tx = .ok sender) (he : decodeValidatorRegistration B tx.data = .ok e)
    (h : validateValidatorRegistrationBasics B cfg num time tx = .ok u) :
    tx.toAddr = some poolAddress ∧ tx.value = validatorBondWei ∧ e.version = validatorEnvelopeVersion ∧ sender ≠ 0 := by
  simp only [validateValidatorRegistrationBasics, ok_rules, he, hs, Except.ok.injEq] at h
  obtain ⟨_, _, _, hval, _, rfl, _, hrew, _, _, _, _, _, rfl, hsend⟩ := h
  simp only [not_or, not_not] at hval hrew hsend
  simp only [toPool, Bool.and_eq_true, decide_eq_true_eq] at hval
  exact ⟨hval.1.1.2, hval.2, hrew.1, hsend.2 ▸ hrew.2.1⟩

theorem processValidatorRegistration_ok (hok : RegistryOk st idx)
    (h : processValidatorRegistration B cfg num time tx st = (.ok (), st')) :
    tx.toAddr = some poolAddress ∧ tx.value = validatorBondWei ∧ RegistryMove validatorBondWei idx st st' := by
  obtain ⟨sender, e, hbasics, hsend, he, hstate, _, hc, rfl⟩ := processValidatorRegistration_iff.mp h
  obtain ⟨hto, hval, hver, h0⟩ := validatorRegistrationBasics_ok hsend he hbasics
  simp only [validateValidatorRegistrationState, ok_rules, he, Except.ok.injEq] at hstate
  obtain ⟨_, rfl, _, hzero, _, hroom, _⟩ := hstate
  have hpool := B.sender_ne_pool _ _ _ _ _ hsend
  generalize hfee : st.subBalance sender (BitVec.ofNat 256 validatorRegistrationFeeWei) = paid
  have hstore : paid.storage = st.storage := by rw [← hfee]; rfl
  obtain ⟨hpaid, htotal⟩ := hok.congr (t := paid) fun k _ => congrFun hstore k
  have hr : (registeredRecord num sender e).Storable := ⟨registeredRecord_fits hver, hc.1, hc.2⟩
  have hz : stakeOf paid sender = 0 := by
    have : readValidatorRecord paid sender = readValidatorRecord st sender :=
      readValidatorRecord_congr (congrFun hstore _) (congrFun hstore _) fun i _ => congrFun hstore _
    rw [stakeOf, this, ← stakeOf]
    omega
  have hlen : idx.length < validatorMaxSetSize := by rw [hok.count] at hroom; omega
  obtain ⟨idx', hok', hsum⟩ := hpaid.register hr h0 hz hlen
  have hframe := (storeRecord_registryFrame paid (registeredRecord num sender e)).trans
    (indexValidator_frame (storeRecord paid (registeredRecord num sender e)) sender)
  have hp : paid.pool = st.pool := by rw [← hfee, StateDB.pool_subBalance_ne hpool]
  have hbond : (registeredRecord num sender e).stake = validatorBondWei := rfl
  refine ⟨hto, hval, ⟨idx', hok', ?_⟩, ?_, fun k hk _ => ?_⟩
  · have hsum : totalStake (indexValidator (storeRecord paid (registeredRecord num sender e)) sender) idx' =
        totalStake paid idx + (registeredRecord num sender e).stake := hsum
    rw [hframe.pool, hp, hsum, htotal, hbond]
    omega
  · rw [hframe.poolOverdrawn, ← hfee, StateDB.overdrawn_subBalance_ne hpool]
  · rw [hframe.storage k hk, hstore]

theorem RegistryOk.pay (hok : RegistryOk st idx)
    (hread : readValidatorRecord st a = .ok r) (hr : r'.Storable) (haddr : r'.address = r.address)
    (hstake : r'.stake + v = r.stake) (hstore : paid.storage = st.storage) (hpool : st.pool ≤ paid.pool + v)
    (hover : paid.poolOverdrawn = st.poolOverdrawn) :
    RegistryMove 0 idx st (storeRecord paid r') := by
  obtain ⟨hmem, ha, _⟩ := hok.of_read hread
  rw [ha] at haddr
  obtain ⟨hpaid, htotal⟩ := hok.congr (t := paid) fun k _ => congrFun hstore k
  obtain ⟨hok', hsum⟩ := hpaid.store hr (haddr ▸ hmem)
  have hold : stakeOf paid r'.address = r.stake := by
    have : readValidatorRecord paid r'.address = readValidatorRecord st a :=
      haddr ▸ readValidatorRecord_congr (congrFun hstore _) (congrFun hstore _) fun i _ => congrFun hstore _
    exact stakeOf_ok (this.trans hread)
  have hframe := storeRecord_registryFrame paid r'
  refine ⟨⟨idx, hok', ?_⟩, hframe.poolOverdrawn.trans hover, fun k hk _ => ?_⟩
  · rw [hframe.pool]
    omega
  · rw [hframe.storage k hk, hstore]

theorem validatorActionBasics_value (h : validateValidatorActionBasics B cfg num time tx = .ok u) :
    tx.value = 0 := by
  simp only [validateValidatorActionBasics, ok_rules, not_not] at h
  obtain ⟨_, _, _, hval, _⟩ := h
  exact hval.2

theorem processValidatorAction_ok (hok : RegistryOk st idx)
    (h : processValidatorAction B cfg num time tx st = (.ok (), st')) :
    tx.value = 0 ∧ RegistryMove 0 idx st st' := by
  cases hexit : hasValidatorExitPrefix tx.data with
  | true =>
    obtain ⟨sender, r, hbasics, _, hread, _, _, hc, rfl⟩ := (processValidatorAction_exit_iff hexit).mp h
    have hfits := (hok.of_read hread).2.2
    exact ⟨validatorActionBasics_value hbasics, hok.pay (v := 0) hread ⟨ValidatorRecord.exited_fits hfits, hc.1, hc.2⟩
      rfl rfl rfl (Nat.le_refl _) rfl⟩
  | false =>
    obtain ⟨sender, r, hbasics, hsend, hread, _, _, _, henough, hc, rfl⟩ :=
      (processValidatorAction_withdrawal_iff hexit).mp h
    have hfits := (hok.of_read hread).2.2
    have hpool := B.sender_ne_pool _ _ _ _ _ hsend
    have hword : (BitVec.ofNat 256 r.stake).toNat = r.stake := Nat.mod_eq_of_lt hfits.stake
    have hle : (BitVec.ofNat 256 r.stake).toNat ≤ st.pool := by omega
    have hsub := StateDB.pool_subBalance hle
    refine ⟨validatorActionBasics_value hbasics, hok.pay hread ⟨ValidatorRecord.closed_fits hfits, hc.1, hc.2⟩ rfl
      (Nat.zero_add _) rfl ?_ ?_⟩
    · rw [StateDB.pool_addBalance_ne hpool]
      omega
    · rw [StateDB.addBalance_poolOverdrawn, StateDB.overdrawn_subBalance hle]

theorem RegistryMove.setOther (h : RegistryMove bond idx st st')
    (hk : k.kind = .other) : RegistryMove bond idx st (st'.setState k v) := by
  have hstore : ∀ j : Slot, j.kind ≠ .other → (st'.setState k v).storage j = st'.storage j := by
    intro j hj
    have hne : j ≠ k := fun he => hj (he ▸ hk)
    exact update_of_ne hne _ _
  obtain ⟨idx', hok', hsum⟩ := h.registry
  obtain ⟨hok'', htotal⟩ := hok'.congr (t := st'.setState k v) fun j hj => hstore j (by simp [hj])
  refine ⟨⟨idx', hok'', ?_⟩, h.overdrawn, fun j hr ho => ?_⟩
  · rw [htotal]
    exact hsum
  · rw [hstore j ho, h.storage j hr ho]

theorem processValidatorSlash_ok (hok : RegistryOk st idx)
    (h : processValidatorSlash B cfg num time tx st = (.ok (), st')) : tx.value = 0 ∧ RegistryMove 0 idx st st' := by
  obtain ⟨e, r, hbasics, _, hread, _, _, henough, hc, rfl⟩ := processValidatorSlash_iff.mp h
  simp only [validateValidatorSlashBasics, ok_rules, not_not] at hbasics
  obtain ⟨_, _, _, hval, _⟩ := hbasics
  have hfits := (hok.of_read hread).2.2
  have hword : (BitVec.ofNat 256 r.stake).toNat = r.stake := Nat.mod_eq_of_lt hfits.stake
  have hle : (BitVec.ofNat 256 r.stake).toNat ≤ st.pool := by omega
  have hsub := StateDB.pool_subBalance hle
  refine ⟨hval.2, RegistryMove.setOther (hok.pay hread ⟨ValidatorRecord.slashed_fits hfits, hc.1, hc.2⟩ rfl
    (Nat.zero_add _) ?_ ?_ ?_) rfl⟩
  · split <;> rfl
  · split <;> omega
  · split
    · exact StateDB.overdrawn_subBalance hle
    · rfl

end

end TkmChain
