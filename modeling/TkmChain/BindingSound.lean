import TkmChain.AtomicSound
import TkmChain.TipTreesSound

/-!
# The registry of recipient bindings

Every stamp owner may bind one key commitment. The bindings enter a book, in the
order of the owner index, and the tree over their leaves is the Merkle tree over
the book, so the path of a binding can be read at any later time.
-/

namespace TkmChain

open Proc List

open Merkle

def LeafCanonical (B : Backend) : Prop :=
  ∀ chain owner commitment d, B.bindingLeaf chain owner commitment = .ok d → d.canonical = true

/-! ## The slots of the registry -/

def BindingSlot : Slot → Prop
  | .v3 .bindingCount _ | .v3 .bindingOwnerIndex _ | .v3 .bindingRoot _ | .v3 .bindingNodePresent _ => True
  | .v3 (.half .bindingCommitment _) _ | .v3 (.half .bindingCurrentRoot _) _ | .v3 (.half .bindingNode _) _ => True
  | _ => False

def bindingOwnerSlot (owner : Digest) : Slot := .v3 .bindingOwnerIndex owner.bytes

theorem bindingTree_node (h : bindingTree.Node k) : BindingSlot k := by
  rcases h with ⟨b, key, rfl⟩ | ⟨key, rfl⟩
  · trivial
  · trivial

theorem stampSlot_not_binding (h : StampSlot k) : ¬ BindingSlot k := by
  intro hk
  unfold StampSlot at h
  split at h
  · exact hk
  · exact hk
  · exact hk
  · exact hk
  · exact h

section
variable {B : Backend}

theorem processShieldedV6Binding_slots (tx : Tx) (sender : Address) (e : ShieldedV6Transaction) :
    Moves (Frame BindingSlot) (processShieldedV6Binding B tx sender e) := by
  unfold processShieldedV6Binding
  repeat refine Moves.read_bind fun _ => ?_
  refine Moves.bind (Moves.orRevert ?_) fun current => ?_
  · exact (climb_nodes B bindingTree _ _ _ _ _).mono fun _ _ h => h.mono fun _ => bindingTree_node
  refine Moves.bind (Moves.modify fun st => Frame.setState trivial) fun _ => ?_
  refine Moves.bind (Moves.modify fun st => Frame.v3WriteDigest fun _ => trivial) fun _ => ?_
  apply Moves.modify
  intro st
  exact (Frame.setStates (by simp [BindingSlot])).trans (Frame.v3WriteDigest fun _ => trivial)

theorem processAntarticalStamp_bindings (cfg : ChainConfig) (num time : Nat) (tx : Tx) :
    Moves (Frame fun k => ¬ BindingSlot k) (processAntarticalStamp B cfg num time tx) := by
  have happend : ∀ chain owner, Moves (Frame fun k => ¬ BindingSlot k)
      (appendAntarticalStamp B chain owner tx.hash) := by
    intro chain owner
    unfold appendAntarticalStamp
    repeat refine Moves.read_bind fun _ => ?_
    refine Moves.bind ?_ fun current => Moves.modify fun st => ?_
    · refine (climb_nodes B stampTree _ _ _ _ _).mono fun _ _ h => h.mono ?_
      rintro k (⟨b, key, rfl⟩ | ⟨key, rfl⟩)
      · exact id
      · exact id
    · exact (Frame.setStates (by simp [BindingSlot])).trans (Frame.v3WriteDigest fun _ => id)
  unfold processAntarticalStamp
  refine Moves.read_bind fun _ => ?_
  refine Moves.read_bind fun sender => ?_
  refine Moves.read_bind fun e => ?_
  refine Moves.read_bind fun a => ?_
  refine Moves.read_bind fun _ => ?_
  refine Moves.read_bind fun existing => ?_
  refine Moves.ite (Moves.pure ()) ?_
  refine Moves.read_bind fun _ => ?_
  refine Moves.bind (Moves.orRevert (happend _ _)) fun _ => Moves.modify fun st => ?_
  have hnonce : Frame (fun k => ¬ BindingSlot k) st
      (if st.nonce poolAddress = 0 then st.setNonce poolAddress 1 else st) := by
    split
    · exact ⟨rfl, rfl, fun _ _ => rfl, rfl⟩
    · exact Frame.rfl
  refine hnonce.trans ((Frame.setState id).trans ((Frame.v3WriteDigest fun _ => id).trans (Frame.setStates ?_)))
  simp [BindingSlot]

/-! ## One registration -/

structure BindingEffect (st st' : StateDB) (owner commitment r : Digest) (txHash : Hash) (n : Nat) : Prop where
  index : st'.storage (bindingOwnerSlot owner) = uint64Hash (n + 1)
  indexFrame : ∀ d, d ≠ owner → st'.storage (bindingOwnerSlot d) = st.storage (bindingOwnerSlot d)
  commitment : commitment.canonical = true → v3ReadDigest st' .bindingCommitment owner.bytes = .ok commitment
  commitmentFrame : ∀ d, d ≠ owner →
    v3ReadDigest st' .bindingCommitment d.bytes = v3ReadDigest st .bindingCommitment d.bytes
  count : st'.storage (.v3 .bindingCount []) = uint64Hash (n + 1)
  root : st'.storage (.v3 .bindingRoot r.bytes) = txHash
  rootFrame : ∀ key, key ≠ r.bytes → st'.storage (.v3 .bindingRoot key) = st.storage (.v3 .bindingRoot key)
  current : r.canonical = true → v3ReadDigest st' .bindingCurrentRoot [] = .ok r

theorem processShieldedV6Binding_ok (h : processShieldedV6Binding B tx sender e st = (.ok (), st')) :
    ∃ b leaf zeroes r s, e.binding = some b ∧
      validateShieldedV6BindingRegistration st sender b.commitment = .ok b.owner ∧
      B.bindingLeaf (tx.chainId % 2 ^ 64) b.owner b.commitment = .ok leaf ∧ v3Zeroes B = .ok zeroes ∧
      climb B bindingTree zeroes merkleDepth 0 (shieldedV6BindingCount st) leaf st = (.ok r, s) ∧
      (∀ k, bindingTree.Node k → st'.storage k = s.storage k) ∧
      BindingEffect st st' b.owner b.commitment r tx.hash (shieldedV6BindingCount st) := by
  simp only [processShieldedV6Binding, run_rules, orRevert_ok, orFail_ok, failIf_ok,
    not_not] at h
  obtain ⟨b, hb, owner, hvalid, rfl, leaf, hleaf, zeroes, hz, n, hn, r, s, hclimb, rfl⟩ := h
  obtain rfl : shieldedV6BindingCount _ = n := Except.ok.inj hn
  have hframe := (climb_nodes B bindingTree zeroes _ _ _ _).ok hclimb
  refine ⟨b, leaf, zeroes, r, s, hb, hvalid, hleaf, hz, hclimb, ?_, ?_⟩
  · rintro k (⟨b, key, rfl⟩ | ⟨key, rfl⟩)
    · simp [v3WriteDigest, StateDB.setStates, bindingTree]
    · simp [v3WriteDigest, StateDB.setStates, bindingTree]
  · have hold : ∀ {r : Role} {key : Bytes}, (∀ b, r ≠ .half .bindingNode b) → r ≠ .bindingNodePresent →
        s.storage (.v3 r key) = _ := fun h h' => hframe.storage _ (TreeRoles.not_node h h')
    constructor
    · simp [v3WriteDigest, StateDB.setStates, bindingOwnerSlot]
    · intro d hne
      have hkey : d.bytes ≠ b.owner.bytes := fun h => hne (Digest.bytes_inj h)
      simp [v3WriteDigest, StateDB.setStates, bindingOwnerSlot, Function.update_of_ne, hkey, hold]
    · intro hc
      apply v3ReadDigest_of_slots hc <;> simp [v3WriteDigest, StateDB.setStates]
    · intro d hne
      have hkey : d.bytes ≠ b.owner.bytes := fun h => hne (Digest.bytes_inj h)
      apply v3ReadDigest_congr
      intro half
      simp [v3WriteDigest, StateDB.setStates, Function.update_of_ne, hkey, hold]
    · simp [v3WriteDigest, StateDB.setStates]
    · simp [v3WriteDigest, StateDB.setStates]
    · intro key hkey
      simp [v3WriteDigest, StateDB.setStates, Function.update_of_ne, hkey, hold]
    · intro hc
      apply v3ReadDigest_of_slots hc <;> simp [v3WriteDigest, StateDB.setStates]

theorem registration_ok (h : validateShieldedV6BindingRegistration st sender commitment = .ok owner) :
    stampOf st sender owner ∧ st.storage (bindingOwnerSlot owner) = 0 ∧ shieldedV6BindingCount st < 2 ^ merkleDepth ∧
      commitment.canonical = true := by
  simp only [validateShieldedV6BindingRegistration, ok_rules, not_or, not_not, Nat.not_le] at h
  obtain ⟨stamp, hstamp, _, ⟨hregistered, _⟩, _, hfree, _, hroom, _, hvalid, rfl⟩ := h
  refine ⟨?_, hfree, hroom, ?_⟩
  · rw [antarticalStampForAddress] at hstamp
    split at hstamp
    · rename_i hstamped
      simp only [ok_rules] at hstamp
      obtain ⟨owner, howner, rfl⟩ := hstamp
      exact ⟨hstamped, howner⟩
    · cases hstamp
      cases hregistered
  · rw [validDigest, Bool.and_eq_true] at hvalid
    cases hd : digestFromBytes commitment.bytes with
    | error err =>
      rw [hd] at hvalid
      cases hvalid.1
    | ok d => exact (digestFromBytes_bytes.mp hd).2

/-! ## The book of bindings -/

def bindingLeafOf (B : Backend) (chain : Nat) (p : Digest × Digest) : Digest :=
  match B.bindingLeaf chain p.1 p.2 with
  | .ok d => d
  | .error _ => 0

/-- The registry holds the bindings of `book`, owner and commitment, in the order of the owner index. -/
structure BindingBook (B : Backend) (chain : Nat) (st : StateDB) (book : List (Digest × Digest)) : Prop where
  leaf : ∀ p ∈ book, B.bindingLeaf chain p.1 p.2 = .ok (bindingLeafOf B chain p)
  stored : ∀ zeroes, v3Zeroes B = .ok zeroes → Stored B bindingTree st zeroes (book.map (bindingLeafOf B chain))
  zeroes : book ≠ [] → ∃ zeroes, v3Zeroes B = .ok zeroes
  room : book.length ≤ 2 ^ merkleDepth
  count : st.storage (.v3 .bindingCount []) = uint64Hash book.length
  owners : (book.map (·.1)).Nodup
  index : ∀ i p, book[i]? = some p → st.storage (bindingOwnerSlot p.1) = uint64Hash (i + 1)
  free : ∀ d, d ∉ book.map (·.1) → st.storage (bindingOwnerSlot d) = 0
  commitments : ∀ p ∈ book, v3ReadDigest st .bindingCommitment p.1.bytes = .ok p.2
  current : book ≠ [] → ∃ r, v3ReadDigest st .bindingCurrentRoot [] = .ok r ∧
    root B.hashPair 0 merkleDepth (book.map (bindingLeafOf B chain)) = .ok r
  known : RootsKnown B .bindingRoot st (book.map (bindingLeafOf B chain))

namespace BindingBook

variable {chain : Nat} {st st' : StateDB} {book : List (Digest × Digest)} {owner commitment leaf r : Digest} {txHash : Hash}

theorem nil (h : ∀ k, BindingSlot k → st.storage k = 0) : BindingBook B chain st [] where
  leaf := nofun
  stored zeroes hz := Stored.nil hz fun _ => h _ trivial
  zeroes hne := absurd rfl hne
  room := by simp
  count := h _ trivial
  owners := nodup_nil
  index := nofun
  free _ _ := h _ trivial
  commitments := nofun
  current hne := absurd rfl hne
  known p hp hne := absurd (prefix_nil.mp hp) hne

section
variable (h : BindingBook B chain st book)
include h

theorem congr (hs : ∀ k, BindingSlot k → st'.storage k = st.storage k) :
    BindingBook B chain st' book where
  leaf := h.leaf
  stored zeroes hz := (h.stored zeroes hz).congr fun k hk => hs k (bindingTree_node hk)
  zeroes := h.zeroes
  room := h.room
  count := (hs (.v3 .bindingCount []) trivial).trans h.count
  owners := h.owners
  index i p hp := (hs (bindingOwnerSlot p.1) trivial).trans (h.index i p hp)
  free d hd := (hs (bindingOwnerSlot d) trivial).trans (h.free d hd)
  commitments p hp :=
    (v3ReadDigest_congr fun b => hs (.v3 (.half .bindingCommitment b) p.1.bytes) trivial).trans (h.commitments p hp)
  current hne := by
    rw [v3ReadDigest_congr fun b => hs (.v3 (.half .bindingCurrentRoot b) []) trivial]
    exact h.current hne
  known p hp hne := by
    obtain ⟨r, hr, hknown⟩ := h.known p hp hne
    refine ⟨r, hr, ?_⟩
    rw [hs (.v3 .bindingRoot r.bytes) trivial]
    exact hknown

theorem bindingCount : shieldedV6BindingCount st = book.length := by
  have hroom := h.room
  rw [merkleDepth] at hroom
  rw [shieldedV6BindingCount, h.count, uint64FromHash_uint64Hash (by omega)]

theorem ownerIndex (hi : book[i]? = some p) :
    uint64FromHash (st.storage (bindingOwnerSlot p.1)) = i + 1 := by
  have hroom := h.room
  have hlt := (List.getElem?_eq_some_iff.mp hi).1
  rw [merkleDepth] at hroom
  rw [h.index i p hi, uint64FromHash_uint64Hash (by omega)]

end

theorem leaves_canonical (hleaf : LeafCanonical B) (h : ∀ p ∈ book, B.bindingLeaf chain p.1 p.2 = .ok (bindingLeafOf B chain p)) :
    ∀ d ∈ book.map (bindingLeafOf B chain), d.canonical = true := by
  intro d hd
  obtain ⟨p, hp, rfl⟩ := mem_map.mp hd
  exact hleaf _ _ _ _ (h p hp)

theorem append (hB : HashCanonical B) (hcanon : LeafCanonical B) (h : BindingBook B chain st book)
    {zeroes : List Digest} {s : StateDB} (hleaf : B.bindingLeaf chain owner commitment = .ok leaf)
    (hz : v3Zeroes B = .ok zeroes) (hclimb : climb B bindingTree zeroes merkleDepth 0 book.length leaf st = (.ok r, s))
    (hnodes : ∀ k, bindingTree.Node k → st'.storage k = s.storage k)
    (heffect : BindingEffect st st' owner commitment r txHash book.length) (htx : txHash ≠ 0)
    (hfree : st.storage (bindingOwnerSlot owner) = 0) (hroom : book.length < 2 ^ merkleDepth)
    (hc : commitment.canonical = true) : BindingBook B chain st' (book ++ [(owner, commitment)]) := by
  have hlen : book.length < 2 ^ 32 := hroom
  have hof : bindingLeafOf B chain (owner, commitment) = leaf := by
    rw [bindingLeafOf, hleaf]
  have hnew : owner ∉ book.map (·.1) := by
    intro hmem
    obtain ⟨p, hp, rfl⟩ := mem_map.mp hmem
    obtain ⟨i, hi⟩ := mem_iff_getElem?.mp hp
    have := h.ownerIndex hi
    rw [hfree] at this
    simp [uint64FromHash] at this
  have hold : ∀ {p}, p ∈ book → p.1 ≠ owner := fun hp heq => hnew (heq ▸ mem_map_of_mem hp)
  have hleaves : ∀ p ∈ book ++ [(owner, commitment)], B.bindingLeaf chain p.1 p.2 = .ok (bindingLeafOf B chain p) := by
    intro p hp
    rcases mem_append.mp hp with hp | hp
    · exact h.leaf p hp
    · rw [mem_singleton.mp hp, hof]
      exact hleaf
  have hmap : (book ++ [(owner, commitment)]).map (bindingLeafOf B chain) = book.map (bindingLeafOf B chain) ++ [leaf] := by
    rw [map_append, map_singleton, hof]
  have hcanonical := leaves_canonical hcanon hleaves
  rw [← length_map (f := bindingLeafOf B chain)] at hclimb hroom
  rw [hmap] at hcanonical
  obtain ⟨hstored, hroot⟩ := (h.stored zeroes hz).append hB bindingTree_separate hcanonical hroom hclimb
  constructor
  · exact hleaves
  · intro zeroes' hz'
    obtain rfl : zeroes' = zeroes := Except.ok.inj (hz'.symm.trans hz)
    rw [hmap]
    exact hstored.congr hnodes
  · exact fun _ => ⟨zeroes, hz⟩
  · rw [length_append, length_singleton]
    exact hlen
  · rw [heffect.count, length_append, length_singleton]
  · rw [map_append, map_singleton, nodup_append]
    refine ⟨h.owners, nodup_singleton _, ?_⟩
    intro a ha b hb heq
    rw [heq, mem_singleton.mp hb] at ha
    exact hnew ha
  · intro i p hi
    rcases getElem?_concat_cases hi with hi | ⟨rfl, rfl⟩
    · rw [heffect.indexFrame p.1 (hold (mem_of_getElem? hi)), h.index i p hi]
    · exact heffect.index
  · intro d hd
    rw [map_append, mem_append, not_or] at hd
    rw [heffect.indexFrame d (by simpa using hd.2), h.free d hd.1]
  · intro p hp
    rcases mem_append.mp hp with hp | hp
    · rw [heffect.commitmentFrame p.1 (hold hp), h.commitments p hp]
    · rw [mem_singleton.mp hp]
      exact heffect.commitment hc
  · intro _
    rw [hmap]
    exact ⟨r, heffect.current (node_canonical hB hcanonical hroot), hroot⟩
  · rw [hmap]
    exact h.known.append hroot heffect.root htx heffect.rootFrame

/-! ### What is read from the registry -/

section
variable (h : BindingBook B chain st book)
include h

theorem root_iff :
    shieldedV6BindingRoot B st = .ok d ↔ root B.hashPair 0 merkleDepth (book.map (bindingLeafOf B chain)) = .ok d := by
  rw [shieldedV6BindingRoot, h.bindingCount]
  by_cases hne : book = []
  · subst hne
    rw [length_nil, if_pos rfl, v3Zeroes_root]
    rfl
  · obtain ⟨r, hread, hroot⟩ := h.current hne
    rw [if_neg (by simpa using hne), hread, hroot]

theorem path (hp : (owner, commitment) ∈ book) :
    ∃ w d, shieldedV6BindingPath B st owner = .ok w ∧ w.found = true ∧ w.commitment = commitment ∧
      B.bindingLeaf chain owner commitment = .ok d ∧ w.path.length = merkleDepth ∧
      shieldedV6BindingRoot B st = .ok w.root ∧ fold B.hashPair w.index w.path d = .ok w.root := by
  have hne : book ≠ [] := ne_nil_of_mem hp
  obtain ⟨zeroes, hz⟩ := h.zeroes hne
  obtain ⟨i, hi⟩ := mem_iff_getElem?.mp hp
  have hlt : i < book.length := (List.getElem?_eq_some_iff.mp hi).1
  have hindex : uint64FromHash (st.storage (.v3 .bindingOwnerIndex owner.bytes)) = i + 1 := h.ownerIndex hi
  have hleaf : (book.map (bindingLeafOf B chain))[i]? = some (bindingLeafOf B chain (owner, commitment)) := by
    rw [getElem?_map, hi, Option.map_some]
  have hroom : (book.map (bindingLeafOf B chain)).length ≤ 2 ^ merkleDepth := by
    rw [length_map]
    exact h.room
  obtain ⟨path, r, hpath, hlen, hroot, hfold⟩ := (h.stored zeroes hz).path hleaf hroom
  refine ⟨⟨commitment, i, r, path, true⟩, _, ?_, rfl, rfl, h.leaf _ hp, hlen, h.root_iff.mpr hroot, hfold⟩
  rw [shieldedV6BindingPath, hindex]
  simp only [Nat.add_eq_zero_iff, one_ne_zero, and_false, if_false, Nat.add_sub_cancel, ok_rules, Nat.not_lt,
    h.bindingCount]
  exact ⟨(), hlt, commitment, h.commitments _ hp, zeroes, hz, path, hpath, r, h.root_iff.mpr hroot, rfl⟩

theorem path_none (hd : owner ∉ book.map (·.1)) :
    shieldedV6BindingPath B st owner = .ok {} := by
  have hfree : st.storage (.v3 .bindingOwnerIndex owner.bytes) = 0 := h.free owner hd
  rw [shieldedV6BindingPath, hfree]
  rfl

theorem index_iff :
    (n ≠ 0 ∧ ∃ d, uint64FromHash (st.storage (bindingOwnerSlot d)) = n) ↔ 1 ≤ n ∧ n ≤ shieldedV6BindingCount st := by
  rw [h.bindingCount]
  constructor
  · rintro ⟨hne, d, rfl⟩
    by_cases hd : d ∈ book.map (·.1)
    · obtain ⟨p, hp, rfl⟩ := mem_map.mp hd
      obtain ⟨i, hi⟩ := mem_iff_getElem?.mp hp
      have hlt := (List.getElem?_eq_some_iff.mp hi).1
      rw [h.ownerIndex hi]
      omega
    · rw [h.free d hd] at hne
      exact absurd rfl hne
  · rintro ⟨hpos, hle⟩
    have hget : book[n - 1]? = some (book[n - 1]) := getElem?_eq_getElem (by omega)
    refine ⟨by omega, _, (h.ownerIndex hget).trans ?_⟩
    omega

end

end BindingBook

/-! ## Runs -/

/-- Blocks with the bindings registered in them. Stamp registrations, accepted or not, rejected V6 transactions, and
steps that keep the slots of both registries may stand anywhere. -/
inductive BindingRun (B : Backend) (cfg : ChainConfig) (st : StateDB) : List (Digest × Digest) → StateDB → Prop
  | refl : BindingRun B cfg st [] st
  | registered {book : List (Digest × Digest)} {w w' : World} {tx : Tx} {e : ShieldedV6Transaction}
      {b : ShieldedV6BindingRegistration} (num time : Nat) (h : BindingRun B cfg st book w.st)
      (hd : decodeShieldedV6Transaction B tx.data = .ok (some e)) (hv : e.version = shieldedV6BindingVersion)
      (hb : e.binding = some b) (hrun : processShieldedV6 B cfg num time tx w = (.ok (), w')) :
      BindingRun B cfg st (book ++ [(b.owner, b.commitment)]) w'.st
  | stamped {book : List (Digest × Digest)} {st₁ : StateDB} (num time : Nat) (tx : Tx) (h : BindingRun B cfg st book st₁) :
      BindingRun B cfg st book (processAntarticalStamp B cfg num time tx st₁).2
  | rejected {book : List (Digest × Digest)} {w w' : World} {tx : Tx} {err : Err} (num time : Nat)
      (h : BindingRun B cfg st book w.st) (hrun : processShieldedV6 B cfg num time tx w = (.error err, w')) :
      BindingRun B cfg st book w'.st
  | other {book : List (Digest × Digest)} {st₁ st₂ : StateDB} (h : BindingRun B cfg st book st₁)
      (hs : ∀ k, StampSlot k ∨ BindingSlot k → st₂.storage k = st₁.storage k) : BindingRun B cfg st book st₂

structure Registries (B : Backend) (chain : Nat) (st : StateDB) (stamps : List (Address × Digest))
    (book : List (Digest × Digest)) : Prop where
  stampBook : StampBook st stamps
  bindingBook : BindingBook B chain st book
  stamped : ∀ p ∈ book, p.1 ∈ stamps.map (·.2)

variable {chain : Nat}

theorem processShieldedV6_binding (hchain : cfg.chainID = some chain)
    (hd : decodeShieldedV6Transaction B tx.data = .ok (some e)) (hv : e.version = shieldedV6BindingVersion)
    (h : processShieldedV6 B cfg num time tx w = (.ok (), w')) :
    tx.chainId % 2 ^ 64 = chain ∧ ∃ sender, processShieldedV6Binding B tx sender e w.st = (.ok (), w'.st) := by
  simp only [processShieldedV6, run_rules] at h
  obtain ⟨_, e', he, sender, _, _, h⟩ := h
  simp only [shieldedV6Basics, ok_rules, not_not] at he
  obtain ⟨_, _, _, _, _, _, _, hid, _, hd', e'', rfl, he⟩ := he
  obtain rfl : e = e'' := Option.some.inj (Except.ok.inj (hd.symm.trans hd'))
  rw [hchain] at hid
  split at he
  · simp only [ok_rules] at he
    obtain ⟨_, _, _, hbasics, _, _, rfl⟩ := he
    simp only [validateShieldedV6BindingBasics, ok_rules, not_or, Nat.not_le] at hbasics
    obtain ⟨_, ⟨_, _, _, hsmall, _⟩, _⟩ := hbasics
    rw [if_pos hv] at h
    obtain ⟨st', hrun, rfl⟩ := zoom_ok.mp h
    exact ⟨by rw [Nat.mod_eq_of_lt hsmall]; exact Option.some.inj hid, sender, hrun⟩
  · simp only [ok_rules, not_or, not_not] at he
    obtain ⟨_, ⟨hsix, _⟩, _⟩ := he
    rw [hsix] at hv
    cases hv

theorem BindingRun.registries (hB : HashCanonical B) (hcanon : LeafCanonical B) (hchain : cfg.chainID = some chain)
    (h : Registries B chain st stamps book) (hrun : BindingRun B cfg st more st') :
    ∃ stamps', Registries B chain st' (stamps ++ stamps') (book ++ more) := by
  induction hrun with
  | refl =>
    refine ⟨[], ?_⟩
    rw [append_nil, append_nil]
    exact h
  | registered num time _ hd hv hb hrun ih =>
    obtain ⟨stamps', hreg⟩ := ih
    obtain ⟨hid, sender, hbind⟩ := processShieldedV6_binding hchain hd hv hrun
    have hframe := (processShieldedV6Binding_slots _ sender _).ok hbind
    obtain ⟨b, leaf, zeroes, r, s, hb', hvalid, hleaf, hz, hclimb, hnodes, heffect⟩ := processShieldedV6Binding_ok hbind
    obtain rfl : b = _ := Option.some.inj (hb'.symm.trans hb)
    obtain ⟨hstamp, hfree, hroom, hc⟩ := registration_ok hvalid
    rw [hid] at hleaf
    rw [hreg.bindingBook.bindingCount] at hclimb heffect hroom
    have hbook := hreg.bindingBook.append hB hcanon hleaf hz hclimb hnodes heffect (Tx.hash_ne _) hfree hroom hc
    refine ⟨stamps', hreg.stampBook.congr fun k hk => hframe.storage k (stampSlot_not_binding hk), ?_, ?_⟩
    · rw [← append_assoc]
      exact hbook
    · intro p hp
      rw [← append_assoc] at hp
      rcases mem_append.mp hp with hp | hp
      · exact hreg.stamped p hp
      · rw [mem_singleton.mp hp]
        exact mem_map_of_mem (hreg.stampBook.stampOf_iff.mp hstamp)
  | @stamped _ st₁ num time tx _ ih =>
    obtain ⟨stamps', hreg⟩ := ih
    have hstep : StampStep B cfg st₁ _ := .process num time tx st₁
    obtain ⟨added, hstamps⟩ := hreg.stampBook.step hstep
    refine ⟨stamps' ++ added, ?_, ?_, ?_⟩
    · rw [← append_assoc]
      exact hstamps
    · refine hreg.bindingBook.congr fun k hk => ?_
      exact (processAntarticalStamp_bindings cfg num time tx _).storage k (not_not.mpr hk)
    · intro p hp
      rw [← append_assoc, map_append]
      exact mem_append_left _ (hreg.stamped p hp)
  | rejected num time _ hrun ih =>
    rw [processShieldedV6_atomic B cfg num time _ _ _ _ hrun]
    exact ih
  | other _ hs ih =>
    obtain ⟨stamps', hreg⟩ := ih
    exact ⟨stamps', hreg.stampBook.congr fun k hk => hs k (.inl hk), hreg.bindingBook.congr fun k hk => hs k (.inr hk),
      hreg.stamped⟩

/-- In every later state: an owner has one binding at most, the owner indices are the numbers from one to the count,
every bound owner has a stamp and a path that folds from its leaf to the current root, other owners are not found, and
the root after any registration is known. -/
theorem binding_registry (hB : HashCanonical B) (hleaf : LeafCanonical B) (hchain : cfg.chainID = some chain)
    {st₀ st st' : StateDB} {book more : List (Digest × Digest)}
    (hstart : ∀ k, StampSlot k ∨ BindingSlot k → st₀.storage k = 0) (hrun : BindingRun B cfg st₀ book st)
    (hlater : BindingRun B cfg st more st') :
    ((book ++ more).map (·.1)).Nodup ∧ shieldedV6BindingCount st' = (book ++ more).length ∧
      (∀ n, (n ≠ 0 ∧ ∃ d : Digest, uint64FromHash (st'.storage (.v3 .bindingOwnerIndex d.bytes)) = n) ↔
        1 ≤ n ∧ n ≤ shieldedV6BindingCount st') ∧
      (∀ p ∈ book ++ more, ∃ a, stampOf st' a p.1) ∧
      (∀ p ∈ book ++ more, ∃ w d, shieldedV6BindingPath B st' p.1 = .ok w ∧ w.found = true ∧ w.commitment = p.2 ∧
        B.bindingLeaf chain p.1 p.2 = .ok d ∧ w.path.length = merkleDepth ∧
        shieldedV6BindingRoot B st' = .ok w.root ∧ fold B.hashPair w.index w.path d = .ok w.root) ∧
      (∀ d, d ∉ (book ++ more).map (·.1) → ∃ w, shieldedV6BindingPath B st' d = .ok w ∧ w.found = false) ∧
      (book ≠ [] → ∀ r, shieldedV6BindingRoot B st = .ok r → st'.storage (.v3 .bindingRoot r.bytes) ≠ 0) := by
  have hnil : Registries B chain st₀ [] [] :=
    ⟨StampBook.empty fun k hk => hstart k (.inl hk), BindingBook.nil fun k hk => hstart k (.inr hk), nofun⟩
  obtain ⟨stamps, hreg⟩ := hrun.registries hB hleaf hchain hnil
  obtain ⟨stamps', hreg'⟩ := hlater.registries hB hleaf hchain hreg
  rw [nil_append] at hreg hreg'
  have hbook := hreg'.bindingBook
  refine ⟨hbook.owners, hbook.bindingCount, fun n => hbook.index_iff, ?_, fun p hp => hbook.path hp, ?_, ?_⟩
  · intro p hp
    obtain ⟨⟨a, d⟩, hmem, heq⟩ := mem_map.mp (hreg'.stamped p hp)
    obtain rfl : d = p.1 := heq
    exact ⟨a, hreg'.stampBook.stampOf_iff.mpr hmem⟩
  · intro d hd
    exact ⟨_, hbook.path_none hd, rfl⟩
  · intro hne r hr
    have hprefix : book.map (bindingLeafOf B chain) <+: (book ++ more).map (bindingLeafOf B chain) := by
      rw [map_append]
      exact prefix_append _ _
    obtain ⟨r', hr', hknown⟩ := hbook.known _ hprefix (by simpa using hne)
    obtain rfl : r = r' := Except.ok.inj ((hreg.bindingBook.root_iff.mp hr).symm.trans hr')
    exact hknown

end

/-! ## The root of the empty registry -/

/-- Hashes to ones unless both sides are zero, and decodes every V6 body as the binding of the owner it stamps. -/
def bindingBackend : Backend := { stampingBackend with
  hashPair := fun a b => if a = 0 ∧ b = 0 then .ok 0 else .ok ⟨Vector.replicate 5 1⟩
  bindingLeaf := fun _ _ _ => .ok ⟨Vector.replicate 5 3⟩
  preflightV6 := fun _ => true
  decodeV6 := fun _ => some
    { version := shieldedV6BindingVersion, assetID := assetTKM, deposit := false, depositMask := 0,
      withdrawalRecipient := 0, withdrawalValue := none, inputs := [], outputs := [], rangeProof := [],
      recipients := none, binding := some ⟨⟨Vector.replicate 5 1⟩, ⟨Vector.replicate 5 2⟩, [1]⟩,
      validUntil := mainnetShieldedV2Time + 60 } }

theorem bindingBackend_hash : HashCanonical bindingBackend := by
  intro a b d h
  have hsplit : (if a = 0 ∧ b = 0 then Except.ok 0 else .ok ⟨Vector.replicate 5 1⟩ : Except Err Digest) = .ok d := h
  split at hsplit
  · cases hsplit
    exact canonical_zero
  · cases hsplit
    decide +kernel

theorem bindingBackend_leaf : LeafCanonical bindingBackend := by
  intro chain owner commitment d h
  cases h
  decide +kernel

def bindingConfig : ChainConfig := { antarticalConfig false with
  shield6Time := some 0
  shield6RecipientTime := some 0
  shield6RegistrationKey := [1]
  shield6RegistrationKeyHash := 1 }

def bindingTx : Tx := { stampTx with
  hash := 2
  hash_ne := by decide
  data := Bytes.ofText shieldedV6Magic }

def bindingWorld : World where
  st := (processAntarticalStamp bindingBackend bindingConfig 1 mainnetShieldedV2Time stampTx emptyState).2
  seen := ∅

def boundWorld : World := (processShieldedV6 bindingBackend bindingConfig 1 mainnetShieldedV2Time bindingTx bindingWorld).2

theorem boundWorld_run :
    BindingRun bindingBackend bindingConfig emptyState [(⟨Vector.replicate 5 1⟩, ⟨Vector.replicate 5 2⟩)] boundWorld.st := by
  have hrun : processShieldedV6 bindingBackend bindingConfig 1 mainnetShieldedV2Time bindingTx bindingWorld =
      (.ok (), boundWorld) := ok_of_isOk (by decide +kernel)
  have hstamp : BindingRun bindingBackend bindingConfig emptyState [] bindingWorld.st :=
    .stamped 1 mainnetShieldedV2Time stampTx .refl
  exact .registered 1 mainnetShieldedV2Time hstamp rfl rfl rfl hrun

/-- A stamped account binds a key; the later registry still finds it. -/
theorem binding_registry_one : ∃ w, shieldedV6BindingPath bindingBackend boundWorld.st ⟨Vector.replicate 5 1⟩ = .ok w ∧
    w.found = true ∧ w.commitment = ⟨Vector.replicate 5 2⟩ := by
  obtain ⟨_, _, _, _, hpath, _⟩ := binding_registry bindingBackend_hash bindingBackend_leaf rfl (fun _ _ => rfl)
    boundWorld_run .refl
  obtain ⟨w, _, hw, hfound, hcommitment, _⟩ := hpath (⟨Vector.replicate 5 1⟩, ⟨Vector.replicate 5 2⟩) (by simp)
  exact ⟨w, hw, hfound, hcommitment⟩

/-- The root of the empty registry is current at the start and is not known, then or after a registration. -/
theorem empty_binding_root_unknown : ∃ st r,
    BindingRun bindingBackend bindingConfig emptyState [(⟨Vector.replicate 5 1⟩, ⟨Vector.replicate 5 2⟩)] st ∧
      shieldedV6BindingRoot bindingBackend emptyState = .ok r ∧ emptyState.storage (.v3 .bindingRoot r.bytes) = 0 ∧
      st.storage (.v3 .bindingRoot r.bytes) = 0 :=
  ⟨boundWorld.st, 0, boundWorld_run, by decide, rfl, by decide +kernel⟩

end TkmChain
