import TkmChain.AccumulatorSound
import TkmChain.AtomicSound

/-!
# V6 key images and rings

The spent key images are kept twice, by image and by running number. Both follow
the history of accepted transactions, and so does the output accumulator the
rings are drawn from, which only grows.
-/

namespace TkmChain

open Proc List

section
def V6Role.image : V6Role → Bool
  | .keyImage | .keyImageCount | .keyImageIndex => true
  | _ => false

/-! ## The list of spent images -/

structure KeyImages (B : Backend) (st : StateDB) (spent : List (Hash × Hash)) : Prop where
  room : spent.length < 2 ^ 64
  count : st.storage (.v6 .keyImageCount []) = uint64Hash spent.length
  nodup : (spent.map Prod.fst).Nodup
  index : ∀ i p, spent[i]? = some p → st.storage (.v6 .keyImageIndex (shieldedV6IndexKey i)) = p.1
  valid : ∀ p ∈ spent, B.validPublicKey p.1 = true
  marked : ∀ p ∈ spent, st.storage (.v6 .keyImage p.1.bytes) = p.2 ∧ p.2 ≠ 0
  free : ∀ image, image ∉ spent.map Prod.fst → st.storage (.v6 .keyImage image.bytes) = 0

namespace KeyImages

theorem nil (h : ∀ r key, st.storage (.v6 r key) = 0) : KeyImages B st [] where
  room := by simp
  count := h _ _
  nodup := nodup_nil
  index := by simp
  valid := by simp
  marked := by simp
  free _ _ := h _ _

section
variable (h : KeyImages B st spent)
include h

theorem congr (hkept : ∀ r key, r.image = true → st'.storage (.v6 r key) = st.storage (.v6 r key)) : KeyImages B st' spent where
  room := h.room
  count := (hkept _ _ rfl).trans h.count
  nodup := h.nodup
  index i p hi := (hkept _ _ rfl).trans (h.index i p hi)
  valid := h.valid
  marked p hp := ⟨(hkept _ _ rfl).trans (h.marked p hp).1, (h.marked p hp).2⟩
  free image hfree := (hkept _ _ rfl).trans (h.free image hfree)

theorem keyImageCount : shieldedV6KeyImageCount st = spent.length := by
  rw [shieldedV6KeyImageCount, h.count, uint64FromHash_uint64Hash h.room]

theorem at_index (hi : spent[i]? = some p) :
    shieldedV6KeyImageAt B st i = .ok p.1 := by
  have hlt := (List.getElem?_eq_some_iff.mp hi).1
  have hvalid := h.valid p (mem_of_getElem? hi)
  simp only [shieldedV6KeyImageAt, ok_rules, h.keyImageCount, h.index i p hi]
  exact ⟨(), Nat.not_le.mpr hlt, (), not_not.mpr hvalid, trivial⟩

theorem transaction_ne_zero (image : Hash) :
    shieldedV6KeyImageTransaction B st image ≠ 0 ↔ image ∈ spent.map Prod.fst := by
  rw [shieldedV6KeyImageTransaction]
  constructor
  · intro hne
    by_contra hfree
    rw [h.free image hfree, ite_self] at hne
    exact hne rfl
  · intro hmem
    obtain ⟨p, hp, rfl⟩ := mem_map.mp hmem
    rw [if_pos (h.valid p hp), (h.marked p hp).1]
    exact (h.marked p hp).2

theorem append (hrun : shieldedV6AppendKeyImage B image txHash st = (.ok (), st')) :
    KeyImages B st' (spent ++ [(image, txHash)]) ∧
      ∀ r key, r.image = false → st'.storage (.v6 r key) = st.storage (.v6 r key) := by
  simp only [shieldedV6AppendKeyImage, run_rules, ok_rules, not_or, not_not] at hrun
  obtain ⟨⟨⟨hvalid, htx⟩, hunspent, hfull⟩, rfl⟩ := hrun
  rw [h.keyImageCount] at hfull ⊢
  have hroom := h.room
  have hnew : image ∉ spent.map Prod.fst := by
    intro hmem
    obtain ⟨p, hp, rfl⟩ := mem_map.mp hmem
    rw [(h.marked p hp).1] at hunspent
    exact (h.marked p hp).2 hunspent
  have hother : ∀ {other : Hash}, other ≠ image → other.bytes ≠ image.bytes := fun hne heq => hne (Hash.bytes_inj heq)
  constructor
  · constructor
    · rw [length_append, length_singleton]
      omega
    · simp [StateDB.setStates]
    · rw [map_append, map_singleton]
      rw [nodup_append]
      refine ⟨h.nodup, nodup_singleton _, ?_⟩
      intro a ha b hb heq
      rw [heq, mem_singleton.mp hb] at ha
      exact hnew ha
    · intro i p hi
      rcases Merkle.getElem?_concat_cases hi with hi | ⟨rfl, rfl⟩
      · have hlt := (List.getElem?_eq_some_iff.mp hi).1
        have hkey : shieldedV6IndexKey i ≠ shieldedV6IndexKey spent.length := by
          intro heq
          have := Bytes.be_inj (by omega) (by omega) heq
          omega
        simp [StateDB.setStates, Function.update_of_ne, hkey, h.index i p hi]
      · simp [StateDB.setStates]
    · intro p hp
      rcases mem_append.mp hp with hp | hp
      · exact h.valid p hp
      · rw [mem_singleton.mp hp]
        exact hvalid
    · intro p hp
      rcases mem_append.mp hp with hp | hp
      · have hne : p.1 ≠ image := fun heq => hnew (heq ▸ mem_map_of_mem hp)
        refine ⟨?_, (h.marked p hp).2⟩
        simp [StateDB.setStates, Function.update_of_ne, hother hne, (h.marked p hp).1]
      · rw [mem_singleton.mp hp]
        simpa [StateDB.setStates] using htx
    · intro other hfree
      rw [map_append, mem_append, not_or] at hfree
      have hne : other ≠ image := fun heq => hfree.2 (by simp [heq])
      simp [StateDB.setStates, Function.update_of_ne, hother hne, h.free other hfree.1]
  · intro r key hr
    have hindex : r ≠ .keyImageIndex := by rintro rfl; cases hr
    have hcount : r ≠ .keyImageCount := by rintro rfl; cases hr
    have himage : r ≠ .keyImage := by rintro rfl; cases hr
    simp [StateDB.setStates, hindex, hcount, himage]

end

theorem each (h : KeyImages B st spent)
    (hrun : Proc.each (fun input : ShieldedV6Input => shieldedV6AppendKeyImage B input.keyImage txHash) inputs st =
      (.ok (), st')) :
    KeyImages B st' (spent ++ inputs.map fun input => (input.keyImage, txHash)) ∧
      ∀ r key, r.image = false → st'.storage (.v6 r key) = st.storage (.v6 r key) := by
  induction inputs generalizing st spent with
  | nil =>
    obtain ⟨_, rfl⟩ := pure_ok.mp hrun
    rw [map_nil, append_nil]
    exact ⟨h, fun _ _ _ => rfl⟩
  | cons input inputs ih =>
    rw [Proc.each, bind_ok] at hrun
    obtain ⟨_, st₁, hfirst, hrest⟩ := hrun
    obtain ⟨h₁, hkept₁⟩ := h.append hfirst
    obtain ⟨h₂, hkept₂⟩ := ih h₁ hrest
    rw [append_assoc] at h₂
    exact ⟨h₂, fun r key hr => (hkept₂ r key hr).trans (hkept₁ r key hr)⟩

end KeyImages

/-! ## The accumulator -/

namespace Accumulator

theorem congr (h : Accumulator B st outputs)
    (hkept : ∀ r key, r.image = false → st'.storage (.v6 r key) = st.storage (.v6 r key)) : Accumulator B st' outputs where
  room := h.room
  count := (hkept _ _ rfl).trans h.count
  frontier k hk hbit := by
    rw [h.frontier k hk hbit, v6Front, v6Front, shieldedV6FrontierSlot, hkept _ _ rfl]
  start hnil := (hkept _ _ rfl).trans (h.start hnil)
  root hne := by rw [h.root hne, hkept _ _ rfl]
  stored i output hi := by rw [hkept _ _ rfl, hkept _ _ rfl]; exact h.stored i output hi
  valid := h.valid
  index i output hi := (hkept _ _ rfl).trans (h.index i output hi)
  free key hkey := (hkept _ _ rfl).trans (h.free key hkey)

theorem images_kept (h : Accumulator B st outputs) (output : ShieldedV6Output) (txHash : Hash) (r : V6Role)
    (key : Bytes) (hr : r.image = true) :
    (outputAppended B output txHash st).storage (.v6 r key) = st.storage (.v6 r key) := by
  obtain ⟨_, hframe⟩ := h.climb output
  rw [outputAppended, h.outputCount]
  rw [← hframe (.v6 r key) fun k _ heq => by
    rw [(Slot.v6.inj heq).1] at hr
    cases hr]
  cases r with
  | keyImage | keyImageCount | keyImageIndex => simp [StateDB.setStates]
  | _ => cases hr

theorem each (h : Accumulator B st outputs)
    (hrun : Proc.each (fun output => shieldedV6AppendOutput B output txHash) added st = (.ok (), st')) :
    Accumulator B st' (outputs ++ added) ∧
      ∀ r key, r.image = true → st'.storage (.v6 r key) = st.storage (.v6 r key) := by
  induction added generalizing st outputs with
  | nil =>
    obtain ⟨_, rfl⟩ := pure_ok.mp hrun
    rw [append_nil]
    exact ⟨h, fun _ _ _ => rfl⟩
  | cons output added ih =>
    rw [Proc.each, bind_ok] at hrun
    obtain ⟨_, st₁, hfirst, hrest⟩ := hrun
    obtain ⟨hcheck, rfl⟩ := shieldedV6AppendOutput_ok.mp hfirst
    obtain ⟨h₂, hkept⟩ := ih (h.append hcheck txHash) hrest
    rw [append_assoc] at h₂
    exact ⟨h₂, fun r key hr => (hkept r key hr).trans (h.images_kept output txHash r key hr)⟩

theorem read_iff (h : Accumulator B st outputs) :
    shieldedV6ReadOutput st i = .ok member ↔ member.oneTimeKey ≠ 0 ∧ member.commitment ≠ 0 ∧
      ∃ output, outputs[i]? = some output ∧ member = ⟨output.oneTimeKey, output.commitment⟩ := by
  simp only [shieldedV6ReadOutput, ok_rules, h.outputCount, Nat.not_le, not_or]
  constructor
  · rintro ⟨_, hi, _, ⟨hkey, hcommitment⟩, rfl⟩
    obtain ⟨hk, hc⟩ := h.stored i _ (getElem?_eq_getElem hi)
    exact ⟨hkey, hcommitment, _, getElem?_eq_getElem hi, by rw [hk, hc]⟩
  · rintro ⟨hkey, hcommitment, output, hi, rfl⟩
    obtain ⟨hk, hc⟩ := h.stored i _ hi
    rw [hk, hc]
    exact ⟨(), (List.getElem?_eq_some_iff.mp hi).1, (), ⟨hkey, hcommitment⟩, rfl⟩

end Accumulator

/-! ## One accepted transaction -/

def RingRead (st : StateDB) : List Nat → List RingMember → Prop :=
  List.Forall₂ fun index member => index < shieldedV6OutputCount st ∧ shieldedV6ReadOutput st index = .ok member

theorem ringMembers_ok (h : ringMembers st i j indices = .ok members) : RingRead st indices members := by
  induction indices generalizing j members with
  | nil =>
    cases h
    exact .nil
  | cons index rest ih =>
    simp only [ringMembers, ok_rules, Nat.not_le] at h
    obtain ⟨_, hlt, member, hread, members, hrest, rfl⟩ := h
    exact .cons ⟨hlt, hread⟩ (ih hrest)

def RingVerified (B : Backend) (st : StateDB) (intent : Hash) (input : ShieldedV6Input) : Prop :=
  ∃ members, RingRead st input.ringIndices members ∧
    B.verifyCLSAG intent members input.keyImage input.pseudoOutput input.signature = .ok ()

theorem checkV6Spends_ok
    (h : checkV6Spends B st intent i seen inputs = .ok ()) : ∀ input ∈ inputs, RingVerified B st intent input := by
  induction inputs generalizing i seen with
  | nil => simp
  | cons input rest ih =>
    simp only [checkV6Spends, ok_rules] at h
    obtain ⟨members, hmembers, _, _, _, _, _, hverify, hrest⟩ := h
    intro other hmem
    rcases mem_cons.mp hmem with rfl | hmem
    · exact ⟨members, ringMembers_ok hmembers, hverify⟩
    · exact ih hrest other hmem

/-- What an accepted V6 transaction did: its outputs, then its images, and nothing else to V6 slots. -/
structure V6Effect (B : Backend) (tx : Tx) (e : ShieldedV6Transaction) (st st' : StateDB) : Prop where
  appended : ∃ st₁ st₂,
    Proc.each (fun output => shieldedV6AppendOutput B output tx.hash) e.outputs st = (.ok (), st₁) ∧
    Proc.each (fun input : ShieldedV6Input => shieldedV6AppendKeyImage B input.keyImage tx.hash) e.inputs st₁ =
      (.ok (), st₂) ∧ ∀ r key, st'.storage (.v6 r key) = st₂.storage (.v6 r key)
  rings : ∀ input ∈ e.inputs, ∃ intent, B.intentV6 tx e = .ok intent ∧ RingVerified B st intent input

theorem shieldedV6Basics_cases (h : shieldedV6Basics B cfg num time tx = .ok e) :
    decodeShieldedV6Transaction B tx.data = .ok (some e) ∧
      (e.version = shieldedV6BindingVersion ∧ e.inputs = [] ∧ e.outputs = [] ∨
        e.version ≠ shieldedV6BindingVersion ∧ ∃ bound, v6Transfer B cfg num time bound tx e = .ok ()) := by
  simp only [shieldedV6Basics, ok_rules] at h
  obtain ⟨_, _, _, _, _, _, _, _, _, hd, e', rfl, h⟩ := h
  split at h
  · simp only [ok_rules] at h
    obtain ⟨_, _, h⟩ := h
    split at h
    · rename_i hv
      simp only [ok_rules] at h
      obtain ⟨_, hbinding, _, _, rfl⟩ := h
      simp only [validateShieldedV6BindingBasics, ok_rules, not_or, not_not] at hbinding
      obtain ⟨_, ⟨hshape, _⟩, _⟩ := hbinding
      simp only [validShieldedV6BindingShape, Bool.and_eq_true, List.isEmpty_iff] at hshape
      exact ⟨hd, .inl ⟨hv, hshape.1.1.2, hshape.1.2⟩⟩
    · rename_i hv
      simp only [ok_rules] at h
      obtain ⟨_, _, _, htransfer, rfl⟩ := h
      exact ⟨hd, .inr ⟨hv, true, htransfer⟩⟩
  · simp only [ok_rules, not_or, not_not] at h
    obtain ⟨_, ⟨hv, _⟩, _, htransfer, rfl⟩ := h
    refine ⟨hd, .inr ⟨?_, false, htransfer⟩⟩
    rw [hv]
    decide

theorem processShieldedV6Binding_v3 (tx : Tx) (sender : Address) (e : ShieldedV6Transaction) :
    Moves (Frame fun k => ∃ r key, k = .v3 r key) (processShieldedV6Binding B tx sender e) := by
  unfold processShieldedV6Binding
  refine Moves.read_bind fun b => ?_
  refine Moves.read_bind fun owner => ?_
  refine Moves.read_bind fun _ => ?_
  refine Moves.read_bind fun leaf => ?_
  refine Moves.read_bind fun zeroes => ?_
  refine Moves.read_bind fun index => ?_
  refine Moves.bind (Moves.orRevert ?_) fun current => ?_
  · refine (climb_nodes B bindingTree zeroes _ _ _ _).mono fun s t hframe => hframe.mono ?_
    rintro k (⟨b, key, rfl⟩ | ⟨key, rfl⟩)
    · exact ⟨_, _, rfl⟩
    · exact ⟨_, _, rfl⟩
  refine Moves.bind (Moves.modify fun st => Frame.setState ⟨_, _, rfl⟩) fun _ => ?_
  refine Moves.bind (Moves.modify fun st => Frame.v3WriteDigest fun _ => ⟨_, _, rfl⟩) fun _ => ?_
  apply Moves.modify
  intro st
  exact (Frame.setStates (by simp)).trans (Frame.v3WriteDigest fun _ => ⟨_, _, rfl⟩)

theorem applyV6_ok (h : applyV6 B tx e ledger w = (.ok (), w')) : ∃ st₁ st₂,
      Proc.each (fun output => shieldedV6AppendOutput B output tx.hash) e.outputs w.st = (.ok (), st₁) ∧
      Proc.each (fun input : ShieldedV6Input => shieldedV6AppendKeyImage B input.keyImage tx.hash) e.inputs st₁ =
        (.ok (), st₂) ∧ ∀ r key, w'.st.storage (.v6 r key) = st₂.storage (.v6 r key) := by
  simp only [applyV6, run_rules, World.onState, zoom_ok, orRevert_ok] at h
  obtain ⟨_, ⟨st₂, ⟨st₁, houtputs, hinputs⟩, rfl⟩, rfl⟩ := h
  refine ⟨st₁, st₂, houtputs, hinputs, fun r key => ?_⟩
  simp only [World.mapState, release_storage, markInputs_st]
  exact (commitOption_frame assetTKM ledger st₂).storage (.v6 r key) (by simp [Slot.kind])

theorem processShieldedV6_effect (h : processShieldedV6 B cfg num time tx w = (.ok (), w')) :
    ∃ e, decodeShieldedV6Transaction B tx.data = .ok (some e) ∧ V6Effect B tx e w.st w'.st := by
  simp only [processShieldedV6, run_rules] at h
  obtain ⟨_, e, he, sender, _, _, h⟩ := h
  obtain ⟨hd, hcases⟩ := shieldedV6Basics_cases he
  refine ⟨e, hd, ?_⟩
  cases hcases with
  | inl hbinding =>
    obtain ⟨hv, hinputs, houtputs⟩ := hbinding
    rw [if_pos hv] at h
    obtain ⟨st', hrun, rfl⟩ := zoom_ok.mp h
    have hframe := (processShieldedV6Binding_v3 tx sender e).ok hrun
    constructor
    · rw [hinputs, houtputs]
      refine ⟨_, _, rfl, rfl, fun r key => hframe.storage _ ?_⟩
      rintro ⟨_, _, heq⟩
      cases heq
    · simp [hinputs]
  | inr htransfer =>
    obtain ⟨hv, -⟩ := htransfer
    simp only [if_neg hv, run_rules] at h
    obtain ⟨_, _, hstate, _, ledger, _, happ⟩ := h
    refine ⟨applyV6_ok happ, ?_⟩
    simp only [validateShieldedV6State, if_neg hv, ok_rules] at hstate
    obtain ⟨_, _, _, _, intent, hintent, hspends⟩ := hstate
    exact fun input hmem => ⟨intent, hintent, checkV6Spends_ok hspends input hmem⟩

/-! ## Runs -/

/-- Any blocks with the V6 transactions accepted in them. Rejected ones and steps that keep the V6 slots, such as the
start of a block or transactions of other kinds, may stand anywhere. -/
inductive V6Steps (B : Backend) : World → List (Tx × ShieldedV6Transaction) → World → Prop
  | refl (w : World) : V6Steps B w [] w
  | accepted {w w₁ w₂ : World} {history : List (Tx × ShieldedV6Transaction)} {tx : Tx} {e : ShieldedV6Transaction}
      (cfg : ChainConfig) (num time : Nat) (h : V6Steps B w history w₁)
      (hd : decodeShieldedV6Transaction B tx.data = .ok (some e))
      (hrun : processShieldedV6 B cfg num time tx w₁ = (.ok (), w₂)) : V6Steps B w (history ++ [(tx, e)]) w₂
  | rejected {w w₁ w₂ : World} {history : List (Tx × ShieldedV6Transaction)} {tx : Tx} {err : Err}
      (cfg : ChainConfig) (num time : Nat) (h : V6Steps B w history w₁)
      (hrun : processShieldedV6 B cfg num time tx w₁ = (.error err, w₂)) : V6Steps B w history w₂
  | other {w w₁ w₂ : World} {history : List (Tx × ShieldedV6Transaction)} (h : V6Steps B w history w₁)
      (hkept : ∀ r key, w₂.st.storage (.v6 r key) = w₁.st.storage (.v6 r key)) : V6Steps B w history w₂

def createdOutputs (history : List (Tx × ShieldedV6Transaction)) : List ShieldedV6Output :=
  history.flatMap fun p => p.2.outputs

def spentRecords (history : List (Tx × ShieldedV6Transaction)) : List (Hash × Hash) :=
  history.flatMap fun p => p.2.inputs.map fun input => (input.keyImage, p.1.hash)

def spentImages (history : List (Tx × ShieldedV6Transaction)) : List Hash :=
  history.flatMap fun p => p.2.inputs.map (·.keyImage)

theorem spentRecords_images (history : List (Tx × ShieldedV6Transaction)) :
    (spentRecords history).map Prod.fst = spentImages history := by
  rw [spentRecords, spentImages, map_flatMap]
  simp only [map_map]
  rfl

theorem V6Effect.keep (h : V6Effect B tx e st st') (hacc : Accumulator B st outputs)
    (himages : KeyImages B st spent) :
    Accumulator B st' (outputs ++ e.outputs) ∧
      KeyImages B st' (spent ++ e.inputs.map fun input => (input.keyImage, tx.hash)) := by
  obtain ⟨st₁, st₂, houtputs, hinputs, hkept⟩ := h.appended
  obtain ⟨hacc₁, hkept₁⟩ := hacc.each houtputs
  obtain ⟨himages₂, hkept₂⟩ := (himages.congr hkept₁).each hinputs
  exact ⟨(hacc₁.congr hkept₂).congr fun r key _ => hkept r key, himages₂.congr fun r key _ => hkept r key⟩

theorem V6Steps.keep (h : V6Steps B w history w')
    (hacc : Accumulator B w.st outputs)
    (himages : KeyImages B w.st spent) :
    Accumulator B w'.st (outputs ++ createdOutputs history) ∧ KeyImages B w'.st (spent ++ spentRecords history) := by
  induction h with
  | refl =>
    rw [createdOutputs, spentRecords, flatMap_nil, flatMap_nil, append_nil, append_nil]
    exact ⟨hacc, himages⟩
  | accepted cfg num time _ hd hrun ih =>
    obtain ⟨e, hd', heffect⟩ := processShieldedV6_effect hrun
    obtain rfl : e = _ := Option.some.inj (Except.ok.inj (hd'.symm.trans hd))
    obtain ⟨hacc₁, himages₁⟩ := ih
    have hkeep := heffect.keep hacc₁ himages₁
    rw [createdOutputs, spentRecords, flatMap_append, flatMap_append, flatMap_singleton,
      flatMap_singleton, ← append_assoc, ← append_assoc]
    exact hkeep
  | rejected cfg num time _ hrun ih =>
    rw [processShieldedV6_atomic B cfg num time _ _ _ _ hrun]
    exact ih
  | other _ hkept ih =>
    obtain ⟨hacc₁, himages₁⟩ := ih
    exact ⟨hacc₁.congr fun r key _ => hkept r key, himages₁.congr fun r key _ => hkept r key⟩

/-- After any blocks the images spent so far are all different and are listed by their number and by their image; and
the ring members of a transaction accepted next are outputs that stand in every later state as they were verified. -/
theorem key_images_spent_once (B : Backend) {w₀ w : World} {history : List (Tx × ShieldedV6Transaction)}
    (hstart : ∀ r key, w₀.st.storage (.v6 r key) = 0) (h : V6Steps B w₀ history w) :
    (spentImages history).Nodup ∧ shieldedV6KeyImageCount w.st = (spentImages history).length ∧
      (∀ i image, (spentImages history)[i]? = some image → shieldedV6KeyImageAt B w.st i = .ok image) ∧
      (∀ image, shieldedV6KeyImageTransaction B w.st image ≠ 0 ↔ image ∈ spentImages history) ∧
      ∀ cfg num time tx e w', decodeShieldedV6Transaction B tx.data = .ok (some e) →
        processShieldedV6 B cfg num time tx w = (.ok (), w') → ∀ input ∈ e.inputs, ∃ intent members,
          B.intentV6 tx e = .ok intent ∧
          B.verifyCLSAG intent members input.keyImage input.pseudoOutput input.signature = .ok () ∧
          List.Forall₂ (fun index member => index < shieldedV6OutputCount w.st ∧
            shieldedV6ReadOutput w.st index = .ok member ∧
            ∀ later w'', V6Steps B w' later w'' → shieldedV6ReadOutput w''.st index = .ok member)
            input.ringIndices members := by
  obtain ⟨hacc, himages⟩ := h.keep (Accumulator.nil hstart) (KeyImages.nil hstart)
  rw [nil_append] at hacc himages
  rw [← spentRecords_images]
  refine ⟨himages.nodup, ?_, ?_, himages.transaction_ne_zero, ?_⟩
  · rw [himages.keyImageCount, length_map]
  · intro i image hi
    rw [getElem?_map, Option.map_eq_some_iff] at hi
    obtain ⟨p, hp, rfl⟩ := hi
    exact himages.at_index hp
  · intro cfg num time tx e w' hd hrun input hmem
    obtain ⟨e', hd', heffect⟩ := processShieldedV6_effect hrun
    obtain rfl : e' = e := Option.some.inj (Except.ok.inj (hd'.symm.trans hd))
    obtain ⟨intent, hintent, members, hring, hverify⟩ := heffect.rings input hmem
    refine ⟨intent, members, hintent, hverify, hring.imp fun index member hread => ⟨hread.1, hread.2, ?_⟩⟩
    intro later w'' hlater
    -- the later list of outputs begins with the one the ring was read from
    obtain ⟨hacc₁, himages₁⟩ := heffect.keep hacc himages
    obtain ⟨hacc₂, _⟩ := hlater.keep hacc₁ himages₁
    obtain ⟨hkey, hcommitment, output, hi, hmember⟩ := hacc.read_iff.mp hread.2
    rw [append_assoc] at hacc₂
    refine hacc₂.read_iff.mpr ⟨hkey, hcommitment, output, ?_, hmember⟩
    rw [getElem?_append_left (List.getElem?_eq_some_iff.mp hi).1]
    exact hi

end

/-! ## A deposit of a whole ring and a spend from it -/

def ringEnvelope : Nat → ShieldedV6Transaction
  | 0 =>
    { version := 6, assetID := assetTKM, deposit := true, depositMask := 1, withdrawalRecipient := 0,
      withdrawalValue := none, inputs := [],
      outputs := (List.range ringSize).map fun i => ⟨BitVec.ofNat 256 (i + 1), 1, 1, (1, 1), [1]⟩,
      rangeProof := [1], recipients := none, binding := none, validUntil := 0 }
  | _ =>
    { version := 6, assetID := assetTKM, deposit := false, depositMask := 0, withdrawalRecipient := 0,
      withdrawalValue := none, inputs := [⟨List.range ringSize, 5, 6, [1]⟩], outputs := [⟨100, 1, 1, (1, 1), [1]⟩],
      rangeProof := [1], recipients := none, binding := none, validUntil := 0 }

def ringBackend : Backend := { pointBackend with
  preflightV6 := fun _ => true
  decodeV6 := fun body => some (ringEnvelope body.length) }

def ringConfig : ChainConfig := { antarticalConfig true with shield6Time := some 0 }

def ringTx (n value : Nat) : Tx := { migrationTx n with
  data := Bytes.ofText shieldedV6Magic ++ List.replicate n 0
  value := value }

def ringDeposited : World :=
  (processShieldedV6 ringBackend ringConfig 1 mainnetShieldedV2Time (ringTx 0 5) (wrappedPool 20)).2

theorem key_images_spent_once_ring :
    ∃ w, V6Steps ringBackend (wrappedPool 20) [(ringTx 0 5, ringEnvelope 0), (ringTx 1 0, ringEnvelope 1)] w ∧
      shieldedV6KeyImageAt ringBackend w.st 0 = .ok 5 := by
  have hstart : ∀ r key, (wrappedPool 20).st.storage (.v6 r key) = 0 := by
    intro r key
    have hasset : assetSlot assetPTKM .supply [] = .v3Asset assetPTKM .supply [] := by decide
    simp [wrappedPool, hasset, stampAddressSlot, shieldedMerkleRootSlot]
  have hruns : (processShieldedV6 ringBackend ringConfig 1 mainnetShieldedV2Time (ringTx 0 5) (wrappedPool 20)).1.isOk =
      true ∧ (processShieldedV6 ringBackend ringConfig 1 mainnetShieldedV2Time (ringTx 1 0) ringDeposited).1.isOk = true := by
    decide +kernel
  have hdeposit : processShieldedV6 ringBackend ringConfig 1 mainnetShieldedV2Time (ringTx 0 5) (wrappedPool 20) =
      (.ok (), ringDeposited) := ok_of_isOk hruns.1
  have hspend := ok_of_isOk hruns.2
  have hrun := V6Steps.accepted ringConfig 1 mainnetShieldedV2Time
    (.accepted ringConfig 1 mainnetShieldedV2Time (.refl (wrappedPool 20)) rfl hdeposit) rfl hspend
  exact ⟨_, hrun, (key_images_spent_once ringBackend hstart hrun).2.2.1 0 5 rfl⟩

end TkmChain
