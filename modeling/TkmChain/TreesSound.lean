import TkmChain.Shielded

/-!
# What tree appends write

Every append, stamp and binding writes slots of trees only, whether it succeeds
or not.
-/

namespace TkmChain

open Proc

@[simp] theorem assetSlot_kind (asset : Nat) (r : Role) (key : Bytes) : (assetSlot asset r key).kind = r.kind := by
  unfold assetSlot
  split <;> rfl

theorem v3ReadDigest_congr (hs : ∀ b, st'.storage (.v3 (.half r b) key) = st.storage (.v3 (.half r b) key)) :
    v3ReadDigest st' r key = v3ReadDigest st r key := by
  rw [v3ReadDigest, hs false, hs true, ← v3ReadDigest]

abbrev TreeFrame : StateDB → StateDB → Prop := Frame fun k => k.kind = .tree

theorem treeFrame_setState (h : k.kind = .tree) (st : StateDB) (v : Hash) :
    TreeFrame st (st.setState k v) := Frame.setState h

namespace TreeRoles

def Valid (t : TreeRoles) : Prop := t.present.kind = .tree

def Node (t : TreeRoles) (k : Slot) : Prop := (∃ b key, k = .v3 (.half t.node b) key) ∨ ∃ key, k = .v3 t.present key

theorem Valid.node {t : TreeRoles} (ht : t.Valid) (k : Slot) (hk : t.Node k) : k.kind = .tree := by
  rcases hk with ⟨b, key, rfl⟩ | ⟨key, rfl⟩
  · rfl
  · exact ht

end TreeRoles

theorem noteTree_valid : noteTree.Valid := rfl

theorem stampTree_valid : stampTree.Valid := rfl

theorem bindingTree_valid : bindingTree.Valid := rfl

theorem writeNode_frame (t : TreeRoles) (level index : Nat) (d : Digest) (st : StateDB) :
    Frame t.Node st (writeNode t level index d st) :=
  (Frame.v3WriteDigest fun b => Or.inl ⟨b, _, rfl⟩).trans (Frame.setState (Or.inr ⟨_, rfl⟩))

section
variable (B : Backend)

theorem climb_nodes (t : TreeRoles) (zeroes : List Digest) :
    ∀ n level cursor current, Moves (Frame t.Node) (climb B t zeroes n level cursor current)
  | 0, level, cursor, current =>
    Moves.bind (Moves.modify (writeNode_frame t level cursor current)) fun _ => Moves.pure _
  | n + 1, level, cursor, current =>
    Moves.bind (Moves.modify (writeNode_frame t level cursor current)) fun _ =>
      Moves.read_bind fun _ => Moves.read_bind fun parent =>
        climb_nodes t zeroes n (level + 1) (cursor / 2) parent

theorem climb_frame {t : TreeRoles} (ht : t.Valid) (zeroes : List Digest) (n level cursor : Nat) (current : Digest) :
    Moves TreeFrame (climb B t zeroes n level cursor current) :=
  (climb_nodes B t zeroes n level cursor current).mono fun _ _ h => h.mono ht.node

theorem appendShieldedV3Leaf_frame (commitment : Digest) (txHash : Hash) :
    Moves TreeFrame (appendShieldedV3Leaf B commitment txHash) := by
  unfold appendShieldedV3Leaf
  repeat refine Moves.read_bind fun _ => ?_
  refine Moves.bind (climb_frame B noteTree_valid _ _ _ _ _) fun current => ?_
  apply Moves.modify
  intro st
  exact (Frame.setStates (by simp [Slot.kind, Role.kind])).trans (Frame.v3WriteDigest fun _ => rfl)

theorem appendAntarticalStamp_frame (chainID : Nat) (owner : Digest) (txHash : Hash) :
    Moves TreeFrame (appendAntarticalStamp B chainID owner txHash) := by
  unfold appendAntarticalStamp
  repeat refine Moves.read_bind fun _ => ?_
  refine Moves.bind (climb_frame B stampTree_valid _ _ _ _ _) fun current => ?_
  apply Moves.modify
  intro st
  exact (Frame.setStates (by simp [Slot.kind, Role.kind])).trans (Frame.v3WriteDigest fun _ => rfl)

def MerkleSlot : Slot → Prop
  | .v1 r _ => r ≠ .nullifier ∧ r ≠ .commitment
  | _ => False

theorem MerkleSlot.tree (h : MerkleSlot k) : k.kind = .tree := by
  cases k with
  | v1 r key => simp only [Slot.kind, if_neg h.1]
  | _ => cases h

theorem frontierSlot_merkle (level : Nat) : MerkleSlot (shieldedMerkleFrontierSlot level) := ⟨nofun, nofun⟩

theorem pathSlot_merkle (commitment : Hash) (level : Nat) : MerkleSlot (shieldedCommitmentPathSlot commitment level) :=
  ⟨nofun, nofun⟩

theorem merkleFrame_setState (h : MerkleSlot k) (st : StateDB) (v : Hash) :
    Frame MerkleSlot st (st.setState k v) := Frame.setState h

theorem merkleClimb_frame (commitment : Hash) (index : Nat) :
    ∀ zeroes level st current, Frame MerkleSlot st (merkleClimb B commitment index zeroes level st current).1
  | [], _, _, _ => Frame.rfl
  | zero :: zeroes, level, st, current => by
    unfold merkleClimb
    split
    · exact ((merkleFrame_setState (frontierSlot_merkle level) _ _).trans
        (merkleFrame_setState (pathSlot_merkle commitment level) _ _)).trans
        (merkleClimb_frame commitment index zeroes _ _ _)
    · exact (merkleFrame_setState (pathSlot_merkle commitment level) _ _).trans
        (merkleClimb_frame commitment index zeroes _ _ _)

theorem appendShieldedMerkleLeaf_frame (commitment txHash : Hash) :
    Moves (Frame MerkleSlot) (appendShieldedMerkleLeaf B commitment txHash) := by
  unfold appendShieldedMerkleLeaf
  refine Moves.read_bind fun index => ?_
  refine Moves.read_bind fun _ => ?_
  apply Moves.modify
  intro st
  exact (merkleClimb_frame B commitment index _ _ _ _).trans
    (Frame.setStates (by simp [MerkleSlot, shieldedMerkleRootSlot]))

theorem frontierClimb_frame :
    ∀ zeroes level index st current, TreeFrame st (frontierClimb B zeroes level index st current).1
  | [], _, _, _, _ => Frame.rfl
  | zero :: zeroes, level, index, st, current => by
    unfold frontierClimb
    split
    · exact (treeFrame_setState rfl _ _).trans (frontierClimb_frame zeroes _ _ _ _)
    · exact frontierClimb_frame zeroes _ _ _ _

theorem shieldedV6AppendOutput_frame (output : ShieldedV6Output) (txHash : Hash) :
    Moves TreeFrame (shieldedV6AppendOutput B output txHash) := by
  refine Moves.read_bind fun _ => Moves.modify fun st => ?_
  exact (frontierClimb_frame B _ _ _ _ _).trans (Frame.setStates (by simp [Slot.kind]))

theorem shieldedV6AppendKeyImage_frame (image txHash : Hash) :
    Moves TreeFrame (shieldedV6AppendKeyImage B image txHash) :=
  Moves.read_bind fun _ => Moves.modify fun _ => Frame.setStates (by simp [Slot.kind])

theorem appendOutput_frame (asset : Nat) (txHash : Hash) (out : ShieldedV3Output) :
    Moves TreeFrame (appendOutput B asset txHash out) :=
  Moves.bind (appendShieldedV3Leaf_frame B _ _) fun _ =>
    Moves.modify fun st => treeFrame_setState (assetSlot_kind _ _ _) st _

theorem processOutput_frame (txHash : Hash) (out : ShieldedOutput) :
    Moves TreeFrame (processOutput B txHash out) :=
  Moves.read_bind fun _ => Moves.bind
    (Moves.modify fun st => treeFrame_setState rfl st _) fun _ =>
      (appendShieldedMerkleLeaf_frame B _ _).mono fun _ _ h => h.mono fun _ => MerkleSlot.tree

theorem processShieldedV6Binding_frame (tx : Tx) (sender : Address) (e : ShieldedV6Transaction) :
    Moves TreeFrame (processShieldedV6Binding B tx sender e) := by
  unfold processShieldedV6Binding
  repeat refine Moves.read_bind fun _ => ?_
  refine Moves.bind (Moves.orRevert (climb_frame B bindingTree_valid _ _ _ _ _)) fun current => ?_
  refine Moves.bind (Moves.modify fun st => treeFrame_setState rfl st _) fun _ => ?_
  refine Moves.bind (Moves.modify fun st => Frame.v3WriteDigest fun _ => rfl) fun _ => ?_
  apply Moves.modify
  intro st
  exact (Frame.setStates (by simp [Slot.kind, Role.kind])).trans (Frame.v3WriteDigest fun _ => rfl)

theorem recordStamp_frame (a : Address) (e : AntarticalStampRegistration) (txHash : Hash) (st : StateDB) :
    TreeFrame st (recordStamp a e txHash st) := by
  have hnonce : TreeFrame st (if st.nonce poolAddress = 0 then st.setNonce poolAddress 1 else st) := by
    split
    · exact ⟨rfl, rfl, fun _ _ => rfl, rfl⟩
    · exact Frame.rfl
  exact ((hnonce.trans (treeFrame_setState rfl _ _)).trans (Frame.v3WriteDigest fun _ => rfl)).trans
    (Frame.setStates (by simp [Slot.kind, Role.kind]))

theorem processAntarticalStamp_frame (cfg : ChainConfig) (num time : Nat) (tx : Tx) :
    Moves TreeFrame (processAntarticalStamp B cfg num time tx) := by
  unfold processAntarticalStamp
  refine Moves.read_bind fun _ => ?_
  refine Moves.read_bind fun sender => ?_
  refine Moves.read_bind fun e => ?_
  refine Moves.read_bind fun beneficiary => ?_
  refine Moves.read_bind fun _ => ?_
  refine Moves.read_bind fun existing => ?_
  refine Moves.ite (Moves.pure _) ?_
  refine Moves.read_bind fun _ => ?_
  refine Moves.bind (Moves.orRevert (appendAntarticalStamp_frame B _ _ _)) fun _ => ?_
  exact Moves.modify fun st => recordStamp_frame beneficiary e tx.hash st

theorem processAntarticalStamp_atomic (cfg : ChainConfig) (num time : Nat) (tx : Tx) :
    Atomic (processAntarticalStamp B cfg num time tx) := by
  unfold processAntarticalStamp
  repeat refine Atomic.read_bind fun _ => ?_
  refine Atomic.ite (Total.pure _).atomic ?_
  refine Atomic.read_bind fun _ => ?_
  exact (Atomic.orRevert _).bind_total fun _ => Total.modify _

end

end TkmChain
