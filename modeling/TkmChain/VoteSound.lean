import TkmChain.RegistrySound
import TkmChain.TreesSound

/-!
# Address votes are counted

A ballot box keeps the set of owners whose vote on a target is active. The slots of
the governance roles hold one box per target, its size and whether it is full, over
every sequence of calls.
-/

namespace TkmChain

open Proc Function

variable {voter target : Address} {owner : Bytes} {active : Hash} {st st' : StateDB}

/-! ## What a call does -/

/-- A call of `voter` with the stamp `owner` sets its vote on `target` to `active`, the count to `count` and the
suspension to `suspended`. -/
structure VoteEffect (st st' : StateDB) (voter target : Address) (owner : Bytes) (active : Hash) (count : Nat)
    (suspended : Hash) : Prop where
  funds : addressVoteBurnWei ≤ (st.balance voter).toNat
  balance : st'.balance = Function.update st.balance voter (st.balance voter - BitVec.ofNat 256 addressVoteBurnWei)
  active : st'.storage (addressVoteActiveSlot target owner) = active
  count : st'.storage (addressVoteCountSlot target) = uint64Hash count
  suspended : st'.storage (addressVoteSuspendedSlot target) = suspended
  frame : ∀ k, k ≠ addressVoteActiveSlot target owner → k ≠ addressVoteReasonSlot target owner →
    k ≠ addressVoteCountSlot target → k ≠ addressVoteSuspendedSlot target → st'.storage k = st.storage k

section
variable {count : Nat}

def recordVote (st : StateDB) (voter target : Address) (owner : Bytes) (active reason : Hash) (count : Nat) : StateDB :=
  (st.subBalance voter (BitVec.ofNat 256 addressVoteBurnWei)).setStates
    [(addressVoteActiveSlot target owner, active), (addressVoteReasonSlot target owner, reason),
     (addressVoteCountSlot target, uint64Hash count)]

theorem recordVote_effect (hfunds : addressVoteBurnWei ≤ (st.balance voter).toNat) :
    VoteEffect st (recordVote st voter target owner active reason count) voter target owner active count
      (st.storage (addressVoteSuspendedSlot target)) := by
  refine ⟨hfunds, rfl, ?_, ?_, ?_, ?_⟩
  · simp [recordVote, StateDB.setStates, addressVoteActiveSlot, addressVoteReasonSlot, addressVoteCountSlot]
  · simp [recordVote, StateDB.setStates]
  · simp [recordVote, StateDB.setStates, addressVoteActiveSlot, addressVoteReasonSlot, addressVoteCountSlot,
      addressVoteSuspendedSlot]
  · intro k hactive hreason hcount _
    simp [recordVote, StateDB.setStates, hactive, hreason, hcount]

theorem VoteEffect.setSuspended (h : VoteEffect st st' voter target owner active count x) :
    VoteEffect st (st'.setState (addressVoteSuspendedSlot target) y) voter target owner active count y := by
  have hactive : addressVoteActiveSlot target owner ≠ addressVoteSuspendedSlot target := nofun
  have hcount : addressVoteCountSlot target ≠ addressVoteSuspendedSlot target := nofun
  refine ⟨h.funds, h.balance, ?_, ?_, update_self .., ?_⟩
  · rw [StateDB.setState_storage, update_of_ne hactive, h.active]
  · rw [StateDB.setState_storage, update_of_ne hcount, h.count]
  · intro k hactive hreason hcount hsuspended
    rw [StateDB.setState_storage, update_of_ne hsuspended, h.frame k hactive hreason hcount hsuspended]

theorem burnAddressVoteFee_ok : burnAddressVoteFee voter st = (.ok u, st') ↔
    addressVoteBurnWei ≤ (st.balance voter).toNat ∧
      st.subBalance voter (BitVec.ofNat 256 addressVoteBurnWei) = st' := by
  simp only [burnAddressVoteFee, run_rules, failIf_ok, Nat.not_lt]

theorem processAddressVote_effect (h : processAddressVote B voter data txHash st = (.ok (), st')) :
    ∃ target owner, addressVoteOwner st voter = .ok owner ∧
      ((st.storage (addressVoteActiveSlot target owner) = 0 ∧ addressVoteCount st target < addressVoteThreshold ∧
          isAddressSuspended st target = false ∧
          VoteEffect st st' voter target owner txHash (addressVoteCount st target + 1)
            (if addressVoteThreshold ≤ addressVoteCount st target + 1 then txHash
              else st.storage (addressVoteSuspendedSlot target))) ∨
        (st.storage (addressVoteActiveSlot target owner) ≠ 0 ∧ addressVoteCount st target ≠ 0 ∧
          VoteEffect st st' voter target owner 0 (addressVoteCount st target - 1)
            (if addressVoteCount st target - 1 < addressVoteThreshold then 0
              else st.storage (addressVoteSuspendedSlot target)))) := by
  simp only [processAddressVote, run_rules] at h
  obtain ⟨vote, hdecode, hstate, owner, howner, count, hcount, h⟩ := h
  obtain rfl := Except.ok.inj hcount
  simp only [validateAddressVoteState, ok_rules, hdecode, Except.ok.injEq] at hstate
  obtain ⟨_, rfl, _, _, _, _, owner', howner', hstate⟩ := hstate
  obtain rfl : owner = owner' := Except.ok.inj (howner.symm.trans howner')
  refine ⟨vote.target, owner, howner, ?_⟩
  split at h
  · rename_i hunvote
    rw [if_pos hunvote, failIf_ok] at hstate
    simp only [run_rules, failIf_ok, burnAddressVoteFee_ok] at h
    obtain ⟨hpos, hfunds, rfl⟩ := h
    refine Or.inr ⟨hstate, hpos, ?_⟩
    split
    · exact (recordVote_effect hfunds).setSuspended
    · exact recordVote_effect hfunds
  · rename_i hunvote
    rw [if_neg hunvote] at hstate
    simp only [ok_rules, not_or, not_not, Nat.not_le, Bool.not_eq_true] at hstate
    obtain ⟨_, hactive, hroom, hfree⟩ := hstate
    simp only [run_rules, failIf_ok, burnAddressVoteFee_ok] at h
    obtain ⟨_, hfunds, rfl⟩ := h
    refine Or.inl ⟨hactive, hroom, hfree, ?_⟩
    split
    · exact (recordVote_effect hfunds).setSuspended
    · exact recordVote_effect hfunds

theorem burnAddressVoteFee_atomic : Atomic (burnAddressVoteFee voter) :=
  Atomic.read_bind fun _ => (Total.modify _).atomic

theorem processAddressVote_atomic : Atomic (processAddressVote B voter data txHash) := by
  unfold processAddressVote
  repeat refine Atomic.read_bind fun _ => ?_
  refine Atomic.ite ?_ ?_
  all_goals
    refine Atomic.read_bind fun _ => ?_
    exact burnAddressVoteFee_atomic.bind_total fun _ => (Total.modify _).bind fun _ => Total.modify _

end

/-! ## Ballot boxes -/

theorem addressVoteActiveSlot_inj (h : addressVoteActiveSlot t o = addressVoteActiveSlot t' o') : t = t' ∧ o = o' := by
  obtain ⟨ht, ho⟩ := List.append_inj (Slot.v3.inj h).2 (by rw [Address.length_bytes, Address.length_bytes])
  exact ⟨Address.bytes_inj ht, ho⟩

/-- The state holds the ballot boxes `box`: whose votes on a target are active, how many, and whether the box is
full. -/
structure Tally (st : StateDB) (box : Address → Finset Bytes) : Prop where
  active : ∀ t o, st.storage (addressVoteActiveSlot t o) ≠ 0 ↔ o ∈ box t
  count : ∀ t, addressVoteCount st t = (box t).card
  bound : ∀ t, (box t).card ≤ addressVoteThreshold
  suspended : ∀ t, isAddressSuspended st t = true ↔ (box t).card = addressVoteThreshold
  owners : ∀ t, ∀ o ∈ box t, ∃ a, addressVoteOwner st a = .ok o

section
variable {suspended : Hash} {count : Nat}

theorem addressVoteOwner_congr (hs : ∀ k : Slot, k.kind = .tree → st'.storage k = st.storage k) (a : Address) :
    addressVoteOwner st' a = addressVoteOwner st a := by
  have hstamp : isAntarticalStamped st' a = isAntarticalStamped st a := by
    rw [isAntarticalStamped, hs _ rfl, ← isAntarticalStamped]
  have hread : v3ReadDigest st' .stampAddressOwner a.bytes = v3ReadDigest st .stampAddressOwner a.bytes :=
    v3ReadDigest_congr fun _ => hs _ rfl
  rw [addressVoteOwner, hstamp, hread, ← addressVoteOwner]

theorem VoteEffect.owner_eq (h : VoteEffect st st' voter target owner active count suspended) (a : Address) :
    addressVoteOwner st' a = addressVoteOwner st a := by
  refine addressVoteOwner_congr (fun k hk => h.frame k ?_ ?_ ?_ ?_) a
  all_goals rintro rfl; cases hk

theorem Tally.write (ht : Tally st box)
    (h : VoteEffect st st' voter target owner active count suspended)
    (hactive : active ≠ 0 ↔ owner ∈ b) (hother : ∀ o, o ≠ owner → (o ∈ b ↔ o ∈ box target)) (hcount : count = b.card)
    (hbound : b.card ≤ addressVoteThreshold) (hsuspended : suspended ≠ 0 ↔ b.card = addressVoteThreshold)
    (howner : ∃ a, addressVoteOwner st a = .ok owner) : Tally st' (Function.update box target b) := by
  have hactive' (t : Address) (o : Bytes) (hne : ¬ (t = target ∧ o = owner)) :
      st'.storage (addressVoteActiveSlot t o) = st.storage (addressVoteActiveSlot t o) :=
    h.frame _ (fun heq => hne (addressVoteActiveSlot_inj heq)) nofun nofun nofun
  have hcount' (t : Address) (hne : t ≠ target) :
      st'.storage (addressVoteCountSlot t) = st.storage (addressVoteCountSlot t) :=
    h.frame _ nofun nofun (fun heq => hne (Address.bytes_inj (Slot.v3.inj heq).2)) nofun
  have hsuspended' (t : Address) (hne : t ≠ target) :
      st'.storage (addressVoteSuspendedSlot t) = st.storage (addressVoteSuspendedSlot t) :=
    h.frame _ nofun nofun nofun fun heq => hne (Address.bytes_inj (Slot.v3.inj heq).2)
  have hsmall : count < 2 ^ 64 := by
    have : addressVoteThreshold = 15 := rfl
    omega
  refine ⟨fun t o => ?_, fun t => ?_, fun t => ?_, fun t => ?_, fun t o ho => ?_⟩
  · by_cases hto : t = target ∧ o = owner
    · rw [hto.1, hto.2, update_self, h.active, hactive]
    · rw [hactive' t o hto, ht.active]
      by_cases htarget : t = target
      · subst htarget
        rw [update_self, hother o fun ho => hto ⟨rfl, ho⟩]
      · rw [update_of_ne htarget]
  · by_cases htarget : t = target
    · subst htarget
      rw [addressVoteCount, h.count, uint64FromHash_uint64Hash hsmall, hcount, update_self]
    · rw [addressVoteCount, hcount' t htarget, ← addressVoteCount, ht.count, update_of_ne htarget]
  · by_cases htarget : t = target
    · subst htarget
      rwa [update_self]
    · rw [update_of_ne htarget]
      exact ht.bound t
  · by_cases htarget : t = target
    · subst htarget
      rw [update_self, isAddressSuspended, decide_eq_true_eq, h.suspended, hsuspended]
    · rw [update_of_ne htarget, ← ht.suspended, isAddressSuspended, isAddressSuspended,
        hsuspended' t htarget]
  · simp only [h.owner_eq]
    by_cases htarget : t = target
    · subst htarget
      rw [update_self] at ho
      by_cases hoo : o = owner
      · exact hoo ▸ howner
      · exact ht.owners t o ((hother o hoo).mp ho)
    · rw [update_of_ne htarget] at ho
      exact ht.owners t o ho

theorem Tally.call (ht : Tally st box) (hne : txHash ≠ 0) :
    ∃ box', Tally (processAddressVote B voter data txHash st).2 box' := by
  cases hcall : processAddressVote B voter data txHash st with
  | mk result st' =>
    cases result with
    | error e => exact ⟨box, processAddressVote_atomic st e st' hcall ▸ ht⟩
    | ok u =>
      obtain ⟨target, owner, howner, ⟨hnew, hroom, hfree, heff⟩ | ⟨hold, hpos, heff⟩⟩ := processAddressVote_effect hcall
      · have hnot : owner ∉ box target := fun hmem => (ht.active target owner).mpr hmem hnew
        have hclear : st.storage (addressVoteSuspendedSlot target) = 0 := by
          simpa [isAddressSuspended] using hfree
        have hcard := Finset.card_insert_of_notMem hnot
        rw [ht.count] at hroom heff
        refine ⟨_, ht.write (b := insert owner (box target)) heff ?_ ?_ hcard.symm (by omega) ?_ ⟨voter, howner⟩⟩
        · exact iff_of_true hne (Finset.mem_insert_self ..)
        · intro o ho
          simp [ho]
        · rw [hclear, hcard]
          split <;> rename_i hfull
          · exact iff_of_true hne (by omega)
          · exact iff_of_false (fun h => h rfl) (by omega)
      · have hmem : owner ∈ box target := (ht.active target owner).mp hold
        have hcard := Finset.card_erase_of_mem hmem
        have hbound := ht.bound target
        rw [ht.count] at hpos heff
        refine ⟨_, ht.write (b := (box target).erase owner) heff ?_ ?_ hcard.symm (by omega) ?_ ⟨voter, howner⟩⟩
        · exact iff_of_false (fun h => h rfl) (Finset.notMem_erase _ _)
        · intro o ho
          simp [ho]
        · rw [if_pos (by omega)]
          exact iff_of_false (fun h => h rfl) (by omega)

end

/-! ## Sequences of calls -/

/-- The states after calls in any order, from a state without votes. Whatever happens between the calls keeps the vote
slots and the owner of every stamped address. -/
inductive VoteRun (B : Backend) : StateDB → Prop
  | start {st : StateDB} (hactive : ∀ t o, st.storage (addressVoteActiveSlot t o) = 0)
    (hcount : ∀ t, st.storage (addressVoteCountSlot t) = 0)
    (hsuspended : ∀ t, st.storage (addressVoteSuspendedSlot t) = 0) : VoteRun B st
  | call {st : StateDB} (hrun : VoteRun B st) (voter : Address) (data : Bytes) (txHash : Hash) (hne : txHash ≠ 0) :
    VoteRun B (processAddressVote B voter data txHash st).2
  | other {st st' : StateDB} (hrun : VoteRun B st)
    (hactive : ∀ t o, st'.storage (addressVoteActiveSlot t o) = st.storage (addressVoteActiveSlot t o))
    (hcount : ∀ t, st'.storage (addressVoteCountSlot t) = st.storage (addressVoteCountSlot t))
    (hsuspended : ∀ t, st'.storage (addressVoteSuspendedSlot t) = st.storage (addressVoteSuspendedSlot t))
    (howner : ∀ a o, addressVoteOwner st a = .ok o → addressVoteOwner st' a = .ok o) : VoteRun B st'

def votersOn (st : StateDB) (t : Address) : Set Bytes :=
  {o | (∃ a, addressVoteOwner st a = .ok o) ∧ st.storage (addressVoteActiveSlot t o) ≠ 0}

theorem VoteRun.tally (hrun : VoteRun B st) : ∃ box, Tally st box := by
  induction hrun with
  | start hactive hcount hsuspended =>
    refine ⟨fun _ => ∅, fun t o => ?_, fun t => ?_, fun _ => Nat.zero_le _, fun t => ?_, nofun⟩
    · simp [hactive]
    · simp [addressVoteCount, hcount, uint64FromHash]
    · simp [isAddressSuspended, hsuspended, addressVoteThreshold]
  | call _ voter data txHash hne ih =>
    obtain ⟨box, ht⟩ := ih
    exact ht.call hne
  | other _ hactive hcount hsuspended howner ih =>
    obtain ⟨box, ht⟩ := ih
    refine ⟨box, fun t o => ?_, fun t => ?_, ht.bound, fun t => ?_, fun t o ho => ?_⟩
    · rw [hactive, ht.active]
    · rw [addressVoteCount, hcount, ← addressVoteCount, ht.count]
    · rw [isAddressSuspended, hsuspended, ← isAddressSuspended, ht.suspended]
    · obtain ⟨a, ha⟩ := ht.owners t o ho
      exact ⟨a, howner a o ha⟩

theorem Tally.votersOn_eq (ht : Tally st box) (t : Address) :
    votersOn st t = ↑(box t) := by
  ext o
  rw [Finset.mem_coe, ← ht.active]
  exact ⟨fun h => h.2, fun h => ⟨ht.owners t o ((ht.active t o).mp h), h⟩⟩

/-- After any sequence of calls the count is the number of active votes, at most the threshold, and suspension is the
full count; the next call burns the fee of its voter and touches its own votes only, or fails and changes nothing. -/
theorem address_votes_counted (hrun : VoteRun B st) :
    (∀ t, (votersOn st t).encard = addressVoteCount st t ∧ addressVoteCount st t ≤ addressVoteThreshold ∧
      (isAddressSuspended st t = true ↔ addressVoteCount st t = addressVoteThreshold)) ∧
    ∀ voter data txHash, match processAddressVote B voter data txHash st with
      | (.error _, st') => st' = st
      | (.ok _, st') => ∃ owner, addressVoteOwner st voter = .ok owner ∧
        (st'.balance voter).toNat + addressVoteBurnWei = (st.balance voter).toNat ∧
        (∀ a, a ≠ voter → st'.balance a = st.balance a) ∧
        ∀ t o, o ≠ owner → st'.storage (addressVoteActiveSlot t o) = st.storage (addressVoteActiveSlot t o) := by
  obtain ⟨box, ht⟩ := hrun.tally
  refine ⟨fun t => ?_, fun voter data txHash => ?_⟩
  · rw [ht.votersOn_eq, ht.count, ht.suspended]
    exact ⟨Set.encard_coe_eq_coe_finsetCard _, ht.bound t, Iff.rfl⟩
  · split
    · rename_i e st' hcall
      exact processAddressVote_atomic st e st' hcall
    · rename_i st' hcall
      obtain ⟨target, owner, howner, hcases⟩ := processAddressVote_effect hcall
      have heff : ∃ active count suspended, VoteEffect st st' voter target owner active count suspended := by
        rcases hcases with ⟨_, _, _, heff⟩ | ⟨_, _, heff⟩
        · exact ⟨_, _, _, heff⟩
        · exact ⟨_, _, _, heff⟩
      obtain ⟨active, count, suspended, heff⟩ := heff
      have hfee : (BitVec.ofNat 256 addressVoteBurnWei).toNat = addressVoteBurnWei := by decide
      have hle : BitVec.ofNat 256 addressVoteBurnWei ≤ st.balance voter := by
        rw [BitVec.le_def, hfee]
        exact heff.funds
      refine ⟨owner, howner, ?_, fun a ha => ?_, fun t o ho => ?_⟩
      · rw [heff.balance, update_self, BitVec.toNat_sub_of_le hle, hfee]
        exact Nat.sub_add_cancel heff.funds
      · rw [heff.balance, update_of_ne ha]
      · exact heff.frame _ (fun heq => ho (addressVoteActiveSlot_inj heq).2) nofun nofun nofun

def votingBackend : Backend := { Backend.accepting (fun _ => ⟨2, [], [], 0, [], 0, none, none, []⟩) 7 seven_ne_pool with
  decodeVote := fun _ => .ok { version := 1, unvote := false, target := 5, reason := [1] } }

def stampedVoter : StateDB where
  balance := fun _ => BitVec.ofNat 256 addressVoteBurnWei
  nonce := fun _ => 0
  codeSize := fun _ => 0
  storage := fun k => if k = stampAddressSlot 7 ∨ k = .v3 (.half .stampAddressOwner true) (Address.bytes 7) then 1 else 0
  poolOverdrawn := false

theorem address_votes_counted_one :
    (votersOn (processAddressVote votingBackend 7 (Bytes.ofText addressVoteMagic) 1 stampedVoter).2 5).encard = 1 := by
  have hstart : VoteRun votingBackend stampedVoter := .start (fun _ _ => rfl) (fun _ => rfl) (fun _ => rfl)
  have hcount := ((address_votes_counted (hstart.call 7 (Bytes.ofText addressVoteMagic) 1 (by decide))).1 5).1
  rw [hcount]
  have hone : addressVoteCount (processAddressVote votingBackend 7 (Bytes.ofText addressVoteMagic) 1 stampedVoter).2 5 = 1 := by
    decide +kernel
  rw [hone]
  rfl

end TkmChain
