import TkmChain.NoteSelectionSound
import TkmChain.ProverPayoutSound

/-!
# What note preparation achieves

A preparation merges the largest notes into one. The confirmation of a preparation asks for
the whole target at once, so the first merge has to be enough. With Shield5 no preparation is
ever built.
-/

namespace TkmChain.Prover

variable {saved : NotePreparationRecord}

open Script

variable {lib : Library} {replies : Replies} {α β : Type}

/-! ## Calls -/

theorem call_ok_bind (h : x = .ok a) (f : α → Prog β) : (call x >>= f) = f a := by
  subst h
  rfl

theorem refuseIf_bind {_ : Decidable bad} (h : ¬ bad) (text : String) (f : Unit → Prog β) :
    (refuseIf bad text >>= f) = f () :=
  stopIf_bind h _ f

def Refused (p : Prog α) : Prop := ∃ text, p.result = .error (.error text)

theorem refused_call {x : Except String α} {f : α → Prog β} (h : ∀ a, x = .ok a → Refused (f a)) :
    Refused (call x >>= f) := by
  cases x with
  | error e => exact ⟨e, rfl⟩
  | ok a =>
    rw [call_ok_bind rfl]
    exact h a rfl

theorem refused_refuseIf {bad : Prop} {_ : Decidable bad} {text : String} {f : Unit → Prog β}
    (h : ¬ bad → Refused (f ())) : Refused (refuseIf bad text >>= f) := by
  by_cases hbad : bad
  · refine ⟨text, ?_⟩
    unfold refuseIf stopIf failIf
    rw [if_pos hbad]
    rfl
  · rw [refuseIf_bind hbad]
    exact h hbad

theorem submitNativeRecord_sent
    (hdecode : lib.hexDecode signedTransaction = .ok raw) (hunmarshal : lib.unmarshalBinary raw = .ok tx)
    (htype : tx.type = pqTkmTxType) (hversion : tx.version = some 3 ∨ tx.version = some 4)
    (hsend : replies.sendTransaction tx = none) :
    submitNativeRecord lib replies request tx.hash signedTransaction = ⟨[.send request tx], .ok tx.hash⟩ := by
  have hsaved : ¬ (tx.type ≠ pqTkmTxType ∨
      (tx.version ≠ some 3 ∧ tx.version ≠ some 4 ∧ tx.version ≠ some 5)) := by
    rintro (h | ⟨h3, h4, -⟩)
    · exact h htype
    · exact hversion.elim h3 h4
  rw [submitNativeRecord, call_ok_bind hdecode, call_ok_bind hunmarshal, refuseIf_bind hsaved,
    refuseIf_bind (not_not.mpr rfl), hsend]
  rfl

namespace Setting

variable {x : Setting} {s : NoteState} {r : PreparationReplies}

theorem submitPreparation_pending (h : x.Honest s r)
    (hversion : x.version = 4 ∨ x.version = 3) (hselect : selectNotes s.notes amount = .ok chosen) (db : RequestDB) :
    ∃ saved tx, saved.chainID = x.id.chainID ∧ saved.signer = x.id.address ∧
      submitPreparation x.lib r.toReplies x.id x.version db amount false =
        ⟨[.assign { db with notePreparation := some saved }, .write true, .send none tx],
          .error (.pending saved.txHash saved.privacyBoundary)⟩ := by
  obtain ⟨price, balance, hprice, hbalance, hgas⟩ := h.gas
  obtain ⟨nonce, hnonce, hpending⟩ := h.nonces
  obtain ⟨self, hself, hbuilds⟩ := h.builds (by omega)
  obtain ⟨tx, signed, raw, hbuild, hvalid, hsign, hdecode, hunmarshal, htype, hsigned, hsend⟩ :=
    hbuilds amount chosen hselect
  have hsupported : ¬ (x.version ≠ 4 ∧ x.version ≠ 3) := by omega
  refine ⟨⟨.privatePayment, x.id.chainID, x.id.address, signed.hash, x.lib.hexEncode raw⟩, signed, rfl, rfl, ?_⟩
  rw [submitPreparation, call_ok_bind hprice, call_ok_bind hbalance]
  -- the kernel must not evaluate the fee
  generalize price * walletGas = fee at hgas ⊢
  have hfunds : ¬ balance < fee * 2 + if false = true then amount else 0 := by
    rw [if_neg Bool.false_ne_true, Nat.add_zero]
    exact hgas.not_gt
  rw [refuseIf_bind hfunds, call_ok_bind hnonce, call_ok_bind hpending, refuseIf_bind (not_not.mpr rfl),
    call_ok_bind hself, refuseIf_bind hsupported, call_ok_bind hbuild, if_neg Bool.false_ne_true, call_ok_bind hvalid,
    call_ok_bind hsign]
  dsimp only
  rw [call_ok_bind rfl, h.writePreparation, submitNativeRecord_sent hdecode hunmarshal htype hsigned hsend]
  rfl

theorem submitPreparation_unsupported (r : PreparationReplies) (hversion : x.version = 5) (db : RequestDB) (amount : Nat) :
    Refused (submitPreparation x.lib r.toReplies x.id x.version db amount false) := by
  have hunsupported : x.version ≠ 4 ∧ x.version ≠ 3 := by omega
  unfold submitPreparation
  refine refused_call fun price _ => refused_call fun balance _ => ?_
  refine refused_refuseIf fun _ => refused_call fun confirmed _ => refused_call fun pending _ => ?_
  refine refused_refuseIf fun _ => refused_call fun self _ => ?_
  exact refused_refuseIf fun hsupported => absurd hunsupported hsupported

/-! ## The notes after a preparation -/

structure Payable (x : Setting) (notes : List OwnedNote) : Prop where
  spendable : Spendable notes
  pos : 0 < x.target
  cap : x.target ≤ maxSendWei
  total : x.target ≤ (notes.map (·.valueWei)).sum

def Enough (x : Setting) (notes : List OwnedNote) : Prop := x.target ≤ ((sortedValues notes).take x.inputLimit).sum

theorem plan_enough (h : x.Payable notes) (henough : x.Enough notes) :
    planPreparation x.lib x.cfg notes x.target x.inputLimit = .ok none := by
  unfold planPreparation inputLimit
  rw [privateNotePreparation_enough h.spendable h.pos h.cap henough]
  rfl

theorem plan_more (h : x.Payable notes) (hmore : ¬ x.Enough notes) :
    planPreparation x.lib x.cfg notes x.target x.inputLimit =
      .ok (some (((sortedValues notes).take x.inputLimit).sum, false)) := by
  unfold planPreparation inputLimit
  rw [privateNotePreparation_more h.spendable h.pos h.cap h.total (not_le.mp hmore)]
  rfl

section
variable (h : x.Honest s r) (hjournal : s.db.notePreparation = none)
include h hjournal

theorem script_settled :
    x.script s r = call (planPreparation x.lib x.cfg s.notes x.target x.inputLimit) >>= fun plan =>
      match plan with
      | none => pure s.db
      | some (amount, deposit) => submitPreparation x.lib r.toReplies x.id x.version s.db amount deposit := by
  rw [script, preparePrivateNotes, settlePreparation, hjournal, Script.pure_bind, call_ok_bind h.scan]
  rfl

theorem script_enough (hpay : x.Payable s.notes)
    (henough : x.Enough s.notes) : x.script s r = ⟨[], .ok s.db⟩ := by
  rw [script_settled h hjournal, call_ok_bind (plan_enough hpay henough)]
  rfl

theorem script_unsupported (hpay : x.Payable s.notes)
    (hmore : ¬ x.Enough s.notes) (hversion : x.version = 5) : Refused (x.script s r) := by
  rw [script_settled h hjournal, call_ok_bind (plan_more hpay hmore)]
  exact submitPreparation_unsupported r hversion s.db _

end

theorem inputLimit_eq (hversion : x.version = 4 ∨ x.version = 3) : x.inputLimit = inputSlots := by
  unfold inputLimit shieldInputLimit
  rw [if_neg (by omega)]

theorem two_le_inputLimit (x : Setting) : 2 ≤ x.inputLimit := by
  unfold inputLimit shieldInputLimit
  split <;> decide

theorem length_lt (hpay : x.Payable notes) (hmore : ¬ x.Enough notes) : x.inputLimit < notes.length := by
  by_contra hle
  apply hmore
  rw [Enough, List.take_of_length_le (by simpa using hle), sum_sortedValues]
  exact hpay.total

theorem sum_lt (hpay : x.Payable notes) (hmore : ¬ x.Enough notes) :
    ((sortedValues notes).take x.inputLimit).sum < 2 ^ 256 :=
  (not_le.mp hmore).trans (hpay.cap.trans_lt (by decide))

theorem selectNotes_planned (hversion : x.version = 4 ∨ x.version = 3) (hpay : x.Payable notes)
    (hmore : ¬ x.Enough notes) : selectNotes notes ((sortedValues notes).take x.inputLimit).sum =
      .ok ((largestFirst notes).take x.inputLimit) := by
  have hlen := length_lt hpay hmore
  have hlt := sum_lt hpay hmore
  rw [inputLimit_eq hversion] at hlen hlt ⊢
  exact selectNotes_largest hpay.spendable hlen hlt

theorem script_merges (h : x.Honest s r) (hjournal : s.db.notePreparation = none)
    (hversion : x.version = 4 ∨ x.version = 3) (hpay : x.Payable s.notes) (hmore : ¬ x.Enough s.notes) :
    ∃ saved tx, saved.chainID = x.id.chainID ∧ saved.signer = x.id.address ∧ x.script s r =
      ⟨[.assign { s.db with notePreparation := some saved }, .write true, .send none tx],
        .error (.pending saved.txHash saved.privacyBoundary)⟩ := by
  rw [script_settled h hjournal, call_ok_bind (plan_more hpay hmore)]
  exact submitPreparation_pending h hversion (selectNotes_planned hversion hpay hmore) s.db

section
variable (h : x.Honest s r) (hjournal : s.db.notePreparation = some saved) (hchain : saved.chainID = x.id.chainID)
  (hsigner : saved.signer = x.id.address)
include h hjournal hchain hsigner

theorem settlePreparation_saved :
    settlePreparation x.lib r.toReplies x.id x.target x.version s.db =
      call ((requirePreparedNoteCapacityWithLimit s.notes x.target x.inputLimit).mapError fun e =>
        s!"confirmed note preparation {saved.txHash} is not spendable; refusing duplicate funding: {e}") >>= fun _ =>
      ⟨[.assign { s.db with notePreparation := none }, .write true], .ok { s.db with notePreparation := none }⟩ := by
  obtain ⟨receipt, hreceipt, hsuccessful, hhead⟩ := h.mined saved hjournal
  have hown : ¬ (saved.chainID ≠ x.id.chainID ∨ saved.signer ≠ x.id.address) := by
    rw [not_or, not_not, not_not]
    exact ⟨hchain, hsigner⟩
  have hscan : (r.rescan.mapError fun e => s!"confirmed note preparation {saved.txHash}; rescan failed: {e}") =
      .ok s.notes := by
    rw [h.rescan]
    rfl
  rw [settlePreparation, hjournal]
  dsimp only
  rw [confirmPreparation, refuseIf_bind hown, hreceipt]
  dsimp only
  rw [call_ok_bind hhead, if_neg (not_not.mpr rfl), hsuccessful, if_neg (nofun : ¬ true = false), call_ok_bind hscan,
    h.writeConfirmed]
  rfl

theorem script_confirmed (hpay : x.Payable s.notes) (henough : x.Enough s.notes) :
    x.script s r =
      ⟨[.assign { s.db with notePreparation := none }, .write true], .ok { s.db with notePreparation := none }⟩ := by
  have hrequire : requirePreparedNoteCapacityWithLimit s.notes x.target x.inputLimit = .ok () :=
    (requirePreparedNoteCapacity_iff hpay.spendable hpay.pos hpay.cap).mpr henough
  rw [script, preparePrivateNotes, settlePreparation_saved h hjournal hchain hsigner,
    call_ok_bind (except_mapError_ok.mpr hrequire), ok_bind, call_ok_bind h.scan]
  rw [show shieldInputLimit x.version = x.inputLimit from rfl, call_ok_bind (plan_enough hpay henough)]
  rfl

theorem script_short (hpay : x.Payable s.notes) (hshort : ¬ x.Enough s.notes) :
    Refused (x.script s r) := by
  have hrequire : requirePreparedNoteCapacityWithLimit s.notes x.target x.inputLimit ≠ .ok () := fun hok =>
    hshort ((requirePreparedNoteCapacity_iff hpay.spendable hpay.pos hpay.cap).mp hok)
  rw [script, preparePrivateNotes, settlePreparation_saved h hjournal hchain hsigner]
  cases hcheck : requirePreparedNoteCapacityWithLimit s.notes x.target x.inputLimit with
  | ok => exact absurd hcheck hrequire
  | error e => exact ⟨_, rfl⟩

end

theorem minedNotes_merged (hversion : x.version = 4 ∨ x.version = 3) (hpay : x.Payable s.notes)
    (hmore : ¬ x.Enough s.notes) :
    IsMerged x.inputLimit r.payment s.notes (minedNotes s r ((sortedValues s.notes).take x.inputLimit).sum) := by
  have hpos : 0 < ((sortedValues s.notes).take x.inputLimit).sum :=
    sum_pos hpay.spendable (two_le_inputLimit x) ((two_le_inputLimit x).trans (length_lt hpay hmore).le)
  unfold IsMerged minedNotes
  rw [selectNotes_planned hversion hpay hmore]
  dsimp only
  rw [List.map_take, map_largestFirst, Nat.sub_self, List.filter_cons_of_pos (by simpa using hpos)]
  exact ((filter_largest hpay.spendable x.inputLimit).append_right _).trans List.perm_append_comm

/-! ## The states of a run -/

theorem next_enough (h : x.Honest s r) (hjournal : s.db.notePreparation = none) (hpay : x.Payable s.notes)
    (henough : x.Enough s.notes) : x.broadcasts s r = false ∧ x.next s r = s := by
  have hworld : x.world s r = .start s.db := by
    rw [world, script_enough h hjournal hpay henough]
    rfl
  have hsilent : x.broadcasts s r = false := by
    rw [broadcasts, hworld]
    rfl
  refine ⟨hsilent, ?_⟩
  rw [next, hsilent, hworld]
  rfl

theorem next_confirmed (h : x.Honest s r)
    (hjournal : s.db.notePreparation = some saved) (hchain : saved.chainID = x.id.chainID)
    (hsigner : saved.signer = x.id.address) (hpay : x.Payable s.notes) (henough : x.Enough s.notes) :
    x.broadcasts s r = false ∧ x.next s r = ⟨{ s.db with notePreparation := none }, s.notes⟩ := by
  have hworld : x.world s r = ⟨{ s.db with notePreparation := none }, { s.db with notePreparation := none }, []⟩ := by
    rw [world, script_confirmed h hjournal hchain hsigner hpay henough]
    rfl
  have hsilent : x.broadcasts s r = false := by
    rw [broadcasts, hworld]
    rfl
  refine ⟨hsilent, ?_⟩
  rw [next, hsilent, hworld]
  rfl

theorem next_merged (h : x.Honest s r) (hjournal : s.db.notePreparation = none)
    (hversion : x.version = 4 ∨ x.version = 3) (hpay : x.Payable s.notes) (hmore : ¬ x.Enough s.notes) :
    (∃ saved, (x.next s r).db.notePreparation = some saved ∧ saved.chainID = x.id.chainID ∧
      saved.signer = x.id.address) ∧ IsMerged x.inputLimit r.payment s.notes (x.next s r).notes := by
  obtain ⟨saved, tx, hchain, hsigner, hscript⟩ := script_merges h hjournal hversion hpay hmore
  have hworld : x.world s r =
      ⟨{ s.db with notePreparation := some saved }, { s.db with notePreparation := some saved }, [(none, tx)]⟩ := by
    rw [world, hscript]
    rfl
  have hsent : x.broadcasts s r = true := by
    rw [broadcasts, hworld]
    rfl
  constructor
  · refine ⟨saved, ?_, hchain, hsigner⟩
    rw [next, hworld]
  · have hmerged := minedNotes_merged (r := r) hversion hpay hmore
    rw [next, hsent, plan_more hpay hmore]
    exact hmerged

section
variable {commitment : BitVec 320} {notes' : List OwnedNote} (h : IsMerged x.inputLimit commitment notes notes')
  (hpay : x.Payable notes) (hmore : ¬ x.Enough notes)
include h hpay hmore

theorem merged_payable (hfresh : ∀ note ∈ notes, note.commitment ≠ commitment) : x.Payable notes' where
  spendable := h.spendable hpay.spendable (two_le_inputLimit x)
    ((two_le_inputLimit x).trans (length_lt hpay hmore).le) (sum_lt hpay hmore) hfresh
  pos := hpay.pos
  cap := hpay.cap
  total := h.total ▸ hpay.total

theorem merged_enough :
    x.Enough notes' ↔ x.target ≤ ((sortedValues notes).take (2 * x.inputLimit - 1)).sum := by
  rw [Enough, h.sum_take hpay.spendable (two_le_inputLimit x) ((two_le_inputLimit x).trans (length_lt hpay hmore).le)]

end

variable {replies : Nat → PreparationReplies}

section
variable (h : ∀ i, x.Honest (x.state s replies i) (replies i))
  (hjournal : (x.state s replies i).db.notePreparation = none) (hpay : x.Payable (x.state s replies i).notes)
  (henough : x.Enough (x.state s replies i).notes) (j : Nat)
include h hjournal hpay henough

theorem state_steady :
    x.state s replies (i + j) = x.state s replies i := by
  induction j with
  | zero => rfl
  | succ j ih =>
    have hnext := next_enough (h (i + j))
    rw [ih] at hnext
    have hsame := (hnext hjournal hpay henough).2
    rw [← Nat.add_assoc, state, ih]
    exact hsame

theorem quiet_enough :
    x.broadcasts (x.state s replies (i + j)) (replies (i + j)) = false ∧
      ∃ db, x.result (x.state s replies (i + j)) (replies (i + j)) = .ok db := by
  have hsteady := state_steady h hjournal hpay henough j
  have hhonest := h (i + j)
  rw [hsteady] at hhonest ⊢
  refine ⟨(next_enough hhonest hjournal hpay henough).1, (x.state s replies i).db, ?_⟩
  rw [result, script_enough hhonest hjournal hpay henough]

end

theorem finishes_enough (h : ∀ i, x.Honest (x.state s replies i) (replies i)) (hjournal : s.db.notePreparation = none)
    (hpay : x.Payable s.notes) (henough : x.Enough s.notes) : x.Finishes s replies := by
  have hquiet (i : Nat) := quiet_enough (i := 0) h hjournal hpay henough i
  simp only [Nat.zero_add] at hquiet
  refine ⟨fun i => .inl (hquiet i).2, fun i hsent => ?_, 0, ?_⟩
  · rw [(hquiet i).1] at hsent
    cases hsent
  · obtain ⟨db, hdb⟩ := (hquiet 0).2
    exact ⟨db, hdb, Nat.zero_le _⟩

theorem one_le_preparationSteps (hk : 2 ≤ k) (hn : k < n) : 1 ≤ preparationSteps n k := by
  rw [preparationSteps, Nat.le_div_iff_mul_le (by omega)]
  omega

theorem finishes_merged (h : ∀ i, x.Honest (x.state s replies i) (replies i)) (hjournal : s.db.notePreparation = none)
    (hversion : x.version = 4 ∨ x.version = 3) (hpay : x.Payable s.notes) (hmore : ¬ x.Enough s.notes)
    (hmerged : x.target ≤ ((sortedValues s.notes).take (2 * x.inputLimit - 1)).sum) : x.Finishes s replies := by
  -- the first call merges, the second one confirms, and then nothing changes
  obtain ⟨saved, tx, -, -, hscript⟩ := script_merges (h 0) hjournal hversion hpay hmore
  obtain ⟨⟨saved', hsaved, hchain, hsigner⟩, hnotes⟩ := next_merged (h 0) hjournal hversion hpay hmore
  have hpay' : x.Payable (x.state s replies 1).notes := merged_payable hnotes hpay hmore (h 0).fresh
  have henough : x.Enough (x.state s replies 1).notes := (merged_enough hnotes hpay hmore).mpr hmerged
  obtain ⟨hsilent, hstate⟩ := next_confirmed (h 1) hsaved hchain hsigner hpay' henough
  have hconfirmed : x.result (x.state s replies 1) (replies 1) =
      .ok { (x.state s replies 1).db with notePreparation := none } := by
    rw [result, script_confirmed (h 1) hsaved hchain hsigner hpay' henough]
  have hquiet (i : Nat) : x.broadcasts (x.state s replies (2 + i)) (replies (2 + i)) = false ∧
      ∃ db, x.result (x.state s replies (2 + i)) (replies (2 + i)) = .ok db := by
    have hstate' : x.state s replies 2 =
      ⟨{ (x.state s replies 1).db with notePreparation := none }, (x.state s replies 1).notes⟩ := hstate
    apply quiet_enough h <;> rw [hstate']
    · exact hpay'
    · exact henough
  refine ⟨fun i => ?_, fun i hsent => ?_, 1, _, hconfirmed, ?_⟩
  · match i with
    | 0 => exact .inr ⟨_, _, congrArg Script.result hscript⟩
    | 1 => exact .inl ⟨_, hconfirmed⟩
    | i + 2 => exact .inl (Nat.add_comm i 2 ▸ (hquiet i).2)
  · match i with
    | 0 => exact hnotes.merges (length_lt hpay hmore).le
    | 1 => exact absurd hsent (Bool.eq_false_iff.mp hsilent)
    | i + 2 => exact absurd hsent (Bool.eq_false_iff.mp (Nat.add_comm i 2 ▸ (hquiet i).1))
  · exact (List.countP_le_length).trans (one_le_preparationSteps (two_le_inputLimit x) (length_lt hpay hmore))

theorem Finishes.not_refused (h : x.Finishes s replies) (i : Nat) :
    ¬ Refused (x.script (x.state s replies i) (replies i)) := by
  rintro ⟨text, htext⟩
  obtain ⟨db, hok⟩ | ⟨hash, boundary, hpending⟩ := h.pending i
  · exact nomatch hok.symm.trans htext
  · exact nomatch hpending.symm.trans htext

end Setting

/-- Preparation works exactly when the largest notes already reach the target, or when it is
not for Shield5 and one merge is enough. -/
theorem preparation_finishes_iff (x : Setting) (s : NoteState) (replies : Nat → PreparationReplies)
    (hversion : x.version = 3 ∨ x.version = 4 ∨ x.version = 5) (hjournal : s.db.notePreparation = none)
    (hnotes : Spendable s.notes) (hpos : 0 < x.target) (hcap : x.target ≤ maxSendWei)
    (htotal : x.target ≤ (s.notes.map (·.valueWei)).sum)
    (hhonest : ∀ i, x.Honest (x.state s replies i) (replies i)) :
    x.Finishes s replies ↔
      x.target ≤ ((sortedValues s.notes).take x.inputLimit).sum ∨
        (x.version ≠ 5 ∧ x.target ≤ ((sortedValues s.notes).take (2 * x.inputLimit - 1)).sum) := by
  have hpay : x.Payable s.notes := ⟨hnotes, hpos, hcap, htotal⟩
  by_cases henough : x.Enough s.notes
  · exact iff_of_true (Setting.finishes_enough hhonest hjournal hpay henough) (.inl henough)
  · by_cases hfive : x.version = 5
    · have hrefused := Setting.script_unsupported (hhonest 0) hjournal hpay henough hfive
      refine iff_of_false (fun hfinishes => hfinishes.not_refused 0 hrefused) ?_
      exact not_or.mpr ⟨henough, fun hmerged => hmerged.1 hfive⟩
    · have hfour : x.version = 4 ∨ x.version = 3 := by omega
      obtain ⟨⟨saved, hsaved, hchain, hsigner⟩, hmerged⟩ :=
        Setting.next_merged (hhonest 0) hjournal hfour hpay henough
      by_cases hone : x.target ≤ ((sortedValues s.notes).take (2 * x.inputLimit - 1)).sum
      · exact iff_of_true (Setting.finishes_merged hhonest hjournal hfour hpay henough hone) (.inr ⟨hfive, hone⟩)
      · have hpay' := Setting.merged_payable hmerged hpay henough (hhonest 0).fresh
        have hshort := mt (Setting.merged_enough hmerged hpay henough).mp hone
        have hrefused := Setting.script_short (hhonest 1) hsaved hchain hsigner hpay' hshort
        refine iff_of_false (fun hfinishes => hfinishes.not_refused 1 hrefused) ?_
        exact not_or.mpr ⟨henough, fun hmerged => hone hmerged.2⟩

def plainSetting (target version : Nat) : Setting := ⟨plainLibrary, ⟨false, "", ""⟩, ⟨1, 0xb, "self"⟩, target, version⟩

def plainPreparation (notes : List OwnedNote) (payment : BitVec 320) : PreparationReplies where
  toReplies := { plainReplies 1 with
    transactionReceipt := fun _ => .found ⟨0, 0, true⟩
    rescan := .ok notes
    scan := .ok notes }
  payment := payment
  change := 0

def tens (n : Nat) : List OwnedNote := (List.range n).map fun i => ⟨BitVec.ofNat 320 (i + 1), 10⟩

def mergedTens : List OwnedNote := [⟨1, 10⟩, ⟨6, 40⟩]

def noPreparation (notes : List OwnedNote) : NoteState := ⟨⟨fun _ => none, none⟩, notes⟩

theorem plain_honest (hfresh : ∀ note ∈ s.notes, note.commitment ≠ payment) :
    (plainSetting target version).Honest s (plainPreparation s.notes payment) where
  scan := rfl
  rescan := rfl
  mined _ _ := ⟨⟨0, 0, true⟩, rfl, rfl, rfl⟩
  gas := ⟨1, 2 * walletGas, rfl, rfl, by rw [Nat.one_mul, Nat.mul_comm]⟩
  nonces := ⟨0, rfl, rfl⟩
  builds _ := ⟨⟨"0xa"⟩, rfl, fun _ _ _ =>
    ⟨plainTx 1, plainTx 1, [1], rfl, by rfl, rfl,
      (by rfl : plainLibrary.hexDecode (plainLibrary.hexEncode [1]) = .ok [1]), rfl, rfl, .inr rfl, rfl⟩⟩
  fresh := hfresh
  writeConfirmed := rfl
  writePreparation := rfl

def mergeReplies : Nat → PreparationReplies
  | 0 => plainPreparation (tens 5) 6
  | _ + 1 => plainPreparation mergedTens 7

theorem mergedTens_payable : (plainSetting 50 4).Payable mergedTens :=
  ⟨⟨by decide, by decide, by decide⟩, by decide, by decide, by rfl⟩

theorem mergedTens_enough : (plainSetting 50 4).Enough mergedTens := by
  unfold Setting.Enough
  rfl

theorem mergedTens_honest (h : s.notes = mergedTens) (i : Nat) :
    (plainSetting 50 4).Honest s (mergeReplies (i + 1)) := by
  have hsame : mergeReplies (i + 1) = plainPreparation s.notes 7 := by
    rw [h]
    rfl
  rw [hsame]
  apply plain_honest
  rw [h]
  decide

theorem state_mergeReplies (i : Nat) :
    ((plainSetting 50 4).state (noPreparation (tens 5)) mergeReplies (i + 1)).notes = mergedTens ∧
      (0 < i → ((plainSetting 50 4).state (noPreparation (tens 5)) mergeReplies (i + 1)).db.notePreparation = none) := by
  induction i with
  | zero => exact ⟨by rfl, nofun⟩
  | succ i ih =>
    obtain ⟨hnotes, hjournal⟩ := ih
    have hhonest := mergedTens_honest hnotes i
    have hpay := hnotes ▸ mergedTens_payable
    have henough := hnotes ▸ mergedTens_enough
    cases i with
    | zero =>
      have hsaved : ((plainSetting 50 4).state (noPreparation (tens 5)) mergeReplies 1).db.notePreparation =
          some ⟨.privatePayment, 1, 0xb, "0x01", "0x01"⟩ := by rfl
      rw [Setting.state, (Setting.next_confirmed hhonest hsaved rfl rfl hpay henough).2]
      refine ⟨?_, fun _ => rfl⟩
      dsimp only
      exact hnotes
    | succ i =>
      rw [Setting.state, (Setting.next_enough hhonest (hjournal (by omega)) hpay henough).2]
      exact ⟨hnotes, fun _ => hjournal (by omega)⟩

theorem mergeReplies_honest (i : Nat) : (plainSetting 50 4).Honest
    ((plainSetting 50 4).state (noPreparation (tens 5)) mergeReplies i) (mergeReplies i) := by
  cases i with
  | zero => exact plain_honest (s := noPreparation (tens 5)) (by decide)
  | succ i => exact mergedTens_honest (state_mergeReplies i).1 i

theorem preparation_finishes_iff_tens : (plainSetting 50 4).Finishes (noPreparation (tens 5)) mergeReplies :=
  (preparation_finishes_iff (plainSetting 50 4) (noPreparation (tens 5)) mergeReplies (.inr (.inl rfl)) rfl
    ⟨by decide, by decide, by decide⟩ (by decide) (by decide) (by rfl)
    mergeReplies_honest).mpr (.inr ⟨by decide, by rfl⟩)

/-- Eight notes of ten for a payment of eighty: the first merge leaves five notes, and the next call
refuses to go on. With Shield5 and seventeen notes the first call fails. -/
theorem second_merge_refused :
    let x := plainSetting 80 4
    let s := x.next (noPreparation (tens 8)) (plainPreparation (tens 8) 9)
    (x.result (noPreparation (tens 8)) (plainPreparation (tens 8) 9)).map (fun _ => ()) =
        .error (.pending "0x01" .privatePayment) ∧
      s.notes.map (·.valueWei) = [10, 10, 10, 10, 40] ∧
      (x.result s (plainPreparation s.notes 10)).map (fun _ => ()) = .error (.error ("confirmed note preparation 0x01 " ++
        "is not spendable; refusing duplicate funding: spendable note total is below the requested payout target")) ∧
      ((plainSetting 170 5).result (noPreparation (tens 17)) (plainPreparation (tens 17) 18)).map (fun _ => ()) =
        .error (.error "unsupported private note version") := by
  decide +kernel

end TkmChain.Prover
