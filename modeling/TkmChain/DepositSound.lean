import TkmChain.Deposit
import TkmChain.ProverPayoutSound

/-!
# Available deposits and receipts

A note becomes available once its witness is complete, and for the later versions there is
nothing to complete. Neither the submission nor the refresh of a record asks whether the
transaction succeeded, so the answers of the node decide.
-/

namespace TkmChain.Prover

open List

structure Backed (s : DepositState) : Prop where
  notes : ∀ note ∈ s.notes, note.status = .available → note.createdTxHash ∈ s.reported
  deposits : ∀ id record, s.deposits id = some record → record.status = .available → record.txHash ∈ s.reported

def BackedAnswer (r : DepositResponse × Option String × DepositState) : Prop :=
  Backed r.2.2 ∧ (r.1.status = .available → r.1.txHash ∈ r.2.2.reported)

variable
  {record : DepositRecord} {note : ShieldedNote} {notes : List ShieldedNote} {amountWei : Nat} {txHash error : String}
  {status : DepositStatus}

/-! ## The witness of a note -/

def CommitmentPath.complete (path : CommitmentPath) : Bool :=
  path.found ∧ path.merklePath.length = merkleDepth ∧ path.merklePathIndex.length = merkleDepth

def witnessed (replies : DepositReplies) (version : Nat) : Bool :=
  if 4 ≤ version then true
  else
    match replies.commitmentPath with
    | .error _ => false
    | .ok path => path.complete

def completes (replies : DepositReplies) (note : ShieldedNote) : Bool :=
  if 4 ≤ note.version then note.status ≠ .available
  else
    match replies.commitmentPath with
    | .error _ => false
    | .ok path => path.complete ∧ (note.status ≠ .available ∨ path.root ≠ note.merkleRoot)

@[simp] theorem finalizeNoteWitness_createdTxHash : (finalizeNoteWitness lib replies note txHash).createdTxHash = txHash := by
  unfold finalizeNoteWitness
  dsimp only
  split
  · rfl
  · split
    · rfl
    · split <;> rfl

theorem CommitmentPath.complete_iff {path : CommitmentPath} : path.complete = true ↔
    ¬ (path.found = false ∨ path.merklePath.length ≠ merkleDepth ∨ path.merklePathIndex.length ≠ merkleDepth) := by
  simp [CommitmentPath.complete]

theorem finalizeNoteWitness_available :
    (finalizeNoteWitness lib replies note txHash).status = .available ↔ witnessed replies note.version = true := by
  by_cases hversion : 4 ≤ note.version
  · simp [finalizeNoteWitness, witnessed, hversion]
  · cases hpath : replies.commitmentPath with
    | error e => simp [finalizeNoteWitness, witnessed, hversion, hpath]
    | ok path =>
      simp only [finalizeNoteWitness, witnessed, hversion, hpath, if_false, CommitmentPath.complete_iff]
      split <;> simp_all

theorem completes_iff (lib : DepositLibrary) (txHash : String) : completes replies note = true ↔
    (finalizeNoteWitness lib replies note txHash).status = .available ∧
      ¬ ((finalizeNoteWitness lib replies note txHash).status = note.status ∧
        (finalizeNoteWitness lib replies note txHash).merkleRoot = note.merkleRoot) := by
  by_cases hversion : 4 ≤ note.version
  · simp [finalizeNoteWitness, completes, hversion, @eq_comm _ DepositStatus.available]
  · cases hpath : replies.commitmentPath with
    | error e => simp [finalizeNoteWitness, completes, hversion, hpath]
    | ok path =>
      simp only [finalizeNoteWitness, completes, hversion, hpath, if_false, decide_eq_true_iff,
        CommitmentPath.complete_iff]
      split
      · simp_all
      · simp_all [imp_iff_not_or, @eq_comm _ DepositStatus.available]

/-! ## The files -/

theorem mem_replaced (h : other ∈ note :: notes) : other = note ∨ other ∈ first :: notes :=
  (mem_cons.mp h).imp_right (mem_cons_of_mem first)

theorem mem_kept (h : other ∈ first :: notes')
    (hrest : other ∈ notes' → other = note ∨ other ∈ notes) : other = note ∨ other ∈ first :: notes := by
  cases mem_cons.mp h with
  | inl heq => exact .inr (heq ▸ mem_cons_self)
  | inr hmem => exact (hrest hmem).imp_right (mem_cons_of_mem first)

theorem mem_appendOrReplaceNote (h : other ∈ appendOrReplaceNote lib note notes) : other = note ∨ other ∈ notes := by
  induction notes with
  | nil => exact .inl (mem_singleton.mp h)
  | cons first rest ih =>
    rw [appendOrReplaceNote] at h
    split at h
    · exact mem_replaced h
    · exact mem_kept h ih

theorem mem_replaceNote (h : other ∈ replaceNote lib record note notes) : other = note ∨ other ∈ notes := by
  induction notes with
  | nil => cases h
  | cons first rest ih =>
    rw [replaceNote] at h
    split at h
    · exact mem_replaced h
    · exact mem_kept h ih

theorem Backed.setNotes (h : Backed s) (hnotes : ∀ other ∈ notes, other = note ∨ other ∈ s.notes)
    (hnote : note.status = .available → note.createdTxHash ∈ s.reported) : Backed { s with notes := notes } where
  notes other hother havailable := by
    cases hnotes other hother with
    | inl heq =>
      subst heq
      exact hnote havailable
    | inr hmem => exact h.notes other hmem havailable
  deposits := h.deposits

theorem Backed.report (h : Backed s) (hashes : List String) : Backed { s with reported := hashes ++ s.reported } where
  notes other hother havailable := mem_append_right hashes (h.notes other hother havailable)
  deposits id record hrecord havailable := mem_append_right hashes (h.deposits id record hrecord havailable)

theorem Backed.setDeposit (h : Backed s) (hrecord : record.status = .available → record.txHash ∈ s.reported)
    (id : String) : Backed { s with deposits := Function.update s.deposits id (some record) } where
  notes := h.notes
  deposits other record' hother havailable := by
    by_cases heq : other = id
    · subst heq
      cases (Function.update_self other (some record) s.deposits).symm.trans hother
      exact hrecord havailable
    · exact h.deposits other record' ((Function.update_of_ne heq _ _).symm.trans hother) havailable

theorem Backed.recordDeposit (h : Backed s) (hstatus : status = .available → txHash ∈ s.reported) :
    Backed (recordDeposit replies s req note amountWei txHash status error) := by
  unfold Prover.recordDeposit
  dsimp only
  split
  · refine h.setDeposit (fun havailable => hstatus ?_) req.requestID
    dsimp only at havailable
    split at havailable
    · cases havailable
    · exact havailable
  · exact h

@[simp] theorem recordDeposit_reported :
    (recordDeposit replies s req note amountWei txHash status error).reported = s.reported := by
  unfold recordDeposit
  dsimp only
  split <;> rfl

/-! ## Submissions -/

def submissionReported (replies : DepositReplies) (s : DepositState) : Bool :=
  match replies.writeProcessing, signDeposit replies, replies.sendTransactionSync with
  | .done, .ok _, .receipt txHash false =>
    ¬ (replies.readNotes = none ∧ replies.writeNotes = none ∧ witnessed replies replies.submitVersion) ∨
      txHash ∈ s.reported
  | _, _, _ => true

theorem submitDeposit_unconfirmed (h : Backed s)
    (hbuild : buildSignSubmitDeposit lib replies req = (txHash, note, some error)) (hstatus : note.status ≠ .available) :
    BackedAnswer (submitDeposit lib replies s req amountWei) := by
  have hreports := h.report (reports replies)
  simp only [submitDeposit, hbuild]
  split
  · refine ⟨Backed.recordDeposit ?_ fun havailable => absurd havailable hstatus,
      fun havailable => absurd havailable hstatus⟩
    split
    · exact hreports.setNotes (fun _ => mem_appendOrReplaceNote) fun havailable => absurd havailable hstatus
    · exact hreports
  · exact ⟨hreports.recordDeposit nofun, fun havailable => absurd havailable hstatus⟩

theorem submitDeposit_confirmed (h : Backed s)
    (hbuild : buildSignSubmitDeposit lib replies req = (txHash, note, none)) (hcreated : note.createdTxHash = txHash)
    (hstatus : replies.readNotes = none → replies.writeNotes = none → note.status = .available →
      txHash ∈ reports replies ++ s.reported) :
    BackedAnswer (submitDeposit lib replies s req amountWei) := by
  have hreports := h.report (reports replies)
  simp only [submitDeposit, hbuild]
  split
  · exact ⟨hreports.recordDeposit nofun, nofun⟩
  · exact ⟨hreports.recordDeposit nofun, nofun⟩
  · rename_i hread hwrite
    have havailable := hstatus hread hwrite
    refine ⟨Backed.recordDeposit ?_ havailable, ?_⟩
    · exact hreports.setNotes (fun _ => mem_appendOrReplaceNote) (hcreated ▸ havailable)
    · rw [recordDeposit_reported]
      exact havailable

theorem buildSignSubmitDeposit_receipt (hsigned : signDeposit replies = .ok built)
    (hsend : replies.sendTransactionSync = .receipt txHash successful) :
    buildSignSubmitDeposit lib replies req =
      (txHash, finalizeNoteWitness lib replies (built.note req replies.submitVersion) txHash, none) := by
  simp only [buildSignSubmitDeposit, hsigned, hsend]

theorem submitDeposit_backed (h : Backed s) (hdone : replies.writeProcessing = .done)
    (hreported : submissionReported replies s = true) : BackedAnswer (submitDeposit lib replies s req amountWei) := by
  cases hsigned : signDeposit replies with
  | error e =>
    have hbuild : buildSignSubmitDeposit lib replies req = ("", .empty, some e) := by
      simp only [buildSignSubmitDeposit, hsigned]
    exact submitDeposit_unconfirmed h hbuild nofun
  | ok built =>
    cases hsend : replies.sendTransactionSync with
    | failed e =>
      have hbuild : buildSignSubmitDeposit lib replies req =
          (built.hash, built.note req replies.submitVersion, some e) := by
        simp only [buildSignSubmitDeposit, hsigned, hsend]
      exact submitDeposit_unconfirmed h hbuild nofun
    | nil =>
      have hbuild : buildSignSubmitDeposit lib replies req =
          (built.hash, built.note req replies.submitVersion, some "nil receipt") := by
        simp only [buildSignSubmitDeposit, hsigned, hsend]
      exact submitDeposit_unconfirmed h hbuild nofun
    | receipt hash successful =>
      apply submitDeposit_confirmed h (buildSignSubmitDeposit_receipt hsigned hsend) finalizeNoteWitness_createdTxHash
      intro hread hwrite havailable
      have hwitnessed : witnessed replies replies.submitVersion = true := finalizeNoteWitness_available.mp havailable
      cases successful with
      | true => simp [reports, hsigned, hsend]
      | false =>
        simpa [submissionReported, reports, hdone, hsigned, hsend, hread, hwrite, hwitnessed] using hreported

theorem startDeposit_backed (h : Backed s) (hreported : submissionReported replies s = true) :
    BackedAnswer (startDeposit lib replies s req amountWei) := by
  have hprocessing : Backed { s with
      deposits := Function.update s.deposits req.requestID
        (some ⟨req, .processing, "", "", "", "", toString amountWei⟩) } := h.setDeposit (by nofun) req.requestID
  unfold startDeposit
  dsimp only
  split
  · refine ⟨?_, nofun⟩
    split
    · exact hprocessing
    · exact h
  · rename_i hdone
    exact submitDeposit_backed hprocessing hdone hreported

theorem startDeposit_unreported (h : submissionReported replies s = false) :
    ¬ BackedAnswer (startDeposit lib replies s req amountWei) := by
  unfold submissionReported at h
  split at h
  · rename_i built hash hdone hsigned hsend
    simp only [decide_eq_false_iff_not, not_or, not_not] at h
    obtain ⟨⟨hread, hwrite, hwitnessed⟩, hunreported⟩ := h
    have havailable : (finalizeNoteWitness lib replies (built.note req replies.submitVersion) hash).status = .available :=
      finalizeNoteWitness_available.mpr hwitnessed
    simp only [startDeposit, hdone, submitDeposit, buildSignSubmitDeposit_receipt hsigned hsend, hread, hwrite,
      BackedAnswer, recordDeposit_reported, havailable, reports, hsigned, hsend, nil_append, true_imp_iff]
    exact fun hanswer => hunreported hanswer.2
  · cases h

/-! ## Refreshes -/

def refreshReported (lib : DepositLibrary) (replies : DepositReplies) (s : DepositState) (record : DepositRecord) : Bool :=
  if record.commitment = "" ∨ record.status = .available ∨ replies.readNotes ≠ none ∨ replies.writeNotes ≠ none then true
  else
    match s.notes.find? (noteOf lib record) with
    | none => true
    | some note => completes replies note = false ∨ record.txHash ∈ s.reported

theorem refreshDepositRecord_cases (lib : DepositLibrary) (replies : DepositReplies) (s : DepositState)
    (req : DepositRequest) (record : DepositRecord) (amountWei : Nat) :
    refreshDepositRecord lib replies s req record amountWei = (depositRecordResponse lib record, s) ∨
    ∃ note finalized, finalized = finalizeNoteWitness lib replies note record.txHash ∧
      record.commitment ≠ "" ∧ record.status ≠ .available ∧ replies.readNotes = none ∧ replies.writeNotes = none ∧
      s.notes.find? (noteOf lib record) = some note ∧
      ¬ (finalized.status = note.status ∧ finalized.merkleRoot = note.merkleRoot) ∧
      refreshDepositRecord lib replies s req record amountWei =
        (⟨record.txHash, finalized.status, finalized.id, finalized.commitment, lib.trimSpace record.amountWei, ""⟩,
          recordDeposit replies { s with notes := replaceNote lib record finalized s.notes } req finalized amountWei
            record.txHash finalized.status "") := by
  by_cases hskip : record.commitment = "" ∨ record.status = .available
  · exact .inl (by simp only [refreshDepositRecord, hskip, if_true])
  · cases hread : replies.readNotes with
    | some e => exact .inl (by simp only [refreshDepositRecord, hskip, if_false, hread])
    | none =>
      cases hfind : s.notes.find? (noteOf lib record) with
      | none => exact .inl (by simp only [refreshDepositRecord, hskip, if_false, hread, hfind])
      | some note =>
        by_cases hsame : (finalizeNoteWitness lib replies note record.txHash).status = note.status ∧
            (finalizeNoteWitness lib replies note record.txHash).merkleRoot = note.merkleRoot
        · exact .inl (by simp only [refreshDepositRecord, hskip, if_false, hread, hfind, hsame, and_self, if_true])
        · cases hwrite : replies.writeNotes with
          | some e => exact .inl (by simp only [refreshDepositRecord, hskip, if_false, hread, hfind, hsame, hwrite])
          | none =>
            obtain ⟨hcommitment, hstatus⟩ := not_or.mp hskip
            refine .inr ⟨note, _, rfl, hcommitment, hstatus, rfl, rfl, rfl, hsame, ?_⟩
            simp only [refreshDepositRecord, hskip, if_false, hread, hfind, hsame, hwrite, depositRecordResponse]

theorem refreshDepositRecord_backed (h : Backed s) (hrecord : record.status = .available → record.txHash ∈ s.reported)
    (hreported : refreshReported lib replies s record = true) :
    BackedAnswer ((refreshDepositRecord lib replies s req record amountWei).1, none,
      (refreshDepositRecord lib replies s req record amountWei).2) := by
  obtain heq | ⟨note, finalized, hfinalized, hcommitment, hstatus, hread, hwrite, hfind, hchanged, heq⟩ :=
    refreshDepositRecord_cases lib replies s req record amountWei
  · rw [heq]
    exact ⟨h, hrecord⟩
  · have havailable : finalized.status = .available → record.txHash ∈ s.reported := by
      intro hnew
      subst hfinalized
      have hcompletes : completes replies note = true := (completes_iff lib record.txHash).mpr ⟨hnew, hchanged⟩
      simpa [refreshReported, hcommitment, hstatus, hread, hwrite, hfind, hcompletes] using hreported
    have hcreated : finalized.createdTxHash = record.txHash := by
      rw [hfinalized, finalizeNoteWitness_createdTxHash]
    rw [heq]
    refine ⟨Backed.recordDeposit ?_ havailable, ?_⟩
    · exact h.setNotes (fun _ => mem_replaceNote) (hcreated ▸ havailable)
    · rw [recordDeposit_reported]
      exact havailable

theorem refreshDepositRecord_unreported (h : refreshReported lib replies s record = false) :
    ¬ BackedAnswer ((refreshDepositRecord lib replies s req record amountWei).1, none,
      (refreshDepositRecord lib replies s req record amountWei).2) := by
  unfold refreshReported at h
  split at h
  · cases h
  · rename_i hskip
    split at h
    · cases h
    · rename_i note hfind
      simp only [not_or, not_not] at hskip
      obtain ⟨hcommitment, hstatus, hread, hwrite⟩ := hskip
      simp only [decide_eq_false_iff_not, not_or, Bool.not_eq_false] at h
      obtain ⟨hcompletes, hunreported⟩ := h
      obtain ⟨havailable, hchanged⟩ := (completes_iff lib record.txHash).mp hcompletes
      simp only [refreshDepositRecord, hcommitment, hstatus, hread, hwrite, hfind, hchanged, or_self, if_false,
        BackedAnswer, recordDeposit_reported]
      exact fun hanswer => hunreported (hanswer.2 havailable)

/-! ## Calls and runs -/

structure DepositCall where
  req : DepositRequest
  replies : DepositReplies

def depositStep (lib : DepositLibrary) (s : DepositState) (c : DepositCall) : DepositState :=
  (processDeposit lib c.replies s c.req).2.2

def receiptReported (lib : DepositLibrary) (s : DepositState) (c : DepositCall) : Bool :=
  let req := namedRequest lib c.replies c.req
  match checkDeposit lib c.replies req with
  | .error _ => true
  | .ok _ =>
    match s.deposits req.requestID with
    | none => submissionReported c.replies s
    | some record =>
      if record.txHash ≠ "" then refreshReported lib c.replies s record
      else if record.status = .processing then true
      else submissionReported c.replies s

theorem processDeposit_backed (h : Backed s) (hreported : receiptReported lib s c = true) :
    BackedAnswer (processDeposit lib c.replies s c.req) := by
  unfold receiptReported at hreported
  unfold processDeposit
  dsimp only at hreported ⊢
  split
  · exact ⟨h, nofun⟩
  · rename_i amountWei hcheck
    rw [hcheck] at hreported
    split
    · rename_i hrecord
      rw [hrecord] at hreported
      exact startDeposit_backed h hreported
    · rename_i record hrecord
      rw [hrecord] at hreported
      dsimp only at hreported
      split
      · rename_i htx
        rw [if_pos htx] at hreported
        exact refreshDepositRecord_backed h (h.deposits _ record hrecord) hreported
      · rename_i htx
        rw [if_neg htx] at hreported
        split
        · exact ⟨h, h.deposits _ record hrecord⟩
        · rename_i hprocessing
          rw [if_neg hprocessing] at hreported
          exact startDeposit_backed h hreported

theorem processDeposit_unreported (hreported : receiptReported lib s c = false) :
    ¬ BackedAnswer (processDeposit lib c.replies s c.req) := by
  unfold receiptReported at hreported
  unfold processDeposit
  dsimp only at hreported ⊢
  cases hcheck : checkDeposit lib c.replies (namedRequest lib c.replies c.req) with
  | error e =>
    rw [hcheck] at hreported
    cases hreported
  | ok amountWei =>
    rw [hcheck] at hreported
    dsimp only at hreported ⊢
    cases hrecord : s.deposits (namedRequest lib c.replies c.req).requestID with
    | none =>
      rw [hrecord] at hreported
      exact startDeposit_unreported hreported
    | some record =>
      rw [hrecord] at hreported
      dsimp only at hreported ⊢
      split at hreported
      · rename_i htx
        rw [if_pos htx]
        exact refreshDepositRecord_unreported hreported
      · rename_i htx
        rw [if_neg htx]
        split at hreported
        · cases hreported
        · rename_i hprocessing
          rw [if_neg hprocessing]
          exact startDeposit_unreported hreported

theorem deposits_backed (h : Backed s) (hall : Run.all (depositStep lib) (receiptReported lib) s calls = true) :
    Backed (calls.foldl (depositStep lib) s) :=
  Run.invariant (fun _ _ hs hc => (processDeposit_backed hs hc).1) h hall

/-- Every answer and every stored note of a run that says available has a successful receipt,
exactly when no call takes an unconfirmed transaction for a confirmed one. -/
theorem available_reported_iff (lib : DepositLibrary) (s : DepositState) (calls : List DepositCall) (h : Backed s) :
    (∀ pre c post, calls = pre ++ c :: post →
      BackedAnswer (processDeposit lib c.replies (pre.foldl (depositStep lib) s) c.req)) ↔
    Run.all (depositStep lib) (receiptReported lib) s calls = true := by
  constructor
  · intro hanswers
    rw [Run.all_iff]
    intro pre c post hcalls
    by_contra hreported
    exact processDeposit_unreported (Bool.eq_false_of_not_eq_true hreported) (hanswers pre c post hcalls)
  · intro hall pre c post hcalls
    subst hcalls
    have hpre : Backed (pre.foldl (depositStep lib) s) := deposits_backed h (Run.all_of_append hall)
    exact processDeposit_backed hpre (Run.all_iff.mp hall pre c post rfl)

def plainDeposits : DepositLibrary where
  toLibrary := plainLibrary
  formatFloat amount := amount
  parseDecimalBig _ := none
  fieldElement _ := ""

def plainDeposit : DepositRequest := ⟨"deposit-1", none, "50", "", none⟩

/-- Files that can be written, and a Shield4 note signed in a transaction that gets the given answer. -/
def depositReplies (answer : SyncReply) : DepositReplies where
  shieldVersion := 4
  randomID := ""
  now := ""
  writeProcessing := .done
  chainID := .ok 1
  submitVersion := 4
  build _ := .ok ⟨"0x1", "0xc", "", "", "50", "1"⟩
  sendTransactionSync := answer
  commitmentPath := .error "unknown"
  readNotes := none
  writeNotes := none
  writeRecord := .done

def noDeposits : DepositState := ⟨fun _ => none, [], []⟩

theorem available_reported_iff_successful :
    BackedAnswer (processDeposit plainDeposits (depositReplies (.receipt "0x1" true)) noDeposits plainDeposit) :=
  (available_reported_iff plainDeposits noDeposits [⟨plainDeposit, depositReplies (.receipt "0x1" true)⟩]
    ⟨nofun, nofun⟩).mpr (by decide +kernel) [] _ [] rfl

/-- The first call times out and the second one finds the note available; a failed receipt is enough too. -/
theorem available_without_receipt :
    let timeout := depositReplies (.failed "timeout")
    let failed := depositReplies (.receipt "0x1" false)
    let retry := processDeposit plainDeposits timeout
      (depositStep plainDeposits noDeposits ⟨plainDeposit, timeout⟩) plainDeposit
    let reverted := processDeposit plainDeposits failed noDeposits plainDeposit
    retry.1.status = .available ∧ retry.2.2.notes.map (·.status) = [.available] ∧ retry.2.2.reported = [] ∧
      reverted.1.status = .available ∧ reverted.2.2.reported = [] := by
  decide +kernel

end TkmChain.Prover
