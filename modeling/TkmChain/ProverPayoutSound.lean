import TkmChain.ProverPayout

/-!
# One payment for each payout request

The journal decides what may be sent for a request: nothing while it holds no signed record,
and the saved transaction from then on. This holds wherever a call stops. The handler of
panics replaces the record of its request, signed or not.
-/

namespace TkmChain.Prover

variable {txHash signed : String} {version : Nat}

open Script

def Signed (db : RequestDB) (request : String) (record : RequestRecord) : Prop :=
  db.requests request = some record ∧ record.signedTransaction ≠ ""

def Kept (w w' : World) : Prop := ∀ request record, Signed w.disk request record → w'.disk.requests request = some record

def savedTransaction (lib : Library) (signedTransaction : String) : Except String NativeTx := do
  let raw ← lib.hexDecode signedTransaction
  lib.unmarshalBinary raw

def Saved (lib : Library) (w : World) : Prop :=
  ∀ request tx, (some request, tx) ∈ w.sent →
    ∃ record, Signed w.disk request record ∧ savedTransaction lib record.signedTransaction = .ok tx

variable {lib : Library} {cfg : Config} {replies : Replies} {w w₀ : World} {db db' : RequestDB}
  {record : RequestRecord} {α β : Type}

theorem Kept.refl (w : World) : Kept w w := fun _ _ h => h.1

structure Along (lib : Library) (w₀ : World) (request : String) (w : World) : Prop where
  saved : Saved lib w
  kept : Kept w₀ w
  others : ∀ other, other ≠ request → w.memory.requests other = w.disk.requests other

structure Unsigned (lib : Library) (w₀ : World) (request : String) (db : RequestDB) (w : World) : Prop where
  saved : Saved lib w
  kept : Kept w₀ w
  memory : w.memory = db
  requests : db.requests = w.disk.requests
  unsigned : ∀ record, ¬ Signed w.disk request record

structure Stored (lib : Library) (w₀ : World) (request : String) (record : RequestRecord) (w : World) : Prop
    extends Along lib w₀ request w where
  signed : Signed w.disk request record

theorem Unsigned.along (h : Unsigned lib w₀ request db w) : Along lib w₀ request w where
  saved := h.saved
  kept := h.kept
  others := fun other _ => by rw [h.memory, h.requests]

/-! ## Rules -/

section
variable {P I : World → Prop} {R : β → World → Prop} {f : α → Prog β}

theorem triple_call (hI : ∀ w, P w → I w) (hf : ∀ a, x = .ok a → Triple exec P I (f a) R) :
    Triple exec P I (call x >>= f) R :=
  triple_bind (Q := fun _ => P) (triple_lift hI fun _ _ hw _ => hw) fun a ha => hf a (except_mapError_ok.mp ha)

theorem triple_refuseIf {bad : Prop} [Decidable bad] {text : String} {f : Unit → Prog β} (hI : ∀ w, P w → I w)
    (hf : Triple exec P I (f ()) R) : Triple exec P I (refuseIf bad text >>= f) R :=
  triple_bind (Q := fun _ => P) (triple_lift hI fun _ _ hw _ => hw) fun _ _ => hf

theorem triple_submit {purpose : Option String} (hI : ∀ w, P w → I w)
    (hsend : ∀ w tx, savedTransaction lib signed = .ok tx → P w → P (exec w (.send purpose tx))) :
    Triple exec P I (submitNativeRecord lib replies purpose txHash signed) fun _ => P := by
  refine triple_call hI fun raw hraw => triple_call hI fun tx htx => ?_
  refine triple_refuseIf hI (triple_refuseIf hI ?_)
  have hsaved : savedTransaction lib signed = .ok tx := except_bind_ok.mpr ⟨raw, hraw, htx⟩
  refine triple_bind (Q := fun _ => P) ?_ fun _ _ => triple_pure hI fun _ hw => hw
  exact triple_act hI (fun w hw => hI _ (hsend w tx hsaved hw)) fun w _ hw _ => hsend w tx hsaved hw

end

/-! ## Before the payment is signed -/

theorem Unsigned.send (h : Unsigned lib w₀ request db w) :
    Unsigned lib w₀ request db (exec w (.send none tx)) where
  saved := fun r tx' hmem => by
    rcases List.mem_cons.mp hmem with heq | hmem
    · cases heq
    · exact h.saved r tx' hmem
  kept := h.kept
  memory := h.memory
  requests := h.requests
  unsigned := h.unsigned

theorem triple_assign (hr : db'.requests = db.requests) :
    Triple exec (Unsigned lib w₀ request db) (Along lib w₀ request) (assign db') fun _ => Unsigned lib w₀ request db' := by
  have hassign (w : World) (h : Unsigned lib w₀ request db w) : Unsigned lib w₀ request db' (exec w (.assign db')) :=
    ⟨h.saved, h.kept, rfl, hr.trans h.requests, h.unsigned⟩
  exact triple_act (fun _ hw => hw.along) (fun w hw => (hassign w hw).along) fun w _ hw _ => hassign w hw

theorem triple_write :
    Triple exec (Unsigned lib w₀ request db) (Along lib w₀ request) (writeRequestDB written)
      fun _ => Unsigned lib w₀ request db := by
  have hwrite (w : World) (h : Unsigned lib w₀ request db w) :
      Unsigned lib w₀ request db (exec w (.write written.renamed)) := by
    cases hrenamed : written.renamed with
    | false => exact h
    | true =>
      have hdisk : w.memory.requests = w.disk.requests := by rw [h.memory, h.requests]
      refine ⟨?_, ?_, h.memory, by rw [← h.memory]; rfl, ?_⟩
      · intro r tx hmem
        obtain ⟨rec, hsigned, htx⟩ := h.saved r tx hmem
        exact ⟨rec, ⟨(congrFun hdisk r).trans hsigned.1, hsigned.2⟩, htx⟩
      · exact fun r rec hs => (congrFun hdisk r).trans (h.kept r rec hs)
      · exact fun rec hs => h.unsigned rec ⟨(congrFun hdisk request).symm.trans hs.1, hs.2⟩
  exact triple_act (fun _ hw => hw.along) (fun w hw => (hwrite w hw).along) fun w _ hw _ => hwrite w hw

theorem triple_submitPreparation :
    Triple exec (Unsigned lib w₀ request db) (Along lib w₀ request) (submitNativeRecord lib replies none txHash signed)
      fun _ => Unsigned lib w₀ request db :=
  triple_submit (fun _ hw => hw.along) fun _ _ _ hw => hw.send

theorem triple_confirm {id : Identity} {saved : NotePreparationRecord} :
    Triple exec (Unsigned lib w₀ request db) (Along lib w₀ request)
      (confirmPreparation lib replies id target version db saved) (Unsigned lib w₀ request) := by
  have halong (db : RequestDB) (w : World) (h : Unsigned lib w₀ request db w) : Along lib w₀ request w := h.along
  refine triple_refuseIf (halong db) ?_
  cases replies.transactionReceipt saved.txHash with
  | notFound => exact triple_bind triple_submitPreparation.mapError fun _ _ => triple_fail (halong db)
  | failed e => exact triple_fail (halong db)
  | found receipt =>
    refine triple_call (halong db) fun head _ => ?_
    dsimp only
    split
    · exact triple_fail (halong db)
    split
    · exact triple_bind (triple_assign rfl) fun _ _ => triple_bind triple_write fun _ _ => triple_fail (halong _)
    · refine triple_call (halong db) fun notes _ => triple_call (halong db) fun _ _ => ?_
      refine triple_bind (triple_assign rfl) fun _ _ => triple_bind triple_write fun _ _ => ?_
      exact triple_pure (halong _) fun _ hw => hw

theorem triple_prepare {id : Identity} : Triple exec (Unsigned lib w₀ request db) (Along lib w₀ request)
      (preparePrivateNotes lib replies cfg id target version db) (Unsigned lib w₀ request) := by
  have halong (db : RequestDB) (w : World) (h : Unsigned lib w₀ request db w) : Along lib w₀ request w := h.along
  refine triple_bind (Q := Unsigned lib w₀ request) ?_ fun db _ => ?_
  · unfold settlePreparation
    cases db.notePreparation with
    | none => exact triple_pure (halong db) fun _ hw => hw
    | some saved => exact triple_confirm
  refine triple_call (halong db) fun notes _ => triple_call (halong db) fun plan _ => ?_
  match plan with
  | none => exact triple_pure (halong db) fun _ hw => hw
  | some (amount, deposit) =>
    -- the self-payment is saved, sent and reported as pending
    refine triple_call (halong db) fun _ _ => triple_call (halong db) fun _ _ => ?_
    refine triple_refuseIf (halong db) (triple_call (halong db) fun _ _ => triple_call (halong db) fun _ _ => ?_)
    refine triple_refuseIf (halong db) (triple_call (halong db) fun _ _ => triple_refuseIf (halong db) ?_)
    refine triple_call (halong db) fun _ _ => triple_call (halong db) fun _ _ => triple_call (halong db) fun signed _ => ?_
    refine triple_call (halong db) fun _ _ => triple_bind (triple_assign rfl) fun _ _ => ?_
    exact triple_bind triple_write fun _ _ => triple_bind triple_submitPreparation fun _ _ => triple_fail (halong _)

/-! ## Signing -/

theorem Stored.send (h : Stored lib w₀ request record w)
    (htx : savedTransaction lib record.signedTransaction = .ok tx) :
    Stored lib w₀ request record (exec w (.send (some request) tx)) where
  saved := fun r tx' hmem => by
    rcases List.mem_cons.mp hmem with heq | hmem
    · cases heq
      exact ⟨record, h.signed, htx⟩
    · exact h.saved r tx' hmem
  kept := h.kept
  others := h.others
  signed := h.signed

theorem triple_submitStored : Triple exec (Stored lib w₀ request record) (Along lib w₀ request)
      (submitNativeRecord lib replies (some request) txHash record.signedTransaction)
      fun _ => Stored lib w₀ request record :=
  triple_submit (fun _ hw => hw.toAlong) fun _ _ htx hw => hw.send htx

structure Assigned (lib : Library) (w₀ : World) (request : String) (record : RequestRecord) (w : World) : Prop
    extends Along lib w₀ request w where
  memory : w.memory.requests request = some record
  unsigned : ∀ record, ¬ Signed w.disk request record

theorem triple_assignSigned (hdb : db'.requests = Function.update db.requests request (some record)) :
    Triple exec (Unsigned lib w₀ request db) (Along lib w₀ request) (assign db')
      fun _ => Assigned lib w₀ request record := by
  have hassign (w : World) (h : Unsigned lib w₀ request db w) :
      Assigned lib w₀ request record (exec w (.assign db')) := by
    refine ⟨⟨h.saved, h.kept, fun other hother => ?_⟩, ?_, h.unsigned⟩
    · show db'.requests other = w.disk.requests other
      rw [hdb, Function.update_of_ne hother, h.requests]
    · show db'.requests request = some record
      rw [hdb, Function.update_self]
  exact triple_act (fun _ hw => hw.along) (fun w hw => (hassign w hw).toAlong) fun w _ hw _ => hassign w hw

theorem Along.write (h : Along lib w₀ request w) (hunsigned : ∀ record, ¬ Signed w.disk request record) :
    Along lib w₀ request (exec w (.write true)) := by
  have hdisk (other : String) (rec : RequestRecord) (hs : Signed w.disk other rec) : w.memory.requests other = some rec := by
    refine (h.others other fun heq => ?_).trans hs.1
    exact hunsigned rec (heq ▸ hs)
  refine ⟨fun r tx hmem => ?_, fun r rec hs => hdisk r rec ⟨h.kept r rec hs, hs.2⟩, fun _ _ => rfl⟩
  obtain ⟨rec, hsigned, htx⟩ := h.saved r tx hmem
  exact ⟨rec, ⟨hdisk r rec hsigned, hsigned.2⟩, htx⟩

theorem triple_writeSigned (hrecord : record.signedTransaction ≠ "") :
    Triple exec (Assigned lib w₀ request record) (Along lib w₀ request) (writeRequestDB written)
      fun _ => Stored lib w₀ request record := by
  have hwrite (w : World) (h : Assigned lib w₀ request record w) : Stored lib w₀ request record (exec w (.write true)) :=
    ⟨h.toAlong.write h.unsigned, h.memory, hrecord⟩
  cases written with
  | done => exact triple_act (fun _ hw => hw.toAlong) (fun w hw => (hwrite w hw).toAlong) fun w _ hw _ => hwrite w hw
  | failed renamed text =>
    refine triple_act (fun _ hw => hw.toAlong) (fun w hw => ?_) nofun
    cases renamed with
    | false => exact hw.toAlong
    | true => exact (hwrite w hw).toAlong

theorem hexEncode_ne (raw : Bytes) : lib.hexEncode raw ≠ "" := by
  intro h
  have hlength := congrArg String.utf8ByteSize h
  simp [Library.hexEncode] at hlength

theorem triple_processNativePayout :
    Triple exec (Unsigned lib w₀ req.requestID db) (Along lib w₀ req.requestID)
      (processNativePayout lib cfg replies req db version) fun _ _ => True := by
  have halong (db : RequestDB) (w : World) (h : Unsigned lib w₀ req.requestID db w) : Along lib w₀ req.requestID w := h.along
  refine triple_refuseIf (halong db) (triple_call (halong db) fun _ _ => triple_call (halong db) fun _ _ => ?_)
  refine triple_call (halong db) fun _ _ => triple_call (halong db) fun _ _ => triple_refuseIf (halong db) ?_
  refine triple_call (halong db) fun _ _ => triple_bind triple_prepare fun db _ => ?_
  refine triple_call (halong db) fun _ _ => triple_call (halong db) fun signed _ => triple_call (halong db) fun raw _ => ?_
  refine triple_bind (triple_assignSigned rfl) fun _ _ => triple_bind (triple_writeSigned (hexEncode_ne raw)) fun _ _ => ?_
  intro w hw
  exact ⟨(triple_submitStored w hw).1, fun _ _ => trivial⟩

theorem payout_along (hsaved : Saved lib w) (hmemory : w.memory = w.disk) (n : Nat) :
    Along lib w req.requestID (((payout lib cfg replies req w.disk).acts.take n).foldl exec w) := by
  have halong : Along lib w req.requestID w := ⟨hsaved, .refl w, fun _ _ => by rw [hmemory]⟩
  have hquiet : Along lib w req.requestID ((([] : List Act).take n).foldl exec w) := by
    rw [List.take_nil]
    exact halong
  have hnative (hunsigned : ∀ record, ¬ Signed w.disk req.requestID record) :
      Along lib w req.requestID
        (((processNativePayout lib cfg replies req w.disk replies.shieldVersion).acts.take n).foldl exec w) :=
    (triple_processNativePayout w ⟨hsaved, .refl w, hmemory, rfl, hunsigned⟩).1 n
  unfold payout
  dsimp only
  cases hrecord : w.disk.requests req.requestID with
  | none =>
    dsimp only
    split
    · exact hquiet
    · exact hnative fun record hs => by simp [Signed, hrecord] at hs
  | some record =>
    dsimp only
    split
    · exact (triple_submitStored w ⟨halong, hrecord, ‹_›⟩).1 n
    have hunsigned : ∀ record', ¬ Signed w.disk req.requestID record' := by
      rintro record' ⟨hrecord', hsigned⟩
      cases hrecord.symm.trans hrecord'
      exact hsigned (not_not.mp ‹_›)
    split
    · exact hquiet
    split
    · exact hquiet
    split
    · exact hquiet
    · exact hnative hunsigned

/-! ## Runs -/

theorem stopped_along (h : Saved lib w) (hvalid : validatePayoutRequest lib c.req = .ok ()) :
    Along lib w c.req.requestID (stopped lib cfg w c) := by
  have halong (n : Nat) : Along lib w c.req.requestID
      (((payout lib cfg c.replies c.req w.disk).acts.take n).foldl exec { w with memory := w.disk }) := by
    have hcopy : Saved lib { w with memory := w.disk } := h
    obtain ⟨hsaved, hkept, hothers⟩ := payout_along hcopy rfl n
    exact ⟨hsaved, hkept, hothers⟩
  unfold stopped
  rw [hvalid]
  dsimp only
  cases c.ending with
  | returns =>
    have hall := halong (payout lib cfg c.replies c.req w.disk).acts.length
    rwa [List.take_length] at hall
  | crash n => exact halong n
  | panic n renamed => exact halong n

def meets (lib : Library) (cfg : Config) (w : World) (c : Call) : Bool :=
  match validatePayoutRequest lib c.req, c.ending with
  | .ok (), .panic _ true =>
    match (stopped lib cfg w c).disk.requests c.req.requestID with
    | none => true
    | some record => record.signedTransaction = ""
  | _, _ => true

def AlwaysKept (lib : Library) (cfg : Config) (w : World) (calls : List Call) : Prop :=
  ∀ pre c post, calls = pre ++ c :: post →
    let before := pre.foldl (processPayout lib cfg) w
    Kept before (stopped lib cfg before c) ∧ Kept (stopped lib cfg before c) (processPayout lib cfg before c)

theorem stopped_keeps (h : Saved lib w) : Saved lib (stopped lib cfg w c) ∧ Kept w (stopped lib cfg w c) := by
  cases hvalid : validatePayoutRequest lib c.req with
  | error e =>
    have hstopped : stopped lib cfg w c = w := by
      unfold stopped
      rw [hvalid]
    rw [hstopped]
    exact ⟨h, .refl w⟩
  | ok =>
    have halong : Along lib w c.req.requestID (stopped lib cfg w c) := stopped_along h hvalid
    exact ⟨halong.saved, halong.kept⟩

theorem meets_panic (hmeets : meets lib cfg w c = true) (hvalid : validatePayoutRequest lib c.req = .ok ())
    (hpanic : c.ending = .panic n true) : ∀ record, ¬ Signed (stopped lib cfg w c).disk c.req.requestID record := by
  rintro record ⟨hrecord, hsigned⟩
  simp only [meets, hvalid, hpanic, hrecord, decide_eq_true_eq] at hmeets
  exact hsigned hmeets

theorem processPayout_keeps (h : Saved lib w) (hmeets : meets lib cfg w c = true) :
    Saved lib (processPayout lib cfg w c) ∧ Kept (stopped lib cfg w c) (processPayout lib cfg w c) := by
  have hstopped : Saved lib (stopped lib cfg w c) := (stopped_keeps h).1
  unfold processPayout
  split
  · rename_i n renamed hvalid hpanic
    have halong : Along lib w c.req.requestID (stopped lib cfg w c) := stopped_along h hvalid
    cases renamed with
    | false => exact ⟨hstopped, .refl _⟩
    | true =>
      -- the handler replaces the record in its copy of the journal and writes the copy
      have hassigned : Along lib (stopped lib cfg w c) c.req.requestID (exec (stopped lib cfg w c) (.assign
          { (stopped lib cfg w c).memory with
            requests := Function.update (stopped lib cfg w c).memory.requests c.req.requestID
              (some (panicRecord c.req)) })) := by
        refine ⟨hstopped, .refl _, fun other hother => ?_⟩
        exact (Function.update_of_ne hother _ _).trans (halong.others other hother)
      have hwritten := hassigned.write (meets_panic hmeets hvalid hpanic)
      exact ⟨hwritten.saved, hwritten.kept⟩
  · exact ⟨hstopped, .refl _⟩

theorem panic_drops (hmeets : meets lib cfg w c = false) : ¬ Kept (stopped lib cfg w c) (processPayout lib cfg w c) := by
  intro hkept
  unfold meets at hmeets
  split at hmeets
  · rename_i n hvalid hpanic
    split at hmeets
    · cases hmeets
    · rename_i record hrecord
      have hdisk := hkept c.req.requestID record ⟨hrecord, of_decide_eq_false hmeets⟩
      simp only [processPayout, hvalid, hpanic, recordError, exec, if_true, Function.update_self, Option.some.injEq] at hdisk
      rw [← hdisk] at hmeets
      exact of_decide_eq_false hmeets rfl
  · cases hmeets

theorem run_saved (h : Saved lib w) (hall : Run.all (processPayout lib cfg) (meets lib cfg) w calls = true) :
    Saved lib (calls.foldl (processPayout lib cfg) w) :=
  Run.invariant (fun _ _ hs hc => (processPayout_keeps hs hc).1) h hall

/-- What is sent for a request is one transaction, and its signed record stays in the journal,
exactly in runs without a panic over a signed record. -/
theorem payouts_once_iff (lib : Library) (cfg : Config) (db : RequestDB) (calls : List Call) :
    ((∀ request tx tx', (some request, tx) ∈ (calls.foldl (processPayout lib cfg) (.start db)).sent →
        (some request, tx') ∈ (calls.foldl (processPayout lib cfg) (.start db)).sent → tx = tx') ∧
      AlwaysKept lib cfg (.start db) calls) ↔
    Run.all (processPayout lib cfg) (meets lib cfg) (.start db) calls = true := by
  constructor
  · rintro ⟨-, hkept⟩
    rw [Run.all_iff]
    intro pre c post hcalls
    by_contra hmeets
    exact panic_drops (Bool.eq_false_of_not_eq_true hmeets) (hkept pre c post hcalls).2
  · intro hall
    have hstart : Saved lib (.start db) := nofun
    constructor
    · intro request tx tx' htx htx'
      obtain ⟨record, hrecord, hsaved⟩ := run_saved hstart hall request tx htx
      obtain ⟨record', hrecord', hsaved'⟩ := run_saved hstart hall request tx' htx'
      obtain rfl : record = record' := Option.some.inj (hrecord.1.symm.trans hrecord'.1)
      exact Except.ok.inj (hsaved.symm.trans hsaved')
    · intro pre c post hcalls
      subst hcalls
      have hpre : Saved lib (pre.foldl (processPayout lib cfg) (.start db)) := run_saved hstart (Run.all_of_append hall)
      exact ⟨(stopped_keeps hpre).2, (processPayout_keeps hpre (Run.all_iff.mp hall pre c post rfl)).2⟩

/-! Transactions of one byte. -/

def plainTx (n : UInt8) : NativeTx :=
  ⟨pqTkmTxType, some shieldedPoolAddress, 0, if n = 1 then "0x01" else "0x02", some 4, some ⟨false, 0, 0, 0, 0⟩⟩

def plainLibrary : Library where
  hexDecode text := if text = "0x01" then .ok [1] else .ok [2]
  hexDigits raw := if raw = [1] then "01" else "02"
  unmarshalBinary raw := if raw = [1] then .ok (plainTx 1) else .ok (plainTx 2)
  decodePaymentCode _ _ := .ok ⟨"0xa"⟩
  addressHex _ := "0xb"
  equalFold a b := a = b
  trimSpace text := text
  parseBigFlexible _ := some 50
  setString _ := none
  isValidAddress _ := true

/-- A node that confirms a note of 100 and takes every transaction; the keystore signs the given one. -/
def plainReplies (n : UInt8) : Replies where
  shieldVersion := 4
  chainID := .ok 1
  signerIdentity chain := .ok ⟨chain, 0xb, "self"⟩
  transactionReceipt _ := .notFound
  headerByNumber _ := .ok 0
  rescan := .ok [⟨1, 100⟩]
  scan := .ok [⟨1, 100⟩]
  suggestGasPrice := .ok 1
  balanceAt := .ok (2 * walletGas)
  nonceAt := .ok 0
  pendingNonceAt := .ok 0
  confidentialLedger := .ok false
  build _ _ _ _ := .ok (plainTx n)
  buildPrepaidPayment _ _ _ _ := .ok (plainTx n)
  signTx tx := .ok (tx, .ok [n])
  sendTransaction _ := none
  transactionByHash _ := true
  writeReverted := .done
  writeConfirmed := .done
  writePreparation := .done
  writeSigned := .done

def plainRequest : PayoutRequest := ⟨"request-1", "0xb", "0xa", some 50, "50", "", "", "code"⟩

def panicCalls : List Call := [⟨plainRequest, plainReplies 1, .panic 3 true⟩, ⟨plainRequest, plainReplies 2, .returns⟩]

theorem payment_sent_twice :
    (panicCalls.foldl (processPayout plainLibrary ⟨false, "", ""⟩) (.start ⟨fun _ => none, none⟩)).sent =
      [(some "request-1", plainTx 2), (some "request-1", plainTx 1)] ∧ plainTx 1 ≠ plainTx 2 := by
  decide +kernel

end TkmChain.Prover
