import TkmChain.ShieldedSound

/-!
# No double spend

A mark of a spent note is never cleared, and an accepted V3, V4 or V5 spend finds
none of its marks set and leaves all of them set. Over every chain the spent
nullifiers of an asset, and its link tags, are therefore distinct.
-/

namespace TkmChain

open Proc List

def SpentKept (s t : StateDB) : Prop := ∀ k, k.kind = .spent → s.storage k ≠ 0 → t.storage k ≠ 0

namespace SpentKept

protected theorem rfl : SpentKept s s := fun _ _ h => h

protected theorem trans (h : SpentKept s t) (h' : SpentKept t u) : SpentKept s u :=
  fun k hk hs => h' k hk (h k hk hs)

theorem of_eq (h : ∀ k, k.kind = .spent → t.storage k = s.storage k) : SpentKept s t :=
  fun k hk hs => (h k hk).symm ▸ hs

theorem of_frame (hK : ∀ k, K k → k.kind ≠ .spent) (h : Frame K s t) : SpentKept s t :=
  of_eq fun k hk => h.storage k fun hKk => hK k hKk hk

theorem setState (hv : v ≠ 0) (k : Slot) : SpentKept s (s.setState k v) := by
  intro j _ hj
  rw [StateDB.setState_storage, Function.update_apply]
  split
  · exact hv
  · exact hj

end SpentKept

def MarksKept (w w' : World) : Prop := SpentKept w.st w'.st

instance : Std.Refl MarksKept := ⟨fun _ => SpentKept.rfl⟩

instance : IsTrans World MarksKept := ⟨fun _ _ _ => SpentKept.trans⟩

/-! ## Marks are never cleared -/

theorem release_storage (st : StateDB) (a : Address) (v : Int) : (st.release a v).storage = st.storage := by
  unfold StateDB.release
  split <;> rfl

theorem commitLedger_kept (st : StateDB) (asset : Nat) (l : ConfidentialLedgerTotals) :
    SpentKept st (commitLedger st asset l) := by
  apply SpentKept.of_eq
  intro k hk
  apply commitLedger_frame
  rintro r rfl
  simp [ledgerSlot, Role.kind] at hk

theorem burnConfidentialFee_kept (st : StateDB) (tx : Tx) (fee : Int) :
    SpentKept st (burnConfidentialFee st tx fee) := by
  apply SpentKept.of_eq
  intro k hk
  apply Function.update_of_ne
  rintro rfl
  simp [confidentialFeeTicket, Slot.kind, Role.kind] at hk

theorem settleLedger_kept (tx : Tx) (e : ShieldedV3Transaction) (ledger : Option ConfidentialLedgerTotals)
    (st : StateDB) : SpentKept st (settleLedger tx e ledger st) := by
  unfold settleLedger
  split
  · exact SpentKept.rfl
  · dsimp only
    split
    · exact (commitLedger_kept _ _ _).trans (burnConfidentialFee_kept _ _ _)
    · exact commitLedger_kept _ _ _

theorem updateSupply_kept (tx : Tx) (e : ShieldedV3Transaction) (st : StateDB) :
    SpentKept st (updateSupply tx e st) := by
  unfold updateSupply
  split
  · apply SpentKept.of_eq
    intro k hk
    apply Function.update_of_ne
    rintro rfl
    simp [Role.kind] at hk
  · exact SpentKept.rfl

section
variable (asset : Nat) {h : Hash} (hh : h ≠ 0)
include hh

theorem markNullifier_kept (w : World) (n : Digest) :
    MarksKept w (markNullifier asset h w n) := SpentKept.setState hh _

theorem markLink_kept (tag : Digest) (w : World) :
    MarksKept w (markLink asset h tag w) := SpentKept.setState hh _

theorem markNullifiers_kept :
    ∀ (l : List Digest) (w : World), MarksKept w (l.foldl (markNullifier asset h) w)
  | [], _ => SpentKept.rfl
  | n :: l, w => (markNullifier_kept asset hh w n).trans (markNullifiers_kept l _)

end

theorem markSpentLink_kept (tx : Tx) (e : ShieldedV3Transaction) (link : Option Digest) (w : World) :
    MarksKept w (if e.deposit then w else link.elim w fun tag => markLink e.asset tx.hash tag w) := by
  split
  · exact SpentKept.rfl
  · cases link with
    | none => exact SpentKept.rfl
    | some tag => exact markLink_kept e.asset tx.hash_ne tag w

theorem releases_kept (a b : Address) (v u : Int) (st : StateDB) : SpentKept st ((st.release a v).release b u) :=
  SpentKept.of_eq fun k _ => by rw [release_storage, release_storage]

theorem noteWrites_kept (tx : Tx) (e : ShieldedV3Transaction) (l : List Digest) (link : Option Digest)
    (ledger : Option ConfidentialLedgerTotals) (sender : Address) (w : World) :
    MarksKept w (noteWrites tx e l link ledger sender w) := by
  have hn := markNullifiers_kept e.asset tx.hash_ne l w
  have hs := hn.trans (updateSupply_kept tx e _)
  have hl := hs.trans (markSpentLink_kept tx e link (World.mapState _ (updateSupply tx e)))
  exact (hl.trans (settleLedger_kept tx e ledger _)).trans (releases_kept _ _ _ _ _)

section
variable (B : Backend) (cfg : ChainConfig) (num time : Nat) (tx : Tx)

theorem onState_tree_kept (hx : Moves TreeFrame x) :
    Moves MarksKept (World.onState x) :=
  Moves.zoom hx fun _ _ h => SpentKept.of_frame (fun k hk => by rw [hk]; decide) h

theorem applyNotes_kept (e : ShieldedV3Transaction) (l : List Digest) (link : Option Digest)
    (ledger : Option ConfidentialLedgerTotals) (sender : Address) :
    Moves MarksKept (applyNotes B tx e l link ledger sender) :=
  Moves.bind
    (onState_tree_kept (Moves.orRevert (Moves.each (appendOutput_frame B e.asset tx.hash) _))) fun _ =>
    Moves.modify (noteWrites_kept tx e l link ledger sender)

theorem processShieldedV3_kept : Moves MarksKept (processShieldedV3 B cfg num time tx) := by
  unfold processShieldedV3
  repeat refine Moves.read_bind fun _ => ?_
  exact applyNotes_kept B tx _ _ none _ _

theorem processShieldedV4_kept : Moves MarksKept (processShieldedV4 B cfg num time tx) := by
  unfold processShieldedV4
  repeat refine Moves.read_bind fun _ => ?_
  exact applyNotes_kept B tx _ _ _ _ _

theorem processShieldedV5_kept : Moves MarksKept (processShieldedV5 B cfg num time tx) := by
  unfold processShieldedV5
  repeat refine Moves.read_bind fun _ => ?_
  exact applyNotes_kept B tx _ _ _ _ _

theorem optionLedger_kept (ledger : Option ConfidentialLedgerTotals) (w : World) :
    MarksKept w (w.mapState fun st => ledger.elim st (commitLedger st assetTKM)) := by
  cases ledger with
  | none => exact SpentKept.rfl
  | some l => exact commitLedger_kept _ _ _

theorem markInputs_st (w : World) (l : List ShieldedV6Input) :
    (l.foldl (fun w input => w.mark (blockKeyImage input)) w).st = w.st := by
  induction l generalizing w with
  | nil => rfl
  | cons a l ih => exact ih _

theorem applyV6_kept (e : ShieldedV6Transaction) (ledger : Option ConfidentialLedgerTotals) :
    Moves MarksKept (applyV6 B tx e ledger) := by
  unfold applyV6
  refine Moves.bind (onState_tree_kept (Moves.orRevert (Moves.bind
    (Moves.each (fun out => shieldedV6AppendOutput_frame B out tx.hash) _) fun _ =>
    Moves.each (fun input : ShieldedV6Input => shieldedV6AppendKeyImage_frame B input.keyImage tx.hash) _))) fun _ => ?_
  refine Moves.bind (Moves.modify fun w => ?_) fun _ => ?_
  · exact SpentKept.of_eq fun k _ => by rw [markInputs_st]
  refine Moves.bind (Moves.modify (optionLedger_kept ledger)) fun _ => ?_
  exact Moves.modify fun w => SpentKept.of_eq fun k _ => congrFun (release_storage w.st _ _) k

theorem processShieldedV6_kept : Moves MarksKept (processShieldedV6 B cfg num time tx) := by
  unfold processShieldedV6
  repeat refine Moves.read_bind fun _ => ?_
  refine Moves.ite (onState_tree_kept (processShieldedV6Binding_frame B tx _ _)) ?_
  refine Moves.read_bind fun _ => ?_
  refine Moves.read_bind fun _ => ?_
  refine Moves.read_bind fun _ => ?_
  refine Moves.read_bind fun _ => ?_
  refine Moves.read_bind fun ledger => ?_
  exact applyV6_kept B tx _ ledger

theorem markSpend_kept (e : ShieldedTransaction) (s : ShieldedSpend) (w : World) :
    MarksKept w (markSpend tx e s w) := by
  unfold markSpend
  split
  · exact SpentKept.rfl
  · exact SpentKept.setState tx.hash_ne _

theorem processSpends_kept (e : ShieldedTransaction) (sender : Address) (intent : Hash) :
    ∀ i l, Moves MarksKept (processSpends B cfg num time tx e sender intent i l)
  | _, [] => Moves.pure ()
  | i, s :: l => Moves.read_bind fun _ =>
      Moves.bind (Moves.modify (markSpend_kept tx e s)) fun _ =>
        processSpends_kept e sender intent (i + 1) l

theorem processLegacyTransaction_kept : Moves MarksKept (processLegacyTransaction B cfg num time tx) := by
  unfold processLegacyTransaction
  refine Moves.read_bind fun r => ?_
  cases r with
  | none => exact Moves.pure ()
  | some e =>
    repeat refine Moves.read_bind fun _ => ?_
    refine Moves.bind (processSpends_kept B cfg num time tx e _ _ 0 _) fun _ => ?_
    refine Moves.bind (Moves.modify fun w => releases_kept _ _ _ _ w.st) fun _ => ?_
    refine Moves.bind (onState_tree_kept (Moves.each (processOutput_frame B tx.hash) _)) fun _ => ?_
    exact Moves.modify (optionLedger_kept _)

theorem processNoteVersion_kept : Moves MarksKept (processNoteVersion B cfg num time tx) :=
  Moves.ite (processShieldedV4_kept B cfg num time tx) (Moves.ite (processShieldedV3_kept B cfg num time tx)
    (processLegacyTransaction_kept B cfg num time tx))

theorem processAntartical_kept : Moves MarksKept (processAntartical B cfg num time tx) :=
  Moves.ite (onState_tree_kept (processAntarticalStamp_frame B cfg num time tx)) <|
    Moves.read_bind fun _ => Moves.read_bind fun _ =>
      Moves.ite (Moves.pure ()) (Moves.ite (Moves.pure ())
        (processNoteVersion_kept B cfg num time tx))

theorem processShieldedTransaction_kept : Moves MarksKept (processShieldedTransaction B cfg num time tx) :=
  Moves.ite (Moves.read_bind fun _ => processShieldedV6_kept B cfg num time tx) <|
    Moves.ite (Moves.read_bind fun _ => processShieldedV5_kept B cfg num time tx) <|
      Moves.read_bind fun _ =>
        Moves.ite (processAntartical_kept B cfg num time tx) (processNoteVersion_kept B cfg num time tx)

end

/-! ## The spend of a transaction -/

/-- What a V3, V4 or V5 transaction spends: its active nullifiers and, of a V4 or
V5 spend, the link tag. -/
structure NoteSpend where
  asset : Nat
  nullifiers : List Digest
  link : Option Digest

def spendOf (e : ShieldedV3Transaction) (nullifiers : Except Err (List Digest)) (link : Option Digest) :
    Option NoteSpend :=
  match nullifiers with
  | .ok l => some ⟨e.asset, l, if e.deposit then none else link⟩
  | .error _ => none

def noteSpend (B : Backend) (cfg : ChainConfig) (num time : Nat) (tx : Tx) : Option NoteSpend :=
  if hasShieldedV5Prefix tx.data then
    match decodeShieldedV5Transaction B tx.data with
    | .ok (some e) => spendOf e.toShieldedV3Transaction (shieldedV5Nullifiers e) (some e.linkTag)
    | _ => none
  else if ¬ cfg.isPrivacyCommitments num time then none
  else if hasShieldedV4Prefix tx.data then
    match decodeShieldedV4Transaction B tx.data with
    | .ok (some e) => spendOf e.toShieldedV3Transaction (shieldedV4Nullifiers e) (some e.linkTag)
    | _ => none
  else if hasShieldedV3Prefix tx.data then
    match decodeShieldedV3Transaction B tx.data with
    | .ok (some e) => spendOf e (shieldedV3Nullifiers e) none
    | _ => none
  else none

section
theorem dispatch_v5 (h5 : hasShieldedV5Prefix tx.data = true)
    (h : processShieldedTransaction B cfg num time tx w = (.ok (), w')) :
    processShieldedV5 B cfg num time tx w = (.ok (), w') := by
  have h6 : hasShieldedV6Prefix tx.data = false := hasPrefix_false h5
  simp only [processShieldedTransaction, h6, h5, Bool.false_eq_true, if_false, if_true, run_rules] at h
  obtain ⟨_, h⟩ := h
  exact h

theorem dispatch_note (hm : magic = shieldedV3Magic ∨ magic = shieldedV4Magic)
    (hp : hasPrefix tx.data magic = true) (h : processShieldedTransaction B cfg num time tx w = (.ok (), w')) :
    processNoteVersion B cfg num time tx w = (.ok (), w') ∧
      (hasShieldedV4Prefix tx.data = true → cfg.isPrivacyCommitments num time = true) := by
  have hnote : magic ∈ noteMagics := by rcases hm with rfl | rfl <;> simp [noteMagics]
  have h6 : hasShieldedV6Prefix tx.data = false := note_hasPrefix_false hnote hp
  have h5 : hasShieldedV5Prefix tx.data = false := by rcases hm with rfl | rfl <;> exact hasPrefix_false hp
  have hs : hasAntarticalStampPrefix tx.data = false := note_hasPrefix_false hnote hp
  have ht : hasPrivateTVMPrefix tx.data = false := note_hasPrefix_false hnote hp
  have hv := note_not_validator hnote hp
  simp only [processShieldedTransaction, h6, h5, Bool.false_eq_true, if_false, run_rules, ok_rules] at h
  obtain ⟨⟨_, _, h4⟩, h⟩ := h
  refine ⟨?_, fun hp4 => ?_⟩
  · split at h
    · simp only [processAntartical, hs, ht, hv, Bool.false_eq_true, if_false, run_rules] at h
      obtain ⟨_, _, _, h⟩ := h
      exact h
    · exact h
  · by_contra hoff
    exact h4 ⟨hp4, fun hon => hoff hon.2⟩

theorem dispatch_v4 (h4 : hasShieldedV4Prefix tx.data = true) (hp : cfg.isPrivacyCommitments num time = true)
    (h : processShieldedTransaction B cfg num time tx w = (.ok (), w')) :
    processShieldedV4 B cfg num time tx w = (.ok (), w') := by
  have := (dispatch_note (.inr rfl) h4 h).1
  rwa [processNoteVersion, if_pos ⟨h4, hp⟩] at this

theorem dispatch_v3 (h3 : hasShieldedV3Prefix tx.data = true) (hp : cfg.isPrivacyCommitments num time = true)
    (h : processShieldedTransaction B cfg num time tx w = (.ok (), w')) :
    processShieldedV3 B cfg num time tx w = (.ok (), w') := by
  have h4 : hasShieldedV4Prefix tx.data = false := hasPrefix_false h3
  have := (dispatch_note (.inl rfl) h3 h).1
  rwa [processNoteVersion, if_neg (by simp [h4]), if_pos ⟨h3, hp⟩] at this

theorem accepted_spend (h : processShieldedTransaction B cfg num time tx w = (.ok (), w'))
    (hs : noteSpend B cfg num time tx = some s) :
    ∃ e l link, NoteRun B cfg num time tx e l link w w' ∧ s = ⟨e.asset, l, if e.deposit then none else link⟩ := by
  unfold noteSpend at hs
  split at hs
  · rename_i h5
    obtain ⟨e, l, hdec, hl, hrun⟩ := processShieldedV5_ok (dispatch_v5 h5 h)
    rw [hdec] at hs
    simp only [spendOf, hl, Option.some.injEq] at hs
    exact ⟨_, l, _, hrun, hs.symm⟩
  split at hs
  · cases hs
  rename_i hp
  have hp : cfg.isPrivacyCommitments num time = true := by simpa using hp
  split at hs
  · rename_i h4
    obtain ⟨e, l, hdec, hl, hrun⟩ := processShieldedV4_ok (dispatch_v4 h4 hp h)
    rw [hdec] at hs
    simp only [spendOf, hl, Option.some.injEq] at hs
    exact ⟨_, l, _, hrun, hs.symm⟩
  split at hs
  · rename_i h3
    obtain ⟨e, l, hdec, hl, hrun⟩ := processShieldedV3_ok (dispatch_v3 h3 hp h)
    rw [hdec] at hs
    simp only [spendOf, hl, Option.some.injEq] at hs
    exact ⟨_, l, _, hrun, hs.symm⟩
  · cases hs

end

/-! ## Freshness and marks of an accepted spend -/

namespace NoteSpend

structure Fresh (s : NoteSpend) (st : StateDB) : Prop where
  nullifiers : ∀ n ∈ s.nullifiers, st.storage (nullifierSlot s.asset n) = 0
  link : ∀ tag ∈ s.link, st.storage (linkTagSlot s.asset tag) = 0

structure Marked (s : NoteSpend) (st : StateDB) : Prop where
  nullifiers : ∀ n ∈ s.nullifiers, st.storage (nullifierSlot s.asset n) ≠ 0
  link : ∀ tag ∈ s.link, st.storage (linkTagSlot s.asset tag) ≠ 0

theorem linkTagSlot_kind (asset : Nat) (tag : Digest) : (linkTagSlot asset tag).kind = .spent := by
  unfold linkTagSlot
  split
  · rfl
  · exact assetSlot_kind _ _ _

theorem nullifierSlot_kind (asset : Nat) (n : Digest) : (nullifierSlot asset n).kind = .spent := assetSlot_kind _ _ _

theorem Marked.kept {s : NoteSpend} {st st' : StateDB} (h : s.Marked st) (hk : SpentKept st st') : s.Marked st' :=
  ⟨fun n hn => hk _ (nullifierSlot_kind _ _) (h.nullifiers n hn),
    fun tag ht => hk _ (linkTagSlot_kind _ _) (h.link tag ht)⟩

end NoteSpend

theorem markNullifiers_marked (asset : Nat) (hh : h ≠ 0) :
    ∀ (l : List Digest) (w : World), ∀ n ∈ l,
      (l.foldl (markNullifier asset h) w).st.storage (nullifierSlot asset n) ≠ 0
  | m :: l, w, n, hn => by
    rw [foldl_cons]
    rcases mem_cons.mp hn with rfl | hn
    · apply markNullifiers_kept asset hh l _ _ (NoteSpend.nullifierSlot_kind _ _)
      simpa [markNullifier, World.mapState, World.mark] using hh
    · exact markNullifiers_marked asset hh l _ n hn

theorem noteWrites_marked (tx : Tx) (e : ShieldedV3Transaction) (l : List Digest) (link : Option Digest)
    (ledger : Option ConfidentialLedgerTotals) (sender : Address) (w : World) :
    NoteSpend.Marked ⟨e.asset, l, if e.deposit then none else link⟩
      (noteWrites tx e l link ledger sender w).st := by
  have hl := markSpentLink_kept tx e link (World.mapState (l.foldl (markNullifier e.asset tx.hash) w) (updateSupply tx e))
  have hrest (st : StateDB) := (settleLedger_kept tx e ledger st).trans
    (releases_kept e.withdrawalRecipient sender e.withdrawal (publicSponsor e ledger) _)
  refine ⟨fun n hn => ?_, fun tag htag => ?_⟩
  · have hn := markNullifiers_marked e.asset tx.hash_ne l w n hn
    have hk := NoteSpend.nullifierSlot_kind e.asset n
    exact hrest _ _ hk (hl _ hk (updateSupply_kept tx e _ _ hk hn))
  · cases hd : e.deposit with
    | true => simp [hd] at htag
    | false =>
      have hlink : link = some tag := by simpa [hd] using htag
      apply hrest _ _ (NoteSpend.linkTagSlot_kind _ _)
      simpa [hd, hlink, markLink, World.mapState, World.mark] using tx.hash_ne

section
theorem accepted_spend_spec (h : processShieldedTransaction B cfg num time tx w = (.ok (), w'))
    (hs : noteSpend B cfg num time tx = some s) : s.nullifiers.Nodup ∧ s.Fresh w.st ∧ s.Marked w'.st := by
  obtain ⟨e, l, link, hrun, rfl⟩ := accepted_spend h hs
  refine ⟨hrun.nodup, ⟨hrun.facts.unspent, ?_⟩, ?_⟩
  · intro tag htag
    cases hd : e.deposit with
    | true => simp [hd] at htag
    | false => exact hrun.facts.unlinked hd tag (by simpa [hd] using htag)
  · obtain ⟨ledger, sender, _, _, happ⟩ := hrun.applied
    simp only [applyNotes, run_rules] at happ
    obtain ⟨w₁, _, rfl⟩ := happ
    exact noteWrites_marked tx e l link ledger sender w₁

end

/-! ## Chains -/

structure Unrelated where
  apply : StateDB → StateDB
  kept : ∀ st, SpentKept st (apply st)

/-- What happens on a chain: a new block begins, a transaction is processed in it
(a failed one leaves whatever it wrote), or the state changes otherwise. -/
inductive ChainEvent
  | block
  | tx (num time : Nat) (t : Tx)
  | other (u : Unrelated)

section
variable (B : Backend) (cfg : ChainConfig)

def chainStep (c : World × List NoteSpend) : ChainEvent → World × List NoteSpend
  | .block => ({ c.1 with seen := ∅ }, c.2)
  | .tx num time t =>
    match processShieldedTransaction B cfg num time t c.1 with
    | (.ok _, w) => (w, (noteSpend B cfg num time t).toList ++ c.2)
    | (.error _, w) => (w, c.2)
  | .other u => (c.1.mapState u.apply, c.2)

def runChain (events : List ChainEvent) (c : World × List NoteSpend) : World × List NoteSpend :=
  events.foldl (chainStep B cfg) c

end

namespace NoteSpend

def marks (s : NoteSpend) : List (Nat × Digest) := s.nullifiers.map fun n => (s.asset, n)

def links (s : NoteSpend) : List (Nat × Digest) := s.link.toList.map fun tag => (s.asset, tag)

end NoteSpend

structure SpendsDistinct (c : World × List NoteSpend) : Prop where
  marked : ∀ s ∈ c.2, s.Marked c.1.st
  marks : (c.2.flatMap NoteSpend.marks).Nodup
  links : (c.2.flatMap NoteSpend.links).Nodup

namespace SpendsDistinct

theorem kept (hc : SpendsDistinct (w, h)) (hk : MarksKept w w') : SpendsDistinct (w', h) :=
  ⟨fun s hs => (hc.marked s hs).kept hk, hc.marks, hc.links⟩

theorem accept {s : NoteSpend} (hc : SpendsDistinct (w, h)) (hk : MarksKept w w') (hn : s.nullifiers.Nodup)
    (hf : s.Fresh w.st) (hm : s.Marked w'.st) : SpendsDistinct (w', s :: h) := by
  refine ⟨?_, ?_, ?_⟩
  · intro t ht
    rcases mem_cons.mp ht with rfl | ht
    · exact hm
    · exact (hc.marked t ht).kept hk
  · rw [flatMap_cons, nodup_append]
    refine ⟨hn.map fun a b hab => (Prod.mk.inj hab).2, hc.marks, ?_⟩
    rintro p hp q hq rfl
    obtain ⟨n, hn, rfl⟩ := mem_map.mp hp
    obtain ⟨t, ht, hq⟩ := mem_flatMap.mp hq
    obtain ⟨m, hm, hmn⟩ := mem_map.mp hq
    obtain ⟨ha, rfl⟩ := Prod.mk.inj hmn
    exact (hc.marked t ht).nullifiers m hm (ha ▸ hf.nullifiers m hn)
  · rw [flatMap_cons, nodup_append]
    refine ⟨?_, hc.links, ?_⟩
    · unfold NoteSpend.links
      cases s.link <;> simp
    rintro p hp q hq rfl
    obtain ⟨tag, htag, rfl⟩ := mem_map.mp hp
    obtain ⟨t, ht, hq⟩ := mem_flatMap.mp hq
    obtain ⟨tag', htag', heq⟩ := mem_map.mp hq
    obtain ⟨ha, rfl⟩ := Prod.mk.inj heq
    exact (hc.marked t ht).link tag' (by simpa using htag') (ha ▸ hf.link tag' (by simpa using htag))

end SpendsDistinct

theorem chainStep_distinct (B : Backend) (cfg : ChainConfig) (hc : SpendsDistinct c)
    (ev : ChainEvent) : SpendsDistinct (chainStep B cfg c ev) := by
  obtain ⟨w, h⟩ := c
  cases ev with
  | block => exact hc.kept SpentKept.rfl
  | other u => exact hc.kept (u.kept w.st)
  | tx num time t =>
    have hk := processShieldedTransaction_kept B cfg num time t w
    simp only [chainStep]
    split
    · rename_i r w' hrun
      rw [hrun] at hk
      cases hs : noteSpend B cfg num time t with
      | none => exact hc.kept hk
      | some s =>
        obtain ⟨hn, hf, hm⟩ := accepted_spend_spec hrun hs
        exact hc.accept hk hn hf hm
    · rename_i e w' hrun
      rw [hrun] at hk
      exact hc.kept hk

theorem runChain_distinct (B : Backend) (cfg : ChainConfig) :
    ∀ (events : List ChainEvent) {c : World × List NoteSpend}, SpendsDistinct c →
      SpendsDistinct (runChain B cfg events c)
  | [], _, hc => hc
  | ev :: events, _, hc => runChain_distinct B cfg events (chainStep_distinct B cfg hc ev)

def emptyShield (st : StateDB) : StateDB := { st with storage := fun _ => 0 }

/-- Over every chain from an empty shield state, all nullifiers accepted for an
asset are distinct, within a transaction and across transactions of all versions,
and so are all link tags; a transaction that repeats one is rejected. -/
theorem no_double_spend (B : Backend) (cfg : ChainConfig) (st : StateDB) (seen : Finset BlockKey)
    (events : List ChainEvent) :
    let c := runChain B cfg events (⟨emptyShield st, seen⟩, [])
    (c.2.flatMap NoteSpend.marks).Nodup ∧ (c.2.flatMap NoteSpend.links).Nodup ∧
      ∀ num time tx s, noteSpend B cfg num time tx = some s →
        (¬ s.nullifiers.Nodup ∨ (∃ p ∈ s.marks, p ∈ c.2.flatMap NoteSpend.marks) ∨
          ∃ p ∈ s.links, p ∈ c.2.flatMap NoteSpend.links) →
        ∃ e, (processShieldedTransaction B cfg num time tx c.1).1 = .error e := by
  intro c
  have hc : SpendsDistinct c := runChain_distinct B cfg events ⟨by simp, by simp, by simp⟩
  refine ⟨hc.marks, hc.links, ?_⟩
  intro num time tx s hs hreuse
  cases hrun : processShieldedTransaction B cfg num time tx c.1 with
  | mk r w' =>
    cases r with
    | error e => exact ⟨e, rfl⟩
    | ok u =>
      exfalso
      obtain ⟨hn, hf, hm⟩ := accepted_spend_spec hrun hs
      have hk := processShieldedTransaction_kept B cfg num time tx c.1
      rw [hrun] at hk
      have hd := SpendsDistinct.accept hc hk hn hf hm
      have hmarks := hd.marks
      have hlinks := hd.links
      rw [flatMap_cons, nodup_append] at hmarks hlinks
      rcases hreuse with h | ⟨p, hp, hq⟩ | ⟨p, hp, hq⟩
      · exact h hn
      · exact hmarks.2.2 p hp p hq rfl
      · exact hlinks.2.2 p hp p hq rfl

end TkmChain
