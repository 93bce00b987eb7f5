import TkmChain.EmailVMSound
import TkmChain.Run
import TkmChain.SupplySound

/-!
# Projections of the canonical chain

The supply index and the EmailVM index are folds over the canonical chain. A call
compares the block it starts from with the canonical one, but not the blocks it
reads after it. As long as every block read is a child of the block indexed before
it, and no snapshot is read back after its messages were deleted, what is stored
for a block is the fold over that block and its ancestors.
-/

namespace TkmChain

/-! ## Supply -/

namespace SupplyService

variable {kings : SupplyKings} {genesisSupply : Nat} {svc : SupplyService}

def entryAt (kings : SupplyKings) (genesisSupply : Nat) : Branch RewardBlock → SupplyEntry :=
  Branch.fold (SupplyEntry.genesis genesisSupply) fun e b => e.extend b.number b (kings.blockRewardDelta b.content)

/-- In the loop of `indexTo` the next block is a child of the last one, and its rewards are those of the given kings. -/
def undisturbed (kings : SupplyKings) (svc : SupplyService) : SupplyEvent → Bool
  | .read now =>
    match svc.call with
    | some (.index target current number) =>
      target < number || (svc.chain.ancestor number).all fun b =>
        b.parent = some current.block && now.blockRewardDelta b.content = kings.blockRewardDelta b.content
    | _ => true
  | _ => true

theorem undisturbed_read
    (h : svc.undisturbed kings (.read now)) (hcall : svc.call = some (.index target current number))
    (hle : number ≤ target) (hb : svc.chain.ancestor number = some b) :
    b.parent = some current.block ∧ now.blockRewardDelta b.content = kings.blockRewardDelta b.content := by
  simpa [undisturbed, hcall, hb, Nat.not_lt.mpr hle] using h

structure Projected (kings : SupplyKings) (genesisSupply : Nat) (svc : SupplyService) : Prop where
  genesis : svc.genesisSupply = genesisSupply
  keeps : Keeps (fun e => e = entryAt kings genesisSupply e.block) svc

theorem Projected.step (h : Projected kings genesisSupply svc) (e : SupplyEvent) (hmeets : svc.undisturbed kings e) :
    Projected kings genesisSupply (svc.step e) where
  genesis := by
    cases e with
    | reorg chain => exact h.genesis
    | atBlock target => exact (atBlock_unmoved target).genesisSupply.trans h.genesis
    | read now => exact (read_unmoved now).genesisSupply.trans h.genesis
  keeps := by
    refine h.keeps.step ?_ e ?_
    · intro block hblock
      obtain ⟨b, rfl⟩ := Branch.ancestor_zero hblock
      rw [h.genesis]
      rfl
    · rintro now target current number block rfl hcall hle hblock hcurrent
      obtain ⟨hparent, hdelta⟩ := undisturbed_read hmeets hcall hle hblock
      obtain ⟨c, rfl⟩ := Branch.parent_eq_some hparent
      rw [hdelta, ← Branch.ancestor_number hblock]
      exact congrArg (SupplyEntry.extend · _ _ _) hcurrent

theorem run_projected (chain : Branch RewardBlock) (events : List SupplyEvent)
    (h : Run.all step (undisturbed kings) (init genesisSupply chain) events) :
    Projected kings genesisSupply (run genesisSupply chain events) :=
  Run.invariant (I := Projected kings genesisSupply) (fun _ e hs => hs.step e) ⟨rfl, keeps_init _ _ _⟩ h

end SupplyService

/-! ## Names and messages -/

namespace EmailService

variable {svc : EmailService}

def viewAt (env : EmailEnv) : Branch EmailBlock → EmailView :=
  Branch.fold (EmailView.empty.applyBlock env) (EmailView.applyBlock env)

def viewOf (env : EmailEnv) : Option (Branch EmailBlock) → EmailView
  | none => .empty
  | some b => viewAt env b

/-- In the loop of `sync` the next block is a child of the indexed one; no node starts from a snapshot whose messages
are gone. -/
def undisturbed (svc : EmailService) : EmailEvent → Bool
  | .read =>
    match svc.call, svc.index.position with
    | some (.index head number), some p => head < number || (svc.chain.ancestor number).all (·.parent = some p)
    | _, _ => true
  | .restart => !svc.purged
  | _ => true

theorem registered_viewOf (env : EmailEnv) (position : Option (Branch EmailBlock)) :
    EmailView.Registered env (viewOf env position) := by
  cases position with
  | none => exact EmailView.registered_empty
  | some b =>
    show EmailView.Registered env (viewAt env b)
    induction b with
    | genesis g => exact (EmailView.applyBlock_kept _).registered EmailView.registered_empty
    | child parent c ih => exact (EmailView.applyBlock_kept _).registered ih

def next : Option (Branch EmailBlock) → Nat
  | none => 0
  | some b => b.number + 1

structure Projected (env : EmailEnv) (svc : EmailService) : Prop where
  view : svc.index.view = viewOf env svc.index.position
  clean : ∀ id, svc.dirtyMessages id = false → svc.records id = svc.index.view.messages id
  dirty : ∀ id, svc.dirtyMessages id = true → (svc.index.view.messages id).isSome
  unsaved : svc.snapshot = none → ∀ id, svc.records id = none
  saved : svc.purged = false → ∀ s, svc.snapshot = some s →
    { s.view with messages := svc.records } = viewOf env s.position
  call : ∀ head number, svc.call = some (.index head number) → number = next svc.index.position

theorem projected_init (chain : Branch EmailBlock) : Projected env (init chain) where
  view := rfl
  clean _ _ := rfl
  dirty _ h := by cases h
  unsaved _ _ := rfl
  saved _ _ h := by cases h
  call _ _ h := by cases h

section
variable (h : Projected env svc)
include h

theorem Projected.setCall (chain : Branch EmailBlock) {call : Option EmailCall}
    (hcall : ∀ head number, call = some (.index head number) → number = next svc.index.position) :
    Projected env { svc with chain := chain, call := call } :=
  ⟨h.view, h.clean, h.dirty, h.unsaved, h.saved, hcall⟩

theorem Projected.discardStale {head : Nat} (hcall : svc.call = some (.check head)) :
    Projected env (svc.discardStale head) := by
  unfold EmailService.discardStale
  split
  · exact h
  · split
    · exact ⟨rfl, fun _ _ => rfl, nofun, fun _ _ => rfl, nofun, fun _ _ hc => nomatch hcall.symm.trans hc⟩
    · exact h

theorem Projected.startLoop (head : Nat) : Projected env (svc.startLoop head) := by
  unfold EmailService.startLoop
  cases hposition : svc.index.position with
  | none =>
    refine h.setCall svc.chain fun _ number hc => ?_
    cases hc
    rw [hposition]
    rfl
  | some b =>
    refine h.setCall svc.chain fun _ number hc => ?_
    split at hc
    · cases hc
    · cases hc
      rw [hposition]
      rfl

theorem Projected.indexBlock {b : Branch EmailBlock} {head : Nat}
    (hview : svc.index.view.applyBlock env b = viewAt env b) :
    Projected env { svc.indexBlock env b with call := some (.index head (b.number + 1)) } where
  view := hview
  clean id hd := by
    have hmore : svc.index.view.Extends (svc.index.view.applyBlock env b) := (EmailView.applyBlock_kept b).messages
    simp only [EmailService.indexBlock, Bool.or_eq_false_iff] at hd ⊢
    rw [h.clean id hd.1]
    cases hold : svc.index.view.messages id with
    | some m => exact (hmore id m hold).symm
    | none =>
      rw [hold] at hd
      exact (Option.not_isSome_iff_eq_none.mp (Bool.eq_false_iff.mp hd.2)).symm
  dirty id hd := by
    have hmore : svc.index.view.Extends (svc.index.view.applyBlock env b) := (EmailView.applyBlock_kept b).messages
    simp only [EmailService.indexBlock, Bool.or_eq_true, Bool.and_eq_true] at hd ⊢
    rcases hd with hd | hd
    · obtain ⟨m, hm⟩ := Option.isSome_iff_exists.mp (h.dirty id hd)
      exact Option.isSome_iff_exists.mpr ⟨m, hmore id m hm⟩
    · exact hd.2
  unsaved := h.unsaved
  saved := h.saved
  call _ _ hc := by
    cases hc
    rfl

theorem Projected.save : Projected env { svc.save with call := none } := by
  have hrecords : svc.save.records = svc.index.view.messages := by
    funext id
    show (if svc.dirtyMessages id then (svc.index.view.messages id).or (svc.records id) else svc.records id) = _
    cases hdirty : svc.dirtyMessages id with
    | true =>
      obtain ⟨m, hm⟩ := Option.isSome_iff_exists.mp (h.dirty id hdirty)
      rw [hm]
      rfl
    | false => exact h.clean id hdirty
  refine ⟨h.view, fun id _ => congrFun hrecords id, nofun, nofun, ?_, nofun⟩
  intro _ s hs
  cases hs
  show { svc.index.view with messages := svc.save.records } = viewOf env svc.index.position
  rw [hrecords, ← h.view]

theorem Projected.load (hpurged : svc.purged = false) : Projected env (svc.load env) := by
  cases hsnapshot : svc.snapshot with
  | none =>
    have hload : svc.load env = { svc with index := reset, dirtyMessages := fun _ => false, call := none } := by
      rw [EmailService.load, hsnapshot]
    rw [hload]
    exact ⟨rfl, fun id _ => h.unsaved hsnapshot id, nofun, h.unsaved, h.saved, nofun⟩
  | some s =>
    have hview := h.saved hpurged s hsnapshot
    have hload : svc.load env =
        { svc with index := ⟨s.position, viewOf env s.position⟩, dirtyMessages := fun _ => false, call := none } := by
      rw [EmailService.load, hsnapshot]
      simp only [hview, (registered_viewOf env s.position).ensureRegistry]
    rw [hload]
    refine ⟨rfl, fun id _ => ?_, nofun, h.unsaved, h.saved, nofun⟩
    show svc.records id = (viewOf env s.position).messages id
    rw [← hview]

theorem Projected.read (hmeets : svc.undisturbed .read) : Projected env (svc.read env) := by
  unfold EmailService.read
  cases hcall : svc.call with
  | none => exact h
  | some c =>
    cases c with
    | check head => exact (h.discardStale hcall).startLoop head
    | index head number =>
      simp only
      split
      · exact h.save
      · rename_i hle
        cases hblock : svc.chain.ancestor number with
        | none => exact h.setCall svc.chain nofun
        | some b =>
          obtain rfl := Branch.ancestor_number hblock
          refine h.indexBlock ?_
          rw [h.view]
          cases hposition : svc.index.position with
          | none =>
            have hzero : b.number = 0 := by rw [h.call head _ hcall, hposition]; rfl
            rw [hzero] at hblock
            obtain ⟨g, rfl⟩ := Branch.ancestor_zero hblock
            rfl
          | some p =>
            have hparent : b.parent = some p := by simpa [undisturbed, hcall, hposition, hblock, hle] using hmeets
            obtain ⟨c, rfl⟩ := Branch.parent_eq_some hparent
            rfl

theorem Projected.step (e : EmailEvent) (hmeets : svc.undisturbed e) :
    Projected env (svc.step env e) := by
  cases e with
  | reorg chain => exact h.setCall chain h.call
  | sync =>
    show Projected env svc.sync
    unfold EmailService.sync
    split
    · exact h
    · exact h.setCall svc.chain nofun
  | read => exact h.read hmeets
  | restart => exact h.load (by simpa [undisturbed] using hmeets)

end

theorem run_projected (chain : Branch EmailBlock) (events : List EmailEvent)
    (h : Run.all (step env) undisturbed (init chain) events) : Projected env (run env chain events) :=
  Run.invariant (I := Projected env) (fun _ e hs => hs.step e) (projected_init chain) h

end EmailService

/-! ## Both projections -/

/-- Over every interleaving with reorganisations whose reads all meet the condition, what is stored for a canonical
block is the fold over that block and its ancestors. -/
theorem projections_follow_chain (kings : SupplyKings) (genesisSupply : Nat) (rewardChain : Branch RewardBlock)
    (calls : List SupplyEvent) (env : EmailEnv) (emailChain : Branch EmailBlock) (syncs : List EmailEvent) :
    (Run.all SupplyService.step (SupplyService.undisturbed kings) (.init genesisSupply rewardChain) calls →
      let svc := SupplyService.run genesisSupply rewardChain calls
      ∀ n e, svc.entries n = some e → svc.chain.ancestor n = some e.block →
        e = SupplyService.entryAt kings genesisSupply e.block) ∧
    (Run.all (EmailService.step env) EmailService.undisturbed (.init emailChain) syncs →
      let svc := EmailService.run env emailChain syncs
      ∀ b, svc.index.position = some b → svc.chain.ancestor b.number = some b →
        svc.index.view = EmailService.viewAt env b) := by
  constructor
  · intro h svc n e he _
    exact ((SupplyService.run_projected rewardChain calls h).keeps.entries n e he).2
  · intro h svc b hb _
    have hview := (EmailService.run_projected emailChain syncs h).view
    rw [show (EmailService.run env emailChain syncs).index.position = some b from hb] at hview
    exact hview

/-! ### A chain with a name and a message -/

/-- One account registers, buys a mailbox and writes to itself; the last byte of a transaction says which. -/
def nameEnv : EmailEnv where
  backend := Backend.accepting (fun body =>
    { version := 2, spends := [⟨0, 0, [], emailVMActionMagic ++ body⟩], outputs := [], balanceCommitment := 0,
      bindingSig := [], withdrawalRecipient := 7, withdrawalValue := some (10 ^ 18), gasSponsorValue := none,
      migrationOutputRandomness := [] }) 7 (by decide)
  sender _ := some 7
  parseAction
    | [1] => some { version := 2, kind := "super", domain := "tkm" }
    | [2] => some { version := 2, kind := "buy", domain := "tkm", username := "a" }
    | [3] => some { version := 2, kind := "message", fromBox := "a@tkm", toBox := "a@tkm" }
    | _ => none
  toLower s := s
  trimSpace s := s
  equalFold s t := s = t
  hexToAddress _ := none
  addressHex _ := ""
  hashHex _ := ""
  decodeHex _ := some (List.replicate 12 1)
  validPublicKey _ := true

def nameTx (kind : UInt8) : Tx where
  hash := 9
  hash_ne := by decide
  type := .legacy
  chainId := 1
  nonce := 0
  gasTipCap := 0
  gasFeeCap := 0
  gas := 0
  toAddr := none
  value := 0
  data := Bytes.ofText shieldedTxMagic ++ [kind]
  algorithm := ""
  publicKey := []

def firstBlock : Branch EmailBlock := .genesis ⟨0, []⟩
def namedBlock : Branch EmailBlock := .child firstBlock ⟨1, [nameTx 1, nameTx 2, nameTx 3]⟩
def idleSibling : Branch EmailBlock := .child firstBlock ⟨1, []⟩

theorem projections_follow_chain_quiet :
    (∃ e, (SupplyService.run 0 SupplyService.quietChain
          [.atBlock 1, .read ⟨5, fun _ => 6⟩, .read ⟨5, fun _ => 6⟩]).entries 1 = some e ∧
        e = SupplyService.entryAt ⟨5, fun _ => 6⟩ 0 e.block) ∧
      (EmailService.run nameEnv namedBlock [.sync, .read, .read, .read, .read, .restart]).index.view =
        EmailService.viewAt nameEnv namedBlock := by
  obtain ⟨hsupply, hemail⟩ := projections_follow_chain ⟨5, fun _ => 6⟩ 0 SupplyService.quietChain
    [.atBlock 1, .read ⟨5, fun _ => 6⟩, .read ⟨5, fun _ => 6⟩] nameEnv namedBlock
    [.sync, .read, .read, .read, .read, .restart]
  refine ⟨⟨_, rfl, ?_⟩, ?_⟩
  · exact hsupply (by decide +kernel) 1 _ rfl rfl
  · exact hemail (by decide +kernel) namedBlock rfl rfl

/-- Whatever a chain contains, its names are registered under their hashes, and its messages stay. -/
theorem email_names_and_messages_kept (env : EmailEnv) (head : Branch EmailBlock) :
    EmailView.Registered env (EmailService.viewAt env head) ∧ ∀ n b, head.ancestor n = some b →
      EmailView.Extends (EmailService.viewAt env b) (EmailService.viewAt env head) := by
  refine ⟨EmailService.registered_viewOf env (some head), fun n b hb => ?_⟩
  induction head with
  | genesis g =>
    rw [Branch.ancestor, Option.ite_none_right_eq_some] at hb
    cases hb.2
    exact fun _ _ h => h
  | child parent c ih =>
    rw [Branch.ancestor] at hb
    split at hb
    · cases hb
      exact fun _ _ h => h
    · exact fun id m h => (EmailView.applyBlock_kept _).messages id m (ih hb id m h)

theorem email_names_and_messages_kept_named : EmailView.Extends (EmailService.viewAt nameEnv namedBlock)
    (EmailService.viewAt nameEnv (.child namedBlock ⟨2, []⟩)) :=
  (email_names_and_messages_kept nameEnv (.child namedBlock ⟨2, []⟩)).2 1 namedBlock rfl

/-! ### A reorganisation between two reads -/

def sentMessage : Hash := nameEnv.backend.keccak256 (Bytes.ofText "TKMEMAIL_MESSAGE_V1" ++ Hash.bytes 9 ++
  Bytes.ofText "a@tkm" ++ Bytes.ofText "a@tkm" ++ List.replicate 12 1 ++ List.replicate 12 1)

def lateBlock : RewardBlock := ⟨{ rewardedHeader with number := 2, fits := by decide }, []⟩

def emptyBranch : Branch RewardBlock :=
  .child (.child SupplyService.genesisBlock ⟨{ rewardedHeader with coinbase := 0 }, []⟩) lateBlock

def rewardBranch : Branch RewardBlock := .child SupplyService.quietChain lateBlock

def nameBranch : Branch EmailBlock := .child namedBlock ⟨2, []⟩
def idleBranch : Branch EmailBlock := .child idleSibling ⟨2, []⟩

/-- The chain is reorganised after the first block is read, and the second one comes from the new branch: it is
canonical, but its totals lack the rewards of its parent, and the name registered on the other branch stays. A node
that stops after deleting the messages of a stale block loses them when the block is canonical again. -/
theorem reorg_between_reads_mixes_branches :
    (let svc := SupplyService.run 0 emptyBranch
        [.atBlock 2, .read ⟨5, fun _ => 6⟩, .read ⟨5, fun _ => 6⟩, .reorg rewardBranch, .read ⟨5, fun _ => 6⟩];
      svc.chain.ancestor 2 = some rewardBranch ∧ svc.latest = some 2 ∧
      ((svc.entries 2).map fun e => (e.block, e.totalIssued)) = some (rewardBranch, 200 * ether) ∧
      (SupplyService.entryAt ⟨5, fun _ => 6⟩ 0 rewardBranch).totalIssued = 400 * ether) ∧
    (let svc := EmailService.run nameEnv nameBranch [.sync, .read, .read, .read, .reorg idleBranch, .read];
      svc.chain.ancestor 2 = some idleBranch ∧ svc.index.position = some idleBranch ∧
      svc.index.view.superAddress = 7 ∧ (EmailService.viewAt nameEnv idleBranch).superAddress = 0) ∧
    (let svc := EmailService.run nameEnv namedBlock
        [.sync, .read, .read, .read, .read, .reorg idleSibling, .sync, .read, .restart, .reorg namedBlock];
      svc.chain.ancestor 1 = some namedBlock ∧ svc.index.position = some namedBlock ∧
      svc.index.view.messages sentMessage = none ∧
      ((EmailService.viewAt nameEnv namedBlock).messages sentMessage).isSome) := by
  refine ⟨?_, ?_, ?_⟩
  · decide +kernel
  · decide +kernel
  · decide +kernel

end TkmChain
