import TkmChain.Supply

/-!
# Entries over a run of the supply service

Every entry the service stores, works on or returns is the one of the genesis
block or extends another one by a block just read, so a property of entries that
each read keeps holds for all of them.
-/

namespace TkmChain

variable {e : SupplyEntry} {next : SupplyEntry → SupplyService → SupplyService}

namespace SupplyService

variable {svc : SupplyService} {P : SupplyEntry → Prop}

def CallKeeps (P : SupplyEntry → Prop) : SupplyCall → Prop
  | .rewind _ latest => P latest
  | .restart _ => True
  | .index _ current number => P current ∧ number = current.blockNumber + 1

structure Keeps (P : SupplyEntry → Prop) (svc : SupplyService) : Prop where
  entries : ∀ n e, svc.entries n = some e → e.blockNumber = n ∧ P e
  call : ∀ c, svc.call = some c → CallKeeps P c
  reply : ∀ e, svc.reply = some (.ok e) → P e

theorem keeps_init (P : SupplyEntry → Prop) (genesisSupply : Nat) (chain : Branch RewardBlock) :
    Keeps P (init genesisSupply chain) where
  entries _ _ h := by cases h
  call _ h := by cases h
  reply _ h := by cases h

section
variable (h : Keeps P svc)
include h

theorem Keeps.answer (hr : ∀ e, r = .ok e → P e) :
    Keeps P (svc.answer r) where
  entries := h.entries
  call _ hc := by cases hc
  reply e he := hr e (Option.some.inj he)

theorem Keeps.setCall (hc : CallKeeps P c) : Keeps P { svc with call := some c } where
  entries := h.entries
  call _ hc' := Option.some.inj hc' ▸ hc
  reply := h.reply

theorem Keeps.setLatest (latest : Option Nat) : Keeps P { svc with latest := latest } :=
  ⟨h.entries, h.call, h.reply⟩

theorem Keeps.writeEntry (he : P e) : Keeps P (svc.writeEntry e) where
  entries n e' hn := by
    simp only [SupplyService.writeEntry, Function.update_apply] at hn
    split at hn
    · rename_i heq
      cases hn
      exact ⟨heq.symm, he⟩
    · exact h.entries n e' hn
  call := h.call
  reply := h.reply

theorem Keeps.deleteEntry (number : Nat) : Keeps P (svc.deleteEntry number) where
  entries n e hn := by
    simp only [SupplyService.deleteEntry, Function.update_apply] at hn
    split at hn
    · cases hn
    · exact h.entries n e hn
  call := h.call
  reply := h.reply

theorem Keeps.readLatest (he : svc.readLatest = some e) : P e := by
  obtain ⟨n, -, hn⟩ := Option.bind_eq_some_iff.mp he
  exact (h.entries n e hn).2

theorem Keeps.readLatestBefore (he : svc.readLatestBefore number = some e) : P e := by
  obtain ⟨n, -, hn⟩ := List.exists_of_findSome?_eq_some he
  exact (h.entries n e hn).2

theorem Keeps.startFrom (target : Nat) (hc : P current) :
    Keeps P (svc.startFrom target current) := by
  unfold SupplyService.startFrom
  split
  · refine h.answer fun e he => ?_
    cases hn : svc.entries target with
    | none =>
      rw [hn] at he
      cases he
    | some stored =>
      rw [hn] at he
      cases he
      exact (h.entries target _ hn).2
  · exact h.setCall ⟨hc, rfl⟩

theorem Keeps.discard (target : Nat) (stale : SupplyEntry) : Keeps P (svc.discard target stale) := by
  have hdel := h.deleteEntry stale.blockNumber
  unfold SupplyService.discard
  cases hbefore : (svc.deleteEntry stale.blockNumber).readLatestBefore stale.blockNumber with
  | none =>
    simp only [hbefore]
    exact (hdel.setLatest none).setCall trivial
  | some latest =>
    simp only [hbefore]
    exact hdel.setCall (hdel.readLatestBefore hbefore)

end

section
variable (hgenesis : ∀ block, svc.chain.ancestor 0 = some block → P (.genesis svc.genesisSupply block))
include hgenesis

theorem Keeps.genesisEntry (h : Keeps P svc)
    (hnext : ∀ e svc', P e → Keeps P svc' → Keeps P (next e svc')) : Keeps P (svc.genesisEntry next) := by
  unfold SupplyService.genesisEntry
  cases hblock : svc.chain.ancestor 0 with
  | none => exact h.answer fun e he => by cases he
  | some block => exact hnext _ _ (hgenesis block hblock) (h.writeEntry (hgenesis block hblock))

theorem Keeps.atBlock (h : Keeps P svc) (target : Nat) : Keeps P (svc.atBlock target) := by
  have hzero : Keeps P (svc.genesisEntry fun entry svc => svc.answer (.ok entry)) :=
    h.genesisEntry hgenesis fun e svc' he hs => hs.answer fun e' he' => by
      cases he'
      exact he
  unfold SupplyService.atBlock
  cases svc.call with
  | some _ => exact h
  | none =>
    simp only
    split
    · exact h.answer fun e he => by cases he
    · split
      · cases hstored : svc.entries 0 with
        | none => exact hzero
        | some stored =>
          simp only
          split
          · refine h.answer fun e he => ?_
            cases he
            exact (h.entries 0 _ hstored).2
          · exact hzero
      · cases hlatest : svc.readLatest with
        | none => exact h.setCall trivial
        | some latest => exact h.setCall (h.readLatest hlatest)

theorem Keeps.read (h : Keeps P svc) (kings : SupplyKings)
    (hextend : ∀ target current number block, svc.call = some (.index target current number) → number ≤ target →
      svc.chain.ancestor number = some block → P current →
      P (current.extend number block (kings.blockRewardDelta block.content))) : Keeps P (svc.read kings) := by
  unfold SupplyService.read
  cases hcall : svc.call with
  | none => exact h
  | some c =>
    have hkept := h.call c hcall
    cases c with
    | rewind target latest =>
      simp only
      split
      · exact h.discard target latest
      · split
        · exact (h.setLatest _).startFrom target hkept
        · exact h.discard target latest
    | restart target => exact h.genesisEntry hgenesis fun e svc' he hs => hs.startFrom target he
    | index target current number =>
      simp only
      split
      · refine h.answer fun e he => ?_
        cases he
        exact hkept.1
      · rename_i hle
        cases hblock : svc.chain.ancestor number with
        | none => exact h.answer fun e he => by cases he
        | some block =>
          have he := hextend target current number block hcall (Nat.le_of_not_lt hle) hblock hkept.1
          exact (h.writeEntry he).setCall ⟨he, rfl⟩

theorem Keeps.step (h : Keeps P svc) (e : SupplyEvent)
    (hextend : ∀ kings target current number block, e = .read kings → svc.call = some (.index target current number) →
      number ≤ target → svc.chain.ancestor number = some block → P current →
      P (current.extend number block (kings.blockRewardDelta block.content))) : Keeps P (svc.step e) := by
  cases e with
  | reorg chain => exact ⟨h.entries, h.call, h.reply⟩
  | atBlock target => exact h.atBlock hgenesis target
  | read kings =>
    exact h.read hgenesis kings fun target current number block => hextend kings target current number block rfl

end

/-! ## The chain -/

structure Unmoved (svc svc' : SupplyService) : Prop where
  chain : svc'.chain = svc.chain
  genesisSupply : svc'.genesisSupply = svc.genesisSupply

theorem startFrom_unmoved (target : Nat) (current : SupplyEntry) : Unmoved svc (svc.startFrom target current) := by
  unfold startFrom
  split
  · exact ⟨rfl, rfl⟩
  · exact ⟨rfl, rfl⟩

theorem discard_unmoved (target : Nat) (stale : SupplyEntry) : Unmoved svc (svc.discard target stale) := by
  simp only [discard]
  split
  · exact ⟨rfl, rfl⟩
  · exact ⟨rfl, rfl⟩

theorem genesisEntry_unmoved (hnext : ∀ e svc, Unmoved svc (next e svc)) : Unmoved svc (svc.genesisEntry next) := by
  unfold genesisEntry
  split
  · exact ⟨rfl, rfl⟩
  · rename_i block _
    have h := hnext (.genesis svc.genesisSupply block) (svc.writeEntry (.genesis svc.genesisSupply block))
    exact ⟨h.chain, h.genesisSupply⟩

theorem atBlock_unmoved (target : Nat) : Unmoved svc (svc.atBlock target) := by
  have hzero : Unmoved svc (svc.genesisEntry fun entry svc => svc.answer (.ok entry)) :=
    genesisEntry_unmoved fun _ _ => ⟨rfl, rfl⟩
  unfold atBlock
  split
  · exact ⟨rfl, rfl⟩
  · split
    · exact ⟨rfl, rfl⟩
    · split
      · split
        · split
          · exact ⟨rfl, rfl⟩
          · exact hzero
        · exact hzero
      · split
        · exact ⟨rfl, rfl⟩
        · exact ⟨rfl, rfl⟩

theorem read_unmoved (kings : SupplyKings) : Unmoved svc (svc.read kings) := by
  unfold read
  split
  · exact ⟨rfl, rfl⟩
  · split
    · exact discard_unmoved _ _
    · split
      · rename_i target latest _ _ _
        have h : Unmoved { svc with latest := some latest.blockNumber } _ := startFrom_unmoved target latest
        exact ⟨h.chain, h.genesisSupply⟩
      · exact discard_unmoved _ _
  · exact genesisEntry_unmoved fun e svc => startFrom_unmoved _ _
  · split
    · exact ⟨rfl, rfl⟩
    · split
      · exact ⟨rfl, rfl⟩
      · exact ⟨rfl, rfl⟩

/-! ## Runs -/

theorem run_concat (genesisSupply : Nat) (chain : Branch RewardBlock) (events : List SupplyEvent) (e : SupplyEvent) :
    run genesisSupply chain (events ++ [e]) = (run genesisSupply chain events).step e := List.foldl_concat ..

end SupplyService

end TkmChain
