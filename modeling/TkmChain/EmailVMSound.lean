import TkmChain.EmailVM

/-!
# The name registry of the EmailVM index

Every domain and every mailbox has its registration under the hash of its name,
and messages are only added. So reading a snapshot back, which writes all
registrations again, changes nothing.
-/

namespace TkmChain

namespace EmailView

variable {env : EmailEnv} {st : EmailView} {ctx : EmailContext}

structure Registered (env : EmailEnv) (st : EmailView) : Prop where
  super : st.superAddress ≠ 0 → st.registry.get (env.emailVMRegistryHash "domain" emailVMBuiltinDomain) =
    some (st.superRegistration (env.emailVMRegistryHash "domain" emailVMBuiltinDomain))
  domains : ∀ d ∈ st.domains.rows, d.registryHash = env.emailVMRegistryHash "domain" d.name ∧
    st.registry.get d.registryHash = some d.registration
  mailboxes : ∀ m ∈ st.mailboxes.rows, m.registryHash = env.emailVMRegistryHash "mailbox" m.address ∧
    st.registry.get m.registryHash = some m.registration

theorem registered_empty : Registered env .empty where
  super h := absurd rfl h
  domains _ h := by cases h
  mailboxes _ h := by cases h

theorem registryHash_eq {kind name : String} {hash : Hash}
    (h : env.emailVMActionRegistryHash action kind name = some hash) : hash = env.emailVMRegistryHash kind name := by
  simp only [EmailEnv.emailVMActionRegistryHash] at h
  split at h
  · exact (Option.some.inj h).symm
  · cases h

section
variable {registry : Table EmailNameRegistration.registryHash} {r x : EmailNameRegistration} {hash : Hash}

theorem get_register (hfresh : registry.get r.registryHash = none) (h : registry.get hash = some x) :
    (registry.put r).get hash = some x := by
  rw [Table.get_put_ne, h]
  rintro rfl
  rw [hfresh] at h
  cases h

variable (env registry r) in
def Enrolled : Prop :=
  r.registryHash = env.emailVMRegistryHash r.kind r.name ∧ registry.get r.registryHash = some r

theorem enrolled_put {key : α → κ} [DecidableEq κ] {t : Table key} {f : α → EmailNameRegistration}
    (h : ∀ y ∈ t.rows, Enrolled env registry (f y)) (hv : Enrolled env registry (f v)) :
    ∀ y ∈ (t.put v).rows, Enrolled env registry (f y) := by
  intro y hy
  rcases Table.mem_put.mp hy with ⟨hy, -⟩ | rfl
  · exact h y hy
  · exact hv

end

/-! ## Actions -/

def Extends (st st' : EmailView) : Prop := ∀ id m, st.messages id = some m → st'.messages id = some m

/-- What a step leaves of a view: its registrations stay in order, and its messages stay. -/
structure Kept (env : EmailEnv) (st st' : EmailView) : Prop where
  registered : Registered env st → Registered env st'
  messages : Extends st st'

namespace Kept

theorem of_eq (hm : st'.messages = st.messages) (h : Registered env st → Registered env st') : Kept env st st' :=
  ⟨h, fun id m hid => by rw [hm, hid]⟩

theorem rfl : Kept env st st := of_eq (Eq.refl _) id

theorem trans (h : Kept env st st') (h' : Kept env st' st'') : Kept env st st'' :=
  ⟨h'.registered ∘ h.registered, fun id m hm => h'.messages id m (h.messages id m hm)⟩

theorem setPending (pending : Table EmailPendingPayment.key) : Kept env st { st with pending := pending } :=
  of_eq (Eq.refl _) fun h => ⟨h.super, h.domains, h.mailboxes⟩

theorem updateDomain (hd : d ∈ st.domains.rows) (hreg : d'.registration = d.registration) :
    Kept env st { st with domains := st.domains.put d' } :=
  of_eq (Eq.refl _) fun h =>
    ⟨h.super, enrolled_put (f := EmailDomain.registration) h.domains (hreg ▸ h.domains d hd), h.mailboxes⟩

theorem updateMailbox (hm : m ∈ st.mailboxes.rows) (hreg : m'.registration = m.registration)
    (keys : Table EmailMailboxKey.mailbox) :
    Kept env st { st with mailboxes := st.mailboxes.put m', keys := keys } :=
  of_eq (Eq.refl _) fun h =>
    ⟨h.super, h.domains, enrolled_put (f := EmailMailbox.registration) h.mailboxes (hreg ▸ h.mailboxes m hm)⟩

section
variable {r : EmailNameRegistration} (hhash : r.registryHash = env.emailVMRegistryHash r.kind r.name)
  (hfresh : st.registry.get r.registryHash = none)
include hfresh

theorem register : Kept env st { st with registry := st.registry.put r } :=
  of_eq (Eq.refl _) fun h => ⟨fun hs => get_register hfresh (h.super hs),
    fun d hd => (h.domains d hd).imp_right (get_register hfresh),
    fun m hm => (h.mailboxes m hm).imp_right (get_register hfresh)⟩

include hhash

theorem addDomain (hr : r = d.registration) :
    Kept env st { st with domains := st.domains.put d, registry := st.registry.put r } :=
  (register hfresh).trans (of_eq (Eq.refl _) fun h => ⟨h.super,
    enrolled_put (f := EmailDomain.registration) h.domains (hr ▸ ⟨hhash, Table.get_put_self ..⟩), h.mailboxes⟩)

theorem addMailbox (hr : r = m.registration) :
    Kept env st { st with mailboxes := st.mailboxes.put m, registry := st.registry.put r } :=
  (register hfresh).trans (of_eq (Eq.refl _) fun h => ⟨h.super, h.domains,
    enrolled_put (f := EmailMailbox.registration) h.mailboxes (hr ▸ ⟨hhash, Table.get_put_self ..⟩)⟩)

end

end Kept

variable (st ctx) in
theorem applyInstallment_eq (order : Order) :
    ∃ txs pending, st.applyInstallment ctx order = (txs, { st with pending := pending }) := by
  unfold applyInstallment
  split
  · exact ⟨none, st.pending, rfl⟩
  · dsimp only
    split
    · exact ⟨none, st.pending, rfl⟩
    · split
      · exact ⟨none, _, rfl⟩
      · exact ⟨some _, _, rfl⟩

theorem applySuper_kept : Kept env st (st.applySuper env action ctx) := by
  unfold applySuper
  cases hdomain : env.normalizeEmailDomain action.domain true with
  | none => exact .rfl
  | some domain =>
    simp only
    split
    · exact .rfl
    · rename_i hguard
      simp only [not_or, not_not] at hguard
      cases hhash : env.emailVMActionRegistryHash action "domain" domain with
      | none => exact .rfl
      | some hash =>
        simp only
        split
        · exact .rfl
        · rename_i hfresh
          rw [Option.not_isSome_iff_eq_none] at hfresh
          obtain rfl := registryHash_eq hhash
          rw [hguard.1] at hfresh ⊢
          exact .of_eq rfl fun h => ⟨fun _ => Table.get_put_self _ _,
            fun d hd => (h.domains d hd).imp_right (get_register hfresh),
            fun m hm => (h.mailboxes m hm).imp_right (get_register hfresh)⟩

theorem operatorOrder_some {domain : EmailDomain} (h : st.operatorOrder env action ctx = some (domain, order)) :
    domain.registryHash = env.emailVMRegistryHash "domain" domain.name ∧ st.registry.get domain.registryHash = none := by
  simp only [operatorOrder, Option.bind_eq_bind, Option.bind_eq_some_iff, stopIf_some, Option.some.injEq,
    Prod.mk.injEq] at h
  obtain ⟨name, -, _, -, hash, hhash, _, hfresh, _, -, payout, -, _, -, rfl, -⟩ := h
  rw [not_or, Option.not_isSome_iff_eq_none, Option.not_isSome_iff_eq_none] at hfresh
  exact ⟨registryHash_eq hhash, hfresh.2⟩

theorem applyOperator_kept : Kept env st (st.applyOperator env action ctx) := by
  unfold applyOperator
  cases horder : st.operatorOrder env action ctx with
  | none => exact .rfl
  | some p =>
    obtain ⟨domain, order⟩ := p
    obtain ⟨hhash, hfresh⟩ := operatorOrder_some horder
    obtain ⟨txs, pending, hpaid⟩ := applyInstallment_eq st ctx order
    simp only [hpaid]
    cases txs with
    | none => exact .setPending pending
    | some paymentTxs =>
      exact (Kept.setPending pending).trans (.addDomain hhash hfresh rfl)

theorem applyPayout_kept : Kept env st (st.applyPayout env action ctx) := by
  unfold applyPayout
  split
  · split
    · exact .rfl
    · rename_i record hget
      split
      · exact .rfl
      · exact .updateDomain (Table.get_eq_some.mp hget).1 rfl
  · exact .rfl

theorem expansionOrder_some
    (h : st.expansionOrder env action ctx = some (record, order)) : record ∈ st.domains.rows := by
  simp only [expansionOrder, Option.bind_eq_bind, Option.bind_eq_some_iff, stopIf_some, Option.some.injEq,
    Prod.mk.injEq] at h
  obtain ⟨name, -, _, -, record, hget, _, -, _, -, rfl, -⟩ := h
  exact (Table.get_eq_some.mp hget).1

theorem applyExpansion_kept : Kept env st (st.applyExpansion env action ctx) := by
  unfold applyExpansion
  cases horder : st.expansionOrder env action ctx with
  | none => exact .rfl
  | some p =>
    obtain ⟨record, order⟩ := p
    obtain ⟨txs, pending, hpaid⟩ := applyInstallment_eq st ctx order
    simp only [hpaid]
    cases txs with
    | none => exact .setPending pending
    | some _ => exact (Kept.setPending pending).trans (.updateDomain (expansionOrder_some horder) rfl)

theorem purchaseOrder_some {mailbox : EmailMailbox} (h : st.purchaseOrder env action ctx = some (mailbox, order)) :
    mailbox.registryHash = env.emailVMRegistryHash "mailbox" mailbox.address ∧
      st.registry.get mailbox.registryHash = none := by
  simp only [purchaseOrder, Option.bind_eq_bind, Option.bind_eq_some_iff, stopIf_some, Option.some.injEq,
    Prod.mk.injEq] at h
  obtain ⟨username, -, domain, -, hash, hhash, _, hfresh, _, -, rfl, -⟩ := h
  rw [not_or, Option.not_isSome_iff_eq_none, Option.not_isSome_iff_eq_none] at hfresh
  exact ⟨registryHash_eq hhash, hfresh.2⟩

theorem useUnit_kept (domain : String) : Kept env st (st.useUnit ctx domain) := by
  unfold useUnit
  split
  · exact .rfl
  · split
    · exact .rfl
    · rename_i record hget
      exact .updateDomain (Table.get_eq_some.mp hget).1 rfl

theorem applyMailboxPurchase_kept : Kept env st (st.applyMailboxPurchase env action ctx) := by
  unfold applyMailboxPurchase
  cases horder : st.purchaseOrder env action ctx with
  | none => exact .rfl
  | some p =>
    obtain ⟨mailbox, order⟩ := p
    obtain ⟨hhash, hfresh⟩ := purchaseOrder_some horder
    obtain ⟨txs, pending, hpaid⟩ := applyInstallment_eq st ctx order
    simp only [hpaid]
    cases txs with
    | none => exact .setPending pending
    | some paymentTxs =>
      exact ((Kept.setPending pending).trans
        (.addMailbox hhash hfresh rfl)).trans (useUnit_kept _)

theorem applyMailboxKey_kept : Kept env st (st.applyMailboxKey env action ctx) := by
  unfold applyMailboxKey
  split
  · split
    · exact .rfl
    · split
      · exact .rfl
      · rename_i record hget
        split
        · exact .rfl
        · refine .updateMailbox (Table.get_eq_some.mp hget).1 ?_ _
          rfl
  · exact .rfl

theorem applyMessage_kept : Kept env st (st.applyMessage env action ctx) := by
  unfold applyMessage
  split
  · exact .rfl
  · rename_i message _
    split
    · exact .rfl
    · rename_i hfresh
      rw [Option.not_isSome_iff_eq_none] at hfresh
      refine ⟨fun h => ⟨h.super, h.domains, h.mailboxes⟩, fun id m hm => ?_⟩
      have hid : id ≠ message.id := fun heq => by
        rw [heq, hfresh] at hm
        cases hm
      exact (Function.update_of_ne hid ..).trans hm

theorem applyAction_kept : Kept env st (st.applyAction env action ctx) := by
  unfold applyAction
  split
  · exact applySuper_kept
  split
  · exact applyOperator_kept
  split
  · exact applyExpansion_kept
  split
  · exact applyMailboxPurchase_kept
  split
  · exact applyPayout_kept
  split
  · exact applyMailboxKey_kept
  split
  · exact applyMessage_kept
  · exact .rfl

theorem applyTransaction_kept (block timestamp : Nat) (tx : Tx) (txIndex : Nat) :
    Kept env st (st.applyTransaction env block timestamp tx txIndex) := by
  unfold applyTransaction
  split
  · split
    · exact .rfl
    · split
      · exact applyAction_kept
      · exact .rfl
  · exact .rfl

theorem applyBlock_kept (b : Branch EmailBlock) : Kept env st (st.applyBlock env b) :=
  List.foldlRecOn (motive := Kept env st) _ _ .rfl fun _ hst p _ => hst.trans (applyTransaction_kept _ _ p.1 p.2)

/-! ## Reading a snapshot back -/

section
variable (h : Registered env st)
include h

theorem Registered.ensureSuper : EmailService.ensureSuper env st = st := by
  unfold EmailService.ensureSuper
  split
  · rfl
  · rename_i hs
    rw [Table.put_of_get (h.super hs)]

theorem Registered.ensureDomain (hd : d ∈ st.domains.rows) :
    EmailService.ensureDomain env st d = st := by
  obtain ⟨hhash, hget⟩ := h.domains d hd
  have hstored : st.domains.get d.name = some d := Table.get_eq_some.mpr ⟨hd, rfl⟩
  have hkept : st.registry.put d.registration = st.registry := Table.put_of_get hget
  simp only [EmailService.ensureDomain, ← hhash, Table.put_of_get hstored, ite_self]
  exact congrArg (fun r => { st with registry := r }) hkept

theorem Registered.ensureMailbox (hm : m ∈ st.mailboxes.rows) :
    EmailService.ensureMailbox env st m = st := by
  obtain ⟨hhash, hget⟩ := h.mailboxes m hm
  have hstored : st.mailboxes.get m.address = some m := Table.get_eq_some.mpr ⟨hm, rfl⟩
  have hkept : st.registry.put m.registration = st.registry := Table.put_of_get hget
  simp only [EmailService.ensureMailbox, ← hhash, Table.put_of_get hstored, ite_self]
  exact congrArg (fun r => { st with registry := r }) hkept

theorem Registered.ensureRegistry : EmailService.ensureRegistry env st = st := by
  have hdomains : st.domains.rows.foldl (EmailService.ensureDomain env) st = st :=
    List.foldlRecOn (motive := (· = st)) _ _ rfl fun s hs d hd => by rw [hs, h.ensureDomain hd]
  have hmailboxes : st.mailboxes.rows.foldl (EmailService.ensureMailbox env) st = st :=
    List.foldlRecOn (motive := (· = st)) _ _ rfl fun s hs m hm => by rw [hs, h.ensureMailbox hm]
  simp only [EmailService.ensureRegistry, h.ensureSuper, hdomains, hmailboxes]

end

end EmailView

end TkmChain
