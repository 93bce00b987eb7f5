import TkmChain.Descriptor
import TkmChain.OnionSound

/-!
# What a descriptor authenticates

The identifier of a relay is a digest of its ML-KEM key, and that key is public. The
signing key is chosen by whoever signs, so anybody can sign a descriptor for a relay
and pin it first. Names on a route are compared as they are spelled, not as they are
dialled.
-/

namespace TkmChain.Tkmnet

open List

variable {key signing : UInt8}

open Bytes

/-! ## Descriptors of other signers -/

structure Signer (env : DescriptorEnv) where
  publicKey : Bytes
  sign : Bytes → Bytes
  size : publicKey.length = mldsa87PublicKeySize
  verifies : ∀ message, env.verifyMLDSA87 publicKey message (sign message) = true

section
variable {env : DescriptorEnv} {d : Descriptor} {message : Bytes} {onion host : Text}

def Descriptor.resigned (d : Descriptor) (s : Signer env) (onion : Text) (message : Bytes) : Descriptor :=
  { d with onion := onion, signingPublicKey := s.publicKey, signature := s.sign message }

theorem size_append (a b : Text) : Text.size (a ++ b) = Text.size a + Text.size b := by
  simp [Text.size]

theorem size_host (h : validateOnionHostname env onion = .ok host) : host.size = 62 := by
  simp only [validateOnionHostname, ok_rules] at h
  obtain ⟨-, hsuffix, -, hlabel, -, -, rfl⟩ := h
  have hfound : (onionHost env onion).hasSuffix onionSuffix = true := by simpa using hsuffix
  rw [not_not, Text.trimSuffix, if_pos hfound] at hlabel
  obtain ⟨label, hlabel'⟩ := isSuffixOf_iff_suffix.mp hfound
  rw [← hlabel'] at hlabel ⊢
  rw [length_append, Nat.add_sub_cancel, take_left] at hlabel
  rw [size_append, hlabel]
  decide

structure Descriptor.Formed (d : Descriptor) : Prop where
  version : d.version = Tkmnet.version
  id : d.id ≠ Fixed.zero layerNextIDSize
  publicKey : d.publicKey.length = 1568
  signingPublicKey : d.signingPublicKey.length = mldsa87PublicKeySize
  expires : d.expires ≠ 0

theorem signingBytes_iff : (∃ message, d.signingBytes env = .ok message) ↔
    d.Formed ∧ ∃ host, validateOnionHostname env d.onion = .ok host := by
  simp only [Descriptor.signingBytes, ok_rules]
  constructor
  · rintro ⟨_, -, hformed, host, hhost, -⟩
    simp only [not_or, not_not] at hformed
    obtain ⟨hversion, hid, hkey, hsigning, hexpires⟩ := hformed
    exact ⟨⟨hversion, hid, hkey, hsigning, hexpires⟩, host, hhost⟩
  · rintro ⟨h, host, hhost⟩
    refine ⟨_, (), ?_, host, hhost, (), ?_, rfl⟩
    · simp [h.version, h.id, h.publicKey, h.signingPublicKey, h.expires]
    · rw [size_host hhost]
      decide

theorem verify_ok : d.verify env clock = .ok () ↔
    (∃ message, d.signingBytes env = .ok message ∧ env.verifyMLDSA87 d.signingPublicKey message d.signature = true) ∧
      ¬ (clock / second = 0 ∨ d.expires.toNat ≤ clock / second ∨ maxLifetime < d.expires.toNat - clock / second) ∧
      d.id.1 = env.relayIDDigest d.publicKey := by
  simp only [Descriptor.verify, ok_rules]
  constructor
  · rintro ⟨message, hmessage, -, hlife, -, hdigest, hsignature⟩
    exact ⟨⟨message, hmessage, by simpa using hsignature⟩, hlife, by simpa using hdigest⟩
  · rintro ⟨⟨message, hmessage, hsignature⟩, hlife, hdigest⟩
    exact ⟨message, hmessage, (), hlife, (), by simpa using hdigest, by simpa using hsignature⟩

theorem resigned_verifies (h : d.verify env clock = .ok ()) (s : Signer env)
    (honion : validateOnionHostname env onion = .ok host) :
    ∃ message, (d.resigned s onion message).verify env clock = .ok () := by
  obtain ⟨⟨message, hmessage, -⟩, hlife, hdigest⟩ := verify_ok.mp h
  obtain ⟨hformed, -⟩ := signingBytes_iff.mp ⟨message, hmessage⟩
  have hnew : (d.resigned s onion []).Formed :=
    ⟨hformed.version, hformed.id, hformed.publicKey, s.size, hformed.expires⟩
  obtain ⟨message', hmessage'⟩ := signingBytes_iff.mpr ⟨hnew, host, honion⟩
  exact ⟨message', verify_ok.mpr ⟨⟨message', hmessage', s.verifies message'⟩, hlife, hdigest⟩⟩

/-! ## Pinned descriptors -/

variable {known : DescriptorTable} {e : Descriptor}

theorem pin_new (hnone : known.get d.id = none) (hroom : known.rows.length < descriptorCacheLimit) :
    pin known d replaced full = (.ok true, known.put d) := by
  rw [pin, hnone]
  exact if_neg (Nat.not_le.mpr hroom)

theorem pin_other (hpinned : known.get e.id = some d) (hkeys : d.signingPublicKey ≠ e.signingPublicKey) :
    pin known e replaced full = (.error replaced, known) := by
  have hother : sameKeys d e = false := by simp [sameKeys, hkeys]
  rw [pin, hpinned]
  exact if_pos hother

theorem gossipAdd_new (h : e.verify env clock = .ok ()) (hnone : known.get e.id = none)
    (hroom : known.rows.length < descriptorCacheLimit) :
    (gossipAdd env known e clock evict).1 = .ok true ∧ (gossipAdd env known e clock evict).2.get e.id = some e := by
  simp only [gossipAdd, h]
  rw [pin_new (Table.get_filter_none hnone) (lt_of_le_of_lt (length_filter_le _ known.rows) hroom)]
  exact ⟨rfl, Table.get_put_self _ e⟩

theorem gossipAdd_other (hpinned : known.get d.id = some e) (he : e.verify env evict = .ok ())
    (hkeys : e.signingPublicKey ≠ d.signingPublicKey) :
    (gossipAdd env known d later evict).1.isOk = false ∧ (gossipAdd env known d later evict).2.get d.id = some e := by
  unfold gossipAdd
  cases d.verify env later with
  | error _ => exact ⟨rfl, hpinned⟩
  | ok _ =>
    have hkept : (known.filter fun cached => (cached.verify env evict).isOk).get d.id = some e :=
      Table.get_filter_of_pos hpinned (by rw [he]; rfl)
    simp only [pin_other hkept hkeys]
    exact ⟨rfl, hkept⟩

theorem addPeer_new (h : e.verify env clock = .ok ()) (hnone : known.get e.id = none)
    (hroom : known.rows.length < descriptorCacheLimit) :
    (addPeer env known e clock).1 = .ok true ∧ (addPeer env known e clock).2.get e.id = some e := by
  simp only [addPeer, h, pin_new hnone hroom]
  exact ⟨trivial, Table.get_put_self _ e⟩

theorem addPeer_other (hpinned : known.get d.id = some e) (hkeys : e.signingPublicKey ≠ d.signingPublicKey) :
    (addPeer env known d later).1.isOk = false ∧ (addPeer env known d later).2.get d.id = some e := by
  unfold addPeer
  cases d.verify env later with
  | error _ => exact ⟨rfl, hpinned⟩
  | ok _ =>
    simp only [pin_other hpinned hkeys]
    exact ⟨rfl, hpinned⟩

end

/-- For every verified descriptor there are verified ones of the same relay under every other signing key and every onion
name, and one that is learned first keeps the relay's own out of the gossip cache and of the peer set. -/
theorem signing_key_unbound (env : DescriptorEnv) (d : Descriptor) (clock : Nat) (h : d.verify env clock = .ok ())
    (s : Signer env) (hother : s.publicKey ≠ d.signingPublicKey) (onion host : Text)
    (honion : validateOnionHostname env onion = .ok host) :
    ∃ e : Descriptor, e.verify env clock = .ok () ∧ e.id = d.id ∧ e.onion = onion ∧ e.signingPublicKey = s.publicKey ∧
      (∀ known : DescriptorTable, known.get d.id = none → known.rows.length < descriptorCacheLimit →
        (gossipAdd env known e clock clock).1 = .ok true ∧
        ∀ later evict, e.verify env evict = .ok () →
          ((gossipAdd env (gossipAdd env known e clock clock).2 d later evict).1.isOk = false ∧
          (gossipAdd env (gossipAdd env known e clock clock).2 d later evict).2.get d.id = some e)) ∧
      ∀ peers : DescriptorTable, peers.get d.id = none → peers.rows.length < descriptorCacheLimit →
        (addPeer env peers e clock).1 = .ok true ∧
        ∀ later, (addPeer env (addPeer env peers e clock).2 d later).1.isOk = false ∧
          (addPeer env (addPeer env peers e clock).2 d later).2.get d.id = some e := by
  obtain ⟨message, hverified⟩ := resigned_verifies h s honion
  refine ⟨d.resigned s onion message, hverified, rfl, rfl, rfl, ?_, ?_⟩
  · intro known hnone hroom
    obtain ⟨hadded, hpinned⟩ := gossipAdd_new hverified hnone hroom
    exact ⟨hadded, fun later evict hevict => gossipAdd_other hpinned hevict hother⟩
  · intro peers hnone hroom
    obtain ⟨hadded, hpinned⟩ := addPeer_new hverified hnone hroom
    exact ⟨hadded, fun later => addPeer_other hpinned hother⟩

/-! ## Two signers of one relay -/

def plainDigest (b : Bytes) : Bytes :=
  if b = List.replicate 1568 (b.headD 0) then List.replicate layerNextIDSize (b.headD 0)
  else b ++ List.replicate (layerNextIDSize + 1) 0

theorem plainDigest_injective : Function.Injective plainDigest := by
  intro a b h
  have hlength := congrArg List.length h
  unfold plainDigest at h hlength
  by_cases ha : a = List.replicate 1568 (a.headD 0)
  · by_cases hb : b = List.replicate 1568 (b.headD 0)
    · rw [if_pos ha, if_pos hb] at h
      have hhead : a.headD 0 = b.headD 0 := (replicate_right_inj (by decide)).mp h
      rw [ha, hb, hhead]
    · rw [if_pos ha, if_neg hb, length_append, length_replicate, length_replicate] at hlength
      omega
  · by_cases hb : b = List.replicate 1568 (b.headD 0)
    · rw [if_neg ha, if_pos hb, length_append, length_replicate, length_replicate] at hlength
      omega
    · rw [if_neg ha, if_neg hb] at h
      exact append_cancel_right h

def plainEnv : DescriptorEnv where
  toLower s := s
  trimSpace s := s
  relayIDDigest := plainDigest
  verifyMLDSA87 publicKey _ signature := signature = publicKey.take 1

def plainSigner (x : UInt8) : Signer plainEnv where
  publicKey := List.replicate mldsa87PublicKeySize x
  sign _ := [x]
  size := length_replicate
  verifies _ := decide_eq_true rfl

def plainOnion (c : Char) : Text := List.replicate 56 c ++ onionSuffix

def plainRelay (key signing : UInt8) (onion : Text) : Descriptor where
  version := version
  id := ⟨List.replicate layerNextIDSize key, length_replicate⟩
  onion := onion
  publicKey := List.replicate 1568 key
  signingPublicKey := List.replicate mldsa87PublicKeySize signing
  expires := 13600
  signature := [signing]

theorem plainOnion_valid : validateOnionHostname plainEnv (plainOnion 'a') = .ok (plainOnion 'a') := by decide

theorem plainRelay_id_ne (h : key ≠ key') :
    (plainRelay key signing x).id ≠ (plainRelay key' signing' y).id := by
  intro heq
  have hbytes : List.replicate layerNextIDSize key = List.replicate layerNextIDSize key' := congrArg Subtype.val heq
  exact h ((replicate_right_inj (by decide)).mp hbytes)

theorem plainRelay_id_ne_zero (h : key ≠ 0) :
    (plainRelay key signing onion).id ≠ Fixed.zero layerNextIDSize :=
  show _ ≠ (plainRelay 0 0 []).id from plainRelay_id_ne h

theorem plainRelay_verifies (hkey : key ≠ 0)
    (h : validateOnionHostname plainEnv onion = .ok host) :
    (plainRelay key signing onion).verify plainEnv (10000 * second) = .ok () := by
  have hformed : (plainRelay key signing onion).Formed :=
    ⟨rfl, plainRelay_id_ne_zero hkey, length_replicate, length_replicate, show (13600 : UInt64) ≠ 0 by decide⟩
  obtain ⟨message, hmessage⟩ := signingBytes_iff.mpr ⟨hformed, host, h⟩
  have hlife : ¬ (10000 * second / second = 0 ∨ (13600 : UInt64).toNat ≤ 10000 * second / second ∨
      maxLifetime < (13600 : UInt64).toNat - 10000 * second / second) := by decide
  refine verify_ok.mpr ⟨⟨message, hmessage, decide_eq_true rfl⟩, hlife, ?_⟩
  exact (if_pos rfl : plainDigest (List.replicate 1568 key) = List.replicate layerNextIDSize key).symm

/-- Another signer takes the place of a relay in an empty peer set. -/
theorem signing_key_unbound_relay : ∃ e : Descriptor, e.id = (plainRelay 1 2 (plainOnion 'a')).id ∧
    (addPeer plainEnv Table.empty e (10000 * second)).1 = .ok true ∧
    (addPeer plainEnv (addPeer plainEnv Table.empty e (10000 * second)).2 (plainRelay 1 2 (plainOnion 'a'))
      (10000 * second)).1.isOk = false := by
  have hother : (plainSigner 3).publicKey ≠ (plainRelay 1 2 (plainOnion 'a')).signingPublicKey := by
    intro heq
    exact absurd ((replicate_right_inj (by decide)).mp heq) (by decide)
  obtain ⟨e, -, hid, -, -, -, hpeers⟩ := signing_key_unbound plainEnv (plainRelay 1 2 (plainOnion 'a')) (10000 * second)
    (plainRelay_verifies (by decide) plainOnion_valid) (plainSigner 3) hother (plainOnion 'a') (plainOnion 'a')
    plainOnion_valid
  obtain ⟨hadded, hrefused⟩ := hpeers Table.empty rfl (by decide)
  exact ⟨e, hid, hadded, (hrefused _).1⟩

/-- Two verified descriptors of one relay with different signing keys. -/
theorem two_signers_of_one_relay : Function.Injective plainEnv.relayIDDigest ∧
    (plainRelay 1 2 (plainOnion 'a')).verify plainEnv (10000 * second) = .ok () ∧
    (plainRelay 1 3 (plainOnion 'a')).verify plainEnv (10000 * second) = .ok () ∧
    (plainRelay 1 2 (plainOnion 'a')).id = (plainRelay 1 3 (plainOnion 'a')).id ∧
    (plainRelay 1 2 (plainOnion 'a')).signingPublicKey ≠ (plainRelay 1 3 (plainOnion 'a')).signingPublicKey := by
  refine ⟨plainDigest_injective, plainRelay_verifies (by decide) plainOnion_valid,
    plainRelay_verifies (by decide) plainOnion_valid, rfl, ?_⟩
  intro heq
  exact absurd ((replicate_right_inj (by decide)).mp heq) (by decide)

/-! ## Routes of private lookups -/

section
variable {env : DescriptorEnv}
  {relays : List Descriptor} {hops : List Hop}

theorem routeHops_distinct (h : routeHops env clock index ids onions relays = .ok hops) :
    (∀ d ∈ relays, d.verify env clock = .ok () ∧ env.toLower d.onion ∉ onions) ∧
      relays.Pairwise fun d e => env.toLower d.onion ≠ env.toLower e.onion := by
  induction relays generalizing index ids onions hops with
  | nil => exact ⟨nofun, List.Pairwise.nil⟩
  | cons relay rest ih =>
    simp only [routeHops, ok_rules] at h
    obtain ⟨⟨⟩, hverify, -, -, -, hnew, others, hothers, -⟩ := h
    obtain ⟨hrest, hpairs⟩ := ih hothers
    refine ⟨?_, List.Pairwise.cons ?_ hpairs⟩
    · intro d hd
      rcases mem_cons.mp hd with rfl | hd
      · exact ⟨hverify, hnew⟩
      · exact ⟨(hrest d hd).1, fun hmem => (hrest d hd).2 (mem_cons_of_mem _ hmem)⟩
    · intro d hd heq
      exact (hrest d hd).2 (heq ▸ mem_cons_self)

theorem verify_host {d : Descriptor} (h : d.verify env clock = .ok ()) :
    validateOnionHostname env d.onion = .ok (onionHost env d.onion) ∧ dialHost env d.onion = .ok (onionHost env d.onion) := by
  obtain ⟨⟨message, hmessage, -⟩, -⟩ := verify_ok.mp h
  obtain ⟨-, host, hhost⟩ := signingBytes_iff.mp ⟨message, hmessage⟩
  have hvalid := hhost
  simp only [validateOnionHostname, ok_rules] at hvalid
  obtain ⟨-, hsuffix, -, -, -, -, rfl⟩ := hvalid
  refine ⟨hhost, ?_⟩
  simp only [dialHost, ok_rules]
  exact ⟨(), hsuffix, trivial⟩

end

def TrimmedApart (env : DescriptorEnv) (x y : Text) : Prop :=
  env.toLower x ≠ env.toLower y ∧
    env.toLower (Text.trimSuffix (env.trimSpace x) ['.']) = env.toLower (Text.trimSuffix (env.trimSpace y) ['.'])

/-! ## A route with a final dot -/

def lookupName : Text := ['b', 'o', 'b']

def lookupClock : BuildClock := ⟨10000 * second, 10000 * second⟩

theorem plainHop_usable (hkey : key ≠ 0) :
    Hop.usable plainExchange ⟨(plainRelay key signing onion).id, (plainRelay key signing onion).publicKey⟩ :=
  ⟨length_replicate, (plainRelay_id_ne_zero hkey : (plainRelay key signing onion).id ≠ _), rfl⟩

theorem lookupName_encoded : ∃ payload, encodeUsernameQuery plainEnv lookupName = .ok payload ∧
    payload.length = maxPayload := by
  have hcanonical : canonicalLookupName plainEnv lookupName = .ok lookupName := by decide
  have hfront : (ofText "TKU1" ++ [version, UInt8.ofNat lookupName.size] ++ lookupName.bytes).length = 9 := by decide
  obtain ⟨front, hname⟩ : ∃ front, front = ofText "TKU1" ++ [version, UInt8.ofNat lookupName.size] ++ lookupName.bytes :=
    ⟨_, rfl⟩
  rw [← hname] at hfront
  refine ⟨front ++ List.replicate (maxPayload - front.length) 0, ?_, ?_⟩
  · simp only [encodeUsernameQuery, hcanonical, ← hname, ok_rules]
    exact ⟨lookupName, rfl, (), by simp, trivial⟩
  · rw [length_append, length_replicate, hfront]
    decide

theorem plain_lookup (hxv : validateOnionHostname plainEnv x = .ok hx)
    (hyv : validateOnionHostname plainEnv y = .ok hy) (hzv : validateOnionHostname plainEnv z = .ok hz)
    (hxz : x ≠ z) (hyx : y ≠ x) (hyz : y ≠ z) :
    ∃ packet, buildPrivateUsernameRequest plainEnv plainExchange (recordedAead [])
      [plainRelay 1 1 x, plainRelay 2 2 y] (plainRelay 3 3 z) lookupName (10000 * second) mailCoins lookupClock =
        .ok packet := by
  obtain ⟨payload, hpayload, hlength⟩ := lookupName_encoded
  obtain ⟨hops, hhops⟩ : ∃ hops : List Hop, hops = [⟨(plainRelay 1 1 x).id, (plainRelay 1 1 x).publicKey⟩,
    ⟨(plainRelay 2 2 y).id, (plainRelay 2 2 y).publicKey⟩] := ⟨_, rfl⟩
  have hroute : routeHops plainEnv (10000 * second) 0 [(plainRelay 3 3 z).id] [plainEnv.toLower z]
      [plainRelay 1 1 x, plainRelay 2 2 y] = .ok hops := by
    have hids : (plainRelay 1 1 x).id ∉ [(plainRelay 3 3 z).id] := by
      simpa using plainRelay_id_ne (by decide)
    have hids' : (plainRelay 2 2 y).id ∉ [(plainRelay 1 1 x).id, (plainRelay 3 3 z).id] := by
      simpa using And.intro (plainRelay_id_ne (by decide)) (plainRelay_id_ne (by decide))
    have honions : x ∉ [z] := by simpa using hxz
    have honions' : y ∉ [x, z] := by simpa using And.intro hyx hyz
    simp only [routeHops, ok_rules]
    exact ⟨(), plainRelay_verifies (by decide) hxv, (), hids, (), honions, _,
      ⟨(), plainRelay_verifies (by decide) hyv, (), hids', (), honions', [], rfl, rfl⟩, hhops.symm⟩
  have hservice : validService (usernameOptions hops (plainRelay 3 3 z)).service = true :=
    show validService serviceUsername = true by decide
  have hexpiry : (usernameOptions hops (plainRelay 3 3 z)).expiry lookupClock = .ok 10600 :=
    show (unixSeconds (10000 * second + 10 * 60 * second)).map UInt64.ofNat = .ok 10600 by decide
  obtain ⟨p, hplan⟩ : ∃ p, (usernameOptions hops (plainRelay 3 3 z)).plan mailCoins lookupClock payload = .ok p :=
    plan_ok hservice (le_of_eq hlength) (by rw [hhops]; rfl) hexpiry ⟨10000, by decide, by decide, by decide⟩
  have husable : ∀ hop ∈ (usernameOptions hops (plainRelay 3 3 z)).hops, hop.usable plainExchange := by
    rw [hhops]
    intro hop hmem
    simp only [usernameOptions, cons_append, nil_append, mem_cons, not_mem_nil, or_false] at hmem
    rcases hmem with rfl | rfl | rfl
    · exact plainHop_usable (by decide)
    · exact plainHop_usable (by decide)
    · exact plainHop_usable (by decide)
  obtain ⟨layers, hbuild, -⟩ := build_ok (A := recordedAead []) hplan husable
  refine ⟨p.header 0 ++ p.tail (recordedAead []) mailCoins payload layers, ?_⟩
  simp only [buildPrivateUsernameRequest, ok_rules]
  exact ⟨(), by simp [maxHops], (), plainRelay_verifies (by decide) hzv, payload, hpayload, hops, hroute, hbuild⟩

end TkmChain.Tkmnet
