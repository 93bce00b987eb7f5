import TkmChain.Onion

/-!
# Delivery of onion packets

A built packet is a header, the sealed payload and one layer for each hop. Relays
rewrite the hop index only, and keys and associated data leave it out, so each
relay opens its own layer of the forwarded packet, and nobody opens another one.
-/

namespace TkmChain.Tkmnet

open Bytes List

/-! ## Headers -/

theorem UInt64_ofNat_be (n : UInt64) : UInt64.ofNat (toNat (be 8 n.toNat)) = n := by
  have hn : n.toNat < 256 ^ 8 := n.toNat_lt
  rw [toNat_be, Nat.mod_eq_of_lt hn, UInt64.ofNat_toNat]

@[simp] theorem copy_val (x : Fixed n) : Fixed.copy n x.1 = x := by
  apply Subtype.ext
  rw [Fixed.copy]
  simp [x.2]

section
variable {version service i : UInt8} {circuitID : Fixed circuitIDSize} {sequence expires : UInt64} {tail : Bytes}

theorem encodeHeaderVersion_eq : encodeHeaderVersion version service i circuitID sequence expires =
    84 :: 75 :: 77 :: 78 :: version :: service :: i :: 3 ::
      (circuitID.1 ++ (be 8 sequence.toNat ++ (be 8 expires.toNat ++ List.replicate 24 0))) := by
  have hmagic : magic = [84, 75, 77, 78] := by decide
  have hhops : UInt8.ofNat maxHops = 3 := by decide
  simp [encodeHeaderVersion, hmagic, hhops]

@[simp] theorem length_encodeHeaderVersion :
    (encodeHeaderVersion version service i circuitID sequence expires).length = headerSize := by
  simp [encodeHeaderVersion_eq, circuitID.2, headerSize, circuitIDSize]

theorem encodeHeaderVersion_set : (encodeHeaderVersion version service i circuitID sequence expires ++ tail).set 6 j =
    encodeHeaderVersion version service j circuitID sequence expires ++ tail := by
  simp [encodeHeaderVersion_eq]

theorem parseHeader_encode (hversion : version = Tkmnet.version ∨ version = extendedVersion)
    (hservice : validService service = true) (hi : i.toNat < maxHops) (hsequence : sequence ≠ 0) (hexpires : expires ≠ 0)
    (hsize : headerSize + tail.length = packetSizeForVersion version) :
    parseHeader (encodeHeaderVersion version service i circuitID sequence expires ++ tail) = .ok {
      raw := encodeHeaderVersion version service i circuitID sequence expires
      service := service, hopIndex := i, hopCount := 3, circuitID := circuitID
      sequence := sequence, expires := expires } := by
  obtain ⟨packet, hpacket⟩ : ∃ packet, packet = encodeHeaderVersion version service i circuitID sequence expires ++ tail :=
    ⟨_, rfl⟩
  have hraw : packet.take headerSize = encodeHeaderVersion version service i circuitID sequence expires := by
    rw [hpacket, take_left' length_encodeHeaderVersion]
  have hlength : packet.length = packetSizeForVersion version := by
    rw [hpacket, length_append, length_encodeHeaderVersion, hsize]
  have hlong : ¬ packetSizeForVersion version < headerSize := by
    omega
  rw [← hpacket]
  rw [encodeHeaderVersion_eq] at hpacket
  have hcircuit : slice packet 8 16 = circuitID.1 := by
    simp [hpacket, slice, circuitID.2, circuitIDSize]
  have hseq : slice packet 24 8 = be 8 sequence.toNat := by
    simp [hpacket, slice, circuitID.2, circuitIDSize]
  have hexp : slice packet 32 8 = be 8 expires.toNat := by
    simp [hpacket, slice, drop_append, take_append, circuitID.2, circuitIDSize]
  have hmagic : packet.take 4 = magic := by
    rw [hpacket]
    rfl
  have h4 : packet.getD 4 0 = version := by rw [hpacket]; rfl
  have h5 : packet.getD 5 0 = service := by rw [hpacket]; rfl
  have h6 : packet.getD 6 0 = i := by rw [hpacket]; rfl
  have h7 : packet.getD 7 0 = 3 := by rw [hpacket]; rfl
  have hcopy : Fixed.copy circuitIDSize circuitID.1 = circuitID := copy_val circuitID
  simp only [parseHeader, hlength, hmagic, h4, h5, h6, h7, hcircuit, hseq, hexp, hraw, hcopy, UInt64_ofNat_be, ok_rules]
  refine ⟨(), ?_, (), ?_, (), ?_, trivial⟩
  · rcases hversion with rfl | rfl
    · simp [hlong]
    · simp [hlong]
  · rw [hservice]
    simp [maxHops] at hi ⊢
    omega
  · simp [hsequence, hexpires]

end

/-! ## Frames -/

@[simp] theorem length_frame (h : payload.length + 2 ≤ size) :
    (frame size payload).length = size := by
  simp [frame]
  omega

theorem unframe_frame (h : payload.length + 2 ≤ size)
    (hlen : payload.length < 256 ^ 2) : unframe what (frame size payload) = .ok payload := by
  have htake : (frame size payload).take 2 = be 2 payload.length := by
    rw [frame, append_assoc, take_left' (length_be 2 _)]
  have hsize : toNat ((frame size payload).take 2) = payload.length := by
    rw [htake, toNat_be, Nat.mod_eq_of_lt hlen]
  have hrest : (frame size payload).drop (2 + payload.length) = List.replicate (size - 2 - payload.length) 0 := by
    rw [frame, drop_left']
    simp
  have hpayload : slice (frame size payload) 2 payload.length = payload := by
    exact slice_middle (length_be 2 _) rfl
  simp only [unframe, hsize, hrest, hpayload, length_frame h, ok_rules]
  refine ⟨(), by omega, (), ?_, trivial⟩
  simp

/-! ## Layers -/

section
variable {SecretKey : Type} {K : KeyExchange SecretKey} {A : Aead} {p : Plan} {coins : Coins}

theorem length_layerBody (p : Plan) (next : Option Hop) : (p.layerBody next).length = layerBodySize := by
  cases next with
  | none => simp [Plan.layerBody, p.payloadKey.2, layerBodySize, layerNextIDSize, keySize]
  | some hop => simp [Plan.layerBody, hop.id.2, layerBodySize, layerNextIDSize]

theorem length_layer (index : Nat) (hop : Hop) (next : Option Hop) :
    (p.layer K A coins index hop next).length = layerSize := by
  simp [Plan.layer, K.ciphertext_size, (coins.nonce index).2, A.sealed_size, Plan.layerSealing, length_layerBody,
    layerSize, Nat.add_assoc]

def Hop.usable (K : KeyExchange SecretKey) (hop : Hop) : Prop :=
  hop.publicKey.length = encapsulationKeySize1024 ∧ hop.id ≠ Fixed.zero layerNextIDSize ∧
    K.newEncapsulationKey1024 hop.publicKey = true

theorem layers_ok (A : Aead) (p : Plan) (coins : Coins) : ∀ (hops : List Hop) (index : Nat),
    (∀ hop ∈ hops, hop.usable K) → ∃ layers, p.layers K A coins index hops = .ok layers ∧ layers.length = hops.length * layerSize ∧
      ∀ k hop, hops[k]? = some hop →
        slice layers (k * layerSize) layerSize = p.layer K A coins (index + k) hop hops[k + 1]?
  | [], index, _ => ⟨[], rfl, by simp, by simp⟩
  | hop :: rest, index, h => by
    obtain ⟨others, hothers, hlength, hslice⟩ := layers_ok A p coins rest (index + 1) fun x hx =>
      h x (mem_cons_of_mem _ hx)
    obtain ⟨hkey, hid, hnew⟩ := h hop mem_cons_self
    refine ⟨p.layer K A coins index hop rest.head? ++ others, ?_, ?_, ?_⟩
    · simp only [Plan.layers, ok_rules]
      refine ⟨(), ?_, (), ?_, others, hothers, rfl⟩
      · simp [hkey, hid]
      · simp [hnew]
    · rw [length_append, length_layer, hlength, length_cons, Nat.succ_mul, Nat.add_comm]
    · intro k x hx
      cases k with
      | zero =>
        obtain rfl : hop = x := by simpa using hx
        rw [Nat.zero_mul, slice_start (length_layer index hop _), head?_eq_getElem?]
        rfl
      | succ k =>
        rw [Nat.succ_mul, Nat.add_comm (k * layerSize), slice_append (length_layer index hop _),
          hslice k x (by simpa using hx), Nat.add_right_comm, Nat.add_assoc]
        rfl

/-! ## Packets -/

def Plan.tail (A : Aead) (p : Plan) (coins : Coins) (payload layers : Bytes) : Bytes :=
  coins.payloadNonce.1 ++ A.sealed (p.payloadSealing coins payload) ++ layers

variable {payload layers packet raw : Bytes} {index : Nat} {hop : Hop} {next : Option Hop}

theorem length_payload (hsize : payload.length + 2 ≤ payloadPlainSize p.version) :
    (coins.payloadNonce.1 ++ A.sealed (p.payloadSealing coins payload)).length =
      nonceSizeX + payloadCipherSize p.version := by
  rw [length_append, coins.payloadNonce.2, A.sealed_size, Plan.payloadSealing, length_frame hsize, payloadCipherSize]

theorem openBody_layer (sk : SecretKey) (hsize : payload.length + 2 ≤ payloadPlainSize p.version)
    (hlayer : slice layers (index * layerSize) layerSize = p.layer K A coins index hop next)
    (htail : packet.drop headerSize = p.tail A coins payload layers) (hversion : packet.getD 4 0 = p.version) :
    openBody K A packet raw sk index =
      (K.decapsulate sk (K.encapsulate hop.publicKey (coins.encapsulation index)).2).bind fun shared =>
        A.opened (deriveHopKey K shared raw index) (coins.nonce index).1
          (A.sealed (p.layerSealing K coins index hop next)) (layerAAD raw index) := by
  have hat : slice packet (layerOffset p.version index) layerSize = p.layer K A coins index hop next := by
    rw [layerOffset, Nat.add_assoc, Nat.add_assoc, ← slice_drop, htail, Plan.tail, ← Nat.add_assoc,
      slice_append (length_payload hsize), hlayer]
  have hpart : ∀ o n, o + n ≤ layerSize → slice packet (layerOffset p.version index + o) n =
      slice (p.layer K A coins index hop next) o n := by
    intro o n h
    rw [← hat, slice_slice h]
  have hcipher := K.ciphertext_size hop.publicKey (coins.encapsulation index)
  have hkem : slice packet (layerOffset p.version index) ciphertextSize1024 =
      (K.encapsulate hop.publicKey (coins.encapsulation index)).2 := by
    rw [← Nat.add_zero (layerOffset _ _), hpart 0 _ (by decide), Plan.layer, append_assoc, slice_start hcipher]
  have hnonce : slice packet (layerOffset p.version index + ciphertextSize1024) nonceSizeX = (coins.nonce index).1 := by
    rw [hpart _ _ (by decide), Plan.layer, slice_middle hcipher (coins.nonce index).2]
  have hsealed : slice packet (layerOffset p.version index + ciphertextSize1024 + nonceSizeX) (layerBodySize + overhead) =
      A.sealed (p.layerSealing K coins index hop next) := by
    have hfront : ((K.encapsulate hop.publicKey (coins.encapsulation index)).2 ++ (coins.nonce index).1).length =
        ciphertextSize1024 + nonceSizeX := by
      rw [length_append, hcipher, (coins.nonce index).2]
    have hbody : (A.sealed (p.layerSealing K coins index hop next)).length = layerBodySize + overhead := by
      rw [A.sealed_size, Plan.layerSealing, length_layerBody]
    rw [Nat.add_assoc, hpart _ _ (by decide), Plan.layer, ← append_nil (A.sealed _), ← append_assoc,
      slice_middle hfront hbody, append_nil]
  rw [openBody, hversion, hkem, hnonce, hsealed]
  rfl

/-! ## Building -/

def Unexpired (expires : UInt64) (clock : Nat) : Prop :=
  ∃ now, unixSeconds clock = .ok now ∧ now < expires.toNat ∧ expires.toNat ≤ now + maxLifetime

structure Plan.Sendable (p : Plan) (payload : Bytes) : Prop where
  version : p.version = if legacyMaxPayload < payload.length then extendedVersion else Tkmnet.version
  service : validService p.service = true
  sequence : p.sequence ≠ 0
  expires : p.expires ≠ 0
  size : payload.length ≤ maxPayload

namespace Plan.Sendable

theorem version_cases (h : p.Sendable payload) : p.version = Tkmnet.version ∨ p.version = extendedVersion := by
  rw [h.version]
  split
  · exact .inr rfl
  · exact .inl rfl

theorem fits (h : p.Sendable payload) : payload.length + 2 ≤ payloadPlainSize p.version := by
  rw [h.version, payloadPlainSize]
  have hsize := h.size
  by_cases hlong : legacyMaxPayload < payload.length
  · simp only [hlong, if_true]
    omega
  · rw [if_neg hlong, if_neg (by decide)]
    omega

theorem length_tail (h : p.Sendable payload) (hlayers : layers.length = maxHops * layerSize) :
    headerSize + (p.tail A coins payload layers).length = packetSizeForVersion p.version := by
  rw [Plan.tail, length_append, length_payload h.fits, hlayers, packetSizeForVersion]
  omega

end Plan.Sendable

structure Built (K : KeyExchange SecretKey) (A : Aead) (p : Plan) (coins : Coins) (payload layers : Bytes)
    (hops : List Hop) : Prop where
  sendable : p.Sendable payload
  three : hops.length = maxHops
  length : layers.length = maxHops * layerSize
  layer : ∀ k hop, hops[k]? = some hop → slice layers (k * layerSize) layerSize = p.layer K A coins k hop hops[k + 1]?

variable {hops : List Hop}

theorem Built.parse (hb : Built K A p coins payload layers hops) (hi : i.toNat < maxHops) :
    parseHeader (p.header i ++ p.tail A coins payload layers) = .ok {
      raw := p.header i, service := p.service, hopIndex := i, hopCount := 3, circuitID := p.circuitID
      sequence := p.sequence, expires := p.expires } :=
  parseHeader_encode hb.sendable.version_cases hb.sendable.service hi hb.sendable.sequence hb.sendable.expires
    (hb.sendable.length_tail hb.length)

variable {o : BuildOptions} {clock : BuildClock} {expires : UInt64}

theorem plan_ok (hservice : validService o.service = true) (hsize : payload.length ≤ maxPayload)
    (hhops : o.hops.length = maxHops) (hexpiry : o.expiry clock = .ok expires) (hlife : Unexpired expires clock.check) :
    ∃ p, o.plan coins clock payload = .ok p := by
  obtain ⟨now, hnow, hlt, hle⟩ := hlife
  have hexpired : ¬ (expires.toNat ≤ now ∨ maxLifetime < expires.toNat - now) := by omega
  have hlong : ¬ maxPayload < payload.length := by omega
  simp only [BuildOptions.plan, failIf, hservice, hlong, hhops, hexpiry, hnow, hexpired, bind, Except.bind]
  exact ⟨_, rfl⟩

theorem drawn_sequence_ne_zero {sequence drawn : UInt64} :
    (if sequence = 0 then (if drawn = 0 then 1 else drawn) else sequence) ≠ 0 := by
  by_cases hs : sequence = 0
  · by_cases hd : drawn = 0
    · simp [hs, hd]
    · simp [hs, hd]
  · simp [hs]

theorem plan_sendable (h : o.plan coins clock payload = .ok p) :
    p.Sendable payload ∧ p.service = o.service ∧ o.expiry clock = .ok p.expires ∧ o.hops.length = maxHops := by
  simp only [BuildOptions.plan, ok_rules] at h
  obtain ⟨-, hservice, -, hsize, -, hhops, expires, hexpiry, now, -, -, hlife, rfl⟩ := h
  refine ⟨⟨rfl, by simpa using hservice, drawn_sequence_ne_zero, ?_, by omega⟩, rfl, hexpiry, by simpa using hhops⟩
  intro hzero
  obtain rfl : expires = 0 := hzero
  exact hlife (.inl (Nat.zero_le _))

theorem build_ok (hplan : o.plan coins clock payload = .ok p) (hhops : ∀ hop ∈ o.hops, hop.usable K) :
    ∃ layers, build K A o coins clock payload = .ok (p.header 0 ++ p.tail A coins payload layers) ∧
      Built K A p coins payload layers o.hops := by
  obtain ⟨hsend, -, -, hthree⟩ := plan_sendable hplan
  obtain ⟨layers, hlayers, hlength, hslice⟩ := layers_ok A p coins o.hops 0 hhops
  rw [hthree] at hlength
  refine ⟨layers, ?_, hsend, hthree, hlength, fun k hop hk => by simpa using hslice k hop hk⟩
  have hpacket : p.header 0 ++ coins.payloadNonce.1 ++ A.sealed (p.payloadSealing coins payload) ++ layers =
      p.header 0 ++ p.tail A coins payload layers := by
    rw [Plan.tail, append_assoc, append_assoc, append_assoc]
  have hsize : (p.header 0 ++ p.tail A coins payload layers).length = packetSizeForVersion p.version := by
    rw [length_append, Plan.header, length_encodeHeaderVersion, hsend.length_tail hlength]
  simp only [build, ok_rules]
  refine ⟨p, hplan, (), ?_, layers, hlayers, (), ?_, hpacket⟩
  · have := hsend.size
    simp [maxPayload] at this ⊢
    omega
  · rw [hpacket, hsize]
    simp

/-! ## Relays -/

theorem checkHeader_ok {header : ParsedHeader} {i : UInt8} {clock : Nat} (hi : i.toNat < maxHops)
    (hindex : header.hopIndex = i) (hlife : Unexpired header.expires clock) : checkHeader header i clock = .ok () := by
  obtain ⟨now, hnow, hlt, hle⟩ := hlife
  simp only [checkHeader, hnow, ok_rules]
  exact ⟨(), by simp [hindex]; omega, now, rfl, (), by omega, by omega⟩

theorem header_clear (i : UInt8) : (p.header i).set 6 0 = p.header 0 := by
  simp [Plan.header, encodeHeaderVersion_eq]

theorem layerAAD_header (i : UInt8) : layerAAD (p.header i) index = layerAAD (p.header 0) index := by
  rw [layerAAD, layerAAD, payloadAAD, payloadAAD, header_clear, header_clear]

theorem deriveHopKey_header (shared : Bytes) (i : UInt8) :
    deriveHopKey K shared (p.header i) index = deriveHopKey K shared (p.header 0) index := by
  rw [deriveHopKey, deriveHopKey, ← take_set, ← take_set, header_clear, header_clear]

theorem Built.openLayer_own (hb : Built K A p coins payload layers hops) {sk : SecretKey}
    {i : UInt8} {clock : Nat} (hi : i.toNat < maxHops) (hlife : Unexpired p.expires clock)
    (hhop : hops[i.toNat]? = some hop) (hkey : hop.publicKey = K.encapsulationKey sk) :
    openLayer K A (p.header i ++ p.tail A coins payload layers) sk i clock =
      readRoute p.service (p.layerBody hops[i.toNat + 1]?) := by
  have hdrop : (p.header i ++ p.tail A coins payload layers).drop headerSize = p.tail A coins payload layers :=
    drop_left' length_encodeHeaderVersion
  have hversion : (p.header i ++ p.tail A coins payload layers).getD 4 0 = p.version := by
    rw [Plan.header, encodeHeaderVersion_eq]
    rfl
  have hopened := A.opened_sealed (p.layerSealing K coins i.toNat hop hops[i.toNat + 1]?)
  have hbody : openBody K A (p.header i ++ p.tail A coins payload layers) (p.header i) sk i.toNat =
      some (p.layerBody hops[i.toNat + 1]?) := by
    rw [openBody_layer sk hb.sendable.fits (hb.layer _ _ hhop) hdrop hversion, hkey, K.decapsulate_encapsulate, Option.bind_some,
      deriveHopKey_header, layerAAD_header, ← hkey]
    exact hopened
  have hcheck : checkHeader ⟨p.header i, p.service, i, 3, p.circuitID, p.sequence, p.expires⟩ i clock = .ok () :=
    checkHeader_ok hi rfl hlife
  rw [openLayer, hb.parse hi]
  simp only [bind, Except.bind, hcheck, hbody, orFail]

theorem readRoute_next (hid : hop.id ≠ Fixed.zero layerNextIDSize) :
    readRoute service (p.layerBody (some hop)) = .ok ⟨service, hop.id, false, Fixed.zero keySize⟩ := by
  have hnext : slice (p.layerBody (some hop)) 0 layerNextIDSize = hop.id.1 := slice_start hop.id.2
  have hflag : (p.layerBody (some hop)).getD layerNextIDSize 0 = 0 := by
    simp [Plan.layerBody, hop.id.2, List.getD, layerBodySize, layerNextIDSize]
  have hcopy : Fixed.copy layerNextIDSize hop.id.1 = hop.id := copy_val hop.id
  simp only [readRoute, hnext, hflag, hcopy]
  rw [if_neg (by decide), failIf, if_neg hid]
  rfl

theorem readRoute_final :
    readRoute service (p.layerBody none) = .ok ⟨service, Fixed.zero layerNextIDSize, true, p.payloadKey⟩ := by
  have hnext : slice (p.layerBody none) 0 layerNextIDSize = (Fixed.zero layerNextIDSize).1 := by
    rw [Plan.layerBody, append_assoc, append_assoc]
    exact slice_start (Fixed.zero layerNextIDSize).2
  have hflag : (p.layerBody none).getD layerNextIDSize 0 = finalRouteFlag := by
    simp [Plan.layerBody, List.getD, layerNextIDSize]
  have hkey : slice (p.layerBody none) (layerNextIDSize + 1) keySize = p.payloadKey.1 := by
    rw [Plan.layerBody]
    exact slice_middle (by simp) p.payloadKey.2
  have hzero : Fixed.copy layerNextIDSize (Fixed.zero layerNextIDSize).1 = Fixed.zero layerNextIDSize := copy_val _
  have hcopy : Fixed.copy keySize p.payloadKey.1 = p.payloadKey := copy_val _
  simp only [readRoute, hnext, hflag, hkey, hzero, hcopy]
  rw [if_pos (by decide), failIf, if_neg (by simp)]
  rfl

section
variable (hb : Built K A p coins payload layers hops) {i : UInt8} {route : Route}
include hb

theorem Built.forward_ok (hi : i.toNat + 1 < maxHops) (hfinal : route.final = false) :
    forward (p.header i ++ p.tail A coins payload layers) route = .ok (p.header (i + 1) ++ p.tail A coins payload layers) := by
  have hindex : (p.header i ++ p.tail A coins payload layers).getD 6 0 = i := by
    rw [Plan.header, encodeHeaderVersion_eq]
    rfl
  have hlast : ¬ maxHops ≤ i.toNat + 1 := by omega
  rw [forward, hb.parse (by omega)]
  simp only [hfinal, hindex, hlast, failIf, bind, Except.bind, pure, Except.pure]
  rw [Plan.header, encodeHeaderVersion_set]
  rfl

theorem Built.openPayload_ok (hi : i.toNat < maxHops) (hfinal : route.final = true) (hkey : route.payloadKey = p.payloadKey) :
    openPayload A (p.header i ++ p.tail A coins payload layers) route = .ok payload := by
  have hversion : (p.header i ++ p.tail A coins payload layers).getD 4 0 = p.version := by
    rw [Plan.header, encodeHeaderVersion_eq]
    rfl
  have hheader : (p.header i).length = headerSize := length_encodeHeaderVersion
  have hnonce : slice (p.header i ++ p.tail A coins payload layers) headerSize nonceSizeX = coins.payloadNonce.1 := by
    rw [Plan.tail, append_assoc, ← append_assoc]
    exact slice_middle hheader coins.payloadNonce.2
  have hcipher : slice (p.header i ++ p.tail A coins payload layers) (headerSize + nonceSizeX)
      (payloadCipherSize p.version) = A.sealed (p.payloadSealing coins payload) := by
    rw [slice_append hheader, Plan.tail]
    exact slice_middle coins.payloadNonce.2 (by rw [A.sealed_size, Plan.payloadSealing, length_frame hb.sendable.fits,
      payloadCipherSize])
  have hopened : A.opened p.payloadKey.1 coins.payloadNonce.1 (A.sealed (p.payloadSealing coins payload))
      (payloadAAD (p.header 0)) = some (frame (payloadPlainSize p.version) payload) :=
    A.opened_sealed (p.payloadSealing coins payload)
  have haad : payloadAAD (p.header i) = payloadAAD (p.header 0) := by
    rw [payloadAAD, payloadAAD, header_clear, header_clear]
  have hlen : payload.length < 256 ^ 2 := lt_of_le_of_lt hb.sendable.size (by decide)
  simp only [openPayload, ok_rules]
  refine ⟨(), by simp [hfinal], _, hb.parse hi, _, ?_, (), ?_, unframe_frame hb.sendable.fits hlen⟩
  · rw [hversion, hnonce, hcipher, hkey, haad, hopened]
  · rw [hversion, length_frame hb.sendable.fits]
    simp

end

/-! ## Foreign layers and changed headers -/

/-- The cipher opens this ciphertext only as it was sealed: with its key, nonce and associated data. -/
def Aead.Exact (A : Aead) (s : Sealing) : Prop :=
  ∀ key nonce aad plain, A.opened key nonce (A.sealed s) aad = some plain → ⟨key, nonce, plain, aad⟩ = s

def KeyExchange.Separates (K : KeyExchange SecretKey) (sk : SecretKey) (publicKey coins header : Bytes) (index : Nat) :
    Prop :=
  K.encapsulationKey sk ≠ publicKey → ∀ shared, K.decapsulate sk (K.encapsulate publicKey coins).2 = some shared →
    deriveHopKey K shared header index ≠ deriveHopKey K (K.encapsulate publicKey coins).1 header index

def SameHeader (a b : Bytes) : Prop := ∀ k < headerSize, k ≠ 6 → a[k]? = b[k]?

theorem sameHeader_of_clear (h : (a.take headerSize).set 6 0 = (b.take headerSize).set 6 0) :
    SameHeader a b := by
  intro k hk h6
  have hread := congrArg (·[k]?) h
  simpa [getElem?_set_ne (Ne.symm h6), getElem?_take, hk] using hread

theorem parseHeader_facts (h : parseHeader packet = .ok header) :
    header.raw = packet.take headerSize ∧ header.hopIndex = packet.getD 6 0 ∧
      packet.length = packetSizeForVersion (packet.getD 4 0) ∧
      (packet.getD 4 0 = version ∨ packet.getD 4 0 = extendedVersion) := by
  simp only [parseHeader, ok_rules] at h
  obtain ⟨-, hfront, -, -, -, -, rfl⟩ := h
  simp only [not_or, not_and_or, not_not] at hfront
  exact ⟨rfl, rfl, hfront.2.2.2, hfront.2.2.1⟩

theorem openLayer_facts {sk : SecretKey} {i : UInt8} {clock : Nat} {route : Route}
    (h : openLayer K A packet sk i clock = .ok route) :
    ∃ header body, parseHeader packet = .ok header ∧ header.hopIndex = i ∧ i.toNat < maxHops ∧
      openBody K A packet header.raw sk i.toNat = some body := by
  simp only [openLayer, checkHeader, ok_rules] at h
  obtain ⟨header, hparse, -, ⟨-, hindex, -⟩, body, hbody, -⟩ := h
  simp only [not_or, not_not, not_le] at hindex
  exact ⟨header, body, hparse, hindex.2, hindex.1, hbody⟩

theorem version_of_size (hv : v = version ∨ v = extendedVersion) (hw : w = version ∨ w = extendedVersion)
    (h : packetSizeForVersion v = packetSizeForVersion w) : v = w := by
  rcases hv with rfl | rfl
  · rcases hw with rfl | rfl
    · rfl
    · exact absurd h (by decide)
  · rcases hw with rfl | rfl
    · exact absurd h (by decide)
    · rfl


theorem Built.openLayer_exact (hb : Built K A p coins payload layers hops) {sk : SecretKey} {i : UInt8} {clock : Nat}
    {route : Route} (hexact : ∀ k hop, hops[k]? = some hop → A.Exact (p.layerSealing K coins k hop hops[k + 1]?))
    (htail : packet.drop headerSize = p.tail A coins payload layers) (h : openLayer K A packet sk i clock = .ok route) :
    ∃ hop shared, hops[i.toNat]? = some hop ∧ packet.getD 6 0 = i ∧
      K.decapsulate sk (K.encapsulate hop.publicKey (coins.encapsulation i.toNat)).2 = some shared ∧
      deriveHopKey K shared (packet.take headerSize) i.toNat =
        (p.layerSealing K coins i.toNat hop hops[i.toNat + 1]?).key ∧
      layerAAD (packet.take headerSize) i.toNat = layerAAD (p.header 0) i.toNat := by
  obtain ⟨header, body, hparse, hindex, hi, hbody⟩ := openLayer_facts h
  obtain ⟨hraw, hsix, hsize, hversions⟩ := parseHeader_facts hparse
  obtain ⟨hop, hhop⟩ : ∃ hop, hops[i.toNat]? = some hop := ⟨_, getElem?_eq_getElem (hb.three ▸ hi)⟩
  have hversion : packet.getD 4 0 = p.version := by
    have hlength := congrArg List.length htail
    rw [length_drop] at hlength
    have htotal : headerSize + (p.tail A coins payload layers).length = packetSizeForVersion p.version :=
      hb.sendable.length_tail hb.length
    refine version_of_size hversions hb.sendable.version_cases ?_
    rw [← hsize, ← htotal]
    have hlong : headerSize < packet.length := by
      rw [hsize]
      simp [packetSizeForVersion, nonceSizeX]
      omega
    omega
  rw [openBody_layer sk hb.sendable.fits (hb.layer _ _ hhop) htail hversion, Option.bind_eq_some_iff, hraw] at hbody
  obtain ⟨shared, hshared, hopened⟩ := hbody
  have hsame := hexact _ _ hhop _ _ _ _ hopened
  exact ⟨hop, shared, hhop, hsix.symm.trans hindex, hshared, congrArg Sealing.key hsame, congrArg Sealing.aad hsame⟩

theorem clear_of_sameHeader (ha : headerSize ≤ a.length) (hb : headerSize ≤ b.length)
    (h : SameHeader a b) : (a.take headerSize).set 6 0 = (b.take headerSize).set 6 0 := by
  apply ext_getElem?
  intro k
  by_cases h6 : k = 6
  · subst h6
    have h64 : 6 < headerSize := by decide
    rw [getElem?_set_self (by simp; omega), getElem?_set_self (by simp; omega)]
  · rw [getElem?_set_ne (Ne.symm h6), getElem?_set_ne (Ne.symm h6), getElem?_take, getElem?_take]
    by_cases hk : k < headerSize
    · rw [if_pos hk, if_pos hk, h k hk h6]
    · rw [if_neg hk, if_neg hk]

/-! ## Replies -/

theorem response_round_trip (A : Aead) (key : Fixed keySize) (nonce : Fixed nonceSizeX) (random : Bytes)
    (hparse : parseHeader request = .ok header)
    (hfit : reply.length + 2 ≤ payloadPlainSize (request.getD 4 0)) :
    ∃ response, sealResponse A request key reply nonce random = .ok response ∧
      (∀ other otherHeader, parseHeader other = .ok otherHeader → SameHeader other request →
        openResponse A response other key = .ok reply) ∧
      ∀ other otherKey reply', openResponse A response other otherKey = .ok reply' → SameHeader other request := by
  obtain ⟨hraw, -, hlength, -⟩ := parseHeader_facts hparse
  have hlong : headerSize ≤ request.length := by rw [hlength, packetSizeForVersion]; omega
  obtain ⟨version, hversion⟩ : ∃ version, version = request.getD 4 0 := ⟨_, rfl⟩
  obtain ⟨cleared, hcleared⟩ : ∃ cleared, cleared = (request.take headerSize).set 6 0 := ⟨_, rfl⟩
  obtain ⟨ciphertext, hcipher⟩ : ∃ c, c = A.sealed (responseSealing cleared version key nonce reply) := ⟨_, rfl⟩
  obtain ⟨padding, hpadding⟩ : ∃ padding, padding = (Fixed.copy (packetSizeForVersion version) random).1.drop
    (responseMagic ++ cleared ++ nonce.1 ++ ciphertext).length := ⟨_, rfl⟩
  have hmagicSize : responseMagic.length = 4 := by decide
  have hclearedSize : cleared.length = headerSize := by
    rw [hcleared, length_set, length_take, Nat.min_eq_left hlong]
  have hcipherSize : ciphertext.length = payloadCipherSize version := by
    rw [hcipher, A.sealed_size, responseSealing, hversion, length_frame hfit, payloadCipherSize]
  obtain ⟨response, hresponse⟩ : ∃ r, r = responseMagic ++ cleared ++ nonce.1 ++ ciphertext ++ padding := ⟨_, rfl⟩
  have hsize : response.length = packetSizeForVersion version := by
    rw [hresponse, length_append, hpadding, length_drop, (Fixed.copy _ random).2]
    simp only [length_append, hmagicSize, hclearedSize, nonce.2, hcipherSize, packetSizeForVersion]
    have : 4 ≤ maxHops * layerSize := by decide
    omega
  have hmagic : response.take 4 = responseMagic := by
    rw [hresponse, append_assoc, append_assoc, append_assoc, take_left' hmagicSize]
  have hheader : slice response 4 headerSize = cleared := by
    rw [hresponse, append_assoc, append_assoc, slice_middle hmagicSize hclearedSize]
  have hnonce : slice response (4 + headerSize) nonceSizeX = nonce.1 := by
    rw [hresponse, append_assoc, slice_middle (by rw [length_append, hmagicSize, hclearedSize]) nonce.2]
  have hsealed : slice response (4 + headerSize + nonceSizeX) (payloadCipherSize version) = ciphertext := by
    rw [hresponse, slice_middle (by simp only [length_append, hmagicSize, hclearedSize, nonce.2]) hcipherSize]
  refine ⟨response, ?_, ?_, ?_⟩
  · simp only [sealResponse, ok_rules]
    refine ⟨header, hparse, (), by omega, ?_⟩
    rw [hraw, ← hcleared, ← hversion, ← hcipher, ← hpadding, hresponse]
  · intro other otherHeader hother hsame
    obtain ⟨hraw', -, hlength', -⟩ := parseHeader_facts hother
    have hlong' : headerSize ≤ other.length := by rw [hlength', packetSizeForVersion]; omega
    have hversion' : other.getD 4 0 = version := by
      rw [hversion, getD_eq_getElem?_getD, getD_eq_getElem?_getD, hsame 4 (by decide) (by decide)]
    have hcleared' : otherHeader.raw.set 6 0 = cleared := by
      rw [hraw', clear_of_sameHeader hlong' hlong hsame, hcleared]
    have hopened : A.opened key.1 nonce.1 ciphertext (responseAAD cleared) =
        some (frame (payloadPlainSize version) reply) := by
      rw [hcipher]
      exact A.opened_sealed (responseSealing cleared version key nonce reply)
    rw [← hversion] at hfit
    have hcapacity : payloadPlainSize version ≤ 2 + maxPayload := by
      rw [payloadPlainSize]
      split
      · exact le_refl _
      · decide
    have hshort : reply.length < 256 ^ 2 := by
      simp only [maxPayload] at hcapacity
      omega
    simp only [openResponse, hversion', ok_rules]
    refine ⟨otherHeader, hother, (), ?_, (), ?_, _, ?_, (), ?_, unframe_frame hfit hshort⟩
    · simp [hsize, hmagic]
    · rw [hheader, hcleared']
      simp
    · rw [hnonce, hsealed, hcleared', hopened]
    · rw [length_frame hfit]
      simp
  · intro other otherKey reply' hopen
    simp only [openResponse, ok_rules] at hopen
    obtain ⟨otherHeader, hother, -, -, -, hmatch, -⟩ := hopen
    rw [not_not, hheader, (parseHeader_facts hother).1, hcleared] at hmatch
    exact sameHeader_of_clear hmatch.symm

/-! ## Delivery -/

theorem Built.foreign_key (hb : Built K A p coins payload layers hops) {sk : SecretKey} {h i : UInt8} {clock : Nat}
    {route : Route} (hexact : ∀ k hop, hops[k]? = some hop → A.Exact (p.layerSealing K coins k hop hops[k + 1]?))
    (hhop : hops[i.toNat]? = some hop) (hkey : K.encapsulationKey sk ≠ hop.publicKey)
    (hseparate : K.Separates sk hop.publicKey (coins.encapsulation i.toNat) (p.header 0) i.toNat) :
    openLayer K A (p.header h ++ p.tail A coins payload layers) sk i clock ≠ .ok route := by
  intro hopen
  have htail : (p.header h ++ p.tail A coins payload layers).drop headerSize = p.tail A coins payload layers :=
    drop_left' length_encodeHeaderVersion
  have hraw : (p.header h ++ p.tail A coins payload layers).take headerSize = p.header h :=
    take_left' length_encodeHeaderVersion
  obtain ⟨hop', shared, hhop', -, hshared, hderived, -⟩ := hb.openLayer_exact hexact htail hopen
  obtain rfl : hop = hop' := Option.some.inj (hhop.symm.trans hhop')
  rw [hraw, deriveHopKey_header] at hderived
  exact hseparate hkey shared hshared hderived

theorem Built.changed_header (hb : Built K A p coins payload layers hops) {sk : SecretKey} {i : UInt8} {clock : Nat}
    {route : Route} (hexact : ∀ k hop, hops[k]? = some hop → A.Exact (p.layerSealing K coins k hop hops[k + 1]?))
    (htail : packet.drop headerSize = p.tail A coins payload layers) (hopen : openLayer K A packet sk i clock = .ok route) :
    SameHeader packet (p.header 0 ++ p.tail A coins payload layers) := by
  obtain ⟨-, -, -, -, -, -, haad⟩ := hb.openLayer_exact hexact htail hopen
  simp only [layerAAD, payloadAAD, append_assoc, append_cancel_left_eq] at haad
  apply sameHeader_of_clear
  rw [append_cancel_right haad, Plan.header, take_left' length_encodeHeaderVersion]

end

/-- A packet for three relays reaches the last one, each relay reads its own layer only, and the reply comes back. -/
theorem onion_delivery {SecretKey : Type} (K : KeyExchange SecretKey) (A : Aead) (o : BuildOptions) (coins : Coins)
    (clock : BuildClock) (payload : Bytes) (keys : Fin 3 → SecretKey) (ids : Fin 3 → Fixed layerNextIDSize)
    (clocks : Fin 3 → Nat) (expires : UInt64) (hservice : validService o.service = true)
    (hsize : payload.length ≤ maxPayload)
    (hhops : o.hops = List.ofFn fun i => ⟨ids i, K.encapsulationKey (keys i)⟩)
    (hids : ∀ i, ids i ≠ Fixed.zero layerNextIDSize) (hdistinct : Function.Injective fun i => K.encapsulationKey (keys i))
    (hexpiry : o.expiry clock = .ok expires) (hlife : Unexpired expires clock.check)
    (hopen : ∀ i, Unexpired expires (clocks i))
    (hexact : ∀ p, o.plan coins clock payload = .ok p → ∀ k hop, o.hops[k]? = some hop →
      A.Exact (p.layerSealing K coins k hop o.hops[k + 1]?))
    (hseparate : ∀ p, o.plan coins clock payload = .ok p → ∀ i j : Fin 3,
      K.Separates (keys i) (K.encapsulationKey (keys j)) (coins.encapsulation j) (p.header 0) j) :
    ∃ p0 p1 p2 payloadKey,
      build K A o coins clock payload = .ok p0 ∧
      p0.length = packetSizeForVersion (if legacyMaxPayload < payload.length then extendedVersion else version) ∧
      openLayer K A p0 (keys 0) 0 (clocks 0) = .ok ⟨o.service, ids 1, false, Fixed.zero keySize⟩ ∧
      forward p0 ⟨o.service, ids 1, false, Fixed.zero keySize⟩ = .ok p1 ∧
      openLayer K A p1 (keys 1) 1 (clocks 1) = .ok ⟨o.service, ids 2, false, Fixed.zero keySize⟩ ∧
      forward p1 ⟨o.service, ids 2, false, Fixed.zero keySize⟩ = .ok p2 ∧
      openLayer K A p2 (keys 2) 2 (clocks 2) = .ok ⟨o.service, Fixed.zero layerNextIDSize, true, payloadKey⟩ ∧
      openPayload A p2 ⟨o.service, Fixed.zero layerNextIDSize, true, payloadKey⟩ = .ok payload ∧
      (∀ (i : Fin 3) (index h : UInt8) clock route, index.toNat ≠ i →
        openLayer K A (p0.set 6 h) (keys i) index clock ≠ .ok route) ∧
      (∀ packet, packet.drop headerSize = p0.drop headerSize → ¬ SameHeader packet p0 →
        ∀ i index clock route, openLayer K A packet (keys i) index clock ≠ .ok route) ∧
      ∀ request header key reply nonce random, parseHeader request = .ok header →
        reply.length + 2 ≤ payloadPlainSize (request.getD 4 0) →
        ∃ response, sealResponse A request key reply nonce random = .ok response ∧
          (∀ other otherHeader, parseHeader other = .ok otherHeader → SameHeader other request →
            openResponse A response other key = .ok reply) ∧
          ∀ other otherKey reply', ¬ SameHeader other request → openResponse A response other otherKey ≠ .ok reply' := by
  have hthree : o.hops.length = maxHops := by rw [hhops, length_ofFn, maxHops]
  obtain ⟨p, hplan⟩ : ∃ p, o.plan coins clock payload = .ok p := plan_ok hservice hsize hthree hexpiry hlife
  obtain ⟨hsend, hserv, hexp, -⟩ := plan_sendable hplan
  obtain rfl : p.expires = expires := by simpa [hexpiry] using hexp.symm
  have husable : ∀ hop ∈ o.hops, hop.usable K := by
    intro hop hmem
    rw [hhops, mem_ofFn] at hmem
    obtain ⟨i, rfl⟩ := hmem
    exact ⟨K.encapsulationKey_size _, hids i, K.encapsulationKey_new _⟩
  obtain ⟨layers, hbuild, hb⟩ := build_ok (A := A) hplan husable
  have hhop : ∀ i : Fin 3, o.hops[(i : Nat)]? = some ⟨ids i, K.encapsulationKey (keys i)⟩ := by
    intro i
    rw [hhops, List.getElem?_ofFn, dif_pos i.isLt]
  have hend : o.hops[3]? = none := getElem?_eq_none (by rw [hthree, maxHops])
  have hroute : ∀ i : Fin 3, openLayer K A (p.header (UInt8.ofNat i) ++ p.tail A coins payload layers) (keys i)
      (UInt8.ofNat i) (clocks i) = readRoute p.service (p.layerBody o.hops[(i : Nat) + 1]?) := by
    intro i
    have hi : (UInt8.ofNat i).toNat = i := by
      rw [UInt8.toNat_ofNat', Nat.mod_eq_of_lt (lt_trans i.isLt (by decide))]
    have hown := hb.openLayer_own (i := UInt8.ofNat i) (by rw [hi]; exact i.isLt) (hopen i) (by rw [hi]; exact hhop i) rfl
    rw [hi] at hown
    exact hown
  have hdrop : (p.header 0 ++ p.tail A coins payload layers).drop headerSize = p.tail A coins payload layers :=
    drop_left' length_encodeHeaderVersion
  refine ⟨p.header 0 ++ p.tail A coins payload layers, p.header 1 ++ p.tail A coins payload layers,
    p.header 2 ++ p.tail A coins payload layers, p.payloadKey, hbuild, ?_, ?_, ?_, ?_, ?_, ?_, ?_, ?_, ?_, ?_⟩
  · rw [length_append, Plan.header, length_encodeHeaderVersion, hsend.length_tail hb.length, hsend.version]
  · rw [← hserv]
    exact (hroute 0).trans ((hhop 1) ▸ readRoute_next (hids 1))
  · exact hb.forward_ok (by decide) rfl
  · rw [← hserv]
    exact (hroute 1).trans ((hhop 2) ▸ readRoute_next (hids 2))
  · exact hb.forward_ok (by decide) rfl
  · rw [← hserv]
    exact (hroute 2).trans (hend ▸ readRoute_final)
  · exact hb.openPayload_ok (by decide) rfl rfl
  · intro i index h clock route hne
    rw [Plan.header, encodeHeaderVersion_set]
    intro hopened
    obtain ⟨-, -, -, -, hlt, -⟩ := openLayer_facts hopened
    have hkeys : K.encapsulationKey (keys i) ≠ K.encapsulationKey (keys ⟨index.toNat, hlt⟩) := by
      intro heq
      exact hne (congrArg Fin.val (hdistinct heq)).symm
    exact hb.foreign_key (hexact p hplan) (hhop ⟨index.toNat, hlt⟩) hkeys (hseparate p hplan i _) hopened
  · intro packet htail hchanged i index clock route hopened
    exact hchanged (hb.changed_header (hexact p hplan) (htail.trans hdrop) hopened)
  · intro request header key reply nonce random hparse hfit
    obtain ⟨response, hseal, hround, hother⟩ := response_round_trip A key nonce random hparse hfit
    refine ⟨response, hseal, hround, ?_⟩
    intro other otherKey reply' hchanged hopened
    exact hchanged (hother other otherKey reply' hopened)

/-! ## A cipher that is exact for a list of sealings -/

section
variable (log : List Sealing)

def recordedTag (s : Sealing) : Bytes := be overhead (if s ∈ log then log.idxOf s + 1 else 0)

def recordedAead : Aead where
  sealed s := s.plain ++ recordedTag log s
  opened key nonce ciphertext aad :=
    let plain := ciphertext.take (ciphertext.length - overhead)
    if overhead ≤ ciphertext.length ∧ plain ++ recordedTag log ⟨key, nonce, plain, aad⟩ = ciphertext then some plain
    else none
  sealed_size s := by simp [recordedTag]
  opened_sealed s := by
    simp [recordedTag]
  opened_size {key nonce ciphertext aad plain} h := by
    dsimp only at h
    split at h
    · rename_i hfits
      cases h
      simp
      omega
    · cases h

theorem recordedTag_inj (hlog : log.length < 256 ^ overhead) (hs : s ∈ log)
    (h : recordedTag log t = recordedTag log s) : t = s := by
  rw [recordedTag, recordedTag, if_pos hs] at h
  have hsmall := idxOf_lt_length_of_mem hs
  by_cases ht : t ∈ log
  · rw [if_pos ht] at h
    have htsmall := idxOf_lt_length_of_mem ht
    have hsame := be_inj (by omega) (by omega) h
    exact (idxOf_inj ht).mp (Nat.succ.inj hsame)
  · rw [if_neg ht] at h
    have hsame := be_inj (by omega) (by omega) h
    omega

theorem recordedAead_exact (hlog : log.length < 256 ^ overhead) (hs : s ∈ log) :
    (recordedAead log).Exact s := by
  intro key nonce aad plain h
  have hplain : (s.plain ++ recordedTag log s).take ((s.plain ++ recordedTag log s).length - overhead) = s.plain := by
    simp [recordedTag]
  simp only [recordedAead, hplain, append_cancel_left_eq, Option.ite_none_right_eq_some, Option.some.injEq] at h
  obtain ⟨⟨-, htag⟩, rfl⟩ := h
  exact recordedTag_inj log hlog hs htag

end

def layerSealings {SecretKey : Type} (K : KeyExchange SecretKey) (o : BuildOptions) (coins : Coins) (clock : BuildClock)
    (payload : Bytes) : List Sealing :=
  match o.plan coins clock payload with
  | .ok p => (List.range maxHops).filterMap fun k => o.hops[k]?.map fun hop => p.layerSealing K coins k hop o.hops[k + 1]?
  | .error _ => []

theorem recordedAead_exact_layers (hplan : o.plan coins clock payload = .ok p)
    (hhop : o.hops[k]? = some hop) :
    (recordedAead (layerSealings K o coins clock payload)).Exact (p.layerSealing K coins k hop o.hops[k + 1]?) := by
  obtain ⟨hk, -⟩ := List.getElem?_eq_some_iff.mp hhop
  obtain ⟨-, -, -, hthree⟩ := plan_sendable hplan
  apply recordedAead_exact
  · rw [layerSealings, hplan]
    exact lt_of_le_of_lt (length_filterMap_le _ _) (by rw [length_range]; decide)
  · rw [layerSealings, hplan]
    refine mem_filterMap.mpr ⟨k, mem_range.mpr (by omega), ?_⟩
    rw [hhop]
    rfl

theorem copy_replicate (n : Nat) (x : UInt8) : (Fixed.copy n (List.replicate n x)).1 = List.replicate n x :=
  congrArg Subtype.val (copy_val ⟨List.replicate n x, length_replicate⟩)

def plainExchange : KeyExchange UInt8 where
  encapsulationKey sk := List.replicate encapsulationKeySize1024 sk
  newEncapsulationKey1024 _ := true
  encapsulate pk _ := (pk.take 1, (Fixed.copy ciphertextSize1024 pk).1)
  decapsulate sk c := if c = List.replicate ciphertextSize1024 sk then some [sk] else none
  hkdf shared _ _ := shared
  encapsulationKey_size _ := length_replicate
  encapsulationKey_new _ := rfl
  ciphertext_size pk _ := (Fixed.copy ciphertextSize1024 pk).2
  decapsulate_encapsulate sk _ := if_pos (copy_replicate ciphertextSize1024 sk)

theorem plainExchange_separates (sk : UInt8) (sk' : UInt8) (coins header : Bytes) (index : Nat) :
    plainExchange.Separates sk (plainExchange.encapsulationKey sk') coins header index := by
  intro hne shared hshared
  have hcipher : (plainExchange.encapsulate (plainExchange.encapsulationKey sk') coins).2 =
      plainExchange.encapsulationKey sk' := copy_replicate ciphertextSize1024 sk'
  rw [hcipher] at hshared
  have hnone : plainExchange.decapsulate sk (plainExchange.encapsulationKey sk') = none := if_neg (Ne.symm hne)
  rw [hnone] at hshared
  cases hshared

def mailHops : Fin 3 → Fixed layerNextIDSize := fun i => Fixed.copy layerNextIDSize [UInt8.ofNat (i + 1)]

theorem mailHops_ne_zero : ∀ i, mailHops i ≠ Fixed.zero layerNextIDSize := by decide

def mailOptions : BuildOptions where
  service := 3
  circuitID := Fixed.copy circuitIDSize [7]
  sequence := 9
  expires := 1600
  hops := List.ofFn fun i : Fin 3 => ⟨mailHops i, plainExchange.encapsulationKey (UInt8.ofNat i)⟩
  payloadKey := Fixed.zero keySize

def mailCoins : Coins where
  circuitID := Fixed.zero circuitIDSize
  sequence := Fixed.zero 8
  payloadKey := Fixed.copy keySize [5]
  payloadNonce := Fixed.zero nonceSizeX
  encapsulation _ := []
  nonce _ := Fixed.zero nonceSizeX

def mailClock : BuildClock := ⟨1000 * second, 1000 * second⟩

theorem unexpired_mail : Unexpired mailOptions.expires (1000 * second) := ⟨1000, by decide, by decide, by decide⟩

/-- A mail of three bytes is delivered over three relays. -/
theorem onion_delivery_mail : ∃ p0 p1 p2 r0 r1 r2,
    build plainExchange (recordedAead (layerSealings plainExchange mailOptions mailCoins mailClock [1, 2, 3])) mailOptions
      mailCoins mailClock [1, 2, 3] = .ok p0 ∧
    forward p0 r0 = .ok p1 ∧ forward p1 r1 = .ok p2 ∧ r2.final = true ∧
    openPayload (recordedAead (layerSealings plainExchange mailOptions mailCoins mailClock [1, 2, 3])) p2 r2 =
      .ok [1, 2, 3] := by
  have hdistinct : Function.Injective fun i : Fin 3 => plainExchange.encapsulationKey (UInt8.ofNat i) := by
    have hkeys : ∀ i j : Fin 3, UInt8.ofNat i = UInt8.ofNat j → i = j := by decide
    intro i j h
    exact hkeys i j (((replicate_right_inj (by decide)).mp h))
  obtain ⟨p0, p1, p2, key, hbuild, -, -, hfirst, -, hsecond, -, hpayload, -⟩ :=
    onion_delivery plainExchange (recordedAead (layerSealings plainExchange mailOptions mailCoins mailClock [1, 2, 3]))
      mailOptions mailCoins mailClock [1, 2, 3] (fun i => UInt8.ofNat i) mailHops (fun _ => 1000 * second)
      mailOptions.expires (by decide) (by decide) rfl mailHops_ne_zero hdistinct rfl unexpired_mail (fun _ => unexpired_mail)
      (fun p hplan k hop hhop => recordedAead_exact_layers hplan hhop)
      (fun p _ i j => plainExchange_separates _ _ _ _ _)
  exact ⟨p0, p1, p2, _, _, _, hbuild, hfirst, hsecond, rfl, hpayload⟩

end TkmChain.Tkmnet
