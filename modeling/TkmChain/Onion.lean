import TkmChain.Bytes
import TkmChain.Proc

/-!
# Onion packets

Packets of `tkmnet` carry a service payload over three relays. The sender wraps
the route in one layer for each relay, a relay opens its own layer and advances
the hop index, and the last relay opens the payload and seals a reply.
-/

abbrev Fixed (n : Nat) := { b : Bytes // b.length = n }

namespace Fixed

def zero (n : Nat) : Fixed n := ⟨List.replicate n 0, List.length_replicate⟩

def copy (n : Nat) (b : Bytes) : Fixed n :=
  ⟨(b ++ List.replicate n 0).take n, by simp⟩

end Fixed

namespace Bytes

def slice (b : Bytes) (offset size : Nat) : Bytes := (b.drop offset).take size

theorem slice_slice {b : Bytes} {offset size o n : Nat} (h : o + n ≤ size) :
    slice (slice b offset size) o n = slice b (offset + o) n := by
  rw [slice, slice, slice, List.drop_take, List.take_take, List.drop_drop, Nat.min_eq_left (by omega)]

theorem slice_drop (b : Bytes) (k o n : Nat) : slice (b.drop k) o n = slice b (k + o) n := by
  rw [slice, List.drop_drop, slice]

theorem slice_append {a b : Bytes} {k o n : Nat} (h : a.length = k) : slice (a ++ b) (k + o) n = slice b o n := by
  rw [← slice_drop, List.drop_left' h]

theorem slice_start {a b : Bytes} {n : Nat} (h : a.length = n) : slice (a ++ b) 0 n = a := by
  rw [slice, List.drop_zero, List.take_left' h]

theorem slice_middle {a b c : Bytes} {k n : Nat} (ha : a.length = k) (hb : b.length = n) :
    slice (a ++ b ++ c) k n = b := by
  rw [List.append_assoc, ← Nat.add_zero k, slice_append ha, slice_start hb]

end Bytes

namespace TkmChain.Tkmnet

open Bytes

/-! ## Primitives -/

def ciphertextSize1024 : Nat := 1568

def encapsulationKeySize1024 : Nat := 1568

structure KeyExchange (SecretKey : Type) where
  encapsulationKey : SecretKey → Bytes
  newEncapsulationKey1024 : Bytes → Bool
  encapsulate : Bytes → Bytes → Bytes × Bytes
  decapsulate : SecretKey → Bytes → Option Bytes
  hkdf : (shared salt info : Bytes) → Bytes
  encapsulationKey_size : ∀ sk, (encapsulationKey sk).length = encapsulationKeySize1024
  encapsulationKey_new : ∀ sk, newEncapsulationKey1024 (encapsulationKey sk) = true
  ciphertext_size : ∀ pk coins, (encapsulate pk coins).2.length = ciphertextSize1024
  decapsulate_encapsulate : ∀ sk coins,
    decapsulate sk (encapsulate (encapsulationKey sk) coins).2 = some (encapsulate (encapsulationKey sk) coins).1

structure Sealing where
  (key nonce plain aad : Bytes)
  deriving DecidableEq

def overhead : Nat := 16

def nonceSizeX : Nat := 24

def keySize : Nat := 32

structure Aead where
  sealed : Sealing → Bytes
  opened : (key nonce ciphertext aad : Bytes) → Option Bytes
  sealed_size : ∀ s, (sealed s).length = s.plain.length + overhead
  opened_sealed : ∀ s, opened s.key s.nonce (sealed s) s.aad = some s.plain
  opened_size : ∀ {key nonce ciphertext aad plain},
    opened key nonce ciphertext aad = some plain → ciphertext.length = plain.length + overhead

/-! ## Sizes -/

def magic : Bytes := ofText "TKMN"

def version : UInt8 := 1

def extendedVersion : UInt8 := 2

def maxHops : Nat := 3

def legacyMaxPayload : Nat := 2048

def maxPayload : Nat := 65535

def circuitIDSize : Nat := 16

def layerNextIDSize : Nat := 32

def layerBodySize : Nat := 96

def headerSize : Nat := 64

def payloadPlainSize (version : UInt8) : Nat :=
  2 + if version = extendedVersion then maxPayload else legacyMaxPayload

def payloadCipherSize (version : UInt8) : Nat := payloadPlainSize version + overhead

def layerSize : Nat := ciphertextSize1024 + nonceSizeX + layerBodySize + overhead

def packetSizeForVersion (version : UInt8) : Nat :=
  headerSize + nonceSizeX + payloadCipherSize version + maxHops * layerSize

def finalRouteFlag : UInt8 := 1

def maxLifetime : Nat := 24 * 60 * 60

def second : Nat := 10 ^ 9

def unixSeconds (clock : Nat) : Except String Nat := do
  failIf (clock / second = 0) "tkmnet: clock is before the Unix epoch"
  return clock / second

/-! ## Headers -/

def serviceTransaction : UInt8 := 1

def serviceUsername : UInt8 := 5

def validService (s : UInt8) : Bool := serviceTransaction ≤ s && s ≤ serviceUsername

structure ParsedHeader where
  raw : Bytes
  (service hopIndex hopCount : UInt8)
  circuitID : Fixed circuitIDSize
  (sequence expires : UInt64)
  deriving DecidableEq

def encodeHeaderVersion (version service hopIndex : UInt8) (circuitID : Fixed circuitIDSize)
    (sequence expires : UInt64) : Bytes :=
  magic ++ [version, service, hopIndex, UInt8.ofNat maxHops] ++ circuitID.1 ++ be 8 sequence.toNat ++
    be 8 expires.toNat ++ List.replicate 24 0

def parseHeader (packet : Bytes) : Except String ParsedHeader := do
  failIf (packet.length < headerSize ∨ packet.take 4 ≠ magic ∨
      (packet.getD 4 0 ≠ version ∧ packet.getD 4 0 ≠ extendedVersion) ∨
      packet.length ≠ packetSizeForVersion (packet.getD 4 0))
    "tkmnet: invalid packet size or version"
  failIf (validService (packet.getD 5 0) = false ∨ (packet.getD 7 0).toNat ≠ maxHops ∨ maxHops ≤ (packet.getD 6 0).toNat)
    "tkmnet: invalid packet header"
  let sequence := UInt64.ofNat (toNat (slice packet 24 8))
  let expires := UInt64.ofNat (toNat (slice packet 32 8))
  failIf (sequence = 0 ∨ expires = 0) "tkmnet: invalid packet sequence or expiry"
  return {
    raw := packet.take headerSize
    service := packet.getD 5 0
    hopIndex := packet.getD 6 0
    hopCount := packet.getD 7 0
    circuitID := Fixed.copy circuitIDSize (slice packet 8 16)
    sequence := sequence
    expires := expires }

/-- The header without the hop index, which advances while the packet is relayed. -/
def payloadAAD (header : Bytes) : Bytes := ofText "TKMNET_SERVICE_" ++ header.set 6 0

def layerAAD (header : Bytes) (index : Nat) : Bytes := payloadAAD header ++ [UInt8.ofNat index]

section
variable {SecretKey : Type} (K : KeyExchange SecretKey) (A : Aead)

def deriveHopKey (shared header : Bytes) (index : Nat) : Bytes :=
  K.hkdf shared ((header.take 40).set 6 0) (ofText "TKMNET_MLKEM1024_HOP_KEY_V1" ++ [UInt8.ofNat index])

/-! ## Building a packet -/

structure Hop where
  id : Fixed layerNextIDSize
  publicKey : Bytes

structure BuildOptions where
  service : UInt8
  circuitID : Fixed circuitIDSize
  (sequence expires : UInt64)
  hops : List Hop
  payloadKey : Fixed keySize

structure Coins where
  circuitID : Fixed circuitIDSize
  sequence : Fixed 8
  payloadKey : Fixed keySize
  payloadNonce : Fixed nonceSizeX
  encapsulation : Nat → Bytes
  nonce : Nat → Fixed nonceSizeX

/-- The two readings of the clock `build` takes: for a missing expiry, and for its check. -/
structure BuildClock where
  (default check : Nat)

def BuildOptions.expiry (o : BuildOptions) (clock : BuildClock) : Except String UInt64 :=
  if o.expires = 0 then (unixSeconds (clock.default + 10 * 60 * second)).map UInt64.ofNat else .ok o.expires

structure Plan where
  (version service : UInt8)
  circuitID : Fixed circuitIDSize
  (sequence expires : UInt64)
  payloadKey : Fixed keySize

def BuildOptions.plan (o : BuildOptions) (coins : Coins) (clock : BuildClock) (payload : Bytes) :
    Except String Plan := do
  failIf (validService o.service = false) "tkmnet: invalid service"
  failIf (maxPayload < payload.length) "tkmnet: payload exceeds 65535 bytes"
  failIf (o.hops.length ≠ maxHops) "tkmnet: exactly 3 hops are required"
  let drawn := UInt64.ofNat (toNat coins.sequence.1)
  let sequence := if o.sequence = 0 then (if drawn = 0 then 1 else drawn) else o.sequence
  let expires ← o.expiry clock
  let now ← unixSeconds clock.check
  failIf (expires.toNat ≤ now ∨ maxLifetime < expires.toNat - now) "tkmnet: expiry is outside the permitted lifetime"
  return {
    version := if legacyMaxPayload < payload.length then extendedVersion else version
    service := o.service
    circuitID := if o.circuitID = Fixed.zero circuitIDSize then coins.circuitID else o.circuitID
    sequence := sequence
    expires := expires
    payloadKey := if o.payloadKey = Fixed.zero keySize then coins.payloadKey else o.payloadKey }

def Plan.header (p : Plan) (hopIndex : UInt8) : Bytes :=
  encodeHeaderVersion p.version p.service hopIndex p.circuitID p.sequence p.expires

def frame (size : Nat) (payload : Bytes) : Bytes :=
  be 2 payload.length ++ payload ++ List.replicate (size - 2 - payload.length) 0

def Plan.payloadSealing (p : Plan) (coins : Coins) (payload : Bytes) : Sealing where
  key := p.payloadKey.1
  nonce := coins.payloadNonce.1
  plain := frame (payloadPlainSize p.version) payload
  aad := payloadAAD (p.header 0)

def Plan.layerBody (p : Plan) (next : Option Hop) : Bytes :=
  match next with
  | some hop => hop.id.1 ++ List.replicate (layerBodySize - layerNextIDSize) 0
  | none => List.replicate layerNextIDSize 0 ++ [finalRouteFlag] ++ p.payloadKey.1 ++
      List.replicate (layerBodySize - layerNextIDSize - 1 - keySize) 0

def Plan.layerSealing (p : Plan) (coins : Coins) (index : Nat) (hop : Hop) (next : Option Hop) : Sealing where
  key := deriveHopKey K (K.encapsulate hop.publicKey (coins.encapsulation index)).1 (p.header 0) index
  nonce := (coins.nonce index).1
  plain := p.layerBody next
  aad := layerAAD (p.header 0) index

def Plan.layer (p : Plan) (coins : Coins) (index : Nat) (hop : Hop) (next : Option Hop) : Bytes :=
  (K.encapsulate hop.publicKey (coins.encapsulation index)).2 ++ (coins.nonce index).1 ++
    A.sealed (p.layerSealing K coins index hop next)

def Plan.layers (p : Plan) (coins : Coins) (index : Nat) : List Hop → Except String Bytes
  | [] => return []
  | hop :: rest => do
    failIf (hop.publicKey.length ≠ encapsulationKeySize1024 ∨ hop.id = Fixed.zero layerNextIDSize)
      s!"tkmnet: invalid hop {index} descriptor"
    failIf (K.newEncapsulationKey1024 hop.publicKey = false) s!"tkmnet: hop {index} public key"
    let others ← Plan.layers p coins (index + 1) rest
    return p.layer K A coins index hop rest.head? ++ others

def build (o : BuildOptions) (coins : Coins) (clock : BuildClock) (payload : Bytes) : Except String Bytes := do
  let p ← o.plan coins clock payload
  failIf (2 ^ 16 - 1 < payload.length) "tkmnet: payload length does not fit packet framing"
  let layers ← p.layers K A coins 0 o.hops
  let packet := p.header 0 ++ coins.payloadNonce.1 ++ A.sealed (p.payloadSealing coins payload) ++ layers
  failIf (packet.length ≠ packetSizeForVersion p.version) "tkmnet: internal packet size error"
  return packet

/-! ## Opening and forwarding -/

structure Route where
  service : UInt8
  nextID : Fixed layerNextIDSize
  final : Bool
  payloadKey : Fixed keySize
  deriving DecidableEq

def layerOffset (version : UInt8) (index : Nat) : Nat :=
  headerSize + nonceSizeX + payloadCipherSize version + index * layerSize

def checkHeader (header : ParsedHeader) (hopIndex : UInt8) (clock : Nat) : Except String Unit := do
  failIf (maxHops ≤ hopIndex.toNat ∨ header.hopIndex ≠ hopIndex) "tkmnet: packet is addressed to a different hop"
  let now ← unixSeconds clock
  failIf (header.expires.toNat ≤ now) "tkmnet: packet expired"
  failIf (maxLifetime < header.expires.toNat - now) "tkmnet: packet lifetime is too long"

def openBody (packet raw : Bytes) (privateKey : SecretKey) (index : Nat) : Option Bytes := do
  let offset := layerOffset (packet.getD 4 0) index
  let shared ← K.decapsulate privateKey (slice packet offset ciphertextSize1024)
  A.opened (deriveHopKey K shared raw index) (slice packet (offset + ciphertextSize1024) nonceSizeX)
    (slice packet (offset + ciphertextSize1024 + nonceSizeX) (layerBodySize + overhead)) (layerAAD raw index)

def readRoute (service : UInt8) (body : Bytes) : Except String Route := do
  let nextID := Fixed.copy layerNextIDSize (slice body 0 layerNextIDSize)
  if body.getD layerNextIDSize 0 &&& finalRouteFlag ≠ 0 then
    failIf (nextID ≠ Fixed.zero layerNextIDSize) "tkmnet: final layer has a next relay"
    return ⟨service, nextID, true, Fixed.copy keySize (slice body (layerNextIDSize + 1) keySize)⟩
  else
    failIf (nextID = Fixed.zero layerNextIDSize) "tkmnet: relay layer has no next relay"
    return ⟨service, nextID, false, Fixed.zero keySize⟩

def openLayer (packet : Bytes) (privateKey : SecretKey) (hopIndex : UInt8) (clock : Nat) : Except String Route := do
  let header ← parseHeader packet
  checkHeader header hopIndex clock
  let body ← orFail (openBody K A packet header.raw privateKey hopIndex.toNat) "tkmnet: invalid relay layer"
  readRoute header.service body

def forward (packet : Bytes) (route : Route) : Except String Bytes := do
  failIf (route.final = true) "tkmnet: final packet cannot be forwarded"
  let header ← parseHeader packet
  failIf (maxHops ≤ header.hopIndex.toNat + 1) "tkmnet: route exhausted"
  return packet.set 6 (packet.getD 6 0 + 1)

def unframe (what : String) (plain : Bytes) : Except String Bytes := do
  let size := toNat (plain.take 2)
  failIf (plain.length - 2 < size) s!"tkmnet: invalid {what} length"
  failIf ((plain.drop (2 + size)).any (· ≠ 0)) s!"tkmnet: non-zero {what} padding"
  return slice plain 2 size

def openPayload (packet : Bytes) (route : Route) : Except String Bytes := do
  failIf (route.final = false) "tkmnet: payload is only available at the final relay"
  let header ← parseHeader packet
  let version := packet.getD 4 0
  let plain ← orFail (A.opened route.payloadKey.1 (slice packet headerSize nonceSizeX)
    (slice packet (headerSize + nonceSizeX) (payloadCipherSize version)) (payloadAAD header.raw))
    "tkmnet: invalid service payload"
  failIf (plain.length ≠ payloadPlainSize version) "tkmnet: invalid service payload"
  unframe "service payload" plain

/-! ## Replies -/

def responseMagic : Bytes := ofText "TKMR"

def responseAAD (requestHeader : Bytes) : Bytes := ofText "TKMNET_REPLY_V1" ++ requestHeader

def responseSealing (requestHeader : Bytes) (version : UInt8) (payloadKey : Fixed keySize) (nonce : Fixed nonceSizeX)
    (payload : Bytes) : Sealing where
  key := payloadKey.1
  nonce := nonce.1
  plain := frame (payloadPlainSize version) payload
  aad := responseAAD requestHeader

def sealResponse (request : Bytes) (payloadKey : Fixed keySize) (payload : Bytes) (nonce : Fixed nonceSizeX)
    (random : Bytes) : Except String Bytes := do
  let header ← parseHeader request
  let version := request.getD 4 0
  failIf (payloadPlainSize version - 2 < payload.length) "tkmnet: response exceeds packet version capacity"
  let requestHeader := header.raw.set 6 0
  let reply := responseMagic ++ requestHeader ++ nonce.1 ++
    A.sealed (responseSealing requestHeader version payloadKey nonce payload)
  return reply ++ (Fixed.copy (packetSizeForVersion version) random).1.drop reply.length

def openResponse (response request : Bytes) (payloadKey : Fixed keySize) : Except String Bytes := do
  let header ← parseHeader request
  let version := request.getD 4 0
  failIf (response.length ≠ packetSizeForVersion version ∨ response.take 4 ≠ responseMagic)
    "tkmnet: invalid response frame"
  let requestHeader := header.raw.set 6 0
  failIf (slice response 4 headerSize ≠ requestHeader) "tkmnet: response belongs to a different request"
  let offset := 4 + headerSize
  let plain ← orFail (A.opened payloadKey.1 (slice response offset nonceSizeX)
    (slice response (offset + nonceSizeX) (payloadCipherSize version)) (responseAAD requestHeader))
    "tkmnet: invalid encrypted response"
  failIf (plain.length ≠ payloadPlainSize version) "tkmnet: invalid encrypted response"
  unframe "response" plain

end

end TkmChain.Tkmnet
