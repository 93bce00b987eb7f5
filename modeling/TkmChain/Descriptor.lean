import TkmChain.Onion
import TkmChain.Registry
import TkmChain.Table

/-!
# Relay descriptors

A descriptor binds a relay identifier, which is a digest of its ML-KEM key, to an
onion name and is signed with an ML-DSA-87 key it names itself. Nodes pin what they
learn first in a gossip cache and in the peer set of the relay, and route private
username lookups over three descriptors.
-/

namespace TkmChain.Tkmnet

open Bytes

abbrev Text := List Char

namespace Text

def size (s : Text) : Nat := (s.map fun c => c.utf8Size).sum

def hasSuffix (s suffix : Text) : Bool := suffix.isSuffixOf s

def trimSuffix (s suffix : Text) : Text := if s.hasSuffix suffix then s.take (s.length - suffix.length) else s

def bytes (s : Text) : Bytes := s.map fun c => UInt8.ofNat c.toNat

end Text

structure DescriptorEnv where
  (toLower trimSpace : Text → Text)
  relayIDDigest : Bytes → Bytes
  verifyMLDSA87 : (publicKey message signature : Bytes) → Bool

structure Descriptor where
  version : UInt8
  id : Fixed layerNextIDSize
  onion : Text
  (publicKey signingPublicKey : Bytes)
  expires : UInt64
  signature : Bytes
  deriving DecidableEq

section
variable (env : DescriptorEnv)

/-! ## Onion names -/

def onionHost (value : Text) : Text := env.toLower (Text.trimSuffix (env.trimSpace value) ['.'])

def onionSuffix : Text := ['.', 'o', 'n', 'i', 'o', 'n']

def validateOnionHostname (value : Text) : Except String Text := do
  let host := onionHost env value
  failIf (host.hasSuffix onionSuffix = false) "tkmnet: relay descriptor requires a .onion hostname"
  let label := host.trimSuffix onionSuffix
  failIf (label.size ≠ 56) s!"tkmnet: onion hostname has invalid length {label.size}"
  failIf (label.any fun c => ¬ ('a' ≤ c ∧ c ≤ 'z' ∨ '2' ≤ c ∧ c ≤ '7')) "tkmnet: onion hostname is not a v3 base32 name"
  return host

/-- The host of `DialContext`. -/
def dialHost (onion : Text) : Except String Text := do
  let host := onionHost env onion
  failIf (host.hasSuffix onionSuffix = false) "tkmnet: only .onion destinations are allowed"
  return host

/-! ## Descriptors -/

def Descriptor.signingBytes (d : Descriptor) : Except String Bytes := do
  failIf (d.version ≠ Tkmnet.version ∨ d.id = Fixed.zero layerNextIDSize ∨ d.publicKey.length ≠ 1568 ∨
    d.signingPublicKey.length ≠ mldsa87PublicKeySize ∨ d.expires = 0) "tkmnet: invalid relay descriptor"
  let onion ← validateOnionHostname env d.onion
  failIf (255 < onion.size) "tkmnet: onion hostname is too long"
  return ofText "TKMNET_DESCRIPTOR_V1" ++ [d.version] ++ d.id.1 ++ [UInt8.ofNat onion.size] ++ onion.bytes ++
    be 2 d.publicKey.length ++ d.publicKey ++ be 2 d.signingPublicKey.length ++ d.signingPublicKey ++
    be 8 d.expires.toNat

def signDescriptor (d : Descriptor) (sign : Bytes → Except String Bytes) : Except String Descriptor := do
  let message ← d.signingBytes env
  let signature ← sign message
  failIf (signature = []) "tkmnet: empty descriptor signature"
  return { d with signature := signature }

def Descriptor.verify (d : Descriptor) (clock : Nat) : Except String Unit := do
  let message ← d.signingBytes env
  failIf (clock / second = 0 ∨ d.expires.toNat ≤ clock / second ∨ maxLifetime < d.expires.toNat - clock / second)
    "tkmnet: relay descriptor is expired or too far in the future"
  failIf (d.id.1 ≠ env.relayIDDigest d.publicKey) "tkmnet: relay descriptor identifier does not match its key"
  failIf (env.verifyMLDSA87 d.signingPublicKey message d.signature = false) "tkmnet: invalid relay descriptor signature"

/-! ## The gossip cache and the peer set -/

def descriptorCacheLimit : Nat := 256

abbrev DescriptorTable := Table Descriptor.id

def sameKeys (d e : Descriptor) : Bool := d.publicKey = e.publicKey && d.signingPublicKey = e.signingPublicKey

/-- A descriptor joins a table unless its identifier is there with other keys or the table is full. -/
def pin (known : DescriptorTable) (d : Descriptor) (replaced full : String) : Except String Bool × DescriptorTable :=
  match known.get d.id with
  | some old =>
    if sameKeys old d = false then (.error replaced, known)
    else if d.expires ≤ old.expires then (.ok false, known)
    else (.ok true, known.put d)
  | none =>
    if descriptorCacheLimit ≤ known.rows.length then (.error full, known)
    else (.ok true, known.put d)

/-- `Add` of the gossip cache, which drops what does not verify any more; the clock is read twice. -/
def gossipAdd (known : DescriptorTable) (d : Descriptor) (clock evict : Nat) : Except String Bool × DescriptorTable :=
  match d.verify env clock with
  | .error _ => (.error "tkmnet: reject unverified gossip descriptor", known)
  | .ok _ => pin (known.filter fun cached => (cached.verify env evict).isOk) d
      "tkmnet: descriptor identity attempted to replace its pinned keys" "tkmnet: descriptor gossip cache is full"

def addPeer (peers : DescriptorTable) (d : Descriptor) (clock : Nat) : Except String Bool × DescriptorTable :=
  match d.verify env clock with
  | .error _ => (.error "tkmnet: reject invalid relay peer descriptor", peers)
  | .ok _ => pin peers d "tkmnet: relay descriptor attempted to replace established keys" "tkmnet: relay peer set is full"

/-! ## Private username requests -/

def canonicalLookupName (name : Text) : Except String Text := do
  failIf (name.size < 3 ∨ 32 < name.size ∨ env.toLower name ≠ name ∨ name.head? = some '-' ∨ name.hasSuffix ['-'])
    "invalid username"
  failIf (name.any fun c => ¬ ('a' ≤ c ∧ c ≤ 'z' ∨ '0' ≤ c ∧ c ≤ '9' ∨ c = '_' ∨ c = '-')) "invalid username"
  failIf ((name.zip name.tail).any fun p => p.1 = '-' ∧ p.2 = '-') "invalid username"
  return name

def encodeUsernameQuery (name : Text) : Except String Bytes := do
  let canonical ← (canonicalLookupName env name).mapError fun _ => "username query is not canonical"
  failIf (canonical ≠ name) "username query is not canonical"
  let front := ofText "TKU1" ++ [version, UInt8.ofNat name.size] ++ name.bytes
  return front ++ List.replicate (maxPayload - front.length) 0

/-- The hops of the relays from `index` on, none of which repeats what is on the route already. -/
def routeHops (clock index : Nat) (seenIDs : List (Fixed layerNextIDSize)) (seenOnions : List Text) :
    List Descriptor → Except String (List Hop)
  | [] => return []
  | relay :: rest => do
    (relay.verify env clock).mapError fun _ => s!"invalid intermediate relay descriptor {index}"
    failIf (relay.id ∈ seenIDs) "username lookup route repeats a relay"
    failIf (env.toLower relay.onion ∈ seenOnions) "username lookup route repeats an onion service"
    let others ← routeHops clock (index + 1) (relay.id :: seenIDs) (env.toLower relay.onion :: seenOnions) rest
    return ⟨relay.id, relay.publicKey⟩ :: others

def usernameOptions (hops : List Hop) (directory : Descriptor) : BuildOptions where
  service := serviceUsername
  circuitID := Fixed.zero circuitIDSize
  sequence := 0
  expires := 0
  hops := hops ++ [⟨directory.id, directory.publicKey⟩]
  payloadKey := Fixed.zero keySize

def buildPrivateUsernameRequest {SecretKey : Type} (K : KeyExchange SecretKey) (A : Aead) (firstTwo : List Descriptor)
    (directory : Descriptor) (name : Text) (now : Nat) (coins : Coins) (clock : BuildClock) : Except String Bytes := do
  failIf (firstTwo.length ≠ maxHops - 1) "username lookup route requires exactly 2 intermediate relays"
  (directory.verify env now).mapError fun _ => "invalid username directory descriptor"
  let payload ← encodeUsernameQuery env name
  let hops ← routeHops env now 0 [directory.id] [env.toLower directory.onion] firstTwo
  build K A (usernameOptions hops directory) coins clock payload

end

end TkmChain.Tkmnet
