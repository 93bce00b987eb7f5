import TkmChain.Onion
import TkmChain.Table

/-!
# Replay protection of relays

A relay opens its layer of a packet and then asks a bounded cache whether the
circuit and sequence of the packet were seen before. The cache forgets what is
older than its time to live.
-/

namespace TkmChain.Tkmnet

/-! ## The cache -/

structure Seen where
  circuitID : Fixed circuitIDSize
  sequence : UInt64
  time : Nat

def Seen.key (s : Seen) : Fixed circuitIDSize × UInt64 := (s.circuitID, s.sequence)

structure ReplayCache where
  entries : Table Seen.key
  (max ttl : Nat)

def hour : Nat := 60 * 60 * second

def newReplayCache (maxEntries ttl : Nat) : Except String ReplayCache := do
  failIf (maxEntries < 1 ∨ 1000000 < maxEntries) "tkmnet: replay cache size is outside the permitted range"
  failIf (ttl = 0 ∨ 24 * hour < ttl) "tkmnet: replay cache ttl is outside the permitted range"
  return ⟨Table.empty, maxEntries, ttl⟩

def ReplayCache.evict (c : ReplayCache) (now : Nat) : ReplayCache :=
  { c with entries := c.entries.filter fun s => now ≤ s.time + c.ttl }

def ReplayCache.accept (c : ReplayCache) (circuitID : Fixed circuitIDSize) (sequence expires : UInt64) (now : Nat) :
    Except String Unit × ReplayCache :=
  if sequence = 0 ∨ now / second = 0 ∨ expires.toNat ≤ now / second then
    (.error "tkmnet: invalid replay identity or expiry", c)
  else
    let c := c.evict now
    if (c.entries.get (circuitID, sequence)).isSome then (.error "tkmnet: replayed packet", c)
    else if c.max ≤ c.entries.rows.length then (.error "tkmnet: replay cache is full", c)
    else (.ok (), { c with entries := c.entries.put ⟨circuitID, sequence, now⟩ })

/-! ## The service -/

structure Service (SecretKey : Type) where
  key : SecretKey
  replay : ReplayCache

/-- A relay without a configured cache takes one of 100000 entries and 30 minutes. -/
def newService {SecretKey : Type} (key : SecretKey) (replay : Option ReplayCache) : Except String (Service SecretKey) := do
  let replay ← match replay with
    | some cache => pure cache
    | none => newReplayCache 100000 (30 * 60 * second)
  return ⟨key, replay⟩

structure Arrival where
  packet : Bytes
  (opened accepted : Nat)

section
variable {SecretKey : Type} (K : KeyExchange SecretKey) (A : Aead)

/-- The route of a packet that is handled or forwarded; `none` when the connection is closed before. -/
def Service.handleConn (s : Service SecretKey) (a : Arrival) : Option Route × Service SecretKey :=
  match parseHeader a.packet with
  | .error _ => (none, s)
  | .ok header =>
    match openLayer K A a.packet s.key header.hopIndex a.opened with
    | .error _ => (none, s)
    | .ok route =>
      let answer := s.replay.accept header.circuitID header.sequence header.expires a.accepted
      (answer.1.toOption.map fun _ => route, { s with replay := answer.2 })

def Service.run (s : Service SecretKey) (arrivals : List Arrival) : Service SecretKey :=
  arrivals.foldl (fun s a => (s.handleConn K A a).2) s

end

/-- Arrivals at nondecreasing times from `start` on. -/
def Timely : Nat → List Arrival → Prop
  | _, [] => True
  | start, a :: rest => start ≤ a.opened ∧ a.opened ≤ a.accepted ∧ Timely a.accepted rest

end TkmChain.Tkmnet
