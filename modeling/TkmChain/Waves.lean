import TkmChain.Config

/-!
# Execution waves

The optimistic executor groups the transactions of a block into waves by their
access sets. First fit keeps conflicting transactions out of one wave, but does
not order the waves by the transactions in them.
-/

namespace TkmChain

/-! ## Access sets -/

structure StorageAccess where
  address : Address
  key : Hash
  deriving DecidableEq, Repr

structure AccessSet where
  (reads writes : List Address)
  (storageReads storageWrites : List StorageAccess)
  unknown : Bool
  deriving DecidableEq, Repr

def storageAccessConflicts (access : StorageAccess) (slots : List StorageAccess) : Bool :=
  slots.any fun slot => access.address = slot.address && access.key = slot.key

def accountAddressConflicts (address : Address) (accounts : List Address) : Bool :=
  accounts.any fun account => address = account

def storageSlotAddressConflicts (address : Address) (slots : List StorageAccess) : Bool :=
  slots.any fun slot => address = slot.address

def AccessSet.conflicts (a b : AccessSet) : Bool :=
  a.unknown || b.unknown ||
  a.writes.any (fun x => accountAddressConflicts x (b.reads ++ b.writes) ||
    storageSlotAddressConflicts x b.storageReads || storageSlotAddressConflicts x b.storageWrites) ||
  b.writes.any (fun x => accountAddressConflicts x a.reads ||
    storageSlotAddressConflicts x a.storageReads || storageSlotAddressConflicts x a.storageWrites) ||
  a.storageWrites.any (fun x => storageAccessConflicts x b.storageReads || storageAccessConflicts x b.storageWrites ||
    accountAddressConflicts x.address b.reads || accountAddressConflicts x.address b.writes) ||
  b.storageWrites.any (fun x => storageAccessConflicts x a.storageReads ||
    accountAddressConflicts x.address a.reads || accountAddressConflicts x.address a.writes)

/-! ## Waves -/

structure WaveState where
  waves : List (List Nat)
  start : Nat
  deriving DecidableEq, Repr

section
variable (access : List AccessSet)

def fitsWave (item : AccessSet) (wave : List Nat) : Bool :=
  wave.all fun j => !((access[j]?.map fun other => item.conflicts other).getD false)

def addTransaction (s : WaveState) (entry : AccessSet × Nat) : WaveState :=
  let (item, i) := entry
  if item.unknown then { waves := s.waves ++ [[i]], start := s.waves.length + 1 }
  else match (s.waves.drop s.start).findIdx? (fitsWave access item) with
    | some w => { s with waves := s.waves.modify (s.start + w) (· ++ [i]) }
    | none => { s with waves := s.waves ++ [[i]] }

def buildExecutionWaves : List (List Nat) := (access.zipIdx.foldl (addTransaction access) ⟨[], 0⟩).waves

end

end TkmChain
