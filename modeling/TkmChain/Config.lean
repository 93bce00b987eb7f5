import TkmChain.Bytes
import TkmChain.Proc

/-!
# Chain configuration and fork predicates

The fork schedule of `params.ChainConfig`, the predicates that read it, and the
order check made on a configuration.
-/

namespace TkmChain

variable {fork : Option Nat} {num' time' : Nat}

abbrev Hash := BitVec 256

abbrev Address := BitVec 160

instance : LawfulBEq Hash := instLawfulBEq

instance : LawfulBEq Address := instLawfulBEq

namespace Hash

def bytes (h : Hash) : Bytes := Bytes.be 32 h.toNat

/-- `common.BytesToHash`: the last 32 bytes, padded on the left. -/
def ofBytes (b : Bytes) : Hash := BitVec.ofNat 256 (Bytes.toNat b)

theorem bytes_ofBytes (h : b.length = 32) : (ofBytes b).bytes = b := by
  have hlt := Bytes.toNat_lt b
  rw [h] at hlt
  have hb := Bytes.be_toNat b
  rw [h] at hb
  rw [bytes, ofBytes, BitVec.toNat_ofNat, Nat.mod_eq_of_lt (by simpa using hlt), hb]

theorem ofBytes_bytes (a : Hash) : ofBytes a.bytes = a := by
  apply BitVec.eq_of_toNat_eq
  have ha := a.isLt
  rw [ofBytes, bytes, Bytes.toNat_be, BitVec.toNat_ofNat]
  omega

theorem bytes_inj {a b : Hash} (h : a.bytes = b.bytes) : a = b := by
  rw [← ofBytes_bytes a, h, ofBytes_bytes]

end Hash

namespace Address

def bytes (a : Address) : Bytes := Bytes.be 20 a.toNat

/-- `common.BytesToAddress`: the last 20 bytes, padded on the left. -/
def ofBytes (b : Bytes) : Address := BitVec.ofNat 160 (Bytes.toNat b)

@[simp] theorem length_bytes (a : Address) : a.bytes.length = 20 := Bytes.length_be _ _

@[simp] theorem toNat_bytes (a : Address) : Bytes.toNat a.bytes = a.toNat := by
  rw [bytes, Bytes.toNat_be, Nat.mod_eq_of_lt (by simpa using a.isLt)]

@[simp] theorem ofBytes_bytes (a : Address) : ofBytes a.bytes = a := by
  rw [ofBytes, toNat_bytes, BitVec.ofNat_toNat, BitVec.setWidth_eq]

theorem bytes_inj {a b : Address} (h : a.bytes = b.bytes) : a = b := by
  rw [← ofBytes_bytes a, h, ofBytes_bytes]

end Address

/-- The fork schedule; a missing block or time never activates. -/
structure ChainConfig where
  chainID : Option Nat
  (homesteadBlock daoForkBlock : Option Nat := none)
  daoForkSupport : Bool := false
  (eip150Block eip155Block eip158Block byzantiumBlock constantinopleBlock : Option Nat := none)
  (petersburgBlock istanbulBlock berlinBlock londonBlock randomXTxBlock : Option Nat := none)
  (randomXMoneroBlock arrowGlacierBlock grayGlacierBlock shanghaiTime : Option Nat := none)
  (cancunTime pragueTime osakaTime bpo1Time bpo2Time bpo3Time bpo4Time : Option Nat := none)
  (bpo5Time amsterdamTime ubtTime edaTime kyotoTime phoneTime : Option Nat := none)
  (privacyCommitmentTime quantumResistantTime pqMigrationRecoveryTime : Option Nat := none)
  (antarticalTime usernameNetworkTime validatorTransactionTime : Option Nat := none)
  (shieldedOnlyTime confidentialLedgerTime shield5Time shield6Time : Option Nat := none)
  shield6RecipientTime : Option Nat := none
  shield6RecipientKey : Bytes := []
  shield6RecipientKeyHash : Hash := 0
  shield6RegistrationKey : Bytes := []
  (shield6RegistrationKeyHash shield6RecipientProvingKeyHash : Hash := 0)
  shield6RegistrationProvingKeyHash : Hash := 0
  (mainKingAddress postQuantumMainKingAddress : Address := 0)
  rotatingKingAddresses : List Address := []
  rotatingKingRotationInterval : Nat := 0
  randomX : Bool := true
  deriving DecidableEq

/-- `isBlockForked` and `isTimestampForked`. -/
def isForked (fork : Option Nat) (head : Nat) : Bool :=
  match fork with
  | none => false
  | some s => s ≤ head

theorem isForked_mono (h : a ≤ b) (ha : isForked fork a = true) : isForked fork b = true := by
  cases fork with
  | none => exact absurd ha (by simp [isForked])
  | some s => simp only [isForked, decide_eq_true_eq] at ha ⊢; omega

def mainnetChainID : Nat := 8979

def mainnetShieldedV2Time : Nat := 1787302800

def mainnetShieldedGasSponsorTime : Nat := 1787403600

namespace ChainConfig

variable (c : ChainConfig) (num time : Nat)

def isDAOFork : Bool := isForked c.daoForkBlock num

def isHomestead : Bool := isForked c.homesteadBlock num

def isIstanbul : Bool := isForked c.istanbulBlock num

def isLondon : Bool := isForked c.londonBlock num

def isRandomXTx : Bool := c.isLondon num && isForked c.randomXTxBlock num

def isRandomXMonero : Bool := c.isRandomXTx num && isForked c.randomXMoneroBlock num

def isLondonTimeFork (fork : Option Nat) : Bool := c.isLondon num && isForked fork time

def isShanghai : Bool := c.isLondonTimeFork num time c.shanghaiTime

def isCancun : Bool := c.isLondonTimeFork num time c.cancunTime

def isPrague : Bool := c.isLondonTimeFork num time c.pragueTime

def isOsaka : Bool := c.isLondonTimeFork num time c.osakaTime

def isAmsterdam : Bool := c.isLondonTimeFork num time c.amsterdamTime

def isEDA : Bool := c.isLondonTimeFork num time c.edaTime

def isKyoto : Bool := c.isLondonTimeFork num time c.kyotoTime

def isPhone : Bool := c.isLondonTimeFork num time c.phoneTime

def isPrivacyCommitments : Bool := c.isLondonTimeFork num time c.privacyCommitmentTime

def isQuantumResistant : Bool := c.isLondonTimeFork num time c.quantumResistantTime

def isAntartical : Bool := c.isLondonTimeFork num time c.antarticalTime

def isPrivateFork (fork : Option Nat) : Bool :=
  c.isAntartical num time && c.isPrivacyCommitments num time && isForked fork time

def isShieldedOnly : Bool := c.isPrivateFork num time c.shieldedOnlyTime

def isConfidentialLedger : Bool := c.isPrivateFork num time c.confidentialLedgerTime

def isShield5 : Bool := c.isPrivateFork num time c.shield5Time

def isShield6 : Bool := c.isPrivateFork num time c.shield6Time

def isShield6Recipients : Bool := c.isShield6 num time && isForked c.shield6RecipientTime time

def isValidatorTransactionsActive : Bool := c.isAntartical num time && isForked c.validatorTransactionTime time

def isPQMigrationAllowed : Bool :=
  if !c.isQuantumResistant num time then true
  else c.isLondon num && isForked c.pqMigrationRecoveryTime time

def mainKingAddressAt : Address :=
  if c.postQuantumMainKingAddress ≠ 0 ∧ c.isQuantumResistant num time then c.postQuantumMainKingAddress
  else c.mainKingAddress

def isMainnetShieldedV2 : Bool := c.chainID = some mainnetChainID && mainnetShieldedV2Time ≤ time

def isMainnetShieldedGasSponsor : Bool :=
  c.chainID = some mainnetChainID && mainnetShieldedGasSponsorTime ≤ time

variable {c num time}

theorem isLondonTimeFork_mono (hn : num ≤ num') (ht : time ≤ time')
    (h : c.isLondonTimeFork num time fork = true) : c.isLondonTimeFork num' time' fork = true := by
  simp only [isLondonTimeFork, isLondon, Bool.and_eq_true] at h ⊢
  exact ⟨isForked_mono hn h.1, isForked_mono ht h.2⟩

theorem isPrivateFork_mono (hn : num ≤ num') (ht : time ≤ time')
    (h : c.isPrivateFork num time fork = true) : c.isPrivateFork num' time' fork = true := by
  simp only [isPrivateFork, isAntartical, isPrivacyCommitments, Bool.and_eq_true] at h ⊢
  obtain ⟨⟨ha, hp⟩, hf⟩ := h
  exact ⟨⟨isLondonTimeFork_mono hn ht ha, isLondonTimeFork_mono hn ht hp⟩, isForked_mono ht hf⟩

theorem isPrivateFork_privacy (h : c.isPrivateFork num time fork = true) :
    c.isPrivacyCommitments num time = true := by
  simp only [isPrivateFork, Bool.and_eq_true] at h; exact h.1.2

end ChainConfig

/-! ## The order check -/

def before (fork base : Option Nat) : Bool :=
  match fork, base with
  | some f, some b => f < b
  | _, _ => false

def checkBlockForks : Option Nat → String → List (String × Option Nat × Bool) → Except String Unit
  | _, _, [] => .ok ()
  | last, lastName, (name, none, optional) :: rest =>
    -- a mandatory fork that is left out clears the fork to compare with
    if optional then checkBlockForks last lastName rest else checkBlockForks none name rest
  | last, lastName, (name, some b, _) :: rest =>
    if before (some b) last then
      .error ("unsupported fork ordering: " ++ lastName ++ " enabled at block " ++ toString (last.getD 0) ++
        ", but " ++ name ++ " enabled at block " ++ toString b)
    else checkBlockForks (some b) name rest

def checkTimeForks : Option Nat → String → List (String × Option Nat) → Except String Unit
  | _, _, [] => .ok ()
  | last, lastName, (_, none) :: rest => checkTimeForks last lastName rest
  | last, lastName, (name, some t) :: rest =>
    if before (some t) last then
      .error ("unsupported fork ordering: " ++ lastName ++ " enabled at timestamp " ++ toString (last.getD 0) ++
        ", but " ++ name ++ " enabled at timestamp " ++ toString t)
    else checkTimeForks (some t) name rest

namespace ChainConfig

variable (c : ChainConfig)

def blockForks : List (String × Option Nat × Bool) :=
  [("homesteadBlock", c.homesteadBlock, false), ("daoForkBlock", c.daoForkBlock, true),
   ("eip150Block", c.eip150Block, false), ("eip155Block", c.eip155Block, false),
   ("eip158Block", c.eip158Block, false), ("byzantiumBlock", c.byzantiumBlock, false),
   ("constantinopleBlock", c.constantinopleBlock, false), ("petersburgBlock", c.petersburgBlock, true),
   ("istanbulBlock", c.istanbulBlock, false), ("berlinBlock", c.berlinBlock, false),
   ("londonBlock", c.londonBlock, false), ("randomXTxBlock", c.randomXTxBlock, true),
   ("randomXMoneroBlock", c.randomXMoneroBlock, true), ("arrowGlacierBlock", c.arrowGlacierBlock, true),
   ("grayGlacierBlock", c.grayGlacierBlock, true)]

def timeForks : List (String × Option Nat) :=
  [("shanghaiTime", c.shanghaiTime), ("edaTime", c.edaTime), ("kyotoTime", c.kyotoTime),
   ("phoneTime", c.phoneTime), ("privacyCommitmentTime", c.privacyCommitmentTime),
   ("quantumResistantTime", c.quantumResistantTime), ("pqMigrationRecoveryTime", c.pqMigrationRecoveryTime),
   ("cancunTime", c.cancunTime), ("pragueTime", c.pragueTime), ("osakaTime", c.osakaTime),
   ("bpo1Time", c.bpo1Time), ("bpo2Time", c.bpo2Time), ("bpo3Time", c.bpo3Time), ("bpo4Time", c.bpo4Time),
   ("bpo5Time", c.bpo5Time), ("amsterdamTime", c.amsterdamTime), ("ubtTime", c.ubtTime),
   ("antarticalTime", c.antarticalTime), ("shield5Time", c.shield5Time),
   ("shieldedOnlyTime", c.shieldedOnlyTime), ("usernameNetworkTime", c.usernameNetworkTime)]

def hasPrivateBase : Bool :=
  c.antarticalTime.isSome && c.privacyCommitmentTime.isSome && c.quantumResistantTime.isSome &&
    c.londonBlock.isSome

def pinnedKey (sha256 : Bytes → Hash) (key : Bytes) (pin : Hash) : Bool :=
  key.length ≠ 0 && key.length ≤ 64 * 1024 && pin ≠ 0 && sha256 key = pin

def beforeAntarticalText (name : String) (fork : Option Nat) : String :=
  "unsupported fork ordering: " ++ name ++ " enabled at timestamp " ++ toString (fork.getD 0) ++
    ", before antarticalTime at timestamp " ++ toString (c.antarticalTime.getD 0)

def checkConfigForkOrder (sha256 : Bytes → Hash) : Except String Unit := do
  failIf (c.shield6RecipientTime.isSome ∧ (c.shield6Time = none ∨ before c.shield6RecipientTime c.shield6Time))
    "shield6RecipientTime requires Shield6 at or before recipient-proof activation"
  failIf (c.shield6RecipientTime.isSome ∧ ¬ pinnedKey sha256 c.shield6RecipientKey c.shield6RecipientKeyHash)
    "shield6RecipientTime requires an authenticated bounded verification key and SHA-256 pin"
  failIf (c.shield6RecipientTime.isSome ∧
      (c.shield6RecipientProvingKeyHash = 0 ∨ c.shield6RegistrationProvingKeyHash = 0))
    "recipient proof activation requires authenticated proving-key hashes"
  failIf (c.shield6RecipientTime.isSome ∧
      ¬ pinnedKey sha256 c.shield6RegistrationKey c.shield6RegistrationKeyHash)
    "shield6RecipientTime requires a pinned recipient key-control verification key"
  failIf (c.confidentialLedgerTime.isSome ∧ ¬ c.hasPrivateBase)
    "confidentialLedgerTime requires London, privacy, quantum and Antartical forks"
  failIf (c.confidentialLedgerTime.isSome ∧ c.shieldedOnlyTime.isSome)
    "confidential ledger permits explicit public boundaries and cannot use the shielded-only cutoff"
  failIf (before c.confidentialLedgerTime c.antarticalTime)
    "confidentialLedgerTime cannot precede antarticalTime"
  failIf (c.shield5Time.isSome ∧ ¬ c.hasPrivateBase)
    "shield5Time requires London, privacy, quantum and Antartical forks"
  failIf (before c.shield5Time c.antarticalTime)
    (c.beforeAntarticalText "shield5Time" c.shield5Time)
  failIf (c.shield6Time.isSome ∧ ¬ c.hasPrivateBase)
    "shield6Time requires London, privacy, quantum and Antartical forks"
  failIf (before c.shield6Time c.antarticalTime)
    (c.beforeAntarticalText "shield6Time" c.shield6Time)
  failIf (c.shieldedOnlyTime.isSome ∧ ¬ c.hasPrivateBase)
    "shieldedOnlyTime requires London, privacyCommitmentTime, quantumResistantTime and antarticalTime"
  failIf (c.validatorTransactionTime.isSome ∧
      ¬ (c.antarticalTime.isSome && c.privacyCommitmentTime.isSome && c.quantumResistantTime.isSome))
    "validatorTransactionTime requires privacyCommitmentTime, quantumResistantTime and antarticalTime"
  failIf (before c.validatorTransactionTime c.antarticalTime)
    (c.beforeAntarticalText "validatorTransactionTime" c.validatorTransactionTime)
  checkBlockForks none "" c.blockForks
  checkTimeForks none "" c.timeForks

end ChainConfig

end TkmChain
