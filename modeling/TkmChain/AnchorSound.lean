import TkmChain.HeaderSound

/-!
# The rolling anchor

Every Antartical header behind the genesis names its parent and continues the
commitment of its parent's anchor. The anchors of an accepted chain are therefore a
fold over its links, and one commitment at the end determines the whole fold.
-/

/-! ## Folds that can be read back -/

namespace List

variable {α β : Type*}

def foldrSteps (f : α → β → β) (z : β) : List α → List (α × β)
  | [] => []
  | a :: l => (a, l.foldr f z) :: foldrSteps f z l

theorem foldr_injOn : ∀ {l₁ l₂ : List α},
    Set.InjOn (Function.uncurry f) {x | x ∈ foldrSteps f z l₁ ++ foldrSteps f z l₂} →
    (∀ x ∈ foldrSteps f z l₁ ++ foldrSteps f z l₂, f x.1 x.2 ≠ z) →
    l₁.foldr f z = l₂.foldr f z → l₁ = l₂
  | [], [], _, _, _ => rfl
  | [], b :: l₂, _, hz, h => absurd h.symm (hz (b, l₂.foldr f z) (by simp [foldrSteps]))
  | a :: l₁, [], _, hz, h => absurd h (hz (a, l₁.foldr f z) (by simp [foldrSteps]))
  | a :: l₁, b :: l₂, hinj, hz, h => by
    have hstep : (a, l₁.foldr f z) = (b, l₂.foldr f z) :=
      hinj (by simp [foldrSteps]) (by simp [foldrSteps]) h
    have hsub : ∀ x ∈ foldrSteps f z l₁ ++ foldrSteps f z l₂,
        x ∈ foldrSteps f z (a :: l₁) ++ foldrSteps f z (b :: l₂) := by
      intro x hx
      rcases mem_append.mp hx with hx | hx <;> simp [foldrSteps, hx]
    obtain ⟨rfl, htail⟩ := Prod.mk.inj hstep
    rw [foldr_injOn (hinj.mono hsub) (fun x hx => hz x (hsub x hx)) htail]

end List

namespace TkmChain

/-! ## Accepted chains -/

def anchorOf (h : Header) : Option BlockHashAnchor := (blockHashAnchorFromHeaderExtra h.extra).toOption.join

def parentFound (keccak256 : Bytes → Hash) (reader : ChainReader) (h : Header) (candidates : List Header) :
    Option Header :=
  (candidateParent keccak256 h candidates).or (reader.getHeader h.parentHash (h.number64 - 1))

/-- A chain of headers, the latest first, down to a genesis without an anchor. Each header was accepted with its parent
read from the headers before it, out of the database or out of the same batch. -/
inductive AcceptedChain (keccak256 : Bytes → Hash) (c : ChainConfig) : List Header → Prop
  | genesis {g : Header} : g.number = 0 → anchorOf g = none → AcceptedChain keccak256 c [g]
  | next {h p : Header} {rest : List Header} {reader : ChainReader} {candidates : List Header} :
    AcceptedChain keccak256 c (p :: rest) →
    h.number = p.number + 1 → h.parentHash = p.hash keccak256 → p.time ≤ h.time →
    reader.config = some c →
    (∀ q, parentFound keccak256 reader h candidates = some q →
      q ∈ p :: rest ∧ q.hash keccak256 = h.parentHash) →
    verifyBlockHashAnchor keccak256 reader h candidates = .ok () →
    AcceptedChain keccak256 c (h :: p :: rest)

def anchors (chain : List Header) : List BlockHashAnchor := chain.filterMap anchorOf

def links (c : ChainConfig) : List Header → List (UInt64 × Hash)
  | h :: p :: rest =>
    if c.isAntartical h.number h.time.toNat then (h.number64 - 1, h.parentHash) :: links c (p :: rest)
    else links c (p :: rest)
  | _ => []

section
variable (keccak256 : Bytes → Hash)

def extendRolling (link : UInt64 × Hash) (previous : Hash) : Hash :=
  blockHashAnchorCommitment keccak256 previous link.1 link.2

def anchorsOfLinks : List (UInt64 × Hash) → List BlockHashAnchor
  | [] => []
  | link :: ls => ⟨link.1, link.2, (link :: ls).foldr (extendRolling keccak256) 0⟩ :: anchorsOfLinks ls

def rollingPreimage (link : UInt64 × Hash) (previous : Hash) : Bytes :=
  blockHashAnchorMagic ++ previous.bytes ++ Bytes.be 8 link.1.toNat ++ link.2.bytes

theorem rollingPreimage_inj (h : rollingPreimage l₁ r₁ = rollingPreimage l₂ r₂) : (l₁, r₁) = (l₂, r₂) := by
  obtain ⟨hpre, hhash⟩ := List.append_inj' h (by simp [Hash.bytes])
  obtain ⟨hpre, hheight⟩ := List.append_inj' hpre (by simp)
  have hroll := List.append_cancel_left hpre
  have hn : l₁.1 = l₂.1 := by
    rw [← ofNat_be8 l₁.1, hheight, ofNat_be8]
  rw [Hash.bytes_inj hroll, Prod.ext hn (Hash.bytes_inj hhash)]

def hashedBytes (c : ChainConfig) (chain : List Header) : List Bytes :=
  chain.map Header.encodeRLP ++
    (List.foldrSteps (extendRolling keccak256) 0 (links c chain)).map fun x => rollingPreimage x.1 x.2

end

/-! ## What acceptance says -/

section
variable
  {rest candidates : List Header} {rolling : Hash} {a : BlockHashAnchor}

theorem verifyBlockHashAnchor_inactive (hc : reader.config = some c) (hr : c.randomX = true)
    (hact : c.isAntartical h.number h.time.toNat = false)
    (hok : verifyBlockHashAnchor keccak256 reader h candidates = .ok ()) :
    blockHashAnchorFromHeaderExtra h.extra = .ok none := by
  simp only [verifyBlockHashAnchor, hc, checkWhen_ok, hr, hact, ok_rules, forall_const, Bool.false_eq_true,
    if_false] at hok
  obtain ⟨o, ho, hbad⟩ := hok
  rw [not_or, not_not] at hbad
  rw [ho, hbad.1]

theorem verifyBlockHashAnchor_active (hc : reader.config = some c) (hr : c.randomX = true)
    (hact : c.isAntartical h.number h.time.toNat = true)
    (hok : verifyBlockHashAnchor keccak256 reader h candidates = .ok ()) :
    ∃ q rolling, parentFound keccak256 reader h candidates = some q ∧ previousRolling c q = .ok rolling ∧
      blockHashAnchorFromHeaderExtra h.extra = .ok (some ⟨h.number64 - 1, h.parentHash,
        extendRolling keccak256 (h.number64 - 1, h.parentHash) rolling⟩) := by
  simp only [verifyBlockHashAnchor, hc, checkWhen_ok, hr, hact, if_true, ok_rules, validateBlockHashAnchor,
    forall_const] at hok
  obtain ⟨o, ho, anchor, rfl, _, _, _, _, q, hq, rolling, hroll, _, hval, hcom⟩ := hok
  rw [not_or, not_or, not_not, not_not] at hval
  rw [not_not] at hcom
  obtain ⟨_, hheight, hhash⟩ := hval
  refine ⟨q, rolling, hq, hroll, ?_⟩
  rw [ho, extendRolling, ← hheight, ← hcom, ← hhash]

theorem previousRolling_congr (heq : q.encodeRLP = p.encodeRLP) : previousRolling c q = previousRolling c p := by
  obtain ⟨hs, _⟩ := List.append_inj (Header.encodeRLP_fields heq).1 rfl
  simp only [Header.sealFields, List.cons.injEq, and_true] at hs
  obtain ⟨_, _, _, _, _, _, _, _, hnum, _, _, htime, hextra⟩ := hs
  rw [previousRolling, previousRolling, hextra, Bytes.minimal_inj hnum,
    UInt64.toNat_inj.mp (Bytes.minimal_inj htime)]

theorem previousRolling_inactive (hact : c.isAntartical p.number p.time.toNat = false)
    (hroll : previousRolling c p = .ok rolling) : rolling = 0 := by
  simp only [previousRolling, hact, ok_rules, Bool.false_eq_true, if_false] at hroll
  obtain ⟨_, _, _, _, hroll⟩ := hroll
  exact hroll.symm

theorem previousRolling_genesis (hg : anchorOf p = none) (hnum : p.number = 0)
    (hroll : previousRolling c p = .ok rolling) : rolling = 0 := by
  simp only [previousRolling, ok_rules] at hroll
  obtain ⟨o, ho, hroll⟩ := hroll
  have hnone : o = none := by
    rw [anchorOf, ho] at hg
    exact hg
  subst hnone
  split at hroll
  · simp only [hnum, ok_rules, Option.elim] at hroll
    obtain ⟨_, _, hroll⟩ := hroll
    exact hroll.symm
  · simp only [ok_rules] at hroll
    obtain ⟨_, _, hroll⟩ := hroll
    exact hroll.symm

theorem previousRolling_anchored (hact : c.isAntartical p.number p.time.toNat = true)
    (ha : blockHashAnchorFromHeaderExtra p.extra = .ok (some a)) (hroll : previousRolling c p = .ok rolling) :
    rolling = a.rolling := by
  simp only [previousRolling, ha, hact, ok_rules, if_true, Except.ok.injEq] at hroll
  obtain ⟨_, rfl, _, _, hroll⟩ := hroll
  exact hroll.symm

namespace AcceptedChain

theorem unanchored (hr : c.randomX = true) (hch : AcceptedChain keccak256 c (h :: rest))
    (hact : c.isAntartical h.number h.time.toNat = false) : links c (h :: rest) = [] ∧ anchors (h :: rest) = [] := by
  generalize hl : h :: rest = chain at hch ⊢
  induction hch generalizing h rest with
  | genesis hnum hg => exact ⟨rfl, by simp [anchors, hg]⟩
  | @next h' p rest' reader candidates hch hnum hpar htime hc hfound hok ih =>
    obtain ⟨rfl, rfl⟩ := List.cons.inj hl
    have hp : c.isAntartical p.number p.time.toNat = false := by
      by_contra hp
      have hmono : c.isAntartical h.number h.time.toNat = true :=
        ChainConfig.isLondonTimeFork_mono (by omega) (UInt64.le_iff_toNat_le.mp htime) (Bool.of_not_eq_false hp)
      exact absurd (hmono.symm.trans hact) (by decide)
    obtain ⟨hlinks, hanchors⟩ := ih hp rfl
    have hnone : anchorOf h = none := by
      rw [anchorOf, verifyBlockHashAnchor_inactive hc hr hact hok]
      rfl
    refine ⟨by rw [links, hact, hlinks]; rfl, ?_⟩
    rw [anchors, List.filterMap_cons_none hnone]
    exact hanchors

theorem anchors_eq (hr : c.randomX = true) (hch : AcceptedChain keccak256 c chain)
    (hk : Set.InjOn keccak256 {b | b ∈ chain.map Header.encodeRLP}) :
    anchors chain = anchorsOfLinks keccak256 (links c chain) ∧
      ∀ h ∈ chain.head?, ∀ rolling, previousRolling c h = .ok rolling →
        rolling = (links c chain).foldr (extendRolling keccak256) 0 := by
  induction hch with
  | @genesis g hnum hg =>
    refine ⟨by simp [anchors, hg, links, anchorsOfLinks], ?_⟩
    rintro h ⟨⟩ rolling hroll
    exact previousRolling_genesis hg hnum hroll
  | @next h p rest reader candidates hch hnum hpar htime hc hfound hok ih =>
    have hnext : AcceptedChain keccak256 c (h :: p :: rest) := .next hch hnum hpar htime hc hfound hok
    obtain ⟨hanchors, hprev⟩ := ih (hk.mono fun b hb => List.mem_cons_of_mem _ hb)
    cases hact : c.isAntartical h.number h.time.toNat with
    | false =>
      obtain ⟨hl, ha⟩ := unanchored hr hnext hact
      refine ⟨by rw [hl, ha, anchorsOfLinks], ?_⟩
      rintro h ⟨⟩ rolling hroll
      rw [hl, previousRolling_inactive hact hroll]
      rfl
    | true =>
      obtain ⟨q, rolling, hq, hroll, hanchor⟩ := verifyBlockHashAnchor_active hc hr hact hok
      -- the header found is the one below: it is in the chain and has the same hash
      obtain ⟨hmem, hhash⟩ := hfound q hq
      have henc : q.encodeRLP = p.encodeRLP :=
        hk (List.mem_map_of_mem (List.mem_cons_of_mem _ hmem)) (List.mem_map_of_mem (by simp)) (hhash.trans hpar)
      rw [previousRolling_congr henc] at hroll
      have hfold := hprev p rfl rolling hroll
      have hlinks : links c (h :: p :: rest) = (h.number64 - 1, h.parentHash) :: links c (p :: rest) := by
        rw [links, hact]
        rfl
      have hof : anchorOf h = some ⟨h.number64 - 1, h.parentHash,
          extendRolling keccak256 (h.number64 - 1, h.parentHash) rolling⟩ := by
        rw [anchorOf, hanchor]
        rfl
      refine ⟨?_, ?_⟩
      · rw [anchors, List.filterMap_cons_some hof, hlinks, anchorsOfLinks, List.foldr_cons, ← hfold, ← hanchors]
        rfl
      · rintro h ⟨⟩ r hr'
        rw [previousRolling_anchored hact hanchor hr', hlinks, List.foldr_cons, ← hfold]

theorem rolling_eq (hr : c.randomX = true) (hch : AcceptedChain keccak256 c (h :: rest))
    (hk : Set.InjOn keccak256 {b | b ∈ (h :: rest).map Header.encodeRLP}) (ha : anchorOf h = some a) :
    a.rolling = (links c (h :: rest)).foldr (extendRolling keccak256) 0 := by
  have hanchors := (anchors_eq hr hch hk).1
  rw [anchors, List.filterMap_cons_some ha] at hanchors
  cases hl : links c (h :: rest) with
  | nil =>
    rw [hl] at hanchors
    cases hanchors
  | cons link ls =>
    rw [hl, anchorsOfLinks] at hanchors
    rw [(List.cons.inj hanchors).1]

end AcceptedChain

end

/-- Two accepted chains whose last headers carry one rolling value have the same anchors at every height, the same links
from the first Antartical block on and equally many anchored headers. -/
theorem rolling_commits_to_history (keccak256 : Bytes → Hash) (c : ChainConfig) (hr : c.randomX = true)
    (h₁ h₂ : Header) (rest₁ rest₂ : List Header) (a₁ a₂ : BlockHashAnchor)
    (hc₁ : AcceptedChain keccak256 c (h₁ :: rest₁)) (hc₂ : AcceptedChain keccak256 c (h₂ :: rest₂))
    (ha₁ : anchorOf h₁ = some a₁) (ha₂ : anchorOf h₂ = some a₂) (hroll : a₁.rolling = a₂.rolling)
    (hinj : Set.InjOn keccak256
      {b | b ∈ hashedBytes keccak256 c (h₁ :: rest₁) ++ hashedBytes keccak256 c (h₂ :: rest₂)})
    (hzero : ∀ b ∈ hashedBytes keccak256 c (h₁ :: rest₁) ++ hashedBytes keccak256 c (h₂ :: rest₂),
      keccak256 b ≠ 0) :
    anchors (h₁ :: rest₁) = anchors (h₂ :: rest₂) ∧ links c (h₁ :: rest₁) = links c (h₂ :: rest₂) ∧
      (h₁ :: rest₁).countP (fun h => (anchorOf h).isSome) = (h₂ :: rest₂).countP fun h => (anchorOf h).isSome := by
  have henc : ∀ {chain}, (∀ b ∈ hashedBytes keccak256 c chain,
      b ∈ hashedBytes keccak256 c (h₁ :: rest₁) ++ hashedBytes keccak256 c (h₂ :: rest₂)) →
      Set.InjOn keccak256 {b | b ∈ chain.map Header.encodeRLP} := fun hsub =>
    hinj.mono fun b hb => hsub b (List.mem_append_left _ hb)
  have henc₁ := henc fun b hb => List.mem_append_left (hashedBytes keccak256 c (h₂ :: rest₂)) hb
  have henc₂ := henc fun b hb => List.mem_append_right (hashedBytes keccak256 c (h₁ :: rest₁)) hb
  have hstep : ∀ x ∈ (links c (h₁ :: rest₁)).foldrSteps (extendRolling keccak256) 0 ++
      (links c (h₂ :: rest₂)).foldrSteps (extendRolling keccak256) 0, rollingPreimage x.1 x.2 ∈
        hashedBytes keccak256 c (h₁ :: rest₁) ++ hashedBytes keccak256 c (h₂ :: rest₂) := by
    intro x hx
    rcases List.mem_append.mp hx with hx | hx
    · exact List.mem_append_left _ (List.mem_append_right _ (List.mem_map_of_mem hx))
    · exact List.mem_append_right _ (List.mem_append_right _ (List.mem_map_of_mem hx))
  have hlinks : links c (h₁ :: rest₁) = links c (h₂ :: rest₂) := by
    apply List.foldr_injOn (f := extendRolling keccak256) (z := 0)
    · intro x hx y hy hxy
      exact rollingPreimage_inj (hinj (hstep x hx) (hstep y hy) hxy)
    · intro x hx
      exact hzero _ (hstep x hx)
    · rw [← hc₁.rolling_eq hr henc₁ ha₁, ← hc₂.rolling_eq hr henc₂ ha₂, hroll]
  have hanchors : anchors (h₁ :: rest₁) = anchors (h₂ :: rest₂) := by
    rw [(hc₁.anchors_eq hr henc₁).1, (hc₂.anchors_eq hr henc₂).1, hlinks]
  refine ⟨hanchors, hlinks, ?_⟩
  have hcount := congrArg List.length hanchors
  rwa [anchors, anchors, List.length_filterMap_eq_countP, List.length_filterMap_eq_countP] at hcount

/-! ## Two heads on one parent -/

section Example

def anchoredConfig : ChainConfig :=
  { chainID := some 1, londonBlock := some 0, randomX := true, antarticalTime := some 5 }

def noDatabase : ChainReader where
  config := some anchoredConfig
  getHeader := fun _ _ => none
  getHeader_number := fun _ _ _ h => by simp at h

theorem parentFound_noDatabase (hq : parentFound keccak256 noDatabase h candidates = some q) :
    q ∈ candidates ∧ q.hash keccak256 = h.parentHash := by
  have hnone : noDatabase.getHeader h.parentHash (h.number64 - 1) = none := rfl
  rw [parentFound, hnone, Option.or_none, candidateParent] at hq
  have hmem := List.mem_of_find?_eq_some hq
  have hfound := List.find?_some hq
  rw [decide_eq_true_eq] at hfound
  exact ⟨List.mem_reverse.mp hmem, hfound.1⟩

def anchoredGenesis : Header where
  parentHash := 0
  difficulty := 3
  number := 0
  time := 4
  fits := by decide

def anchoredChild (p : Header) (previous : Hash) (nonce : BitVec 64) (hn : Bytes.width (p.number + 1) ≤ 9) :
    Header where
  parentHash := p.hash lengthHash
  nonce := nonce
  difficulty := 3
  number := p.number + 1
  time := p.time + 1
  extra := BlockHashAnchor.encode
    ⟨p.number64, p.hash lengthHash, extendRolling lengthHash (p.number64, p.hash lengthHash) previous⟩
  fits := by
    have h3 : Bytes.width 3 = 1 := rfl
    rw [BlockHashAnchor.encode_length, h3]
    omega

def firstAnchored : Header := anchoredChild anchoredGenesis 0 1 (by decide)

def anchoredHead (nonce : BitVec 64) : Header :=
  anchoredChild firstAnchored ((anchorOf firstAnchored).elim 0 BlockHashAnchor.rolling) nonce (by decide)

theorem anchoredHead_accepted (nonce : BitVec 64)
    (hok : verifyBlockHashAnchor lengthHash noDatabase (anchoredHead nonce) [firstAnchored] = .ok ()) :
    AcceptedChain lengthHash anchoredConfig [anchoredHead nonce, firstAnchored, anchoredGenesis] := by
  have hconfig : noDatabase.config = some anchoredConfig := rfl
  have hgenesis : AcceptedChain lengthHash anchoredConfig [anchoredGenesis] := .genesis rfl rfl
  have hok₁ : verifyBlockHashAnchor lengthHash noDatabase firstAnchored [anchoredGenesis] = .ok () := by
    decide +kernel
  have hfirst : AcceptedChain lengthHash anchoredConfig [firstAnchored, anchoredGenesis] :=
    .next hgenesis rfl rfl (by decide) hconfig (fun q hq => parentFound_noDatabase hq) hok₁
  have htime : firstAnchored.time ≤ firstAnchored.time + 1 := by decide
  refine .next hfirst rfl rfl htime hconfig (fun q hq => ?_) hok
  obtain ⟨hmem, hhash⟩ := parentFound_noDatabase hq
  refine ⟨?_, hhash⟩
  rw [List.mem_singleton] at hmem
  rw [hmem]
  exact List.mem_cons_self

theorem rolling_commits_two_heads :
    anchors [anchoredHead 2, firstAnchored, anchoredGenesis] =
      anchors [anchoredHead 3, firstAnchored, anchoredGenesis] := by
  have h₁ := anchoredHead_accepted 2 (by decide +kernel)
  have h₂ := anchoredHead_accepted 3 (by decide +kernel)
  have hinj : ∀ x ∈ hashedBytes lengthHash anchoredConfig [anchoredHead 2, firstAnchored, anchoredGenesis] ++
      hashedBytes lengthHash anchoredConfig [anchoredHead 3, firstAnchored, anchoredGenesis],
      ∀ y ∈ hashedBytes lengthHash anchoredConfig [anchoredHead 2, firstAnchored, anchoredGenesis] ++
        hashedBytes lengthHash anchoredConfig [anchoredHead 3, firstAnchored, anchoredGenesis],
      lengthHash x = lengthHash y → x = y := by decide +kernel
  have hone : ((anchorOf (anchoredHead 2)).isSome ∧
      anchorOf (anchoredHead 2) = anchorOf (anchoredHead 3)) := by decide +kernel
  obtain ⟨a, ha⟩ := Option.isSome_iff_exists.mp hone.1
  exact (rolling_commits_to_history lengthHash anchoredConfig rfl (anchoredHead 2) (anchoredHead 3) _ _ a a h₁ h₂ ha
    (hone.2 ▸ ha) rfl (fun x hx y hy => hinj x hx y hy) (by decide +kernel)).1

end Example

end TkmChain
