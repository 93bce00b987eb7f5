import TkmChain.KingRunsSound

/-!
# Agreement on the king

The schedule of an engine depends on what its node has seen. It is a function of
the canonical chain as long as every block is announced as the next head, no
registration is recorded outside a header, and the node restarts only while no
header carries a lock.
-/

namespace TkmChain

open List

/-! ## The schedule of a chain -/

def RewardEngine.mark (rx : RewardEngine) (extra : Bytes) (height : Nat) : RewardEngine :=
  match decodeRotatingKingHeaderExtra extra with
  | none => rx
  | some m => if m.liveAt height then rx.addRotatingKingAt m.address m.activationHeight else rx

def KingEnv.kingless (env : KingEnv) : RewardEngine :=
  { env.engine with rotatingKings := [], activation := fun _ => 0, rotationInterval := env.interval }

def KingEnv.scheduleOf (env : KingEnv) (chain : List KingBlock) : RewardEngine :=
  chain.zipIdx.foldl (fun rx (b, height) => rx.mark b.extra height) env.kingless

def KingBlock.Plain (b : KingBlock) : Prop := ∀ m, decodeRotatingKingHeaderExtra b.extra = some m → m.full = false

theorem mark_plain {b : KingBlock} (hb : b.Plain) (rx : RewardEngine) (h h' : Nat) :
    rx.mark b.extra h = rx.mark b.extra h' := by
  unfold RewardEngine.mark
  cases hdec : decodeRotatingKingHeaderExtra b.extra with
  | none => rfl
  | some m =>
    have hfull := hb m hdec
    simp [KingMarker.liveAt, hfull]

section
variable {env : KingEnv} {chain : List KingBlock}

theorem scheduleOf_concat (b : KingBlock) :
    env.scheduleOf (chain ++ [b]) = (env.scheduleOf chain).mark b.extra chain.length := by
  simp [KingEnv.scheduleOf, zipIdx_append]

theorem scheduleOf_plain (hplain : ∀ b ∈ chain, b.Plain) (height : Nat) :
    chain.foldl (fun rx b => rx.mark b.extra height) env.kingless = env.scheduleOf chain := by
  induction chain using List.reverseRecOn with
  | nil => rfl
  | append_singleton chain b ih =>
    rw [foldl_concat, ih fun b' hb' => hplain b' (mem_append_left _ hb'), scheduleOf_concat]
    exact mark_plain (hplain b (by simp)) _ _ _

end

namespace KingNode

variable {env : KingEnv} {n : KingNode}

theorem recover_engine (extra : Bytes) (height : Nat) :
    (n.recoverRotatingKingFromHeader env extra height).1.engine = n.engine.mark extra height := by
  unfold recoverRotatingKingFromHeader RewardEngine.mark
  cases decodeRotatingKingHeaderExtra extra with
  | none => rfl
  | some m =>
    by_cases hlive : m.liveAt height
    · simp [hlive]
    · simp [hlive]

theorem recoverHeaders_engine (height : Nat) (chain : List KingBlock) (r : KingNode × Bool) :
    (recoverHeaders env height chain r).1.engine =
      chain.foldl (fun rx b => rx.mark b.extra height) r.1.engine := by
  induction chain generalizing r with
  | nil => rfl
  | cons b chain ih => rw [recoverHeaders_cons, ih, recover_engine, foldl_cons]

/-! ## Nodes without locks -/

theorem Unlocked.recover (h : n.Unlocked) {b : KingBlock} (hb : b.Plain) (height : Nat) :
    (n.recoverRotatingKingFromHeader env b.extra height).1.Unlocked := by
  unfold recoverRotatingKingFromHeader
  cases hdec : decodeRotatingKingHeaderExtra b.extra with
  | none => exact h
  | some m =>
    by_cases hlive : m.liveAt height
    · simp only [if_pos hlive, hb m hdec, Bool.false_and, Bool.false_eq_true, if_false]
      exact ⟨h.table, h.stored⟩
    · simpa only [if_neg hlive] using h

theorem Unlocked.recoverHeaders {r : KingNode × Bool} (h : r.1.Unlocked) {chain : List KingBlock}
    (hplain : ∀ b ∈ chain, b.Plain) (height : Nat) : (KingNode.recoverHeaders env height chain r).1.Unlocked := by
  induction chain generalizing r with
  | nil => exact h
  | cons b chain ih =>
    rw [recoverHeaders_cons]
    exact ih (h.recover (hplain b (by simp)) height) fun b' hb' => hplain b' (mem_cons_of_mem _ hb')

/-! ## Starts without stored locks -/

section
variable (addresses : List Address) (chain : List KingBlock)

theorem fresh_engine :
    (freshNode env addresses [] chain).engine = env.kingless := by
  simp [freshNode, KingEnv.kingless, registeredRotatingKings, KingTable.empty]

theorem fresh_load :
    (freshNode env addresses [] chain).loadRotatingKingLocks env = freshNode env addresses [] chain := rfl

theorem start_engine :
    (startKingNode env addresses [] chain).engine =
      chain.foldl (fun rx b => rx.mark b.extra (chain.length - 1)) env.kingless := by
  rw [startKingNode_eq, fresh_load, recoverRotatingKingStateFromHeaders]
  split
  · rename_i hnil
    have hchain : chain = [] := hnil
    rw [fresh_engine, hchain, foldl_nil]
  · rw [(shrinks_pruneAndStore _ _).engine, ← fresh_engine addresses chain]
    exact recoverHeaders_engine _ _ _

end

theorem start_unlocked (addresses : List Address) {chain : List KingBlock} (hplain : ∀ b ∈ chain, b.Plain) :
    (startKingNode env addresses [] chain).Unlocked := by
  have hfresh : (freshNode env addresses [] chain).Unlocked := ⟨registered_locks _ _, rfl⟩
  rw [startKingNode_eq, fresh_load, recoverRotatingKingStateFromHeaders]
  split
  · exact hfresh
  · exact (shrinks_pruneAndStore _ _).unlocked (hfresh.recoverHeaders (r := (_, false)) hplain _)

/-! ## Runs that follow the chain -/

structure Canonical (env : KingEnv) (n : KingNode) : Prop where
  engine : n.engine = env.scheduleOf n.chain
  unlocked : (∀ b ∈ n.chain, b.Plain) → n.Unlocked

/-- The next block is announced, a recorded address is a king already, and no header carries a lock when
the node restarts. -/
def Follows (env : KingEnv) (n : KingNode) : KingEvent → Prop
  | .head chain => ∃ b, chain = n.chain ++ [b]
  | .rpcRecord a _ _ => a ∈ n.checked → a ∈ (n.loadRotatingKingState env).table.kings
  | .peerRecord a _ _ _ => a ∈ n.checked → a ∈ n.table.kings
  | .restart => ∀ b ∈ n.chain, b.Plain
  | _ => True

section
variable (hc : Canonical env n)
include hc

theorem Canonical.shrinks (h : Shrinks n n') : Canonical env n' where
  engine := by rw [h.engine, h.chain, hc.engine]
  unlocked hplain := h.unlocked (hc.unlocked (h.chain ▸ hplain))

theorem Canonical.head (b : KingBlock) :
    Canonical env (n.step env (.head (n.chain ++ [b]))) := by
  simp only [KingNode.step, getLast?_concat]
  have hnum : headNumber { n with chain := n.chain ++ [b] } = n.chain.length := by simp [headNumber]
  rw [hnum]
  have hshrinks := shrinks_pruneAndStore n.chain.length
    (recoverRotatingKingFromHeader env { n with chain := n.chain ++ [b] } b.extra n.chain.length)
  have hchain := hshrinks.chain.trans (extends_recover env b.extra n.chain.length).chain
  refine ⟨?_, fun hplain => ?_⟩
  · rw [recoverRotatingKingFromCanonicalHeader, hchain, hshrinks.engine, recover_engine, scheduleOf_concat, hc.engine]
  · rw [recoverRotatingKingFromCanonicalHeader, hchain] at hplain
    have hold := hc.unlocked fun b' hb' => hplain b' (mem_append_left _ hb')
    have hn : Unlocked { n with chain := n.chain ++ [b] } := ⟨hold.table, hold.stored⟩
    exact hshrinks.unlocked (hn.recover (hplain b (by simp)) n.chain.length)

theorem Canonical.restart (hn : n.Sound) (hplain : ∀ b ∈ n.chain, b.Plain) :
    Canonical env (n.step env .restart) := by
  have hchain := step_chain env hn .restart
  have hstored := (hc.unlocked hplain).stored
  refine ⟨?_, fun _ => ?_⟩
  · rw [hchain]
    simp only [KingNode.step]
    rw [hstored, start_engine, scheduleOf_plain hplain]
    rfl
  · simp only [KingNode.step]
    rw [hstored]
    exact start_unlocked _ hplain

theorem Canonical.finish (ha : a ∈ n.table.kings) (unlock now : Nat) :
    Canonical env (n.finishRegistration env a unlock now) := by
  simp only [finishRegistration]
  rw [if_pos ha]
  exact ⟨hc.engine, fun hplain => ⟨(hc.unlocked hplain).table, (hc.unlocked hplain).stored⟩⟩

end

theorem Canonical.step (hc : Canonical env n) (hn : n.Sound) {e : KingEvent} (he : n.Follows env e) :
    Canonical env (n.step env e) := by
  have hload : Canonical env (n.loadRotatingKingState env) := hc.shrinks (shrinks_load hn)
  cases e with
  | head chain =>
    obtain ⟨b, rfl⟩ := he
    exact hc.head b
  | rpcCheck a =>
    exact hload.shrinks (shrinks_removeUnderfunded.trans (shrinks_check a))
  | rpcRecord a start now =>
    simp only [KingNode.step]
    split
    · rename_i hchecked
      exact hload.finish (he hchecked) _ _
    · exact hc
  | peerCheck a =>
    exact hc.shrinks (shrinks_removeUnderfunded.trans (shrinks_check a))
  | peerRecord a announced start now =>
    simp only [KingNode.step]
    split
    · rename_i hchecked
      exact hc.finish (he hchecked) _ _
    · exact hc
  | query => exact hload.shrinks shrinks_release
  | restart => exact hc.restart hn he

def FollowsAll (env : KingEnv) : KingNode → List KingEvent → Prop
  | _, [] => True
  | n, e :: events => n.Follows env e ∧ FollowsAll env (n.step env e) events

theorem canonical_run (hc : Canonical env n) (hn : n.Sound) (h : FollowsAll env n events) :
    Canonical env (events.foldl (KingNode.step env) n) := by
  induction events generalizing n with
  | nil => exact hc
  | cons e events ih => exact ih (hc.step hn h.1) (hn.step e) h.2

theorem canonical_start (genesis : KingBlock) : Canonical env (run env genesis []) := by
  have hchain : (run env genesis []).chain = [genesis] := step_chain env (n := blank env genesis) (sound_blank genesis) .restart
  refine ⟨?_, fun hplain => ?_⟩
  · rw [hchain]
    exact start_engine [] [genesis]
  · rw [hchain] at hplain
    exact start_unlocked [] hplain

/-- Two nodes that follow one chain reward the same king at every height. -/
theorem following_nodes_agree (env : KingEnv) (genesis : KingBlock) (events events' : List KingEvent)
    (h : FollowsAll env (run env genesis []) events) (h' : FollowsAll env (run env genesis []) events')
    (hchain : (run env genesis events).chain = (run env genesis events').chain) (height : UInt64) :
    (run env genesis events).engine.getRotatingKing height =
      (run env genesis events').engine.getRotatingKing height := by
  have hsound : (run env genesis []).Sound := sound_after genesis [.restart]
  have hc : Canonical env (run env genesis events) := canonical_run (canonical_start genesis) hsound h
  have hc' : Canonical env (run env genesis events') := canonical_run (canonical_start genesis) hsound h'
  rw [hc.engine, hc'.engine, hchain]

end KingNode

def richBlock (extra : Bytes) : KingBlock := { extra := extra, time := 0, balance := fun _ => 200000 * ether }

def legacyMarker (a : Address) : Bytes := rkHeaderExtraMagic ++ Bytes.be 8 1 ++ Bytes.be 20 a.toNat

theorem KingBlock.plain_of_all {b : KingBlock}
    (h : (decodeRotatingKingHeaderExtra b.extra).all (fun m => !m.full) = true) : b.Plain := by
  intro m hm
  rw [hm] at h
  simpa using h

def markedChain : List KingBlock := [richBlock [], richBlock (legacyMarker 7)]

/-- A node that runs on, and one that is queried and restarted, on a chain that marks a king. -/
theorem following_nodes_agree_restart :
    (KingNode.run rotationEnv (richBlock []) [.head markedChain]).engine.getRotatingKing 1 =
      (KingNode.run rotationEnv (richBlock []) [.head markedChain, .query, .restart]).engine.getRotatingKing 1 := by
  have hplain : ∀ b ∈ markedChain, b.Plain := by
    intro b hb
    refine KingBlock.plain_of_all ?_
    simp only [markedChain, mem_cons, not_mem_nil, or_false] at hb
    rcases hb with rfl | rfl
    all_goals decide +kernel
  refine KingNode.following_nodes_agree rotationEnv (richBlock []) [.head markedChain]
    [.head markedChain, .query, .restart] ?_ ?_ rfl 1
  · exact ⟨⟨_, rfl⟩, trivial⟩
  · exact ⟨⟨_, rfl⟩, trivial, hplain, trivial⟩

def lockedHeads : List KingEvent :=
  [.head [richBlock [], richBlock (compactMarker 7 0 2)],
   .head [richBlock [], richBlock (compactMarker 7 0 2), richBlock []]]

/-- A king whose lock has ended is forgotten by a restart, and with it its past reigns. -/
theorem restarted_node_disagrees :
    (KingNode.run rotationEnv (richBlock []) lockedHeads).chain =
      (KingNode.run rotationEnv (richBlock []) (lockedHeads ++ [.restart])).chain ∧
    (KingNode.run rotationEnv (richBlock []) lockedHeads).engine.getRotatingKing 1 = 7 ∧
    (KingNode.run rotationEnv (richBlock []) (lockedHeads ++ [.restart])).engine.getRotatingKing 1 = 0 := by
  refine ⟨rfl, ?_⟩
  decide +kernel

end TkmChain
