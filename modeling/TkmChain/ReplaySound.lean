import TkmChain.OnionSound
import TkmChain.Replay

/-!
# Packets a relay handles twice

An accepted packet is refused while the cache remembers it, that is for the time
to live of the cache. A header may live longer, and then the cache has forgotten
the packet while its layer still opens.
-/

namespace TkmChain.Tkmnet

variable {t : Nat} {packet : Bytes}

/-! ## The cache -/

namespace ReplayCache

variable {c : ReplayCache} {circuitID : Fixed circuitIDSize} {sequence expires : UInt64} {now : Nat} {s : Seen}

theorem accept_cases (c : ReplayCache) (circuitID : Fixed circuitIDSize) (sequence expires : UInt64) (now : Nat) :
    (∃ e, c.accept circuitID sequence expires now = (.error e, c)) ∨
    (∃ e, c.accept circuitID sequence expires now = (.error e, c.evict now)) ∨
    (c.evict now).entries.get (circuitID, sequence) = none ∧ now / second < expires.toNat ∧
      c.accept circuitID sequence expires now =
        (.ok (), { c.evict now with entries := (c.evict now).entries.put ⟨circuitID, sequence, now⟩ }) := by
  unfold accept
  by_cases hbad : sequence = 0 ∨ now / second = 0 ∨ expires.toNat ≤ now / second
  · exact .inl ⟨_, if_pos hbad⟩
  rw [if_neg hbad]
  by_cases hseen : ((c.evict now).entries.get (circuitID, sequence)).isSome
  · exact .inr (.inl ⟨_, if_pos hseen⟩)
  rw [if_neg hseen]
  by_cases hfull : (c.evict now).max ≤ (c.evict now).entries.rows.length
  · exact .inr (.inl ⟨_, if_pos hfull⟩)
  exact .inr (.inr ⟨by simpa using hseen, by omega, if_neg hfull⟩)

section
variable (hs : c.entries.get s.key = some s) (hnow : now ≤ s.time + c.ttl)
include hs hnow

theorem get_evict :
    (c.evict now).entries.get s.key = some s :=
  Table.get_filter_of_pos hs (decide_eq_true hnow)

theorem get_accept :
    (c.accept circuitID sequence expires now).2.entries.get s.key = some s := by
  obtain ⟨e, h⟩ | ⟨e, h⟩ | ⟨hnone, -, h⟩ := c.accept_cases circuitID sequence expires now
  · rw [h]
    exact hs
  · rw [h]
    exact get_evict hs hnow
  · rw [h]
    have hother : s.key ≠ Seen.key ⟨circuitID, sequence, now⟩ := by
      intro heq
      have hkept := get_evict hs hnow
      rw [heq] at hkept
      cases hnone.symm.trans hkept
    exact (Table.get_put_ne hother).trans (get_evict hs hnow)

end

theorem accept_ttl : (c.accept circuitID sequence expires now).2.ttl = c.ttl := by
  obtain ⟨e, h⟩ | ⟨e, h⟩ | ⟨-, -, h⟩ := c.accept_cases circuitID sequence expires now <;> rw [h] <;> rfl

theorem accept_max : (c.accept circuitID sequence expires now).2.max = c.max := by
  obtain ⟨e, h⟩ | ⟨e, h⟩ | ⟨-, -, h⟩ := c.accept_cases circuitID sequence expires now <;> rw [h] <;> rfl

def By (c : ReplayCache) (now : Nat) : Prop := ∀ s ∈ c.entries.rows, s.time ≤ now

theorem By.mono (h : c.By now) (hle : now ≤ later) : c.By later :=
  fun s hs => le_trans (h s hs) hle

theorem By.evict (h : c.By now) : (c.evict now).By now :=
  fun s hs => h s (List.mem_of_mem_filter hs)

theorem By.accept (h : c.By now) : (c.accept circuitID sequence expires now).2.By now := by
  obtain ⟨e, heq⟩ | ⟨e, heq⟩ | ⟨-, -, heq⟩ := c.accept_cases circuitID sequence expires now
  · rw [heq]
    exact h
  · rw [heq]
    exact h.evict
  · rw [heq]
    intro s hs
    rcases Table.mem_put.mp hs with ⟨hold, -⟩ | rfl
    · exact h.evict s hold
    · exact le_refl _

theorem accept_forgotten (h : c.By last) (hnow : last + c.ttl < now) (hmax : 0 < c.max) (hs : sequence ≠ 0)
    (hepoch : now / second ≠ 0) (hlive : now / second < expires.toNat) :
    (c.accept circuitID sequence expires now).1 = .ok () := by
  have hempty : (c.evict now).entries.rows = [] := by
    apply List.filter_eq_nil_iff.mpr
    intro s hs
    have := h s hs
    simp
    omega
  have hnone : ((c.evict now).entries.get (circuitID, sequence)).isSome = false := by
    rw [Table.get, hempty]
    rfl
  have hvalid : ¬ (sequence = 0 ∨ now / second = 0 ∨ expires.toNat ≤ now / second) := by
    simp [hs, hepoch, hlive]
  have hroom : ¬ (c.evict now).max ≤ (c.evict now).entries.rows.length := by
    rw [hempty]
    exact Nat.not_le.mpr hmax
  simp only [accept, if_neg hvalid, hnone, if_neg hroom]
  rfl

end ReplayCache

/-! ## Runs -/

def lastTime : Nat → List Arrival → Nat
  | start, [] => start
  | _, a :: rest => lastTime a.accepted rest

theorem timely_append :
    Timely start (xs ++ ys) ↔ Timely start xs ∧ Timely (lastTime start xs) ys := by
  induction xs generalizing start with
  | nil => simp [Timely, lastTime]
  | cons a xs ih => simp [Timely, lastTime, ih, and_assoc]

theorem le_lastTime (h : Timely start xs) : start ≤ lastTime start xs := by
  induction xs generalizing start with
  | nil => exact le_refl _
  | cons a xs ih => exact le_trans (le_trans h.1 h.2.1) (ih h.2.2)

section
variable {SecretKey : Type} {K : KeyExchange SecretKey} {A : Aead} {s : Service SecretKey} {a : Arrival}
  {header : ParsedHeader} {route : Route}

theorem handleConn_opened (hparse : parseHeader a.packet = .ok header)
    (hopen : openLayer K A a.packet s.key header.hopIndex a.opened = .ok route) :
    s.handleConn K A a =
      ((s.replay.accept header.circuitID header.sequence header.expires a.accepted).1.toOption.map fun _ => route,
        { s with replay := (s.replay.accept header.circuitID header.sequence header.expires a.accepted).2 }) := by
  simp only [Service.handleConn, hparse, hopen]

theorem handleConn_cases (s : Service SecretKey) (a : Arrival) : (s.handleConn K A a).2 = s ∨
    ∃ circuitID sequence expires,
      (s.handleConn K A a).2 = { s with replay := (s.replay.accept circuitID sequence expires a.accepted).2 } := by
  cases hparse : parseHeader a.packet with
  | error e => exact .inl (by simp only [Service.handleConn, hparse])
  | ok header =>
    cases hopen : openLayer K A a.packet s.key header.hopIndex a.opened with
    | error e => exact .inl (by simp only [Service.handleConn, hparse, hopen])
    | ok route =>
      refine .inr ⟨header.circuitID, header.sequence, header.expires, ?_⟩
      rw [handleConn_opened hparse hopen]

theorem handleConn_some (h : (s.handleConn K A a).1 = some route) :
    ∃ header, parseHeader a.packet = .ok header ∧ openLayer K A a.packet s.key header.hopIndex a.opened = .ok route ∧
      (s.handleConn K A a).2.replay.entries.get (header.circuitID, header.sequence) =
        some ⟨header.circuitID, header.sequence, a.accepted⟩ := by
  cases hparse : parseHeader a.packet with
  | error e => simp [Service.handleConn, hparse] at h
  | ok header =>
    cases hopen : openLayer K A a.packet s.key header.hopIndex a.opened with
    | error e => simp [Service.handleConn, hparse, hopen] at h
    | ok route' =>
      rw [handleConn_opened hparse hopen] at h ⊢
      obtain ⟨e, heq⟩ | ⟨e, heq⟩ | ⟨-, -, heq⟩ :=
        s.replay.accept_cases header.circuitID header.sequence header.expires a.accepted
      · rw [heq] at h
        cases h
      · rw [heq] at h
        cases h
      · rw [heq] at h ⊢
        cases h
        exact ⟨header, rfl, hopen, Table.get_put_self _ (Seen.mk header.circuitID header.sequence a.accepted)⟩

/-- What every run of a relay keeps: its key, the limits of its cache, and that no entry is from the future. -/
structure Service.Keeps (s : Service SecretKey) (key : SecretKey) (max ttl now : Nat) : Prop where
  key : s.key = key
  max : s.replay.max = max
  ttl : s.replay.ttl = ttl
  times : s.replay.By now

variable {key : SecretKey} {max ttl now : Nat} {arrivals : List Arrival}

theorem Service.Keeps.handleConn (h : s.Keeps key max ttl now) (hle : now ≤ a.accepted) :
    (s.handleConn K A a).2.Keeps key max ttl a.accepted := by
  obtain heq | ⟨circuitID, sequence, expires, heq⟩ := handleConn_cases (K := K) (A := A) s a
  · rw [heq]
    exact ⟨h.key, h.max, h.ttl, h.times.mono hle⟩
  · rw [heq]
    exact ⟨h.key, ReplayCache.accept_max.trans h.max, ReplayCache.accept_ttl.trans h.ttl, (h.times.mono hle).accept⟩

theorem Service.Keeps.run (h : s.Keeps key max ttl now) (htimes : Timely now arrivals) :
    (s.run K A arrivals).Keeps key max ttl (lastTime now arrivals) := by
  induction arrivals generalizing s now with
  | nil => exact h
  | cons a rest ih => exact ih (h.handleConn (le_trans htimes.1 htimes.2.1)) htimes.2.2

theorem get_run (seen : Seen) (hs : s.replay.entries.get seen.key = some seen) (h : s.Keeps key max ttl now)
    (htimes : Timely now arrivals) (hlast : lastTime now arrivals ≤ seen.time + ttl) :
    (s.run K A arrivals).replay.entries.get seen.key = some seen := by
  induction arrivals generalizing s now with
  | nil => exact hs
  | cons a rest ih =>
    have hnow : a.accepted ≤ seen.time + s.replay.ttl := by
      rw [h.ttl]
      exact le_trans (le_lastTime htimes.2.2) hlast
    refine ih ?_ (h.handleConn (le_trans htimes.1 htimes.2.1)) htimes.2.2 hlast
    show (s.handleConn K A a).2.replay.entries.get seen.key = some seen
    obtain heq | ⟨circuitID, sequence, expires, heq⟩ := handleConn_cases (K := K) (A := A) s a
    · rw [heq]
      exact hs
    · rw [heq]
      exact ReplayCache.get_accept hs hnow

theorem parseHeader_live (h : parseHeader packet = .ok header) :
    header.sequence ≠ 0 ∧ header.expires ≠ 0 := by
  simp only [parseHeader, ok_rules] at h
  obtain ⟨-, -, -, -, -, hlive, rfl⟩ := h
  exact not_or.mp hlive

theorem openLayer_later (h : openLayer K A packet key i t = .ok route)
    (hparse : parseHeader packet = .ok header) (hle : t ≤ t') (hlive : t' / second < header.expires.toNat) :
    t' / second ≠ 0 ∧ openLayer K A packet key i t' = .ok route := by
  simp only [openLayer, checkHeader, unixSeconds, ok_rules] at h ⊢
  obtain ⟨header', hparse', -, ⟨-, hindex, now, ⟨-, hepoch, rfl⟩, -, -, hlife⟩, hbody⟩ := h
  obtain rfl : header = header' := Except.ok.inj (hparse.symm.trans hparse')
  have hdiv : t / second ≤ t' / second := Nat.div_le_div_right hle
  generalize t / second = n at hdiv hepoch hlife
  generalize t' / second = n' at hdiv hlive ⊢
  exact ⟨by omega, header, hparse, (), ⟨(), hindex, n', ⟨(), by omega, rfl⟩, (), by omega, by omega⟩, hbody⟩

theorem refused_while_seen (hparse : parseHeader b.packet = .ok header)
    (hs : s.replay.entries.get (header.circuitID, header.sequence) = some ⟨header.circuitID, header.sequence, now⟩)
    (h : s.Keeps key max ttl now) (htimes : Timely now (later ++ [b]))
    (hshort : header.expires.toNat * second ≤ now + ttl + 1) : ((s.run K A later).handleConn K A b).1 = none := by
  obtain ⟨hlater, hopens, haccepts, -⟩ := timely_append.mp htimes
  cases hanswer : ((s.run K A later).handleConn K A b).1 with
  | none => rfl
  | some route =>
    obtain ⟨header', hparse', hopen, -⟩ := handleConn_some hanswer
    obtain rfl : header = header' := Except.ok.inj (hparse.symm.trans hparse')
    have hkeeps := h.run (K := K) (A := A) hlater
    rw [handleConn_opened hparse hopen] at hanswer
    obtain ⟨e, heq⟩ | ⟨e, heq⟩ | ⟨hnone, hlive, -⟩ :=
      (s.run K A later).replay.accept_cases header.circuitID header.sequence header.expires b.accepted
    · rw [heq] at hanswer
      cases hanswer
    · rw [heq] at hanswer
      cases hanswer
    · have hbound : b.accepted ≤ now + ttl := by
        rw [Nat.div_lt_iff_lt_mul (by decide)] at hlive
        omega
      have hlast : lastTime now later ≤ now + ttl := by
        omega
      have hkept := get_run (K := K) (A := A) ⟨header.circuitID, header.sequence, now⟩ hs h hlater hlast
      have hlimit : b.accepted ≤ now + (s.run K A later).replay.ttl := by
        rw [hkeeps.ttl]
        exact hbound
      cases hnone.symm.trans (ReplayCache.get_evict hkept hlimit)

theorem taken_when_forgotten (hparse : parseHeader packet = .ok header)
    (h : s.Keeps key max ttl now) (hmax : 0 < max) (ht : now + ttl < t)
    (hopen : openLayer K A packet key header.hopIndex t = .ok route) (hepoch : t / second ≠ 0)
    (hlive : t / second < header.expires.toNat) : (s.handleConn K A ⟨packet, t, t⟩).1 = some route := by
  have htake : (s.replay.accept header.circuitID header.sequence header.expires t).1 = .ok () :=
    ReplayCache.accept_forgotten h.times (by rw [h.ttl]; exact ht) (by rw [h.max]; exact hmax) (parseHeader_live hparse).1
      hepoch hlive
  rw [handleConn_opened (a := ⟨packet, t, t⟩) hparse (by rw [h.key]; exact hopen), htake]
  rfl

end

theorem newService_keeps {SecretKey : Type} {key : SecretKey} {s : Service SecretKey} (h : newService key none = .ok s) :
    s.Keeps key 100000 (30 * 60 * second) 0 := by
  cases h
  exact ⟨rfl, rfl, rfl, nofun⟩

theorem Service.run_append (K : KeyExchange SecretKey) (A : Aead) (s : Service SecretKey)
    (xs ys : List Arrival) : s.run K A (xs ++ ys) = (s.run K A xs).run K A ys :=
  List.foldl_append

/-- A handled packet is refused for as long as it opens exactly when its header expires with its entry in the cache. -/
theorem replays_refused_iff {SecretKey : Type} (K : KeyExchange SecretKey) (A : Aead) (key : SecretKey)
    (s : Service SecretKey) (hs : newService key none = .ok s) (before : List Arrival) (a : Arrival)
    (header : ParsedHeader) (route : Route) (htimes : Timely 0 (before ++ [a])) (hparse : parseHeader a.packet = .ok header)
    (haccepted : ((s.run K A before).handleConn K A a).1 = some route) :
    (∀ later b, b.packet = a.packet → Timely a.accepted (later ++ [b]) →
      (openLayer K A b.packet key header.hopIndex b.opened).isOk = true →
      ((s.run K A (before ++ a :: later)).handleConn K A b).1 = none) ↔
    header.expires.toNat * second ≤ a.accepted + 30 * 60 * second + 1 := by
  obtain ⟨hbefore, hopens, haccepts, -⟩ := timely_append.mp htimes
  have hstart := (newService_keeps hs).run (K := K) (A := A) hbefore
  have hafter : ((s.run K A before).handleConn K A a).2.Keeps key 100000 (30 * 60 * second) a.accepted :=
    hstart.handleConn (le_trans hopens haccepts)
  obtain ⟨header', hparse', hopen, hseen⟩ := handleConn_some haccepted
  obtain rfl : header = header' := Except.ok.inj (hparse.symm.trans hparse')
  rw [hstart.key] at hopen
  have hrun : ∀ later, s.run K A (before ++ a :: later) = ((s.run K A before).handleConn K A a).2.run K A later := by
    intro later
    rw [Service.run_append]
    rfl
  constructor
  · intro hrefused
    by_contra hlong
    obtain ⟨t, ht⟩ : ∃ t, t = a.accepted + 30 * 60 * second + 1 := ⟨_, rfl⟩
    have hlive : t / second < header.expires.toNat := by
      rw [Nat.div_lt_iff_lt_mul (by decide), ht]
      exact Nat.not_le.mp hlong
    obtain ⟨hepoch, hagain⟩ := openLayer_later hopen hparse (show a.opened ≤ t by omega) hlive
    have hnone := hrefused [] ⟨a.packet, t, t⟩ rfl ⟨by show a.accepted ≤ t; omega, le_refl _, trivial⟩
      (by rw [hagain]; rfl)
    have htaken := taken_when_forgotten (K := K) (A := A) hparse hafter (by decide) (by omega) hagain hepoch hlive
    rw [hrun] at hnone
    exact absurd (htaken.symm.trans hnone) nofun
  · intro hshort later b hpacket htimes' _
    rw [hrun]
    exact refused_while_seen (hpacket ▸ hparse) hseen hafter htimes' hshort

/-! ## A packet for one hour -/

def parcelOptions (expires : UInt64) : BuildOptions := { mailOptions with expires := expires }

def parcelClock : BuildClock := ⟨10000 * second, 10000 * second⟩

theorem parcel_opens (expires : UInt64) (hpos : expires ≠ 0) (hlife : Unexpired expires parcelClock.check) :
    ∃ packet header route, build plainExchange (recordedAead []) (parcelOptions expires) mailCoins parcelClock [1] =
        .ok packet ∧ parseHeader packet = .ok header ∧ header.expires = expires ∧ header.hopIndex = 0 ∧
      ∀ t, Unexpired expires t → openLayer plainExchange (recordedAead []) packet 0 0 t = .ok route := by
  have hexpiry : (parcelOptions expires).expiry parcelClock = .ok expires := if_neg hpos
  have hservice : validService (parcelOptions expires).service = true := show validService 3 = true by decide
  obtain ⟨p, hplan⟩ : ∃ p, (parcelOptions expires).plan mailCoins parcelClock [1] = .ok p :=
    plan_ok hservice (by decide) rfl hexpiry hlife
  obtain ⟨hsend, hserv, hexp, -⟩ := plan_sendable hplan
  obtain rfl : p.expires = expires := by simpa [hexpiry] using hexp.symm
  have husable : ∀ hop ∈ mailOptions.hops, hop.usable plainExchange := by
    intro hop hmem
    rw [mailOptions, List.mem_ofFn] at hmem
    obtain ⟨i, rfl⟩ := hmem
    exact ⟨plainExchange.encapsulationKey_size _, mailHops_ne_zero i, plainExchange.encapsulationKey_new _⟩
  obtain ⟨layers, hbuild, hb⟩ := build_ok (A := recordedAead []) hplan husable
  refine ⟨_, _, ⟨p.service, mailHops 1, false, Fixed.zero keySize⟩, hbuild, hb.parse (by decide), rfl, rfl, ?_⟩
  intro t ht
  rw [hb.openLayer_own (by decide) ht rfl rfl]
  exact readRoute_next (mailHops_ne_zero 1)

theorem parcel_handled {expires : UInt64} {header : ParsedHeader} {route : Route} {s : Service UInt8}
    {now : Nat} (hparse : parseHeader packet = .ok header) (hexpires : header.expires = expires)
    (hindex : header.hopIndex = 0)
    (hopen : ∀ t, Unexpired expires t → openLayer plainExchange (recordedAead []) packet 0 0 t = .ok route)
    (h : s.Keeps 0 100000 (30 * 60 * second) now) (ht : now + 30 * 60 * second < t) (hepoch : t / second ≠ 0)
    (hlive : t / second < expires.toNat) (hlife : expires.toNat ≤ t / second + maxLifetime) :
    (s.handleConn plainExchange (recordedAead []) ⟨packet, t, t⟩).1 = some route := by
  have hclock : unixSeconds t = .ok (t / second) := by
    simp only [unixSeconds, ok_rules]
    exact ⟨(), hepoch, trivial⟩
  subst hexpires
  refine taken_when_forgotten hparse h (by decide) ht ?_ hepoch hlive
  rw [hindex]
  exact hopen t ⟨t / second, hclock, hlive, hlife⟩

/-- A packet for one hour is handled again 31 minutes later. -/
theorem packet_handled_twice : ∃ packet s route,
    build plainExchange (recordedAead []) (parcelOptions 13600) mailCoins parcelClock [1] = .ok packet ∧
    newService (0 : UInt8) none = .ok s ∧
    (s.handleConn plainExchange (recordedAead []) ⟨packet, 10000 * second, 10000 * second⟩).1 = some route ∧
    ((s.run plainExchange (recordedAead []) [⟨packet, 10000 * second, 10000 * second⟩]).handleConn plainExchange
      (recordedAead []) ⟨packet, 11860 * second, 11860 * second⟩).1 = some route := by
  obtain ⟨packet, header, route, hbuild, hparse, hexpires, hindex, hopen⟩ :=
    parcel_opens 13600 (by decide) ⟨10000, by decide, by decide, by decide⟩
  have hstart : (⟨0, ⟨Table.empty, 100000, 30 * 60 * second⟩⟩ : Service UInt8).Keeps 0 100000 (30 * 60 * second) 0 :=
    newService_keeps rfl
  have hnext := hstart.handleConn (K := plainExchange) (A := recordedAead [])
    (a := ⟨packet, 10000 * second, 10000 * second⟩) (Nat.zero_le _)
  exact ⟨packet, _, route, hbuild, rfl,
    parcel_handled hparse hexpires hindex hopen hstart (by decide) (by decide) (by decide) (by decide),
    parcel_handled hparse hexpires hindex hopen hnext
      (show 10000 * second + 30 * 60 * second < 11860 * second by decide) (by decide) (by decide) (by decide)⟩

/-- A packet for ten minutes is never handled again. -/
theorem replays_refused_parcel : ∃ packet header s,
    build plainExchange (recordedAead []) (parcelOptions 10600) mailCoins parcelClock [1] = .ok packet ∧
    newService (0 : UInt8) none = .ok s ∧ parseHeader packet = .ok header ∧
    ∀ later b, b.packet = packet → Timely (10000 * second) (later ++ [b]) →
      (openLayer plainExchange (recordedAead []) b.packet 0 header.hopIndex b.opened).isOk = true →
      ((s.run plainExchange (recordedAead []) ([] ++ ⟨packet, 10000 * second, 10000 * second⟩ :: later)).handleConn
        plainExchange (recordedAead []) b).1 = none := by
  obtain ⟨packet, header, route, hbuild, hparse, hexpires, hindex, hopen⟩ :=
    parcel_opens 10600 (by decide) ⟨10000, by decide, by decide, by decide⟩
  have hfirst := parcel_handled hparse hexpires hindex hopen (newService_keeps rfl) (t := 10000 * second) (by decide)
    (by decide) (by decide) (by decide)
  refine ⟨packet, header, _, hbuild, rfl, hparse, ?_⟩
  refine (replays_refused_iff plainExchange (recordedAead []) 0 _ rfl [] ⟨packet, 10000 * second, 10000 * second⟩ header
    route ⟨Nat.zero_le _, le_refl _, trivial⟩ hparse hfirst).mpr ?_
  rw [hexpires]
  show UInt64.toNat 10600 * second ≤ 10000 * second + 30 * 60 * second + 1
  decide

end TkmChain.Tkmnet
