/- GID: DashDrop/Transport/RateLimits
   source: src-tauri/src/transport/handshake.rs, src-tauri/src/transport/server.rs
   anchors: []
   digest: The rate limits of offers, of connections and of addresses. -/

import DashDrop.Foundation.FixedWindows
import DashDrop.Transport.Handshake

set_option autoImplicit false
set_option relaxedAutoImplicit false

namespace DashDrop.Transport.RateLimits

open DashDrop.Foundation.FixedWindows
open DashDrop.Transport.Protocol DashDrop.Transport.Handshake

def incomingIpRateLimitWindowSecs : ℕ := 60
def incomingIpRateLimitMaxPerWindow : ℕ := 120

/-- `Duration::from_secs`, in nanoseconds. -/
def fromSecs (secs : ℕ) : ℕ := secs * 10 ^ 9

/-- `*count += 1` on a `u32` in a release build. -/
def addOne (count : ℕ) : ℕ := (count + 1) % 2 ^ 32

/-- `saturating_add(1)` on a `u32` -/
def saturatingAddOne (count : ℕ) : ℕ := min (count + 1) (2 ^ 32 - 1)

inductive IpAddr where
  | v4 (octets : BitVec 32)
  | v6 (octets : BitVec 128)
  deriving DecidableEq

/-- A call for a peer, with what `is_trusted` has answered. -/
structure PeerVisit where
  peerFp : String
  trusted : Bool
  clock : Reads

structure IpVisit where
  ip : IpAddr
  now : ℕ

/-- The counting that the limiters of the peers share; the answer is whether `*count > limit`. -/
def peerLimited (limit : ℕ) (limiter : Table String) (v : PeerVisit) : Table String × Bool :=
  let slot := visit (fromSecs 60) addOne (limiter.lookup v.peerFp) v.clock
  (limiter.insert v.peerFp slot, slot.count > limit)

def offerLimit (v : PeerVisit) : ℕ :=
  if v.trusted then offerRateLimitTrustedPerMin else offerRateLimitUntrustedPerMin

def checkOfferRateLimit (limiter : Table String) (v : PeerVisit) :
    Table String × Option ErrorCode :=
  let counted := peerLimited (offerLimit v) limiter v
  (counted.1, if counted.2 then some .rateLimited else none)

def connectionLimit (v : PeerVisit) : ℕ :=
  if v.trusted then connectionRateLimitTrustedPerMin else connectionRateLimitUntrustedPerMin

def checkConnectionRateLimit (limiter : Table String) (v : PeerVisit) :
    Table String × Option ErrorCode :=
  let counted := peerLimited (connectionLimit v) limiter v
  (counted.1, if counted.2 then some .rateLimited else none)

def ipRateLimited (limiter : Table IpAddr) (ip : IpAddr) (now : ℕ) : Table IpAddr × Bool :=
  let slot := visit (fromSecs incomingIpRateLimitWindowSecs) saturatingAddOne (limiter.lookup ip)
    (.once now)
  (limiter.insert ip slot, slot.count > incomingIpRateLimitMaxPerWindow)

def offerAdmitted (limiter : Table String) (v : PeerVisit) : Table String × Bool :=
  let checked := checkOfferRateLimit limiter v
  (checked.1, checked.2.isNone)

def connectionAdmitted (limiter : Table String) (v : PeerVisit) : Table String × Bool :=
  let checked := checkConnectionRateLimit limiter v
  (checked.1, checked.2.isNone)

def ipAdmitted (limiter : Table IpAddr) (v : IpVisit) : Table IpAddr × Bool :=
  let checked := ipRateLimited limiter v.ip v.now
  (checked.1, !checked.2)

theorem addOne_of_lt (count : ℕ) (h : count + 1 < 2 ^ 32) : addOne count = count + 1 :=
  Nat.mod_eq_of_lt h

theorem saturatingAddOne_of_lt (count : ℕ) (h : count + 1 < 2 ^ 32) :
    saturatingAddOne count = count + 1 := by
  unfold saturatingAddOne
  omega

theorem countInWindow_eq (limits : AList fun _ : String => RateWindow) (fp : String)
    (limit now : ℕ) (room : ∀ w ∈ limits.lookup fp, w.count + 1 < 2 ^ 32) :
    let slot := visit (fromSecs 60) addOne
      ((limits.lookup fp).map fun w => ⟨w.count, w.windowStart⟩) (.once now)
    countInWindow limits fp limit now =
      (limits.insert fp ⟨slot.count, slot.start⟩, decide (slot.count > limit)) := by
  have one := addOne_of_lt 0 (by decide)
  cases found : limits.lookup fp with
  | none => simp [countInWindow, visit, found, fromSecs, Reads.once, one]
  | some w =>
    have more := addOne_of_lt w.count (room w found)
    by_cases old : 60000000000 < now - w.windowStart
    · simp [countInWindow, visit, found, fromSecs, Reads.once, one, old]
    · simp [countInWindow, visit, found, fromSecs, Reads.once, more, old]

theorem peerLimited_admitted (limit : ℕ) (limiter : Table String) (v : PeerVisit) :
    let slot := visit (fromSecs 60) addOne (limiter.lookup v.peerFp) v.clock
    ((peerLimited limit limiter v).1,
      (if (peerLimited limit limiter v).2 then some ErrorCode.rateLimited else none).isNone) =
        (limiter.insert v.peerFp slot, decide (slot.count ≤ limit)) := by
  intro slot
  show (limiter.insert v.peerFp slot,
    (if decide (slot.count > limit) then some ErrorCode.rateLimited else none).isNone) = _
  by_cases room : slot.count ≤ limit
  · simp [room, Nat.not_lt.mpr room]
  · simp [room, Nat.not_le.mp room]

theorem ipAdmitted_eq (limiter : Table IpAddr) (v : IpVisit) :
    let slot := visit (fromSecs 60) saturatingAddOne (limiter.lookup v.ip) (.once v.now)
    ipAdmitted limiter v =
      (limiter.insert v.ip slot, decide (slot.count ≤ incomingIpRateLimitMaxPerWindow)) := by
  intro slot
  show (limiter.insert v.ip slot, !decide (slot.count > incomingIpRateLimitMaxPerWindow)) = _
  rw [← decide_not, Prod.mk.injEq, decide_eq_decide]
  exact ⟨rfl, Nat.not_lt⟩

/-- Each of the three limiters admits the first visits of each window of a key, and no others. -/
theorem rate_limits_windowed :
    Windowed (fromSecs 60) (2 ^ 32) PeerVisit.peerFp PeerVisit.clock offerLimit offerAdmitted ∧
      Windowed (fromSecs 60) (2 ^ 32) PeerVisit.peerFp PeerVisit.clock connectionLimit
        connectionAdmitted ∧
      Windowed (fromSecs 60) (2 ^ 32) IpVisit.ip (fun v => .once v.now)
        (fun _ => incomingIpRateLimitMaxPerWindow) ipAdmitted := by
  refine ⟨?_, ?_, ?_⟩
  · apply windowed_of_counted (fun limiter v => peerLimited_admitted (offerLimit v) limiter v)
      addOne_of_lt rfl
    intro v
    unfold offerLimit
    split_ifs
    · decide
    · decide
  · apply windowed_of_counted
      (fun limiter v => peerLimited_admitted (connectionLimit v) limiter v) addOne_of_lt rfl
    intro v
    unfold connectionLimit
    split_ifs
    · decide
    · decide
  · apply windowed_of_counted ipAdmitted_eq saturatingAddOne_of_lt rfl
    intro _
    decide

/-- Two connections of an address in one window, one of another address between them. -/
theorem two_addresses_admitted :
    (answers ipAdmitted ∅ [⟨.v4 1, 0⟩, ⟨.v4 2, 5⟩, ⟨.v4 1, fromSecs 60⟩]).filter
      (fun answer => answer.1.ip = .v4 1) =
        [(⟨.v4 1, 0⟩, true), (⟨.v4 1, fromSecs 60⟩, true)] := by
  have admitted := rate_limits_windowed.2.2.first_admitted
    [⟨.v4 1, 0⟩, ⟨.v4 2, 5⟩, ⟨.v4 1, fromSecs 60⟩] (.v4 1) incomingIpRateLimitMaxPerWindow
    (fun _ _ _ => rfl) (by decide)
  exact admitted

end DashDrop.Transport.RateLimits
