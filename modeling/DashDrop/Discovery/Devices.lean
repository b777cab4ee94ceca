/- GID: DashDrop/Discovery/Devices
   source: src-tauri/src/state.rs, src-tauri/src/discovery/browser.rs
   anchors: []
   digest: Known devices with their sessions, and what each section of discovery does to them. -/

import DashDrop.Foundation.Leases
import DashDrop.Foundation.Maps
import Mathlib.Algebra.Ring.Nat
import Mathlib.Data.List.Infix
import Mathlib.Data.Nat.Notation

set_option autoImplicit false
set_option relaxedAutoImplicit false

namespace DashDrop.Discovery.Devices

open DashDrop.Foundation.Leases (retain)
open DashDrop.Foundation.Maps

def offlineGraceSecs : ℕ := 15
def deviceLostRetentionSecs : ℕ := 45
def sessionStaleSecs : ℕ := 90

inductive IpAddr where
  | v4 (a b c d : UInt8)
  | v6 (segments : Vector UInt16 8)
  deriving DecidableEq

namespace IpAddr

def isIpv4 : IpAddr → Bool
  | .v4 .. => true
  | .v6 _ => false

def isLoopback : IpAddr → Bool
  | .v4 a _ _ _ => a = 127
  | .v6 s => s = #v[0, 0, 0, 0, 0, 0, 0, 1]

def isUnspecified : IpAddr → Bool
  | .v4 a b c d => a = 0 ∧ b = 0 ∧ c = 0 ∧ d = 0
  | .v6 s => s = #v[0, 0, 0, 0, 0, 0, 0, 0]

def isMulticast : IpAddr → Bool
  | .v4 a _ _ _ => 224 ≤ a ∧ a ≤ 239
  | .v6 s => s[0] &&& 0xff00 = 0xff00

def isUnicastLinkLocal : IpAddr → Bool
  | .v4 .. => false
  | .v6 s => s[0] &&& 0xffc0 = 0xfe80

/-- Where the longest run of zero segments starts and how long it is; the first among equals. -/
def longestZeroes (segments : List UInt16) : ℕ × ℕ :=
  let scan := segments.zipIdx.foldl
    (fun (state : (ℕ × ℕ) × ℕ × ℕ) segment =>
      if segment.1 = 0 then
        let start := if state.1.2 = 0 then segment.2 else state.1.1
        let current := (start, state.1.2 + 1)
        (current, if current.2 > state.2.2 then current else state.2)
      else ((0, 0), state.2))
    ((0, 0), 0, 0)
  scan.2

def hexSegments (segments : List UInt16) : String :=
  ":".intercalate (segments.map fun s => String.ofList (Nat.toDigits 16 s.toNat))

def dotted (a b c d : ℕ) : String :=
  toString a ++ "." ++ toString b ++ "." ++ toString c ++ "." ++ toString d

def display : IpAddr → String
  | .v4 a b c d => dotted a.toNat b.toNat c.toNat d.toNat
  | .v6 s =>
      let segments := s.toList
      if segments.take 6 = [0, 0, 0, 0, 0, 0xffff] then
        "::ffff:" ++ dotted (s[6].toNat / 256) (s[6].toNat % 256) (s[7].toNat / 256)
          (s[7].toNat % 256)
      else
        let zeroes := longestZeroes segments
        if zeroes.2 > 1 then
          hexSegments (segments.take zeroes.1) ++ "::" ++
            hexSegments (segments.drop (zeroes.1 + zeroes.2))
        else hexSegments segments

end IpAddr

structure SocketAddr where
  ip : IpAddr
  port : UInt16
  scopeId : UInt32
  deriving DecidableEq

namespace SocketAddr

def new (ip : IpAddr) (port : UInt16) : SocketAddr := ⟨ip, port, 0⟩

def display (a : SocketAddr) : String :=
  let ip := match a.ip with
    | .v4 .. => a.ip.display
    | .v6 _ =>
        let scope := if a.scopeId = 0 then "" else "%" ++ toString a.scopeId.toNat
        "[" ++ a.ip.display ++ scope ++ "]"
  ip ++ ":" ++ toString a.port.toNat

end SocketAddr

def isUsablePeerAddr (a : SocketAddr) : Bool :=
  !(a.ip.isLoopback || a.ip.isUnspecified || a.ip.isMulticast)

/-- A stable sort with the IPv4 addresses in front; repetitions are dropped. -/
def sortDedupeAddrs (addrs : List SocketAddr) : List SocketAddr :=
  (addrs.filter (fun a => a.ip.isIpv4) ++ addrs.filter fun a => !a.ip.isIpv4).eraseDups

def isConnectableProbeAddr (a : SocketAddr) : Bool :=
  a.ip.isIpv4 || !(a.ip.isUnicastLinkLocal && a.scopeId = 0)

def selectProbeAddrs (addrs : List SocketAddr) : List SocketAddr :=
  let sorted := sortDedupeAddrs addrs
  let filtered := sorted.filter isConnectableProbeAddr
  if filtered.isEmpty then sorted else filtered

inductive Platform where
  | mac | windows | linux | android | ios | unknown
  deriving DecidableEq

def Platform.ofName (name : String) : Platform :=
  let lower := String.ofList (name.toList.map Char.toLower)
  if lower = "mac" ∨ lower = "macos" then .mac
  else if lower = "win" ∨ lower = "windows" then .windows
  else if lower = "linux" then .linux
  else if lower = "android" then .android
  else if lower = "ios" then .ios
  else .unknown

inductive ReachabilityStatus where
  | discovered
  | reachable
  | offlineCandidate
  | offline
  deriving DecidableEq

def ReachabilityStatus.isOffline : ReachabilityStatus → Bool
  | .offlineCandidate | .offline => true
  | .discovered | .reachable => false

/-- The second time stamp is of the monotonic clock, in nanoseconds. -/
structure SessionInfo where
  sessionId : String
  addrs : List SocketAddr
  lastSeenUnix : ℕ
  lastSeenInstant : ℕ
  deriving DecidableEq

structure DeviceInfo where
  fingerprint : String
  name : String
  platform : Platform
  trusted : Bool
  sessions : AList (fun _ : String => SessionInfo)
  lastSeen : ℕ
  reachability : ReachabilityStatus
  probeFailCount : ℕ
  lastProbeAt : Option ℕ
  lastProbeResult : Option String
  lastProbeError : Option String
  lastProbeErrorDetail : Option String
  lastProbeAddr : Option String
  lastProbeAttemptedAddrs : List String
  lastResolveRawAddrCount : ℕ
  lastResolveUsableAddrCount : ℕ
  lastResolveHostname : Option String
  lastResolvePort : Option UInt16
  lastResolveAt : Option ℕ
  deriving DecidableEq

structure SessionIndexEntry where
  fingerprint : String
  sessionId : String
  deriving DecidableEq

abbrev DeviceMap := AList (fun _ : String => DeviceInfo)
abbrev SessionIndex := AList (fun _ : String => SessionIndexEntry)

def DeviceInfo.isEmpty (device : DeviceInfo) : Bool := device.sessions.entries.isEmpty

/-- What `handle_resolved` and `upsert_from_beacon` have worked out when they take the lock. -/
structure Announcement where
  name : String
  platform : Platform
  trusted : Bool
  sessionId : String
  addrs : List SocketAddr
  nowUnix : ℕ
  rawAddrCount : ℕ
  usableAddrCount : ℕ
  hostname : String
  port : UInt16

def announcedDevice (fp : String) (a : Announcement) : DeviceInfo where
  fingerprint := fp
  name := a.name
  platform := a.platform
  trusted := a.trusted
  sessions := ∅
  lastSeen := 0
  reachability := .discovered
  probeFailCount := 0
  lastProbeAt := none
  lastProbeResult := none
  lastProbeError := none
  lastProbeErrorDetail := none
  lastProbeAddr := none
  lastProbeAttemptedAddrs := []
  lastResolveRawAddrCount := 0
  lastResolveUsableAddrCount := 0
  lastResolveHostname := none
  lastResolvePort := none
  lastResolveAt := none

/-- The session of the announcement joins the others of its device. -/
def refreshDevice (a : Announcement) (instant : ℕ) (device : DeviceInfo) : DeviceInfo :=
  let sessions := device.sessions.insert a.sessionId
    ⟨a.sessionId, a.addrs, a.nowUnix, instant⟩
  { device with
    sessions := sessions
    trusted := a.trusted
    lastSeen := a.nowUnix
    lastResolveRawAddrCount := a.rawAddrCount
    lastResolveUsableAddrCount := a.usableAddrCount
    lastResolveHostname := some a.hostname
    lastResolvePort := some a.port
    lastResolveAt := some a.nowUnix
    reachability :=
      if !sessions.entries.isEmpty && device.reachability.isOffline then .discovered
      else device.reachability }

def announce (fp : String) (a : Announcement) (instant : ℕ) (devices : DeviceMap) :
    DeviceMap × Bool × DeviceInfo :=
  let known := devices.lookup fp
  let device := refreshDevice a instant (known.getD (announcedDevice fp a))
  (devices.insert fp device, known.isNone, device)

/-- Under the id of the session, and under the name of the service where there is one. -/
def indexSession (entry : SessionIndexEntry) (fullname : Option String) (index : SessionIndex) :
    SessionIndex :=
  let index := index.insert entry.sessionId entry
  match fullname with
  | some name => index.insert name entry
  | none => index

/-- A device that was reached at an address that the user typed in. -/
def manualDevice (fp : String) (addr : SocketAddr) (trusted : Bool) (nowUnix : ℕ) : DeviceInfo where
  fingerprint := fp
  name := "Manual " ++ addr.display
  platform := .unknown
  trusted := trusted
  sessions := ∅
  lastSeen := nowUnix
  reachability := .reachable
  probeFailCount := 0
  lastProbeAt := some nowUnix
  lastProbeResult := some "ok"
  lastProbeError := none
  lastProbeErrorDetail := none
  lastProbeAddr := some addr.display
  lastProbeAttemptedAddrs := [addr.display]
  lastResolveRawAddrCount := 1
  lastResolveUsableAddrCount := 1
  lastResolveHostname := some addr.ip.display
  lastResolvePort := some addr.port
  lastResolveAt := some nowUnix

def reachDevice (addr : SocketAddr) (trusted : Bool) (nowUnix instant : ℕ) (device : DeviceInfo) :
    DeviceInfo :=
  let sessionId := "manual:" ++ addr.display
  { device with
    sessions := device.sessions.insert sessionId ⟨sessionId, [addr], nowUnix, instant⟩
    lastSeen := nowUnix
    reachability := .reachable
    lastProbeAt := some nowUnix
    probeFailCount := 0
    lastProbeResult := some "ok"
    lastProbeError := none
    lastProbeErrorDetail := none
    lastProbeAddr := some addr.display
    lastProbeAttemptedAddrs := [addr.display]
    lastResolveRawAddrCount := 1
    lastResolveUsableAddrCount := 1
    lastResolveHostname := some addr.ip.display
    lastResolvePort := some addr.port
    lastResolveAt := some nowUnix
    trusted := trusted }

def connectDevice (fp : String) (addr : SocketAddr) (trusted : Bool) (nowUnix instant : ℕ)
    (devices : DeviceMap) : DeviceMap × Bool × DeviceInfo :=
  let known := devices.lookup fp
  let device := reachDevice addr trusted nowUnix instant
    (known.getD (manualDevice fp addr trusted nowUnix))
  (devices.insert fp device, known.isNone, device)

/-- The entry under the key, or else the first one of a session with this id. -/
def findEntry (key : String) (index : SessionIndex) : Option SessionIndexEntry :=
  (index.lookup key).or
    ((index.entries.map fun e => e.2).find? fun entry => entry.sessionId = key)

def dropSession (sessionId : String) (device : DeviceInfo) : DeviceInfo :=
  let sessions := device.sessions.erase sessionId
  { device with
    sessions := sessions
    reachability := if sessions.entries.isEmpty then .offlineCandidate else device.reachability }

/-- `remove_session_from_state`; the answer is the device that changed. -/
def removeSessionFromState (removeKey : String) (index : SessionIndex) (devices : DeviceMap) :
    SessionIndex × DeviceMap × Option (String × Bool × Option DeviceInfo) :=
  match findEntry removeKey index with
  | none => (index, devices, none)
  | some entry =>
      -- all names under which the session is known go with it
      let index := retain (fun v => v.sessionId ≠ entry.sessionId) index
      let devices := modify entry.fingerprint (dropSession entry.sessionId) devices
      (index, devices, some (entry.fingerprint, false, devices.lookup entry.fingerprint))

def shouldApplyDeferredRemove (currentLastSeen observedLastSeen nowUnix : ℕ) : Bool :=
  currentLastSeen ≤ observedLastSeen ∧ nowUnix - currentLastSeen ≥ offlineGraceSecs

def sessionOf (devices : DeviceMap) (fp sessionId : String) : Option SessionInfo :=
  (devices.lookup fp).bind fun device => device.sessions.lookup sessionId

/-- What the deferred task does under both locks, and whether the session was refreshed. -/
def applyRemoval (fp sessionId : String) (observedLastSeen nowUnix : ℕ) (index : SessionIndex)
    (devices : DeviceMap) :
    SessionIndex × DeviceMap × Option (String × Bool × Option DeviceInfo) × Bool :=
  match sessionOf devices fp sessionId with
  | none => (index, devices, none, false)
  | some s =>
      if shouldApplyDeferredRemove s.lastSeenUnix observedLastSeen nowUnix then
        let removed := removeSessionFromState sessionId index devices
        (removed.1, removed.2.1, removed.2.2, false)
      else (index, devices, none, s.lastSeenUnix > observedLastSeen)

def isSessionStale (elapsed : ℕ) : Bool := elapsed ≥ sessionStaleSecs * 10 ^ 9

def shouldMarkOffline (device : DeviceInfo) (nowUnix : ℕ) : Bool :=
  device.isEmpty ∧ device.reachability = .offlineCandidate ∧
    nowUnix - device.lastSeen ≥ offlineGraceSecs

def shouldEmitDeviceLost (device : DeviceInfo) (nowUnix : ℕ) : Bool :=
  device.isEmpty ∧ device.reachability = .offline ∧
    nowUnix - device.lastSeen ≥ deviceLostRetentionSecs

def isStale (instant : ℕ) (session : SessionInfo) : Bool :=
  isSessionStale (instant - session.lastSeenInstant)

def staleSessionIds (instant : ℕ) (device : DeviceInfo) : List String :=
  (device.sessions.entries.filter fun e => isStale instant e.2).map fun e => e.1

def dropStale (instant : ℕ) (device : DeviceInfo) : DeviceInfo :=
  if (staleSessionIds instant device).isEmpty then device
  else
    let sessions := retain (fun s => !isStale instant s) device.sessions
    { device with
      sessions := sessions
      reachability := if sessions.entries.isEmpty then .offlineCandidate else device.reachability }

def markOffline (nowUnix : ℕ) (device : DeviceInfo) : DeviceInfo :=
  if shouldMarkOffline device nowUnix then { device with reachability := .offline } else device

/-- What the host is told of a device: once for the sessions that went, once for the status. -/
def pruneUpdates (nowUnix instant : ℕ) (device : DeviceInfo) : List DeviceInfo :=
  let dropped := dropStale instant device
  (if (staleSessionIds instant device).isEmpty then [] else [dropped]) ++
    if shouldMarkOffline dropped nowUnix then [markOffline nowUnix dropped] else []

structure Pruned where
  updates : List DeviceInfo
  pairs : List (String × String)
  lost : List String
  deriving DecidableEq

def prune (nowUnix instant : ℕ) (devices : DeviceMap) : DeviceMap × Pruned :=
  let marked := mapValues (fun d => markOffline nowUnix (dropStale instant d)) devices
  let known := devices.entries.map fun e => e.2
  (retain (fun d => !shouldEmitDeviceLost d nowUnix) marked,
    { updates := known.flatMap (pruneUpdates nowUnix instant)
      pairs := known.flatMap fun d => (staleSessionIds instant d).map fun sid => (d.fingerprint, sid)
      lost := (marked.entries.filter fun e => shouldEmitDeviceLost e.2 nowUnix).map fun e => e.1 })

def Pruned.sweeps (p : Pruned) (entry : SessionIndexEntry) : Bool :=
  p.lost.contains entry.fingerprint ||
    p.pairs.any fun pair => entry.fingerprint = pair.1 ∧ entry.sessionId = pair.2

def sweepIndex (p : Pruned) (index : SessionIndex) : SessionIndex :=
  retain (fun entry => !p.sweeps entry) index

def contains (text word : String) : Bool := decide (word.toList <:+: text.toList)

def classifyProbeError (detail : String) : String × String :=
  let s := String.ofList (detail.toList.map Char.toLower)
  if contains s "timeout" || contains s "timed out" then ("probe_timeout", "timeout")
  else if contains s "handshake" then ("probe_handshake", "handshake")
  else if contains s "refused" || contains s "unreachable" ||
      contains s "invalid remote address" then ("probe_connect", "connect")
  else ("probe_other", "other")

/-- What came of the attempts; of those that failed, only the last is kept. -/
structure ProbeReport where
  ok : Bool
  successAddr : Option String
  lastErrorReason : Option String
  lastErrorDetail : Option String
  lastErrorAddr : Option String

def recordProbe (nowUnix : ℕ) (attempted : List String) (report : ProbeReport)
    (device : DeviceInfo) : DeviceInfo :=
  let device := { device with lastProbeAt := some nowUnix, lastProbeAttemptedAddrs := attempted }
  if report.ok then
    { device with
      reachability := .reachable
      probeFailCount := 0
      lastProbeResult := some "ok"
      lastProbeError := none
      lastProbeErrorDetail := none
      lastProbeAddr := report.successAddr }
  else
    let nextFailCount := min (device.probeFailCount + 1) (2 ^ 32 - 1)
    { device with
      probeFailCount := nextFailCount
      reachability :=
        if nextFailCount ≥ 3 then .offlineCandidate
        else if device.reachability.isOffline then .discovered
        else device.reachability
      lastProbeResult := some "failed"
      lastProbeError := report.lastErrorReason
      lastProbeErrorDetail := report.lastErrorDetail
      lastProbeAddr := report.lastErrorAddr }

end DashDrop.Discovery.Devices
