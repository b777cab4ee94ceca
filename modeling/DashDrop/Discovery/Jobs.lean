/- GID: DashDrop/Discovery/Jobs
   source: src-tauri/src/discovery/browser.rs, src-tauri/src/discovery/beacon.rs,
     src-tauri/src/core_service.rs
   anchors: []
   digest: The handlers of discovery, pairing and probes as programs over one shared state. -/

import DashDrop.Foundation.Interleaving
import DashDrop.Foundation.Transitions
import DashDrop.Trust.Storage
import DashDrop.Discovery.Devices
import Mathlib.Data.Finset.Basic

set_option autoImplicit false
set_option relaxedAutoImplicit false

namespace DashDrop.Discovery.Jobs

open DashDrop.Foundation.Program DashDrop.Foundation.Interleaving DashDrop.Foundation.Maps
open DashDrop.Runtime.State (TrustLevel)
open DashDrop.Trust.Peers (TrustedPeer TrustState notFound)
open DashDrop.Trust.Storage (PeerMap)
open DashDrop.Discovery.Devices

/-- A service as mDNS resolves it, with the properties that discovery looks at. -/
structure ServiceInfo where
  fullname : String
  hostname : String
  port : UInt16
  addresses : List IpAddr
  fp : Option String
  id : Option String
  name : Option String
  platform : Option String

structure BeaconPacket where
  kind : String
  fp : String
  name : String
  platform : String
  port : UInt16
  instanceId : String
  ts : ℕ

def beaconKind : String := "dashdrop_beacon_v1"

/-- What runs as a task of its own. The last two are spawned by others. -/
inductive Job where
  | resolved (ownFp : String) (info : ServiceInfo)
  | beacon (ownFp : String) (packet : BeaconPacket) (source : IpAddr)
  | removed (fullname : String)
  | offlinePass
  | connect (address : String)
  | pair (fp : String)
  | unpair (fp : String)
  | probe (fp : String) (addrs : List SocketAddr)
  | deferredRemoval (fp sessionId : String) (observedLastSeen : ℕ)

inductive HostEvent where
  | deviceDiscovered (device : DeviceInfo)
  | deviceUpdated (device : DeviceInfo)
  | deviceLost (fp : String)
  | trustedPeerUpdated (fp action : String) (trustLevel : Option TrustLevel)

structure SecurityEvent where
  kind : String
  phase : String
  fingerprint : Option String
  detail : String

structure World where
  devices : DeviceMap
  sessionIndex : SessionIndex
  pendingRemovedSessions : Finset String
  trustedPeers : PeerMap
  eventCounts : AList (fun _ : String => ℕ)
  failureCounts : AList (fun _ : String => ℕ)
  /-- When a device was first seen, in milliseconds. -/
  visibleSince : AList (fun _ : String => ℕ)
  securityEvents : List SecurityEvent
  emitted : List HostEvent
  /-- Tasks that were spawned and have not begun. -/
  spawned : List Job

inductive HostnameReply where
  | noDaemon
  | startFailed
  | found (ips : List IpAddr) (joinError : Bool)

inductive DiscoveryOp where
  | bumpEvent (key : String)
  | bumpFailure (key : String)
  | resolveHostname (hostname : String)
  | lookupHost (target : String)
  | isTrusted (fp : String)
  | now
  | announce (fp : String) (a : Announcement)
  | indexSession (entry : SessionIndexEntry) (fullname : Option String)
  | recordVisibility (fp : String)
  | emit (event : HostEvent)
  | spawn (job : Job)
  | findEntry (key : String)
  | observe (fp sessionId : String)
  | schedule (key : String)
  | unschedule (key : String)
  | applyRemoval (fp sessionId : String) (observedLastSeen nowUnix : ℕ)
  | prune (nowUnix : ℕ)
  | sweepIndex (pruned : Pruned)
  | probeAddr (addr : SocketAddr)
  | recordProbe (fp : String) (nowUnix : ℕ) (attempted : List String) (report : ProbeReport)
  | dial (addr : SocketAddr)
  | peerFingerprint
  | hello
  | logSecurityEvent (event : SecurityEvent)
  | connectDevice (fp : String) (addr : SocketAddr) (trusted : Bool)
  | markTrusted (fp : String)
  | addTrust (fp name : String)
  | removeTrust (fp : String)
  | unmark (fp : String)
  | persist
  | trustLevel (fp : String)

abbrev DiscoveryOp.Resp : DiscoveryOp → Type
  | .resolveHostname _ => HostnameReply
  | .lookupHost _ => Except String (List SocketAddr)
  | .isTrusted _ | .schedule _ | .removeTrust _ => Bool
  | .now => ℕ
  | .announce _ _ | .connectDevice _ _ _ => Bool × DeviceInfo
  | .findEntry _ => Option SessionIndexEntry
  | .observe _ _ => Option ℕ
  | .applyRemoval _ _ _ _ => Option (String × Bool × Option DeviceInfo) × Bool
  | .prune _ => Pruned
  | .probeAddr _ | .dial _ | .hello | .persist => Except String Unit
  | .recordProbe _ _ _ _ => Option DeviceInfo
  | .markTrusted _ => String
  | .peerFingerprint => Except String String
  | .trustLevel _ => Option TrustLevel
  | .bumpEvent _ | .bumpFailure _ | .indexSession _ _ | .recordVisibility _ | .emit _ | .spawn _
  | .unschedule _ | .sweepIndex _ | .logSecurityEvent _ | .addTrust _ _ | .unmark _ => Unit

abbrev Code (α : Type) := Prog DiscoveryOp DiscoveryOp.Resp α

/-- The clocks, the network and the database at a step. -/
structure Ans where
  millis : ℕ
  instant : ℕ
  hostname : HostnameReply
  addrs : Except String (List SocketAddr)
  peer : Except String String
  outcome : Except String Unit

def Ans.nowUnix (x : Ans) : ℕ := x.millis / 1000

def bump (key : String) (counts : AList (fun _ : String => ℕ)) : AList (fun _ : String => ℕ) :=
  counts.insert key (min ((counts.lookup key).getD 0 + 1) (2 ^ 64 - 1))

def setTrusted (trusted : Bool) (device : DeviceInfo) : DeviceInfo :=
  { device with trusted := trusted }

/-- Set the flag of a known device, and tell the host while the lock is held. -/
def flagDevice (fp : String) (trusted : Bool) (w : World) : World :=
  let devices := modify fp (setTrusted trusted) w.devices
  { w with
    devices := devices
    emitted := w.emitted ++ (devices.lookup fp).toList.map HostEvent.deviceUpdated }

/-- The map of trusted peers after `add_trust`. -/
def addTrust (fp name : String) (nowUnix : ℕ) (peers : PeerMap) : PeerMap :=
  (Trust.Peers.addTrust ⟨∅, peers⟩ fp name nowUnix).trustedPeers

def exec : Exec DiscoveryOp DiscoveryOp.Resp World Ans := fun _ o x w =>
  match o with
  | .bumpEvent key => some ({ w with eventCounts := bump key w.eventCounts }, ())
  | .bumpFailure key => some ({ w with failureCounts := bump key w.failureCounts }, ())
  | .resolveHostname _ => some (w, x.hostname)
  | .lookupHost _ => some (w, x.addrs)
  | .isTrusted fp => some (w, (w.trustedPeers.lookup fp).isSome)
  | .now => some (w, x.nowUnix)
  | .announce fp a =>
      let announced := announce fp a x.instant w.devices
      some ({ w with devices := announced.1 }, announced.2)
  | .indexSession entry fullname =>
      some ({ w with sessionIndex := indexSession entry fullname w.sessionIndex }, ())
  | .recordVisibility fp =>
      let seen := (w.visibleSince.lookup fp).getD x.millis
      some ({ w with visibleSince := w.visibleSince.insert fp seen }, ())
  | .emit event => some ({ w with emitted := w.emitted ++ [event] }, ())
  | .spawn job => some ({ w with spawned := w.spawned ++ [job] }, ())
  | .findEntry key => some (w, findEntry key w.sessionIndex)
  | .observe fp sessionId =>
      some (w, (sessionOf w.devices fp sessionId).map SessionInfo.lastSeenUnix)
  | .schedule key =>
      some ({ w with pendingRemovedSessions := insert key w.pendingRemovedSessions },
        decide (key ∉ w.pendingRemovedSessions))
  | .unschedule key =>
      some ({ w with pendingRemovedSessions := w.pendingRemovedSessions.erase key }, ())
  | .applyRemoval fp sessionId observedLastSeen nowUnix =>
      let applied := applyRemoval fp sessionId observedLastSeen nowUnix w.sessionIndex w.devices
      some ({ w with sessionIndex := applied.1, devices := applied.2.1 }, applied.2.2)
  | .prune nowUnix =>
      let pruned := prune nowUnix x.instant w.devices
      some ({ w with devices := pruned.1 }, pruned.2)
  | .sweepIndex pruned =>
      some ({ w with sessionIndex := sweepIndex pruned w.sessionIndex }, ())
  | .probeAddr _ | .dial _ | .hello | .persist => some (w, x.outcome)
  | .recordProbe fp nowUnix attempted report =>
      let devices := modify fp (recordProbe nowUnix attempted report) w.devices
      some ({ w with devices := devices }, devices.lookup fp)
  | .peerFingerprint => some (w, x.peer)
  | .logSecurityEvent event => some ({ w with securityEvents := w.securityEvents ++ [event] }, ())
  | .connectDevice fp addr trusted =>
      let connected := connectDevice fp addr trusted x.nowUnix x.instant w.devices
      some ({ w with devices := connected.1 }, connected.2)
  | .markTrusted fp =>
      some (flagDevice fp true w, ((w.devices.lookup fp).map DeviceInfo.name).getD "Unknown")
  | .addTrust fp name =>
      some ({ w with trustedPeers := addTrust fp name x.nowUnix w.trustedPeers }, ())
  | .removeTrust fp =>
      some ({ w with trustedPeers := w.trustedPeers.erase fp }, (w.trustedPeers.lookup fp).isSome)
  | .unmark fp => some (flagDevice fp false w, ())
  | .trustLevel fp => some (w, (w.trustedPeers.lookup fp).map TrustedPeer.trustLevel)

def ask (o : DiscoveryOp) : Code o.Resp := perform o

def nonEmpty (value : Option String) : Option String := value.filter fun s => !s.isEmpty

def ServiceInfo.sessionId (info : ServiceInfo) : String := (nonEmpty info.id).getD info.fullname

def resolveHostnameWithMdns (hostname : String) (port : UInt16) : Code (List SocketAddr) := do
  let lookup := if hostname.toList.getLast? = some '.' then hostname else hostname ++ "."
  match ← ask (.resolveHostname lookup) with
  | .noDaemon => pure []
  | .startFailed =>
      ask (.bumpFailure "hostname_mdns_resolve_start_failed")
      pure []
  | .found ips joinError =>
      if joinError then ask (.bumpFailure "hostname_mdns_resolve_join_error")
      let addrs := sortDedupeAddrs ((ips.map fun ip => .new ip port).filter isUsablePeerAddr)
      if addrs.isEmpty then ask (.bumpFailure "hostname_mdns_resolve_no_usable_addr")
      pure addrs

def resolveHostnameWithSystemDns (hostname : String) (port : UInt16) : Code (List SocketAddr) := do
  let host := String.ofList (hostname.toList.reverse.dropWhile (· = '.')).reverse
  match ← ask (.lookupHost (host ++ ":" ++ toString port.toNat)) with
  | .error _ => pure []
  | .ok extra => pure (sortDedupeAddrs (extra.filter isUsablePeerAddr))

def resolveAddrs (hostname : String) (port : UInt16) : Code (List SocketAddr) := do
  ask (.bumpEvent "resolved_empty_addr_set")
  let addrs ← resolveHostnameWithMdns hostname port
  if addrs.isEmpty then
    let addrs ← resolveHostnameWithSystemDns hostname port
    if addrs.isEmpty then
      ask (.bumpFailure "resolved_no_usable_addrs")
    else ask (.bumpEvent "resolved_addr_via_system_dns")
    pure addrs
  else pure addrs

/-- From the answer of the trust list to the probe of the device: the device, then the index. -/
def enterDevice (fp : String) (announcement : Bool → ℕ → Announcement)
    (fullname : Option String) : Code Unit := do
  let trusted ← ask (.isTrusted fp)
  let nowUnix ← ask .now
  let a := announcement trusted nowUnix
  let (isNew, device) ← ask (.announce fp a)
  ask (.indexSession ⟨fp, a.sessionId⟩ fullname)
  ask (.recordVisibility fp)
  ask (.emit (if isNew then .deviceDiscovered device else .deviceUpdated device))
  ask (.spawn (.probe fp a.addrs))

def enterResolved (info : ServiceInfo) (fp : String) (addrs : List SocketAddr) : Code Unit := do
  let addrs := sortDedupeAddrs addrs
  if addrs.isEmpty then ask (.bumpEvent "resolved_kept_without_addrs")
  enterDevice fp (fun trusted nowUnix =>
    { name := (nonEmpty info.name).getD info.hostname
      platform := (info.platform.map Platform.ofName).getD .unknown
      trusted := trusted
      sessionId := info.sessionId
      addrs := addrs
      nowUnix := nowUnix
      rawAddrCount := info.addresses.length
      usableAddrCount := addrs.length
      hostname := info.hostname
      port := info.port }) (some info.fullname)

def handleResolved (ownFp : String) (info : ServiceInfo) : Code Unit :=
  match info.fp with
  | none => ask (.bumpFailure "resolved_missing_fp_txt")
  | some fp =>
      if fp.isEmpty then ask (.bumpFailure "resolved_empty_fp_txt")
      else if fp = ownFp then ask (.bumpEvent "resolved_self_filtered")
      else
        let addrs := (info.addresses.map fun ip => .new ip info.port).filter isUsablePeerAddr
        if addrs.isEmpty then do
          let found ← resolveAddrs info.hostname info.port
          enterResolved info fp found
        else enterResolved info fp addrs

def upsertFromBeacon (packet : BeaconPacket) (source : IpAddr) (candidate : SocketAddr) :
    Code Unit :=
  enterDevice packet.fp (fun trusted nowUnix =>
    { name := packet.name
      platform := .ofName packet.platform
      trusted := trusted
      sessionId := "beacon:" ++ packet.instanceId
      addrs := [candidate]
      nowUnix := nowUnix
      rawAddrCount := 1
      usableAddrCount := 1
      hostname := source.display
      port := packet.port }) none

def receiveBeacon (ownFp : String) (packet : BeaconPacket) (source : IpAddr) : Code Unit :=
  let candidate := SocketAddr.new source packet.port
  if packet.kind ≠ beaconKind then pure ()
  else if packet.fp = ownFp then ask (.bumpEvent "beacon_self_filtered")
  else if !isUsablePeerAddr candidate then ask (.bumpFailure "beacon_unusable_addr")
  else do
    ask (.bumpEvent "beacon_received")
    upsertFromBeacon packet source candidate

def pendingRemoveKey (fp sessionId : String) : String := fp ++ "|" ++ sessionId

def handleRemoved (removeKey : String) : Code Unit := do
  match ← ask (.findEntry removeKey) with
  | none => ask (.bumpFailure "service_removed_without_index_entry")
  | some entry =>
      match ← ask (.observe entry.fingerprint entry.sessionId) with
      | none => ask (.bumpFailure "service_removed_without_session")
      | some observedLastSeen =>
          if ← ask (.schedule (pendingRemoveKey entry.fingerprint entry.sessionId)) then
            ask (.bumpEvent "service_removed_deferred")
            ask (.spawn (.deferredRemoval entry.fingerprint entry.sessionId observedLastSeen))
          else ask (.bumpEvent "service_removed_deferred_duplicate")

/-- The task that `handle_removed` spawns, once it has slept for the grace period. -/
def runDeferredRemoval (fp sessionId : String) (observedLastSeen : ℕ) : Code Unit := do
  let nowUnix ← ask .now
  match ← ask (.applyRemoval fp sessionId observedLastSeen nowUnix) with
  | (some (changedFp, gone, updated), _) =>
      ask (.bumpEvent "service_removed_applied")
      if gone then ask (.emit (.deviceLost changedFp))
      else if let some device := updated then ask (.emit (.deviceUpdated device))
      ask (.unschedule (pendingRemoveKey fp sessionId))
  | (none, refreshed) =>
      ask (.bumpEvent (if refreshed then "service_removed_skipped_refreshed"
        else "service_removed_skipped_stale"))
      ask (.unschedule (pendingRemoveKey fp sessionId))

def emitAll : List HostEvent → Code Unit
  | [] => pure ()
  | event :: rest => do
      ask (.emit event)
      emitAll rest

def tellPruned (pruned : Pruned) : Code Unit := do
  emitAll (pruned.updates.map HostEvent.deviceUpdated)
  emitAll (pruned.lost.map HostEvent.deviceLost)
  if !pruned.pairs.isEmpty then ask (.bumpEvent "stale_session_pruned")

def offlineTurn : Code Unit := do
  let nowUnix ← ask .now
  let pruned ← ask (.prune nowUnix)
  if !pruned.pairs.isEmpty || !pruned.lost.isEmpty then ask (.sweepIndex pruned)
  tellPruned pruned

def probeAddrs : List SocketAddr → ProbeReport → Code ProbeReport
  | [], report => pure report
  | addr :: rest, report => do
      match ← ask (.probeAddr addr) with
      | .ok () => pure { report with ok := true, successAddr := some addr.display }
      | .error detail =>
          let (counterKey, reason) := classifyProbeError detail
          ask (.bumpFailure counterKey)
          probeAddrs rest { report with
            lastErrorReason := some reason
            lastErrorDetail := some detail
            lastErrorAddr := some addr.display }

def runProbeUpdate (fp : String) (addrs : List SocketAddr) : Code Unit := do
  let nowUnix ← ask .now
  let addrs := selectProbeAddrs addrs
  let report ← probeAddrs addrs ⟨false, none, none, none, none⟩
  match ← ask (.recordProbe fp nowUnix (addrs.map SocketAddr.display) report) with
  | none => pure ()
  | some device =>
      if !report.ok then ask (.bumpFailure "probe_failed")
      ask (.emit (.deviceUpdated device))

def spawnedProbe (fp : String) (addrs : List SocketAddr) : Code Unit :=
  if addrs.isEmpty then pure () else runProbeUpdate fp addrs

structure ConnectByAddressResult where
  fingerprint : String
  name : String
  trusted : Bool
  address : String

/-- The first address that a connection could be made to, or what the attempts said. -/
def dialFirst : List SocketAddr → List String → Code (Except (List String) SocketAddr)
  | [], errors => pure (.error errors)
  | addr :: rest, errors => do
      match ← ask (.dial addr) with
      | .ok () => pure (.ok addr)
      | .error e => dialFirst rest (errors ++ [addr.display ++ ": " ++ e])

/-- The part of `connect_by_address` once the peer has answered its Hello. -/
def enterConnected (fp : String) (addr : SocketAddr) :
    Code (Except String ConnectByAddressResult) := do
  let trusted ← ask (.isTrusted fp)
  let (isNew, device) ← ask (.connectDevice fp addr trusted)
  ask (.emit (if isNew then .deviceDiscovered device else .deviceUpdated device))
  pure (.ok ⟨fp, device.name, trusted, addr.display⟩)

def connectByAddress (address : String) : Code (Except String ConnectByAddressResult) := do
  match ← ask (.lookupHost address) with
  | .error e => pure (.error ("invalid address " ++ address ++ ": " ++ e))
  | .ok resolved =>
      if resolved.isEmpty then
        pure (.error ("address " ++ address ++ " resolved to no endpoints"))
      else
        match ← dialFirst resolved [] with
        | .error errors =>
            pure (.error (if errors.isEmpty then "all connection attempts failed"
              else "all connection attempts failed (" ++ " | ".intercalate errors ++ ")"))
        | .ok addr =>
            match ← ask .peerFingerprint with
            | .error e => pure (.error ("failed to read peer fingerprint: " ++ e))
            | .ok fp =>
                match ← ask .hello with
                | .error e =>
                    ask (.logSecurityEvent ⟨"handshake_failed", "connect_by_address", some fp, e⟩)
                    pure (.error ("peer handshake failed: " ++ e))
                | .ok () => enterConnected fp addr

def pairDevice (fp : String) : Code (Except String Unit) := do
  let name ← ask (.markTrusted fp)
  ask (.addTrust fp name)
  match ← ask .persist with
  | .error e => pure (.error e)
  | .ok () =>
      let level ← ask (.trustLevel fp)
      ask (.emit (.trustedPeerUpdated fp "paired" (some (level.getD .legacyPaired))))
      pure (.ok ())

def unpairDevice (fp : String) : Code (Except String Unit) := do
  if ← ask (.removeTrust fp) then
    ask (.unmark fp)
    match ← ask .persist with
    | .error e => pure (.error e)
    | .ok () =>
        ask (.emit (.trustedPeerUpdated fp "unpaired" none))
        pure (.ok ())
  else pure (.error (notFound fp))

def Job.prog : Job → Code Unit
  | .resolved ownFp info => handleResolved ownFp info
  | .beacon ownFp packet source => receiveBeacon ownFp packet source
  | .removed fullname => handleRemoved fullname
  | .offlinePass => offlineTurn
  | .connect address => do
      let _ ← connectByAddress address
      pure ()
  | .pair fp => do
      let _ ← pairDevice fp
      pure ()
  | .unpair fp => do
      let _ ← unpairDevice fp
      pure ()
  | .probe fp addrs => spawnedProbe fp addrs
  | .deferredRemoval fp sessionId observedLastSeen =>
      runDeferredRemoval fp sessionId observedLastSeen

end DashDrop.Discovery.Jobs
