/- GID: DashDrop/Runtime/State
   source: src-tauri/src/state.rs
   anchors: []
   digest: Transfer tasks, notifications, configuration and terminal metrics. -/

import DashDrop.Transport.Protocol
import Mathlib.Algebra.Ring.Nat

set_option autoImplicit false
set_option relaxedAutoImplicit false

namespace DashDrop.Runtime.State

open DashDrop.Transport.Protocol

inductive TransferDirection where
  | send
  | receive
  deriving DecidableEq

inductive TransferStatus where
  | draft
  | pendingAccept
  | transferring
  | completed
  | partialCompleted
  | rejected
  | cancelledBySender
  | cancelledByReceiver
  | failed
  deriving DecidableEq

def TransferStatus.isTerminal : TransferStatus → Bool
  | .completed | .partialCompleted | .rejected | .cancelledBySender | .cancelledByReceiver
  | .failed => true
  | .draft | .pendingAccept | .transferring => false

structure FileItemMeta where
  fileId : ℕ
  name : String
  relPath : String
  size : ℕ
  riskClass : Option RiskClass
  deriving DecidableEq

def FileItemMeta.ofItem (f : FileItem) : FileItemMeta :=
  ⟨f.fileId, f.name, f.relPath, f.size, f.riskClass⟩

structure TransferTask where
  id : String
  direction : TransferDirection
  peerFingerprint : String
  peerName : String
  items : List FileItemMeta
  status : TransferStatus
  bytesTransferred : ℕ
  totalBytes : ℕ
  revision : ℕ
  startedAtUnix : ℕ
  endedAtUnix : Option ℕ
  terminalReasonCode : Option String
  error : Option String
  sourcePaths : Option (List String)
  sourcePathByFileId : Option (List (ℕ × String))
  failedFileIds : Option (List ℕ)
  conn : Option ℕ
  deriving DecidableEq

def TransferTask.itemIds (t : TransferTask) : List ℕ := t.items.map FileItemMeta.fileId

inductive TrustLevel where
  | legacyPaired
  | signedLinkVerified
  | mutualConfirmed
  | frozen
  deriving DecidableEq

def TrustLevel.allowsSensitiveSend : TrustLevel → Bool
  | .frozen => false
  | _ => true

inductive FileConflictStrategy where
  | overwrite
  | rename
  | skip
  deriving DecidableEq

structure AppConfig where
  deviceName : String
  autoAcceptTrustedOnly : Bool
  downloadDir : Option String
  fileConflictStrategy : FileConflictStrategy
  maxParallelStreams : ℕ
  launchAtLogin : Bool
  deriving DecidableEq

/-- `AppConfig::default`. -/
def AppConfig.standard : AppConfig where
  deviceName := "DashDrop Device"
  autoAcceptTrustedOnly := false
  downloadDir := none
  fileConflictStrategy := .rename
  maxParallelStreams := 4
  launchAtLogin := false

structure TransferMetrics where
  completed : ℕ
  partialDone : ℕ
  failed : ℕ
  cancelledBySender : ℕ
  cancelledByReceiver : ℕ
  rejected : ℕ
  bytesSent : ℕ
  bytesReceived : ℕ
  deriving DecidableEq

/-- Addition that stops at the largest `u64`. -/
def saturatingAdd (a b : ℕ) : ℕ := min (a + b) (2 ^ 64 - 1)

def countStatus (m : TransferMetrics) : TransferStatus → TransferMetrics
  | .completed => { m with completed := saturatingAdd m.completed 1 }
  | .partialCompleted => { m with partialDone := saturatingAdd m.partialDone 1 }
  | .rejected => { m with rejected := saturatingAdd m.rejected 1 }
  | .cancelledBySender => { m with cancelledBySender := saturatingAdd m.cancelledBySender 1 }
  | .cancelledByReceiver =>
      { m with cancelledByReceiver := saturatingAdd m.cancelledByReceiver 1 }
  | .failed => { m with failed := saturatingAdd m.failed 1 }
  | .draft | .pendingAccept | .transferring => m

def recordTransferTerminal (m : TransferMetrics) (direction : TransferDirection)
    (status : TransferStatus) (bytes : ℕ) : TransferMetrics :=
  let m := countStatus m status
  match direction with
  | .send => { m with bytesSent := saturatingAdd m.bytesSent bytes }
  | .receive => { m with bytesReceived := saturatingAdd m.bytesReceived bytes }

/-- Random identifiers are numbered in the order in which they are drawn. -/
abbrev Uuid := ℕ

structure IncomingRequestNotification where
  notificationId : Uuid
  active : Bool
  terminalReasonCode : Option String
  updatedAtUnix : ℕ
  deriving DecidableEq

end DashDrop.Runtime.State
