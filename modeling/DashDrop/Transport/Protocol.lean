/- GID: DashDrop/Transport/Protocol
   source: src-tauri/src/transport/protocol.rs
   anchors: []
   digest: Error codes, file items, wire messages and transfer outcomes. -/

import DashDrop.Foundation.FileTree

set_option autoImplicit false
set_option relaxedAutoImplicit false

namespace DashDrop.Transport.Protocol

open DashDrop.Foundation.FileTree (Bytes)

def wireVersion : ℕ := 0
def supportedVersions : List ℕ := [1]

inductive ErrorCode where
  | rejected
  | diskFull
  | hashMismatch
  | versionMismatch
  | rateLimited
  | timeout
  | cancelled
  | permissionDenied
  | identityMismatch
  | sizePolicy
  | invalidPath
  | pathConflict
  | unsupportedFileType
  | protocol (text : String)
  deriving DecidableEq

/-- The `Display` text. -/
def ErrorCode.display : ErrorCode → String
  | .rejected => "Rejected by receiver"
  | .diskFull => "Receiver disk full"
  | .hashMismatch => "File hash mismatch"
  | .versionMismatch => "Protocol version mismatch"
  | .rateLimited => "Rate limited"
  | .timeout => "Connection timeout"
  | .cancelled => "Cancelled"
  | .permissionDenied => "Permission denied"
  | .identityMismatch => "Identity mismatch"
  | .sizePolicy => "Size policy requires manual review"
  | .invalidPath => "Invalid path"
  | .pathConflict => "Path conflict"
  | .unsupportedFileType => "Unsupported file type"
  | .protocol s => "Protocol error: " ++ s

def ErrorCode.reasonCode : ErrorCode → String
  | .rejected => "E_REJECTED_BY_PEER"
  | .diskFull => "E_DISK_FULL"
  | .hashMismatch => "E_HASH_MISMATCH"
  | .versionMismatch => "E_VERSION_MISMATCH"
  | .rateLimited => "E_RATE_LIMITED"
  | .timeout => "E_TIMEOUT"
  | .cancelled => "E_CANCELLED"
  | .permissionDenied => "E_PERMISSION_DENIED"
  | .identityMismatch => "E_IDENTITY_MISMATCH"
  | .sizePolicy => "E_SIZE_POLICY"
  | .invalidPath => "E_INVALID_PATH"
  | .pathConflict => "E_PATH_CONFLICT"
  | .unsupportedFileType => "E_UNSUPPORTED_FILE_TYPE"
  | .protocol _ => "E_PROTOCOL"

/-- A BLAKE3 output. -/
structure Digest where
  bytes : Vector UInt8 32
  deriving DecidableEq

inductive FileType where
  | regularFile
  | directory
  deriving DecidableEq

inductive RiskClass where
  | high
  | normal
  deriving DecidableEq

structure SourceSnapshot where
  size : ℕ
  mtimeUnixMs : ℕ
  headHash : Digest
  deriving DecidableEq

structure FileItem where
  fileId : ℕ
  name : String
  relPath : String
  size : ℕ
  fileType : FileType
  modified : ℕ
  riskClass : Option RiskClass
  sourceSnapshot : Option SourceSnapshot
  deriving DecidableEq

structure HelloPayload where
  wireVersion : ℕ
  supportedVersions : List ℕ
  deriving DecidableEq

structure OfferPayload where
  transferId : String
  items : List FileItem
  totalSize : ℕ
  senderName : String
  senderFingerprint : String
  deriving DecidableEq

structure AcceptPayload where
  chosenVersion : ℕ
  resumeOffsets : Option (List (ℕ × ℕ))
  deriving DecidableEq

structure RejectPayload where
  reason : ErrorCode
  deriving DecidableEq

structure ChunkPayload where
  fileId : ℕ
  chunkId : ℕ
  offset : ℕ
  data : Bytes
  deriving DecidableEq

structure CompletePayload where
  fileId : ℕ
  fileHash : Digest
  deriving DecidableEq

structure AckPayload where
  fileId : ℕ
  ok : Bool
  reason : Option ErrorCode
  deriving DecidableEq

inductive CancelReason where
  | userCancelled
  | error (code : ErrorCode)
  deriving DecidableEq

structure CancelPayload where
  reason : CancelReason
  deriving DecidableEq

structure P2pRequestPayload where
  supportedMethods : List String
  deriving DecidableEq

structure P2pResponsePayload where
  method : String
  ssid : String
  password : Option String
  targetAddress : Option String
  deriving DecidableEq

inductive DashMessage where
  | hello (p : HelloPayload)
  | offer (p : OfferPayload)
  | accept (p : AcceptPayload)
  | reject (p : RejectPayload)
  | chunk (p : ChunkPayload)
  | complete (p : CompletePayload)
  | ack (p : AckPayload)
  | cancel (p : CancelPayload)
  | p2pRequest (p : P2pRequestPayload)
  | p2pResponse (p : P2pResponsePayload)
  deriving DecidableEq

/-- The messages that carry a transfer's announcement or its data. -/
def DashMessage.isOfferOrChunk : DashMessage → Bool
  | .offer _ | .chunk _ => true
  | _ => false

structure FailedFile where
  fileId : ℕ
  name : String
  reason : ErrorCode
  deriving DecidableEq

inductive TransferOutcome where
  | success
  | partialSuccess (failed : List FailedFile)
  | failed (code : ErrorCode)
  | cancelledBySender
  | cancelledByReceiver
  deriving DecidableEq

def negotiateVersion (peerVersions : List ℕ) : Option ℕ :=
  supportedVersions.reverse.find? fun v => peerVersions.contains v

end DashDrop.Transport.Protocol
