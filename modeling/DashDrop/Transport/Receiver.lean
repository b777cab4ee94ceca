/- GID: DashDrop/Transport/Receiver
   source: src-tauri/src/transport/receiver.rs
   anchors: []
   digest: The receiving side: conflict paths, one file, one offer from prompt to outcome. -/

import DashDrop.Runtime.Machine
import DashDrop.Transport.PathValidation

set_option autoImplicit false
set_option relaxedAutoImplicit false

namespace DashDrop.Transport.Receiver

open DashDrop.Foundation.UnixPath DashDrop.Foundation.FileTree DashDrop.Foundation.Oneshot
open DashDrop.Foundation.Text DashDrop.Foundation.Program
open DashDrop.Transport.Protocol DashDrop.Transport.Outcome DashDrop.Transport.PathValidation
open DashDrop.Runtime.State DashDrop.Runtime.Machine

def ioErrorCode (e : IoError) : ErrorCode :=
  if e.rawOsError = some 28 then .diskFull
  else if e.kind = .storageFull then .diskFull
  else .protocol e.text

def tempPathFor (finalPath : PathBuf) : PathBuf :=
  let fileName := (finalPath.fileName.map Name.text).getD "file".toList
  finalPath.withFileName (fileName ++ ".dashdrop.part".toList)

def splitFileName (path : PathBuf) : List Char × List Char :=
  (path.fileStem.getD "file".toList, (path.extension.map fun e => '.' :: e).getD [])

def renamedName (stem ext : List Char) (idx : ℕ) : List Char :=
  stem ++ " (".toList ++ (toString idx).toList ++ ")".toList ++ ext

/-- The search for a free name, with `left` more candidates to try. -/
def allocateRenamed (desired parent : PathBuf) (stem ext : List Char) :
    ℕ → ℕ → Code (Except String (Option PathBuf))
  | 0, _ => pure (.error ("unable to allocate renamed conflict path for " ++
      String.ofList desired.display))
  | left + 1, idx => do
      let candidate := parent.join (.ofText (renamedName stem ext idx))
      match ← fs (.metadata candidate) with
      | none => pure (.ok (some candidate))
      | some _ => allocateRenamed desired parent stem ext left (idx + 1)

def resolveConflictPath (desired : PathBuf) (strategy : FileConflictStrategy) :
    Code (Except String (Option PathBuf)) := do
  match ← fs (.metadata desired) with
  | none => pure (.ok (some desired))
  | some _ =>
      match strategy with
      | .overwrite => pure (.ok (some desired))
      | .skip => pure (.ok none)
      | .rename =>
          let parent := desired.parent.getD (.ofText ['.'])
          let (stem, ext) := splitFileName desired
          allocateRenamed desired parent stem ext 9999 1

def ReadFault.top : ReadFault → String
  | .len _ => "read len"
  | .tooLarge n => (ReadFault.tooLarge n).display
  | .body _ => "read body"
  | .decode _ => "CBOR deserialize"

def ackOf (item : FileItem) (ok : Bool) (reason : Option ErrorCode) : TaskResult :=
  .returned ⟨item.fileId, ok, reason⟩

def failWith (item : FileItem) (reason : ErrorCode) : Code TaskResult :=
  pure (ackOf item false (some reason))

def abandon (item : FileItem) (tempPath : PathBuf) (reason : ErrorCode) : Code TaskResult := do
  let _ ← fs (.removeFile tempPath)
  failWith item reason

/-- `bytes_transferred += n` and the progress event, if the task is still known. -/
def addProgress (id : String) (n : ℕ) : Code Unit := do
  match ← task (.addBytes id n) with
  | some (transferred, total, revision) =>
      emit (.transferProgress id transferred total revision)
  | none => pure ()

/-- The checks and the rename after a matching `Complete`. -/
def placeFile (item : FileItem) (strategy : FileConflictStrategy) (finalPath tempPath : PathBuf) :
    Code TaskResult := do
  let occupied ← if strategy = .overwrite then fs (.metadata finalPath) else pure none
  let cleared ← if occupied.isSome then fs (.removeFile finalPath) else pure (.ok ())
  match cleared with
  | .error e => abandon item tempPath (ioErrorCode e)
  | .ok () =>
      match ← fs (.rename tempPath finalPath) with
      | .error e => abandon item tempPath (ioErrorCode e)
      | .ok () => pure (ackOf item true none)

section Hashing

variable (blake3 : Bytes → Digest)

/-- The chunk loop. `hashed` is what the hasher has seen; the stream ends with the list. -/
def receiveLoop (item : FileItem) (id : String) (strategy : FileConflictStrategy)
    (finalPath tempPath : PathBuf) :
    Bytes → List (Except ReadFault DashMessage) → Code TaskResult
  | _, [] => abandon item tempPath (.protocol (ReadFault.top (.len "stream finished early")))
  | _, .error f :: _ => abandon item tempPath (.protocol (ReadFault.top f))
  | hashed, .ok (.chunk chunk) :: rest =>
      if chunk.fileId ≠ item.fileId then failWith item (.protocol "file_id mismatch")
      else do
        match ← fs (.writeAll tempPath chunk.data) with
        | .error e => abandon item tempPath (ioErrorCode e)
        | .ok () =>
            addProgress id chunk.data.length
            receiveLoop item id strategy finalPath tempPath (hashed ++ chunk.data) rest
  | hashed, .ok (.complete complete) :: _ =>
      if complete.fileId ≠ item.fileId then
        failWith item (.protocol "file_id mismatch in complete")
      else do
        match ← fs (.flush tempPath) with
        | .error e => abandon item tempPath (ioErrorCode e)
        | .ok () =>
            if blake3 hashed ≠ complete.fileHash then abandon item tempPath .hashMismatch
            else placeFile item strategy finalPath tempPath
  | _, .ok (.cancel _) :: _ => abandon item tempPath .cancelled
  | _, .ok _ :: _ => abandon item tempPath (.protocol "unexpected message")

def receiveDirectory (item : FileItem) (validatedPath : PathBuf) :
    DashMessage → Code TaskResult
  | .complete complete =>
      if complete.fileId ≠ item.fileId then
        failWith item (.protocol "file_id mismatch in complete")
      else if complete.fileHash ≠ blake3 [] then failWith item .hashMismatch
      else do
        match ← fs (.createDirAll validatedPath) with
        | .error e => failWith item (ioErrorCode e)
        | .ok () => pure (ackOf item true none)
  | .cancel _ => failWith item .cancelled
  | _ => failWith item (.protocol "expected Complete for directory")

/-- The length of a leftover part file; one that is too long is removed and counts as none. -/
def leftoverLength (item : FileItem) (tempPath : PathBuf) : Code ℕ := do
  match ← fs (.metadata tempPath) with
  | none => pure 0
  | some found =>
      if found.len > item.size then do
        let _ ← fs (.removeFile tempPath)
        pure 0
      else pure found.len

/-- Open the part file: append to a leftover, else start from scratch. `none` is the
panic of the unwrapped second attempt. -/
def openTemp (tempPath : PathBuf) (currentOffset : ℕ) : Code (Option (Except IoError Unit)) := do
  if currentOffset > 0 then
    match ← fs (.openAppend tempPath) with
    | .ok () => pure (some (.ok ()))
    | .error _ =>
        let _ ← fs (.removeFile tempPath)
        match ← fs (.createFile tempPath) with
        | .ok () => pure (some (.ok ()))
        | .error _ => pure none
  else
    let opened ← fs (.createFile tempPath)
    pure (some opened)

def receiveRegular (item : FileItem) (id : String) (strategy : FileConflictStrategy)
    (finalPath : PathBuf) (messages : List (Except ReadFault DashMessage)) :
    Code TaskResult := do
  let made ← match finalPath.parent with
    | some parent => fs (.createDirAll parent)
    | none => pure (.ok ())
  match made with
  | .error e => failWith item (ioErrorCode e)
  | .ok () =>
      let tempPath := tempPathFor finalPath
      -- the size comparison with an existing final file only logs
      let _ ← fs (.metadata finalPath)
      let currentOffset ← leftoverLength item tempPath
      match ← openTemp tempPath currentOffset with
      | none => pure .panicked
      | some (.error e) => failWith item (ioErrorCode e)
      | some (.ok ()) => receiveLoop blake3 item id strategy finalPath tempPath [] messages

/-- `receive_one_file`; `messages` is the first message and what the stream yields after it. -/
def receiveOneFile (item : FileItem) (firstMsg : DashMessage)
    (rest : List (Except ReadFault DashMessage)) (saveRoot : PathBuf) (id : String) :
    Code TaskResult := do
  match validateRelPath item.relPath.toList saveRoot with
  | .error _ => failWith item .invalidPath
  | .ok validatedPath =>
      let config ← env .config
      match item.fileType with
      | .directory => receiveDirectory blake3 item validatedPath firstMsg
      | .regularFile =>
          match ← resolveConflictPath validatedPath config.fileConflictStrategy with
          | .error e => failWith item (.protocol e)
          | .ok none => failWith item .pathConflict
          | .ok (some finalPath) =>
              receiveRegular blake3 item id config.fileConflictStrategy finalPath
                (.ok firstMsg :: rest)

end Hashing

def rejectReason (isTimeout : Bool) : String × String :=
  if isTimeout then ("E_TIMEOUT", "Timeout") else ("E_REJECTED_BY_USER", "RejectedByReceiver")

def trustedAutoAcceptMaxBytes : ℕ := 500 * 1024 * 1024

def highRiskSuffixes : List (List Char) :=
  [".app", ".bat", ".bash", ".cmd", ".deb", ".exe", ".msi", ".pkg", ".ps1", ".rpm", ".sh",
    ".zsh"].map String.toList

def inferOfferRiskClass (item : FileItem) : RiskClass :=
  match item.riskClass with
  | some riskClass => riskClass
  | none =>
      let fileName := (PathBuf.ofText item.relPath.toList).fileName.map Name.text
      let candidate := toAsciiLowercase (fileName.getD item.name.toList)
      if highRiskSuffixes.any fun suffix => suffix.isSuffixOf candidate then .high else .normal

inductive ManualReviewReason where
  | untrustedOrUnauthenticated
  | autoAcceptDisabled
  | sizeThreshold
  | highRisk
  deriving DecidableEq

inductive AutoAcceptDecision where
  | autoAccept
  | requireManual (reason : ManualReviewReason)
  deriving DecidableEq

def determineAutoAcceptDecision (trustedAndAuthenticated autoAcceptTrustedOnly : Bool)
    (totalSize : ℕ) (items : List FileItem) : AutoAcceptDecision :=
  if !trustedAndAuthenticated then .requireManual .untrustedOrUnauthenticated
  else if !autoAcceptTrustedOnly then .requireManual .autoAcceptDisabled
  else if totalSize > trustedAutoAcceptMaxBytes then .requireManual .sizeThreshold
  else if items.any fun item => inferOfferRiskClass item = .high then .requireManual .highRisk
  else .autoAccept

def baseDir (downloadDir hostDir home : Option String) : PathBuf :=
  match downloadDir, hostDir with
  | some dir, _ => .ofText dir.toList
  | none, some dir => .ofText dir.toList
  | none, none => (PathBuf.ofText (home.getD "/tmp").toList).join (.ofText "Downloads".toList)

/-- `<base>/DashDrop`. -/
def dropDir (base : PathBuf) : PathBuf := base.join (.ofText "DashDrop".toList)

def getSaveRoot (transferId : String) : Code PathBuf := do
  let config ← env .config
  let (hostDir, home) ← env .hostDirs
  pure ((dropDir (baseDir config.downloadDir hostDir home)).join (.ofText transferId.toList))

/-- The disk with the longest mount point that is a prefix of the save root; on equal
lengths the first one found. -/
def matchDisk (saveRoot : PathBuf) (found : ℕ × Option Disk) (disk : Disk) : ℕ × Option Disk :=
  if saveRoot.startsWith (.ofText disk.mountPoint.toList) then
    let len := disk.mountPoint.utf8ByteSize
    if len > found.1 then (len, some disk) else found
  else found

def sufficientSpace (saveRoot : PathBuf) (totalSize : ℕ) (disks : List Disk) : Bool :=
  match (disks.foldl (matchDisk saveRoot) (0, none)).2 with
  | some disk => totalSize ≤ disk.availableSpace
  | none => true

def markIfSome (id : String) : Option (Option String) → Code Unit
  | some reason => note (.markInactive id reason)
  | none => pure ()

def recordIfSome (id : String) : Option TerminalRecord → Code Unit
  | some r => task (.record id r)
  | none => pure ()

def updateTransferStatus (id : String) (status : TransferStatus) (reason : Option String) :
    Code (Option ℕ) := do
  match ← task (.updateStatus id status reason) with
  | none => pure none
  | some update =>
      markIfSome id update.notify
      recordIfSome id update.record
      pure (some update.revision)

def emitTransferTerminal (id : String) (status : TransferStatus) (code cause phase : String) :
    Code Unit := do
  let revision ← task (.revision id)
  emit (.transferTerminal id status code cause revision (some phase))

def emitTransferError (id : String) (code cause phase detail : String) : Code Unit := do
  let revision ← task (.revision id)
  emit (.transferError (some id) code cause phase revision (some detail))

/-- The arguments of one call of `handle_offer`. The receive tasks of the offer add the
chunk lengths `progress` to the task while they run. -/
structure IncomingOffer where
  offer : OfferPayload
  conn : ℕ
  peerFp : String
  peerAuthenticated : Bool
  chosenVersion : ℕ
  progress : List ℕ

def IncomingOffer.id (o : IncomingOffer) : String := o.offer.transferId

def IncomingOffer.newTask (o : IncomingOffer) (startedAtUnix : ℕ) : TransferTask where
  id := o.id
  direction := .receive
  peerFingerprint := o.peerFp
  peerName := o.offer.senderName
  items := o.offer.items.map FileItemMeta.ofItem
  status := .pendingAccept
  bytesTransferred := 0
  totalBytes := o.offer.totalSize
  revision := 0
  startedAtUnix := startedAtUnix
  endedAtUnix := none
  terminalReasonCode := none
  error := none
  sourcePaths := none
  sourcePathByFileId := none
  failedFileIds := none
  conn := some o.conn

def rejectForSpace (o : IncomingOffer) : Code (Except String Unit) := do
  match ← net (.write o.conn o.id (.reject ⟨.diskFull⟩)) with
  | .error f => pure (.error f.display)
  | .ok () =>
      let _ ← updateTransferStatus o.id .failed (some "E_DISK_FULL")
      task (.setError o.id "Insufficient disk space")
      emitTransferTerminal o.id .failed "E_DISK_FULL" "DiskFull" "preflight"
      pure (.ok ())

/-- The prompt and the wait for the user: `(user_accepted, is_timeout)`. -/
def awaitDecision (o : IncomingOffer) : Code (Bool × Bool) := do
  let _ ← note (.ensure o.id)
  let chan ← gate (.register o.id)
  match ← gate (.wait chan) with
  | .value v => pure (v, false)
  | .senderGone => pure (false, false)
  | .timedOut => pure (false, true)

def decideOffer (o : IncomingOffer) : Code (Bool × Bool) := do
  let trusted ← env (.isActiveTrust o.peerFp)
  let notificationId ← note (.ensure o.id)
  let revision ← task (.revision o.id)
  emit (.transferIncoming o.id notificationId o.offer.senderName o.peerFp trusted
    o.offer.items o.offer.totalSize revision)
  let config ← env .config
  let decision := determineAutoAcceptDecision (trusted && o.peerAuthenticated)
    config.autoAcceptTrustedOnly o.offer.totalSize o.offer.items
  if decision = .autoAccept then pure (true, false) else awaitDecision o

def rejectOffer (o : IncomingOffer) (isTimeout : Bool) : Code (Except String Unit) := do
  match ← net (.write o.conn o.id (.reject ⟨.rejected⟩)) with
  | .error f => pure (.error f.display)
  | .ok () =>
      let (reasonCode, terminalCause) := rejectReason isTimeout
      let _ ← updateTransferStatus o.id .rejected (some reasonCode)
      emitTransferTerminal o.id .rejected reasonCode terminalCause "offer"
      pure (.ok ())

/-- Part files that can be resumed, by file id; ones that are too long are removed. -/
def resumeOffsets (strategy : FileConflictStrategy) (saveRoot : PathBuf) :
    List FileItem → Code (List (ℕ × ℕ))
  | [] => pure []
  | item :: rest =>
      match validateRelPath item.relPath.toList saveRoot with
      | .error _ => resumeOffsets strategy saveRoot rest
      | .ok validatedPath => do
          let finalPath := match ← resolveConflictPath validatedPath strategy with
            | .ok (some path) => path
            | _ => validatedPath
          let tempPath := tempPathFor finalPath
          match ← fs (.metadata tempPath) with
          | none => resumeOffsets strategy saveRoot rest
          | some found =>
              if 0 < found.len ∧ found.len ≤ item.size then do
                let offsets ← resumeOffsets strategy saveRoot rest
                -- a later item with the same id replaces this entry
                pure (if offsets.any fun e => e.1 = item.fileId then offsets
                  else (item.fileId, found.len) :: offsets)
              else if found.len > item.size then do
                let _ ← fs (.removeFile tempPath)
                resumeOffsets strategy saveRoot rest
              else resumeOffsets strategy saveRoot rest

def addProgressAll (id : String) : List ℕ → Code Unit
  | [] => pure ()
  | n :: rest => do
      addProgress id n
      addProgressAll id rest

/-- `receive_files` as its caller sees it: the tasks run, then their results are joined. -/
def receiveFiles (o : IncomingOffer) : Code TransferOutcome := do
  addProgressAll o.id o.progress
  let (cancelledByPeer, results) ← env .joinReceive
  pure (receiveOutcome cancelledByPeer results o.offer.items)

def finishReceive (o : IncomingOffer) : TransferOutcome → Code Unit
  | .success => do
      let _ ← updateTransferStatus o.id .completed none
      let revision ← task (.revision o.id)
      emit (.transferComplete o.id revision)
  | .partialSuccess failed => do
      let _ ← updateTransferStatus o.id .partialCompleted none
      let revision ← task (.revision o.id)
      emit (.transferPartly o.id (o.offer.items.length - failed.length) failed revision)
  | .failed e => do
      let _ ← updateTransferStatus o.id .failed (some e.reasonCode)
      emitTransferTerminal o.id .failed e.reasonCode "NetworkDropped" "receive"
      emitTransferError o.id e.reasonCode "NetworkDropped" "receive" e.display
  | .cancelledBySender => do
      let _ ← updateTransferStatus o.id .cancelledBySender (some "E_CANCELLED_BY_SENDER")
      emitTransferTerminal o.id .cancelledBySender "E_CANCELLED_BY_SENDER" "CancelledBySender"
        "receive"
  | .cancelledByReceiver => do
      let _ ← updateTransferStatus o.id .cancelledByReceiver (some "E_CANCELLED_BY_RECEIVER")
      emitTransferTerminal o.id .cancelledByReceiver "E_CANCELLED_BY_RECEIVER"
        "CancelledByReceiver" "receive"

def failSetup (o : IncomingOffer) (e : IoError) : Code Unit := do
  let reason := ioErrorCode e
  let _ ← net (.write o.conn o.id (.cancel ⟨.error reason⟩))
  let _ ← updateTransferStatus o.id .failed (some reason.reasonCode)
  emitTransferTerminal o.id .failed reason.reasonCode "ReceiverStorageError" "receive_setup"
  emitTransferError o.id reason.reasonCode "ReceiverStorageError" "receive_setup" e.text

def acceptOffer (o : IncomingOffer) (saveRoot : PathBuf) : Code (Except String Unit) := do
  let accepted ← updateTransferStatus o.id .transferring none
  emit (.transferAccepted o.id (accepted.getD 0))
  let config ← env .config
  let offsets ← resumeOffsets config.fileConflictStrategy saveRoot o.offer.items
  match ← net (.write o.conn o.id
      (.accept ⟨o.chosenVersion, if offsets.isEmpty then none else some offsets⟩)) with
  | .error f => pure (.error f.display)
  | .ok () =>
      match ← fs (.createDirAll saveRoot) with
      | .error e =>
          failSetup o e
          pure (.ok ())
      | .ok () =>
          let outcome ← receiveFiles o
          finishReceive o outcome
          pure (.ok ())

def handleOffer (o : IncomingOffer) : Code (Except String Unit) := do
  let startedAtUnix ← env .now
  task (.insert (o.newTask startedAtUnix))
  let saveRoot ← getSaveRoot o.id
  let disks ← env .disks
  if sufficientSpace saveRoot o.offer.totalSize disks then
    let (userAccepted, isTimeout) ← decideOffer o
    if userAccepted then acceptOffer o saveRoot else rejectOffer o isTimeout
  else rejectForSpace o

end DashDrop.Transport.Receiver
