/- GID: DashDrop/Runtime/Footprint
   source: src-tauri/src/transport/receiver.rs, src-tauri/src/transport/sender.rs,
     src-tauri/src/core_service.rs, src-tauri/src/runtime/supervisor.rs
   anchors: []
   digest: The operations each party can ask for, whatever it is answered. -/

import DashDrop.Runtime.Supervisor
import DashDrop.Transport.DiskNames

set_option autoImplicit false
set_option relaxedAutoImplicit false

namespace DashDrop.Runtime.Footprint

open DashDrop.Foundation.UnixPath DashDrop.Foundation.FileTree DashDrop.Foundation.Oneshot
open DashDrop.Foundation.Program DashDrop.Foundation.Interleaving
open DashDrop.Transport.Protocol DashDrop.Transport.Outcome
open DashDrop.Transport.Receiver DashDrop.Transport.Sender DashDrop.Transport.DiskNames
open DashDrop.Runtime.State DashDrop.Runtime.Machine DashDrop.Runtime.Supervisor
open DashDrop.CoreService

def anything {α : Type} : α → Prop := fun _ => True

def placingOps (final temp : PathBuf) : Op → Prop
  | .fs (.metadata _) => True
  | .fs (.createDirAll p) => final.parent = some p
  | .fs (.createFile p) | .fs (.openAppend p) | .fs (.writeAll p _) | .fs (.flush p) => p = temp
  | .fs (.removeFile p) => p = temp ∨ p = final
  | .fs (.rename p q) => p = temp ∧ q = final
  | .task (.addBytes _ _) | .env (.emit _) => True
  | _ => False

def fillingOps (final temp : PathBuf) : Op → Prop
  | .fs (.metadata _) => True
  | .fs (.writeAll p _) | .fs (.flush p) => p = temp
  | .fs (.removeFile p) => p = temp ∨ p = final
  | .fs (.rename p q) => p = temp ∧ q = final
  | .task (.addBytes _ _) | .env (.emit _) => True
  | _ => False

theorem placing_of_filling {final temp : PathBuf} (o : Op) (h : fillingOps final temp o) :
    placingOps final temp o := by
  cases o with
  | fs g =>
    cases g with
    | createDirAll | createFile | openAppend => exact h.elim
    | _ => exact h
  | task u =>
    cases u with
    | addBytes => exact h
    | _ => exact h.elim
  | env u =>
    cases u with
    | emit => exact h
    | _ => exact h.elim
  | _ => exact h.elim

section File

variable (item : FileItem) (id : String) (strategy : FileConflictStrategy) (final temp : PathBuf)

private theorem abandon_within (reason : ErrorCode) :
    (abandon item temp reason).Within (fillingOps final temp) anything :=
  ⟨.inl rfl, fun _ => trivial⟩

/-- The rename that ends `placeFile`. -/
def moveIntoPlace : Code TaskResult := do
  match ← fs (.rename temp final) with
  | .error e => abandon item temp (ioErrorCode e)
  | .ok () => pure (ackOf item true none)

private theorem placeFile_within :
    (placeFile item strategy final temp).Within (fillingOps final temp) anything := by
  have renames : (moveIntoPlace item final temp).Within (fillingOps final temp) anything := by
    refine ⟨⟨rfl, rfl⟩, fun r => ?_⟩
    cases r with
    | error e => exact abandon_within item final temp _
    | ok _ => trivial
  by_cases hover : strategy = .overwrite
  · subst hover
    refine ⟨trivial, fun occupied => ?_⟩
    cases occupied with
    | none => exact renames
    | some _ =>
      refine ⟨.inr rfl, fun r => ?_⟩
      cases r with
      | error e => exact abandon_within item final temp _
      | ok _ => exact renames
  · unfold placeFile
    rw [if_neg hover]
    exact renames

theorem receiveLoop_within (blake3 : Bytes → Digest) (hashed : Bytes)
    (messages : List (Except ReadFault DashMessage)) :
    (receiveLoop blake3 item id strategy final temp hashed messages).Within (fillingOps final temp)
      anything := by
  induction messages generalizing hashed with
  | nil => exact abandon_within item final temp _
  | cons m rest ih =>
    cases m with
    | error f => exact abandon_within item final temp _
    | ok message =>
      cases message with
      | chunk chunk =>
        simp only [receiveLoop]
        split_ifs
        · trivial
        · refine ⟨rfl, fun r => ?_⟩
          cases r with
          | error e => exact abandon_within item final temp _
          | ok _ =>
            have counted : (addProgress id chunk.data.length).Within (fillingOps final temp)
                anything := by
              refine ⟨trivial, fun r => ?_⟩
              cases r with
              | none => trivial
              | some p => exact ⟨trivial, fun _ => trivial⟩
            exact counted.bind fun _ _ => ih _
      | complete complete =>
        simp only [receiveLoop]
        split_ifs
        · trivial
        · refine ⟨rfl, fun r => ?_⟩
          cases r <;> exact abandon_within item final temp _
        · refine ⟨rfl, fun r => ?_⟩
          cases r with
          | error e => exact abandon_within item final temp _
          | ok _ => exact placeFile_within item strategy final temp
      | _ => exact abandon_within item final temp _

theorem leftoverLength_within :
    (leftoverLength item temp).Within (fillingOps final temp) anything := by
  refine ⟨trivial, fun r => ?_⟩
  cases r with
  | none => trivial
  | some found =>
    simp only [ret_bind]
    split_ifs
    · exact ⟨.inl rfl, fun _ => trivial⟩
    · trivial

theorem openTemp_within (currentOffset : ℕ) :
    (openTemp temp currentOffset).Within (placingOps final temp) anything := by
  unfold openTemp
  split_ifs
  · refine ⟨rfl, fun r => ?_⟩
    cases r with
    | ok _ => trivial
    | error e =>
      refine ⟨.inl rfl, fun _ => ⟨rfl, fun r => ?_⟩⟩
      cases r <;> trivial
  · exact ⟨rfl, fun _ => trivial⟩

/-- `receiveRegular` from the answer to the opening of the part file on. -/
def fillOpened (blake3 : Bytes → Digest) (messages : List (Except ReadFault DashMessage)) :
    Option (Except IoError Unit) → Code TaskResult
  | none => pure .panicked
  | some (.error e) => failWith item (ioErrorCode e)
  | some (.ok ()) => receiveLoop blake3 item id strategy final (tempPathFor final) [] messages

/-- `receiveRegular` below a directory that is there. -/
def fillPart (blake3 : Bytes → Digest) (messages : List (Except ReadFault DashMessage)) :
    Code TaskResult := do
  let _ ← fs (.metadata final)
  let currentOffset ← leftoverLength item (tempPathFor final)
  fillOpened item id strategy final blake3 messages
    (← openTemp (tempPathFor final) currentOffset)

theorem receiveRegular_within (blake3 : Bytes → Digest)
    (messages : List (Except ReadFault DashMessage)) :
    (receiveRegular blake3 item id strategy final messages).Within
      (placingOps final (tempPathFor final)) anything := by
  have filled : (fillPart item id strategy final blake3 messages).Within
      (placingOps final (tempPathFor final)) anything := by
    refine ⟨trivial, fun _ => ?_⟩
    have leftover := leftoverLength_within item final (tempPathFor final)
    refine (leftover.mono placing_of_filling fun _ h => h).bind fun offset _ => ?_
    refine (openTemp_within final _ offset).bind fun opened _ => ?_
    rcases opened with _ | (e | _)
    · trivial
    · trivial
    · have filled := receiveLoop_within item id strategy final (tempPathFor final) blake3 [] messages
      exact filled.mono placing_of_filling fun _ h => h
  unfold receiveRegular
  split
  · rename_i parent hparent
    refine ⟨hparent, fun made => ?_⟩
    cases made with
    | error e => trivial
    | ok _ => exact filled
  · exact filled

end File

def silent : EnvOp → Prop
  | .emit (.transferIncoming _ _ _ _ _ _ _ _) => False
  | _ => True

/-- The operations of `handle_offer` outside its prompt, its answers, its status updates and
its files. -/
def calmOps (o : IncomingOffer) : Op → Prop
  | .task (.setError id _) | .task (.addBytes id _) | .task (.revision id) => id = o.id
  | .env e => silent e
  | _ => False

/-- The operations of `handle_offer` up to the decision. -/
def promptOps (o : IncomingOffer) (op : Op) : Prop :=
  calmOps o op ∨
  match op with
  | .note (.ensure id) | .gate (.register id) => id = o.id
  | .gate (.wait _) | .env (.emit _) => True
  | _ => False

/-- The operations of `handle_offer` that answer the peer and keep the status. -/
def answerOps (o : IncomingOffer) (op : Op) : Prop :=
  promptOps o op ∨
  match op with
  | .task (.updateStatus id status _) => id = o.id ∧ status ≠ .pendingAccept
  | .task (.record id _) | .note (.markInactive id _) => id = o.id
  | .net (.write c id m) => c = o.conn ∧ id = o.id ∧ m.isOfferOrChunk = false
  | _ => False

def fileOps : Op → Prop
  | .fs _ => True
  | _ => False

/-- The operations of `handle_offer` after it has put its task into the map. -/
def offerOps (o : IncomingOffer) (op : Op) : Prop := answerOps o op ∨ fileOps op

section Offer

variable (o : IncomingOffer)

private theorem calm {α : Type} {x : Code α} (h : x.Within (calmOps o) anything) :
    x.Within (answerOps o) anything :=
  h.mono (fun _ ho => .inl (.inl ho)) fun _ _ => trivial

theorem markIfSome_within (notify : Option (Option String)) :
    (markIfSome o.id notify).Within (answerOps o) anything := by
  cases notify with
  | none => trivial
  | some reason => exact ⟨.inr rfl, fun _ => trivial⟩

theorem recordIfSome_within (r : Option TerminalRecord) :
    (recordIfSome o.id r).Within (answerOps o) anything := by
  cases r with
  | none => trivial
  | some r => exact ⟨.inr rfl, fun _ => trivial⟩

theorem updateTransferStatus_within {status : TransferStatus} (h : status ≠ .pendingAccept)
    (reason : Option String) :
    (updateTransferStatus o.id status reason).Within (answerOps o) anything := by
  refine ⟨.inr ⟨rfl, h⟩, fun r => ?_⟩
  cases r with
  | none => trivial
  | some u =>
    refine (markIfSome_within o u.notify).bind fun _ _ => ?_
    exact (recordIfSome_within o u.record).bind fun _ _ => trivial

theorem emitTransferTerminal_within (status : TransferStatus) (code cause phase : String) :
    (emitTransferTerminal o.id status code cause phase).Within (calmOps o) anything :=
  ⟨rfl, fun _ => ⟨trivial, fun _ => trivial⟩⟩

theorem emitTransferError_within (code cause phase detail : String) :
    (emitTransferError o.id code cause phase detail).Within (calmOps o) anything :=
  ⟨rfl, fun _ => ⟨trivial, fun _ => trivial⟩⟩

theorem rejectForSpace_within : (rejectForSpace o).Within (answerOps o) anything := by
  refine ⟨.inr ⟨rfl, rfl, rfl⟩, fun r => ?_⟩
  cases r with
  | error f => trivial
  | ok _ =>
    refine (updateTransferStatus_within o (by decide) _).bind fun _ _ => ?_
    refine ⟨.inl (.inl rfl), fun _ => ?_⟩
    exact (calm o (emitTransferTerminal_within o ..)).bind fun _ _ => trivial

theorem awaitDecision_within : (awaitDecision o).Within (promptOps o) anything := by
  refine ⟨.inr rfl, fun _ => ⟨.inr rfl, fun _ => ⟨.inr trivial, fun r => ?_⟩⟩⟩
  cases r <;> trivial

theorem decideOffer_within : (decideOffer o).Within (promptOps o) anything := by
  refine ⟨.inl trivial, fun _ => ⟨.inr rfl, fun _ => ⟨.inl rfl, fun _ => ?_⟩⟩⟩
  refine ⟨.inr trivial, fun _ => ⟨.inl trivial, fun config => ?_⟩⟩
  simp only [ret_bind]
  split_ifs
  · trivial
  · exact awaitDecision_within o

theorem rejectOffer_within (isTimeout : Bool) :
    (rejectOffer o isTimeout).Within (answerOps o) anything := by
  refine ⟨.inr ⟨rfl, rfl, rfl⟩, fun r => ?_⟩
  cases r with
  | error f => trivial
  | ok _ =>
    refine (updateTransferStatus_within o (by decide) _).bind fun _ _ => ?_
    exact (calm o (emitTransferTerminal_within o ..)).bind fun _ _ => trivial

theorem resolveConflictPath_within (desired : PathBuf) (strategy : FileConflictStrategy) :
    (resolveConflictPath desired strategy).Within looksOnly anything :=
  (resolveConflictPath_spec desired strategy).mono (fun _ ho => ho) fun _ _ => trivial

private theorem files_of_looks {o : Op} (h : looksOnly o) : fileOps o := by
  cases o with
  | fs g => trivial
  | _ => exact h.elim

theorem resumeOffsets_within (strategy : FileConflictStrategy) (saveRoot : PathBuf)
    (items : List FileItem) :
    (resumeOffsets strategy saveRoot items).Within fileOps anything := by
  induction items with
  | nil => trivial
  | cons item rest ih =>
    unfold resumeOffsets
    split
    · exact ih
    · rename_i path _
      have resolved := (resolveConflictPath_within path strategy).mono (fun _ => files_of_looks)
        fun _ h => h
      refine resolved.bind fun _ _ => ⟨trivial, fun r => ?_⟩
      cases r with
      | none => exact ih
      | some found =>
        simp only [ret_bind]
        split_ifs
        · exact ih.bind fun _ _ => trivial
        · exact ⟨trivial, fun _ => ih⟩
        · exact ih

theorem addProgress_within (n : ℕ) : (addProgress o.id n).Within (calmOps o) anything := by
  refine ⟨rfl, fun r => ?_⟩
  cases r with
  | none => trivial
  | some p => exact ⟨trivial, fun _ => trivial⟩

theorem receiveFiles_within : (receiveFiles o).Within (calmOps o) anything := by
  have counts (ns : List ℕ) : (addProgressAll o.id ns).Within (calmOps o) anything := by
    induction ns with
    | nil => trivial
    | cons n ns ih => exact (addProgress_within o n).bind fun _ _ => ih
  exact (counts o.progress).bind fun _ _ => ⟨trivial, fun _ => trivial⟩

theorem finishReceive_within (outcome : TransferOutcome) :
    (finishReceive o outcome).Within (answerOps o) anything := by
  cases outcome with
  | success =>
    refine (updateTransferStatus_within o (by decide) _).bind fun _ _ => ?_
    exact ⟨.inl (.inl rfl), fun _ => ⟨.inl (.inl trivial), fun _ => trivial⟩⟩
  | partialSuccess failed =>
    refine (updateTransferStatus_within o (by decide) _).bind fun _ _ => ?_
    exact ⟨.inl (.inl rfl), fun _ => ⟨.inl (.inl trivial), fun _ => trivial⟩⟩
  | failed e =>
    refine (updateTransferStatus_within o (by decide) _).bind fun _ _ => ?_
    refine (calm o (emitTransferTerminal_within o ..)).bind fun _ _ => ?_
    exact calm o (emitTransferError_within o ..)
  | cancelledBySender =>
    refine (updateTransferStatus_within o (by decide) _).bind fun _ _ => ?_
    exact calm o (emitTransferTerminal_within o ..)
  | cancelledByReceiver =>
    refine (updateTransferStatus_within o (by decide) _).bind fun _ _ => ?_
    exact calm o (emitTransferTerminal_within o ..)

theorem failSetup_within (e : IoError) : (failSetup o e).Within (answerOps o) anything := by
  refine ⟨.inr ⟨rfl, rfl, rfl⟩, fun _ => ?_⟩
  refine (updateTransferStatus_within o (by decide) _).bind fun _ _ => ?_
  refine (calm o (emitTransferTerminal_within o ..)).bind fun _ _ => ?_
  exact calm o (emitTransferError_within o ..)

theorem acceptOffer_within (saveRoot : PathBuf) :
    (acceptOffer o saveRoot).Within (offerOps o) anything := by
  have answer {α : Type} {x : Code α} (h : x.Within (answerOps o) anything) :
      x.Within (offerOps o) anything := h.mono (fun _ ho => .inl ho) fun _ h => h
  refine (answer (updateTransferStatus_within o (by decide) _)).bind fun _ _ => ?_
  refine ⟨.inl (.inl (.inl trivial)), fun _ => ⟨.inl (.inl (.inl trivial)), fun config => ?_⟩⟩
  have files := (resumeOffsets_within config.fileConflictStrategy saveRoot o.offer.items).mono
    (fun _ ho => (.inr ho : offerOps o _)) fun _ h => h
  refine files.bind fun _ _ => ⟨.inl (.inr ⟨rfl, rfl, rfl⟩), fun r => ?_⟩
  cases r with
  | error f => trivial
  | ok _ =>
    refine ⟨.inr trivial, fun made => ?_⟩
    cases made with
    | error e => exact (answer (failSetup_within o e)).bind fun _ _ => trivial
    | ok _ =>
      refine (answer (calm o (receiveFiles_within o))).bind fun outcome _ => ?_
      exact (answer (finishReceive_within o outcome)).bind fun _ _ => trivial

/-- `handle_offer` from the disk check on. -/
def offerBody : Code (Except String Unit) := do
  let saveRoot ← getSaveRoot o.id
  let disks ← env .disks
  if sufficientSpace saveRoot o.offer.totalSize disks then
    let (userAccepted, isTimeout) ← decideOffer o
    if userAccepted then acceptOffer o saveRoot else rejectOffer o isTimeout
  else rejectForSpace o

theorem handleOffer_eq : handleOffer o =
    .op (.env .now) fun now => .op (.task (.insert (o.newTask now))) fun _ => offerBody o := rfl

theorem offerBody_within : (offerBody o).Within (offerOps o) anything := by
  have answer {α : Type} {x : Code α} (h : x.Within (answerOps o) anything) :
      x.Within (offerOps o) anything := h.mono (fun _ ho => .inl ho) fun _ h => h
  refine ⟨.inl (.inl (.inl trivial)), fun config => ⟨.inl (.inl (.inl trivial)), fun dirs => ?_⟩⟩
  refine ⟨.inl (.inl (.inl trivial)), fun disks => ?_⟩
  simp only [ret_bind]
  split_ifs
  · have prompt : (decideOffer o).Within (offerOps o) anything :=
      (decideOffer_within o).mono (fun _ ho => .inl (.inl ho)) fun _ _ => trivial
    refine prompt.bind fun decision _ => ?_
    obtain ⟨userAccepted, isTimeout⟩ := decision
    cases userAccepted with
    | true => exact acceptOffer_within o _
    | false => exact answer (rejectOffer_within o isTimeout)
  · exact answer (rejectForSpace_within o)

end Offer

/-- The operations of accept and reject, with the value they send. -/
def decisionOps (id : String) (value : Bool) : Op → Prop
  | .note (.read y) | .note (.markInactive y _) | .task (.status y) => y = id
  | .gate (.contains y) | .gate (.take y) | .gate (.discard y) => y = id
  | .gate (.send _ v) => v = value
  | _ => False

theorem incomingRequestActionState_within (id : String) (notificationId : Uuid) (value : Bool) :
    (incomingRequestActionState id notificationId).Within (decisionOps id value) anything := by
  refine ⟨rfl, fun notification => ⟨rfl, fun status => ?_⟩⟩
  simp only [ret_bind]
  split
  all_goals
    try split_ifs
  all_goals first
    | trivial
    | (refine ⟨rfl, fun present => ?_⟩
       simp only [ret_bind]
       split_ifs <;> trivial)

theorem decidePendingTransfer_within (value : Bool) (missing lost : Except String Unit)
    (id : String) (notificationId : Uuid) :
    (decidePendingTransfer value missing lost id notificationId).Within
      (decisionOps id value) anything := by
  refine (incomingRequestActionState_within id notificationId value).bind fun seen _ => ?_
  cases seen with
  | expired => exact ⟨rfl, fun _ => ⟨rfl, fun _ => trivial⟩⟩
  | staleNotification => trivial
  | missing => trivial
  | pending =>
    refine ⟨rfl, fun taken => ?_⟩
    cases taken with
    | some chan => exact ⟨rfl, fun _ => ⟨rfl, fun _ => trivial⟩⟩
    | none =>
      refine (incomingRequestActionState_within id notificationId value).bind fun again _ => ?_
      cases again with
      | expired => exact ⟨rfl, fun _ => trivial⟩
      | staleNotification => trivial
      | missing => trivial
      | pending => trivial

def cancelOps (id : String) : Op → Prop
  | .gate (.take y) | .note (.markInactive y _) => y = id
  | .gate (.send _ v) => v = false
  | .task (.cancel y _) | .task (.record y _) => y = id
  | .net (.write _ y m) => y = id ∧ m.isOfferOrChunk = false
  | .net (.close _) => True
  | _ => False

theorem cancelTask_within (id : String) (hasHost : Bool) :
    (cancelTask id hasHost).Within (cancelOps id) anything := by
  refine ⟨rfl, fun found => ?_⟩
  match found with
  | none => trivial
  | some (record, none) => exact ⟨rfl, fun _ => trivial⟩
  | some (record, some conn) =>
    exact ⟨⟨rfl, rfl⟩, fun _ => ⟨trivial, fun _ => ⟨rfl, fun _ => trivial⟩⟩⟩

theorem cancelTransfer_within (id : String) (hasHost : Bool) :
    (cancelTransfer id hasHost).Within (cancelOps id) anything := by
  have inner : (cancelTransferInner id hasHost).Within (cancelOps id) anything := by
    refine ⟨rfl, fun taken => ?_⟩
    cases taken with
    | none => exact cancelTask_within id hasHost
    | some chan => exact ⟨rfl, fun _ => ⟨rfl, fun _ => cancelTask_within id hasHost⟩⟩
  refine inner.bind fun found _ => ?_
  cases found <;> trivial

def maintenanceOps : Op → Prop
  | .task .snapshot | .note (.ensure _) | .note (.markInactive _ _) | .gate (.retain _) => True
  | _ => False

theorem maintenanceLoop_within (ticks : ℕ) :
    (maintenanceLoop ticks).Within maintenanceOps anything := by
  have ensures (ids : List String) : (ensureAll ids).Within maintenanceOps anything := by
    induction ids with
    | nil => trivial
    | cons id ids ih => exact ⟨trivial, fun _ => ih⟩
  have marks (es : List (String × Option String)) :
      (markAllInactive es).Within maintenanceOps anything := by
    induction es with
    | nil => trivial
    | cons e es ih => exact ⟨trivial, fun _ => ih⟩
  induction ticks with
  | zero => trivial
  | succ ticks ih =>
    have pass : maintenancePass.Within maintenanceOps anything := by
      refine ⟨trivial, fun states => (ensures _).bind fun _ _ => ⟨trivial, fun _ => marks _⟩⟩
    exact pass.bind fun _ _ => ih

def cleanupOps : Op → Prop
  | .task .cleanup => True
  | _ => False

theorem cleanupLoop_within (ticks : ℕ) : (cleanupLoop ticks).Within cleanupOps anything := by
  induction ticks with
  | zero => trivial
  | succ ticks ih => exact ⟨trivial, fun _ => ih⟩

def wireOps (id : String) (conn : ℕ) : Op → Prop
  | .task (.addBytes y _) => y = id
  | .net (.write c y _) => c = conn ∧ y = id
  | .net (.openBi c) | .net (.read c) | .net (.readWithTimeout c) | .net (.closeReason c) =>
      c = conn
  | .env e => silent e
  | _ => False

/-- The operations of an attempt after it has put its task into the map. -/
def attemptOps (id : String) (conn : ℕ) (op : Op) : Prop :=
  wireOps id conn op ∨
  match op with
  | .task (.sendTransferring y) | .task (.sendRejected y _) | .task (.sendTimedOut y)
  | .task (.sendFinished y _ _) | .task (.record y _) => y = id
  | _ => False

theorem not_insert_of_attemptOps {id : String} {conn : ℕ} {t : TransferTask} :
    ¬ attemptOps id conn (.task (.insert t)) := by
  rintro (h | h) <;> exact h

theorem conn_of_attemptOps {id : String} {conn c : ℕ} {y : String} {m : DashMessage}
    (h : attemptOps id conn (.net (.write c y m))) : c = conn := by
  rcases h with h | h
  · exact h.1
  · exact h.elim

section Attempt

variable (debug : DashMessage → String) (id : String) (conn : ℕ)

private theorem wire {α : Type} {x : Code α} (h : x.Within (wireOps id conn) anything) :
    x.Within (attemptOps id conn) anything :=
  h.mono (fun _ ho => .inl ho) fun _ _ => trivial

theorem recordIfSome_within_attempt (r : Option TerminalRecord) :
    (recordIfSome id r).Within (attemptOps id conn) anything := by
  cases r with
  | none => trivial
  | some r => exact ⟨.inr rfl, fun _ => trivial⟩

theorem streamFiles_within (steps : List StreamStep) :
    (streamFiles conn id steps).Within (wireOps id conn) anything := by
  induction steps with
  | nil => trivial
  | cons step steps ih =>
    cases step with
    | resumed n => exact ⟨rfl, fun _ => ⟨trivial, fun _ => ih⟩⟩
    | write m =>
      refine ⟨⟨rfl, rfl⟩, fun r => ?_⟩
      simp only [ret_bind]
      split
      · refine ⟨rfl, fun r => ?_⟩
        cases r with
        | none => exact ih
        | some p => exact ⟨trivial, fun _ => ih⟩
      · exact ih

theorem streamAndFinish_within (items : List FileItem) (steps : List StreamStep) :
    (streamAndFinish id conn items steps).Within (attemptOps id conn) anything := by
  refine ⟨.inr rfl, fun _ => ⟨.inl trivial, fun _ => ?_⟩⟩
  refine (wire id conn (streamFiles_within id conn steps)).bind fun _ _ =>
    ⟨.inl trivial, fun joined => ?_⟩
  refine ⟨.inr rfl, fun r => ?_⟩
  exact (recordIfSome_within_attempt id conn r).bind fun _ _ => trivial

theorem awaitAnswer_within (chosenVersion : ℕ) (items : List FileItem)
    (steps : List StreamStep) :
    (awaitAnswer debug id conn chosenVersion items steps).Within (attemptOps id conn)
      anything := by
  refine ⟨.inl rfl, fun answer => ?_⟩
  simp only [ret_bind]
  split
  · split_ifs
    · trivial
    · exact (streamAndFinish_within id conn items steps).bind fun _ _ => trivial
  · refine ⟨.inr rfl, fun r => ?_⟩
    exact (recordIfSome_within_attempt id conn r).bind fun _ _ => trivial
  · trivial
  · exact ⟨.inl rfl, fun _ => trivial⟩
  · refine ⟨.inr rfl, fun r => ?_⟩
    exact (recordIfSome_within_attempt id conn r).bind fun _ _ => trivial

theorem doHelloAsInitiator_within :
    (doHelloAsInitiator debug conn id).Within (wireOps id conn) anything := by
  refine ⟨rfl, fun opened => ?_⟩
  cases opened with
  | error => trivial
  | ok =>
    refine ⟨⟨rfl, rfl⟩, fun wrote => ?_⟩
    cases wrote with
    | error => trivial
    | ok =>
      refine ⟨rfl, fun read => ?_⟩
      simp only [ret_bind]
      split
      · trivial
      · split_ifs
        · trivial
        · split <;> trivial
      · trivial

theorem offerFiles_within (r : SendRequest) (items : List FileItem) (peerName : String)
    (steps : List StreamStep) :
    (offerFiles debug r conn items peerName steps).Within (attemptOps r.transferId conn)
      anything := by
  refine (wire _ conn (doHelloAsInitiator_within debug r.transferId conn)).bind
    fun version _ => ?_
  cases version with
  | error => trivial
  | ok version =>
    refine ⟨.inl trivial, fun config => ⟨.inl ⟨rfl, rfl⟩, fun wrote => ?_⟩⟩
    cases wrote with
    | error => trivial
    | ok => exact ⟨.inl trivial, fun _ => awaitAnswer_within debug _ conn _ _ _⟩

end Attempt

def giveUpOps (id : String) : Op → Prop
  | .task (.sendErrored y _ _) | .task (.revision y) => y = id
  | .env e => silent e
  | _ => False

theorem giveUp_within (id detail : String) : (giveUp id detail).Within (giveUpOps id) anything :=
  ⟨rfl, fun _ => ⟨rfl, fun _ => ⟨trivial, fun _ => ⟨trivial, fun _ => trivial⟩⟩⟩⟩

/-- The operations with which a send finds and checks its connections. -/
def dialOps : Op → Prop
  | .net (.dial _) | .net (.peerFp _) | .net (.close _) => True
  | .env e => silent e
  | _ => False

def sendOps (r : SendRequest) (op : Op) : Prop :=
  (∃ conn, attemptOps r.transferId conn op) ∨ giveUpOps r.transferId op ∨ dialOps op ∨
  ∃ items conn now name, op = .task (.insert (r.newTask items conn now name))

section Send

variable (debug : DashMessage → String) (r : SendRequest)

private theorem dial_within {α : Type} {x : Code α} (h : x.Within dialOps anything) :
    x.Within (sendOps r) anything :=
  h.mono (fun _ ho => .inr (.inr (.inl ho))) fun _ _ => trivial

theorem transportSendFiles_within (conn : ℕ) (steps : List StreamStep) :
    (transportSendFiles debug r conn steps).Within (sendOps r) anything := by
  refine ⟨.inr (.inr (.inl trivial)), fun built => ?_⟩
  simp only [ret_bind]
  split
  · trivial
  · trivial
  · refine ⟨.inr (.inr (.inl trivial)), fun now => ⟨.inr (.inr (.inl trivial)), fun name => ?_⟩⟩
    refine ⟨.inr (.inr (.inr ⟨_, conn, now, _, rfl⟩)), fun _ => ?_⟩
    exact (offerFiles_within debug conn r _ _ steps).mono (fun _ ho => .inl ⟨conn, ho⟩)
      fun _ _ => trivial

theorem connectFirst_within (addrs errors : List String) :
    (connectFirst addrs errors).Within dialOps anything := by
  induction addrs generalizing errors with
  | nil => trivial
  | cons addr rest ih =>
    refine ⟨trivial, fun answer => ?_⟩
    cases answer with
    | ok conn => trivial
    | error cause => exact ih _

theorem reconnectToPeerByBestAddrs_within (peerFp : String) :
    (reconnectToPeerByBestAddrs peerFp).Within dialOps anything := by
  refine ⟨trivial, fun best => ?_⟩
  simp only [ret_bind]
  split
  · trivial
  · trivial
  · refine (connectFirst_within _ []).bind fun found _ => ?_
    cases found with
    | ok conn => trivial
    | error errors => cases errors <;> trivial

theorem sendTask_within (conn : ℕ) (steps retrySteps : List StreamStep) :
    (sendTask debug r conn steps retrySteps).Within (sendOps r) anything := by
  have ending (detail : String) : (giveUp r.transferId detail).Within (sendOps r) anything :=
    (giveUp_within _ _).mono (fun _ ho => .inr (.inl ho)) fun _ _ => trivial
  refine (transportSendFiles_within debug r conn steps).bind fun first _ => ?_
  cases first with
  | ok _ => trivial
  | error detail =>
    simp only
    split_ifs
    · refine (dial_within r (reconnectToPeerByBestAddrs_within r.peerFp)).bind fun again _ => ?_
      cases again with
      | error _ => exact ending _
      | ok d =>
        refine (transportSendFiles_within debug r d retrySteps).bind fun second _ => ?_
        cases second with
        | ok _ => trivial
        | error _ => exact ending _
    · exact ending _

theorem verifyAndSend_within (conn : ℕ) (steps retrySteps : List StreamStep) :
    (verifyAndSend debug r conn steps retrySteps).Within (sendOps r) anything := by
  refine ⟨.inr (.inr (.inl trivial)), fun answer => ?_⟩
  cases answer with
  | error cause => trivial
  | ok actualFp =>
    simp only [ret_bind]
    split_ifs
    · exact ⟨.inr (.inr (.inl trivial)), fun _ => ⟨.inr (.inr (.inl trivial)), fun _ => trivial⟩⟩
    · exact ⟨.inr (.inr (.inl trivial)), fun _ => trivial⟩
    · trivial
    · exact (sendTask_within debug r conn steps retrySteps).bind fun _ _ => trivial

theorem sendFiles_within (steps retrySteps : List StreamStep) :
    (sendFiles debug r steps retrySteps).Within (sendOps r) anything := by
  refine ⟨.inr (.inr (.inl trivial)), fun level => ?_⟩
  simp only [ret_bind]
  split
  · exact ⟨.inr (.inr (.inl trivial)), fun _ => trivial⟩
  · refine ⟨.inr (.inr (.inl trivial)), fun best => ?_⟩
    simp only [ret_bind]
    split
    · trivial
    · trivial
    · refine ⟨.inr (.inr (.inl trivial)), fun missing => ?_⟩
      simp only [ret_bind]
      split
      · trivial
      · refine (dial_within r (connectFirst_within _ [])).bind fun found _ => ?_
        cases found with
        | error errors => trivial
        | ok conn => exact verifyAndSend_within debug r conn steps retrySteps

end Send

def Party.ops : Party → Op → Prop
  | .offer o => fun op => offerOps o op ∨ (∃ now, op = .task (.insert (o.newTask now))) ∨
      op = .env .now
  | .accept id _ => decisionOps id true
  | .reject id _ => decisionOps id false
  | .cancel id _ => cancelOps id
  | .maintenance _ => maintenanceOps
  | .cleanup _ => cleanupOps
  | .send r _ _ => sendOps r

theorem Party.within (debug : DashMessage → String) (party : Party) :
    (party.prog debug).Within (Party.ops party) anything := by
  cases party with
  | offer o =>
    refine ⟨.inr (.inr rfl), fun now => ⟨.inr (.inl ⟨now, rfl⟩), fun _ => ?_⟩⟩
    exact (offerBody_within o).mono (fun _ ho => .inl ho) fun _ _ => trivial
  | accept id notificationId => exact decidePendingTransfer_within true _ _ id notificationId
  | reject id notificationId => exact decidePendingTransfer_within false _ _ id notificationId
  | cancel id hasHost => exact cancelTransfer_within id hasHost
  | maintenance ticks => exact (maintenanceLoop_within ticks).bind fun _ _ => trivial
  | cleanup ticks => exact (cleanupLoop_within ticks).bind fun _ _ => trivial
  | send r steps retrySteps => exact sendFiles_within debug r steps retrySteps

/-- Thread `i` of a pool keeps to the operations of its party. -/
def poolOps (parties : List Party) (i : ℕ) (op : Op) : Prop :=
  ∃ party, parties[i]? = some party ∧ Party.ops party op

theorem pool_within (debug : DashMessage → String) (w : World) (parties : List Party) (i : ℕ)
    (x : Code (Except String Unit)) (h : (pool debug w parties).threads[i]? = some x) :
    x.Within (poolOps parties i) fun _ => True := by
  obtain ⟨party, here, rfl⟩ := pool_thread h
  exact (Party.within debug party).mono (fun _ ho => ⟨party, here, ho⟩) fun _ _ => trivial

/-- The identifier under which a party may put a task into the map. -/
def Party.registers : Party → Option String
  | .offer o => some o.id
  | .send r _ _ => some r.transferId
  | _ => none

def ownersOnly : TaskOp → Bool
  | .insert _ | .updateStatus _ _ _ | .setError _ _ | .addBytes _ _ | .sendRejected _ _
  | .sendTimedOut _ | .sendTransferring _ | .sendFinished _ _ _ | .sendErrored _ _ _ => true
  | .revision _ | .status _ | .cancel _ _ | .snapshot | .cleanup | .record _ _ => false

theorem Party.edits_own {party : Party} {u : TaskOp} (h : Party.ops party (.task u))
    (edits : ownersOnly u = true) : u.id? = Party.registers party := by
  cases party with
  | offer q =>
    rcases h with (((h | h) | h) | h) | ⟨now, h⟩ | h
    · cases u <;> first | exact h.elim | exact absurd edits Bool.false_ne_true |
        exact congrArg some h
    · exact h.elim
    · cases u <;> first | exact h.elim | exact absurd edits Bool.false_ne_true |
        exact congrArg some h.1
    · exact h.elim
    · cases h
      rfl
    · cases h
  | send q steps retrySteps =>
    rcases h with ⟨c, h | h⟩ | h | h | ⟨items, c, now, name, h⟩
    · cases u <;> first | exact h.elim | exact absurd edits Bool.false_ne_true | exact congrArg some h
    · cases u <;> first | exact h.elim | exact absurd edits Bool.false_ne_true | exact congrArg some h
    · cases u <;> first | exact h.elim | exact absurd edits Bool.false_ne_true | exact congrArg some h
    · exact h.elim
    · cases h
      rfl
  | accept | reject | cancel | maintenance | cleanup =>
    cases u <;> first | exact h.elim | exact absurd edits Bool.false_ne_true

theorem Party.inserts_pending {party : Party} {t : TransferTask}
    (h : Party.ops party (.task (.insert t))) :
    t.status = .pendingAccept ∧ t.endedAtUnix = none ∧ t.revision = 0 := by
  cases party with
  | offer q =>
    rcases h with (((h | h) | h) | h) | ⟨now, h⟩ | h
    · exact h.elim
    · exact h.elim
    · exact h.elim
    · exact h.elim
    · cases h
      exact ⟨rfl, rfl, rfl⟩
    · cases h
  | send q steps retrySteps =>
    rcases h with ⟨c, h | h⟩ | h | h | ⟨items, c, now, name, h⟩
    · exact h.elim
    · exact h.elim
    · exact h.elim
    · exact h.elim
    · cases h
      exact ⟨rfl, rfl, rfl⟩
  | accept | reject | cancel | maintenance | cleanup => exact h.elim

theorem Party.writes_own {party : Party} {c : ℕ} {y : String} {m : DashMessage}
    (h : Party.ops party (.net (.write c y m))) (carried : m.isOfferOrChunk = true) :
    Party.registers party = some y := by
  cases party with
  | offer q =>
    rcases h with (((h | h) | ⟨-, -, quiet⟩) | h) | ⟨now, h⟩ | h
    · exact h.elim
    · exact h.elim
    · simp [quiet] at carried
    · exact h.elim
    · cases h
    · cases h
  | send q steps retrySteps =>
    rcases h with ⟨d, ⟨-, same⟩ | h⟩ | h | h | ⟨items, d, now, name, h⟩
    · exact congrArg some same.symm
    · exact h.elim
    · exact h.elim
    · exact h.elim
    · cases h
  | cancel id hasHost => simp [h.2] at carried
  | accept | reject | maintenance | cleanup => exact h.elim

end DashDrop.Runtime.Footprint
