/- GID: DashDrop/Ui/Store
   source: src/store.ts
   anchors: []
   digest: The transfers of the UI store, its calls split at their awaits, and the backend. -/

import Mathlib.Logic.Function.Basic
import DashDrop.Foundation.Transitions
import DashDrop.Runtime.State

set_option autoImplicit false
set_option relaxedAutoImplicit false

namespace DashDrop.Ui.Store

open DashDrop.Runtime.State (TransferStatus TransferDirection)

variable {Info : Type}

/-- `Info` stands for the peer and the items. -/
structure TransferView (Info : Type) where
  batchId : Option String
  direction : TransferDirection
  info : Info
  status : TransferStatus
  bytesTransferred : ℕ
  totalBytes : ℕ
  revision : ℕ
  error : Option String
  deriving DecidableEq

def normalizeReasonCode (reasonCode : String) : String :=
  if "E_".toList.isPrefixOf reasonCode.toList then reasonCode else "E_PROTOCOL"

inductive StateChange where
  | accepted
  | complete
  | someFailed
  | rejected (reasonCode : String)
  | cancelledBySender (reasonCode : String)
  | cancelledByReceiver (reasonCode : String)
  | failed (reasonCode : String)
  | error (reasonCode : String)
  deriving DecidableEq

namespace StateChange

def status : StateChange → TransferStatus
  | accepted => .transferring
  | complete => .completed
  | someFailed => .partialCompleted
  | rejected _ => .rejected
  | cancelledBySender _ => .cancelledBySender
  | cancelledByReceiver _ => .cancelledByReceiver
  | failed _ | error _ => .failed

/-- The updater of `addOrUpdateTerminalError`. -/
def terminalError (change : StateChange) (reason : String) (task : TransferView Info) :
    TransferView Info :=
  { task with
    status := change.status
    error := some reason
    bytesTransferred := min task.totalBytes task.bytesTransferred }

def updater (change : StateChange) (task : TransferView Info) : TransferView Info :=
  match change with
  | accepted => { task with status := change.status }
  | complete | someFailed =>
      { task with status := change.status, bytesTransferred := task.totalBytes }
  | rejected reason | cancelledBySender reason | cancelledByReceiver reason | failed reason =>
      change.terminalError reason task
  | error reason => change.terminalError (normalizeReasonCode reason) task

end StateChange

structure StateEvent where
  transferId : String
  batchId : Option String
  revision : ℕ
  change : StateChange
  deriving DecidableEq

inductive RuntimeEvent (Info : Type) where
  | transferStarted (transferId : String) (batchId : Option String) (info : Info)
      (totalSize revision : ℕ)
  | transferIncoming (transferId : String)
  | transferProgress (transferId : String) (batchId : Option String)
      (bytesTransferred totalBytes revision : ℕ)
  | state (event : StateEvent)
  | transferError (transferId batchId : Option String) (reasonCode : String) (revision : ℕ)
  deriving DecidableEq

namespace RuntimeEvent

def named : RuntimeEvent Info → Option String
  | transferStarted transferId _ _ _ _ | transferIncoming transferId
  | transferProgress transferId _ _ _ _ => some transferId
  | state event => some event.transferId
  | transferError transferId _ _ _ => transferId

/-- The call of `applyStateEvent` that an event leads to. An expired request is only announced. -/
def stateEvent? : RuntimeEvent Info → Option StateEvent
  | state event => some event
  | transferError (some transferId) batchId reasonCode revision =>
      if normalizeReasonCode reasonCode = "E_REQUEST_EXPIRED" then none
      else some ⟨transferId, batchId, revision, .error reasonCode⟩
  | _ => none

end RuntimeEvent

/-- The transfers that the backend holds and the events it has emitted. -/
structure Backend (Info : Type) where
  transfers : String → Option (TransferView Info)
  log : List (RuntimeEvent Info)

namespace Backend

def put (transferId : String) (view : Option (TransferView Info))
    (events : List (RuntimeEvent Info)) (backend : Backend Info) : Backend Info :=
  ⟨Function.update backend.transfers transferId view, backend.log ++ events⟩

def changed (change : StateChange) (view : TransferView Info) : TransferView Info :=
  { view with status := change.status, revision := view.revision + 1 }

end Backend

inductive BackendStep (Info : Type) where
  /-- A new transfer under an unused name. -/
  | create (transferId : String) (batchId : Option String) (direction : TransferDirection)
      (info : Info) (totalSize : ℕ)
  | change (transferId : String) (change : StateChange)
  /-- A failure that is announced by both of its events. -/
  | failWithError (transferId reasonCode : String)
  | progress (transferId : String) (bytesTransferred : ℕ)
  | expire (transferId : String)
  | remove (transferId : String)

def backendStep (backend : Backend Info) : BackendStep Info → Option (Backend Info)
  | .create transferId batchId direction info totalSize =>
      if backend.log.any fun event => event.named = some transferId then none
      else some (backend.put transferId
        (some ⟨batchId, direction, info, .pendingAccept, 0, totalSize, 0, none⟩)
        [match direction with
          | .send => .transferStarted transferId batchId info totalSize 0
          | .receive => .transferIncoming transferId])
  | .change transferId change =>
      (backend.transfers transferId).map fun view =>
        backend.put transferId (some (Backend.changed change view))
          [.state ⟨transferId, view.batchId, view.revision + 1, change⟩]
  | .failWithError transferId reasonCode =>
      (backend.transfers transferId).map fun view =>
        backend.put transferId (some (Backend.changed (.failed reasonCode) view))
          [.state ⟨transferId, view.batchId, view.revision + 1, .failed reasonCode⟩,
            .transferError (some transferId) view.batchId reasonCode (view.revision + 1)]
  | .progress transferId bytesTransferred =>
      (backend.transfers transferId).map fun view =>
        backend.put transferId (some { view with bytesTransferred := bytesTransferred })
          [.transferProgress transferId view.batchId bytesTransferred view.totalBytes view.revision]
  | .expire transferId =>
      some { backend with
        log := backend.log ++ [.transferError (some transferId) none "E_REQUEST_EXPIRED"
          (((backend.transfers transferId).map TransferView.revision).getD 0)] }
  | .remove transferId => some (backend.put transferId none [])

/-- What goes on after `fetchSnapshot`. For `initAppStore` the number of events that the backend
had emitted when it answered is kept. -/
inductive After where
  | hydrateFailed (event : StateEvent)
  | gap (event : StateEvent)
  | alone
  | init (taken : ℕ)
  deriving DecidableEq

def After.stamp (taken : ℕ) : After → After
  | init _ => init taken
  | after => after

inductive Point (Info : Type) where
  | hydrating (event : StateEvent)
  | hydrateAnswered (event : StateEvent) (reply : Option (TransferView Info))
  | hydrated (event : StateEvent) (task : Option ℕ)
  | snapshotting (after : After)
  | snapshotAnswered (after : After) (reply : String → Option (TransferView Info))
  /-- The pending requests are read. -/
  | listing (after : After)
  | listed (after : After)
  | subscribing (taken : ℕ)
  | done

/-- The objects of the store, `activeTransfers` with a reference for each transfer, the calls in
flight, and the number of events delivered so far, once subscribed. -/
structure AppStore (Info : Type) where
  objects : ℕ → String → Option (TransferView Info)
  allocated : ℕ
  activeTransfers : String → Option ℕ
  calls : List (Point Info)
  cursor : Option ℕ

namespace AppStore

def empty : AppStore Info := ⟨fun _ _ => none, 0, fun _ => none, [], none⟩

def setCall (i : ℕ) (point : Point Info) (store : AppStore Info) : AppStore Info :=
  { store with calls := store.calls.set i point }

def push (point : Point Info) (store : AppStore Info) : AppStore Info :=
  { store with calls := store.calls ++ [point] }

def setObject (n : ℕ) (transferId : String) (task : TransferView Info) (store : AppStore Info) :
    AppStore Info :=
  { store with
    objects := Function.update store.objects n
      (Function.update (store.objects n) transferId (some task)) }

def shown (store : AppStore Info) (transferId : String) : Option (TransferView Info) :=
  (store.activeTransfers transferId).bind fun n => store.objects n transferId

def assign (transferId : String) (task : TransferView Info) (store : AppStore Info) :
    AppStore Info :=
  { store.setObject store.allocated transferId task with
    allocated := store.allocated + 1
    activeTransfers := Function.update store.activeTransfers transferId (some store.allocated) }

def assignAll (reply : String → Option (TransferView Info)) (store : AppStore Info) :
    AppStore Info :=
  { store with
    objects := Function.update store.objects store.allocated reply
    allocated := store.allocated + 1
    activeTransfers := fun transferId => (reply transferId).map fun _ => store.allocated }

def applyBatchId (batchId : Option String) (task : TransferView Info) : TransferView Info :=
  match batchId with
  | some batchId => { task with batchId := some batchId }
  | none => task

def applyRevision (revision : ℕ) (task : TransferView Info) : Option (TransferView Info) :=
  if revision < task.revision then none else some { task with revision := revision }

/-- The end of `applyStateEvent`, on the object that it holds. -/
def applyTo (event : StateEvent) (n : ℕ) (store : AppStore Info) : AppStore Info :=
  match (store.objects n event.transferId).bind (applyRevision event.revision) with
  | some task =>
      store.setObject n event.transferId (event.change.updater (applyBatchId event.batchId task))
  | none => store

def currentRevision (store : AppStore Info) (transferId : String) (n : ℕ) : ℕ :=
  ((store.objects n transferId).map TransferView.revision).getD 0

/-- `applyStateEvent` up to its first await. -/
def applyStateEvent (event : StateEvent) (store : AppStore Info) : AppStore Info :=
  match store.activeTransfers event.transferId with
  | none => store.push (.hydrating event)
  | some n =>
      if event.revision > store.currentRevision event.transferId n + 1 then
        store.push (.snapshotting (.gap event))
      else store.applyTo event n

/-- `applyStateEvent` from the object that it has found. -/
def applyFrom (i : ℕ) (event : StateEvent) (n : ℕ) (store : AppStore Info) : AppStore Info :=
  if event.revision > store.currentRevision event.transferId n + 1 then
    store.setCall i (.snapshotting (.gap event))
  else (store.applyTo event n).setCall i .done

def handleTransferStarted (transferId : String) (batchId : Option String) (info : Info)
    (totalSize revision : ℕ) (store : AppStore Info) : AppStore Info :=
  store.assign transferId ⟨batchId, .send, info, .pendingAccept, 0, totalSize, revision, none⟩

/-- `applyProgressEvent` of `handleTransferProgress`. -/
def handleTransferProgress (transferId : String) (batchId : Option String)
    (bytesTransferred totalBytes revision : ℕ) (store : AppStore Info) : AppStore Info :=
  match store.activeTransfers transferId with
  | none => store
  | some n =>
      match (store.objects n transferId).bind (applyRevision revision) with
      | some task => store.setObject n transferId { applyBatchId batchId task with
          bytesTransferred := bytesTransferred, totalBytes := totalBytes }
      | none => store

def dispatchRuntimeEvent (event : RuntimeEvent Info) (store : AppStore Info) : AppStore Info :=
  match event with
  | .transferStarted transferId batchId info totalSize revision =>
      store.handleTransferStarted transferId batchId info totalSize revision
  | .transferProgress transferId batchId bytesTransferred totalBytes revision =>
      store.handleTransferProgress transferId batchId bytesTransferred totalBytes revision
  | event =>
      match event.stateEvent? with
      | some event => store.applyStateEvent event
      | none => store

def arrive (i : ℕ) (store : AppStore Info) : Option (AppStore Info) :=
  match store.calls[i]? with
  | some (.hydrateAnswered event (some view)) =>
      some ((store.assign event.transferId view).setCall i (.hydrated event (some store.allocated)))
  | some (.hydrateAnswered event none) => some (store.setCall i (.hydrated event none))
  | some (.snapshotAnswered after reply) =>
      some ((store.assignAll reply).setCall i (.listing after))
  | _ => none

def fail (i : ℕ) (store : AppStore Info) : Option (AppStore Info) :=
  match store.calls[i]? with
  | some (.hydrating event) | some (.hydrateAnswered event _) =>
      some (store.setCall i (.hydrated event none))
  | some (.snapshotting after) | some (.snapshotAnswered after _) =>
      some (store.setCall i (.listed after))
  | _ => none

/-- The caller goes on after `hydrateTransfer` or `fetchSnapshot`. -/
def resume (i : ℕ) (store : AppStore Info) : Option (AppStore Info) :=
  match store.calls[i]? with
  | some (.hydrated event (some n)) => some (store.applyFrom i event n)
  | some (.hydrated event none) => some (store.setCall i (.snapshotting (.hydrateFailed event)))
  | some (.listed (.hydrateFailed event)) =>
      match store.activeTransfers event.transferId with
      | none => some (store.setCall i .done)
      | some n => some (store.applyFrom i event n)
  | some (.listed (.gap event)) =>
      match store.activeTransfers event.transferId with
      | none => some (store.setCall i .done)
      | some n => some ((store.applyTo event n).setCall i .done)
  | some (.listed .alone) => some (store.setCall i .done)
  | some (.listed (.init taken)) => some (store.setCall i (.subscribing taken))
  | _ => none

end AppStore

structure World (Info : Type) where
  backend : Backend Info
  store : AppStore Info

def World.start : World Info := ⟨⟨fun _ => none, []⟩, .empty⟩

inductive Step (Info : Type) where
  | backend (step : BackendStep Info)
  /-- `initAppStore` calls `fetchSnapshot`. -/
  | init
  /-- Another caller of `fetchSnapshot`. -/
  | refresh
  /-- The next event is dispatched. -/
  | deliver
  | answer (i : ℕ)
  | arrive (i : ℕ)
  | fail (i : ℕ)
  /-- `getPendingIncomingRequests` settles. -/
  | list (i : ℕ)
  | resume (i : ℕ)
  /-- The subscription stands; events are delivered from the given one on. -/
  | subscribe (i : ℕ) (first : ℕ)

def storeStep (world : World Info) : Step Info → Option (World Info)
  | .backend step => (backendStep world.backend step).map fun backend => { world with backend }
  | .init => some { world with store := world.store.push (.snapshotting (.init 0)) }
  | .refresh => some { world with store := world.store.push (.snapshotting .alone) }
  | .deliver =>
      match world.store.cursor with
      | none => none
      | some cursor => world.backend.log[cursor]?.map fun event => { world with
          store := { world.store.dispatchRuntimeEvent event with cursor := some (cursor + 1) } }
  | .answer i =>
      match world.store.calls[i]? with
      | some (.hydrating event) => some { world with
          store := world.store.setCall i
            (.hydrateAnswered event (world.backend.transfers event.transferId)) }
      | some (.snapshotting after) => some { world with
          store := world.store.setCall i (.snapshotAnswered
            (after.stamp world.backend.log.length) world.backend.transfers) }
      | _ => none
  | .arrive i => (world.store.arrive i).map fun store => { world with store }
  | .fail i => (world.store.fail i).map fun store => { world with store }
  | .list i =>
      match world.store.calls[i]? with
      | some (.listing after) => some { world with store := world.store.setCall i (.listed after) }
      | _ => none
  | .resume i => (world.store.resume i).map fun store => { world with store }
  | .subscribe i first =>
      match world.store.calls[i]?, world.store.cursor with
      | some (.subscribing _), none => some { world with
          store := { world.store.setCall i .done with cursor := some first } }
      | _, _ => none

end DashDrop.Ui.Store
