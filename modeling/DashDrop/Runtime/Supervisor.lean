/- GID: DashDrop/Runtime/Supervisor
   source: src-tauri/src/runtime/supervisor.rs
   anchors: []
   digest: The background loops and the pool of everything that acts on transfers. -/

import DashDrop.CoreService

set_option autoImplicit false
set_option relaxedAutoImplicit false

namespace DashDrop.Runtime.Supervisor

open DashDrop.Foundation.Program DashDrop.Foundation.Interleaving
open DashDrop.Transport.Protocol DashDrop.Transport.Receiver DashDrop.Transport.Sender
open DashDrop.Runtime.State DashDrop.Runtime.Machine DashDrop.CoreService

def ensureAll : List String → Code Unit
  | [] => pure ()
  | id :: rest => do
      let _ ← note (.ensure id)
      ensureAll rest

def markAllInactive : List (String × Option String) → Code Unit
  | [] => pure ()
  | (id, reason) :: rest => do
      note (.markInactive id reason)
      markAllInactive rest

def inactiveOf (states : List (String × TransferStatus × Option String)) :
    List (String × Option String) :=
  (states.filter fun e => e.2.1 ≠ .pendingAccept).map fun e => (e.1, e.2.2)

/-- One tick of `start_notification_maintenance_loop`. -/
def maintenancePass : Code Unit := do
  let states ← task .snapshot
  ensureAll (pendingOf states)
  gate (.retain (pendingOf states))
  markAllInactive (inactiveOf states)

def maintenanceLoop : ℕ → Code Unit
  | 0 => pure ()
  | ticks + 1 => do
      maintenancePass
      maintenanceLoop ticks

/-- `start_memory_cleanup_loop`, for a number of ticks. -/
def cleanupLoop : ℕ → Code Unit
  | 0 => pure ()
  | ticks + 1 => do
      task .cleanup
      cleanupLoop ticks

/-- What can act on the shared state. -/
inductive Party where
  | offer (o : IncomingOffer)
  | accept (id : String) (notificationId : Uuid)
  | reject (id : String) (notificationId : Uuid)
  | cancel (id : String) (hasHost : Bool)
  | maintenance (ticks : ℕ)
  | cleanup (ticks : ℕ)
  | send (r : SendRequest) (steps retrySteps : List StreamStep)

def Party.prog (debug : DashMessage → String) : Party → Code (Except String Unit)
  | .offer o => handleOffer o
  | .accept id notificationId => acceptPendingTransfer id notificationId
  | .reject id notificationId => rejectPendingTransfer id notificationId
  | .cancel id hasHost => cancelTransfer id hasHost
  | .maintenance ticks => do
      maintenanceLoop ticks
      pure (.ok ())
  | .cleanup ticks => do
      cleanupLoop ticks
      pure (.ok ())
  | .send r steps retrySteps => sendFiles debug r steps retrySteps

def pool (debug : DashMessage → String) (w : World) (parties : List Party) :
    Pool Op Op.Resp World (Except String Unit) :=
  ⟨w, parties.map (Party.prog debug)⟩

def sampleItem : FileItem := ⟨1, "a.txt", "a.txt", 3, .regularFile, 0, none, none⟩

def sampleRequest : SendRequest := ⟨"t1", "alice", ["/tmp/a.txt"], true, "me"⟩

def sampleOffer (id : String) (conn : ℕ) : IncomingOffer where
  offer := ⟨id, [sampleItem], 3, "Bob", "bob"⟩
  conn := conn
  peerFp := "bob"
  peerAuthenticated := true
  chosenVersion := 1
  progress := []

def sampleWorld (peers : List String) : World :=
  { World.start .standard with conns := peers.map fun fp => ⟨some fp, false⟩ }

def stepsOf (thread now : ℕ) (replies : List Reply) : List (ℕ × Ans) :=
  replies.map fun reply => (thread, ⟨now, reply⟩)

/-- An incoming offer up to the point where it waits for the user. -/
def promptReplies : List Reply :=
  [.unit, .unit, .unit, .unit, .disks [], .unit, .unit, .unit, .unit, .unit, .unit, .unit]

theorem pool_thread {debug : DashMessage → String} {w : World} {parties : List Party} {j : ℕ}
    {x : Code (Except String Unit)} (h : (pool debug w parties).threads[j]? = some x) :
    ∃ party, parties[j]? = some party ∧ party.prog debug = x := by
  simpa [pool] using h

end DashDrop.Runtime.Supervisor
