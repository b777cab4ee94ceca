/- GID: DashDrop/Trust/Statements
   source: src-tauri/src/db.rs
   anchors: []
   digest: The SQL statements that write the table of trusted peers, each of which may fail. -/

import DashDrop.Foundation.Transactions
import DashDrop.Trust.Storage

set_option autoImplicit false
set_option relaxedAutoImplicit false

namespace DashDrop.Trust.Statements

open DashDrop.Foundation.Transactions
open DashDrop.Trust.Peers (TrustedPeer newPeer)
open DashDrop.Trust.Storage (PeerMap PeerTable peersOf find?_upsert find?_delete)

/-- The driver stores a `u64` as an `i64`. -/
def fitsInteger (n : ℕ) : Bool := n < 2 ^ 63

/-- Every number of the record can be stored. -/
def Storable (peer : TrustedPeer) : Bool :=
  fitsInteger peer.pairedAt && peer.lastUsedAt.all fitsInteger &&
    peer.remoteConfirmationMaterialSeenAt.all fitsInteger &&
    peer.localConfirmationAt.all fitsInteger && peer.mutualConfirmedAt.all fitsInteger &&
    peer.frozenAt.all fitsInteger

structure SecurityEvent where
  eventType : String
  occurredAt : ℕ
  phase : String
  peerFingerprint : Option String
  reason : String

/-- The two tables that are written here; what a row has was stored once. -/
structure Database where
  peers : PeerTable
  events : List SecurityEvent
  fits : ∀ fp peer, peers.find? fp = some peer → Storable peer = true

namespace Database

def clear (d : Database) : Database :=
  ⟨.empty, d.events, fun _ _ found => by cases found⟩

def store (d : Database) (peer : TrustedPeer) (fits : Storable peer = true) : Database where
  peers := d.peers.upsert peer
  events := d.events
  fits := by
    intro fp row found
    rw [find?_upsert] at found
    split_ifs at found
    · obtain rfl := Option.some.inj found
      exact fits
    · exact d.fits fp row found

def delete (d : Database) (gone : String) : Database where
  peers := d.peers.delete gone
  events := d.events
  fits := by
    intro fp row found
    rw [find?_delete] at found
    split_ifs at found
    exact d.fits fp row found

def log (d : Database) (event : SecurityEvent) : Database :=
  { d with events := d.events ++ [event] }

end Database

/-- A number that does not fit is refused by the driver before the statement runs. -/
def outOfRange : String := "out of range integral type conversion attempted"

/-- `INSERT INTO trusted_peers_store`. -/
def insertRow (peer : TrustedPeer) (d : Database) : Except String Database :=
  if fits : Storable peer = true then
    if (d.peers.find? peer.fingerprint).isSome then
      .error "UNIQUE constraint failed: trusted_peers_store.fingerprint"
    else .ok (d.store peer fits)
  else .error outOfRange

/-- `save_trusted_peer`, which updates the row where there is one. -/
def saveTrustedPeer (peer : TrustedPeer) (d : Database) : Except String Database :=
  if fits : Storable peer = true then .ok (d.store peer fits) else .error outOfRange

def replaceTrustedPeers (faults : ℕ → Option Failure) (c : Connection Database)
    (trusted : PeerMap) : Connection Database × Except String Unit :=
  c.executeAll faults 0
    (.run (fun d => .ok d.clear) :: (peersOf trusted).map fun peer => .run (insertRow peer))

def migratedEvent (old new : String) (nowUnix : ℕ) : SecurityEvent where
  eventType := "identity_migrated"
  occurredAt := nowUnix
  phase := "pairing"
  peerFingerprint := some new
  reason := "Successfully migrated identity from old fingerprint: " ++ old

/-- The row of the old fingerprint under the new one; the freeze is not read. -/
def migrated (peer : TrustedPeer) (new newName : String) : TrustedPeer :=
  { peer with fingerprint := new, name := newName, frozenAt := none, freezeReason := none }

/-- What runs between `BEGIN TRANSACTION` and `COMMIT`. -/
def migration (peer : TrustedPeer) (old new newName : String) (nowUnix : ℕ) :
    List (Database → Except String Database) :=
  [fun d => .ok (d.delete old), saveTrustedPeer (migrated peer new newName),
    fun d => .ok (d.log (migratedEvent old new nowUnix))]

def read : Statement Database := .run .ok

/-- The statement is prepared and the row is read; a row that cannot be read counts as missing. No
error rolls the transaction back. -/
def migrateTrustedPeerIdentity (faults : ℕ → Option Failure) (c : Connection Database)
    (old new newName : String) (nowUnix : ℕ) : Connection Database × Except String Unit :=
  match c.execute (faults 0) read with
  | (c', .error cause) => (c', .error cause)
  | (c', .ok ()) =>
      let (c'', asked) := c'.execute (faults 1) read
      let oldPeer := match asked with
        | .ok () => c''.visible.peers.find? old
        | .error _ => none
      match oldPeer with
      | none => (c'', .error ("Old fingerprint " ++ old ++ " not found in trusted peers"))
      | some peer =>
          c''.executeAll faults 2
            (.begin :: ((migration peer old new newName nowUnix).map .run ++ [.commit]))

end DashDrop.Trust.Statements
