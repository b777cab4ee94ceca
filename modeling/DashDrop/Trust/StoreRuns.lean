/- GID: DashDrop/Trust/StoreRuns
   source: src-tauri/src/db.rs
   anchors: []
   digest: Runs on the table of trusted peers: its columns, its statements, and the map behind them. -/

import DashDrop.Trust.Rows
import DashDrop.Trust.TableWrites

set_option autoImplicit false
set_option relaxedAutoImplicit false

namespace DashDrop.Trust.StoreRuns

open DashDrop.Foundation.Transactions
open DashDrop.Trust.Peers (TrustedPeer newPeer)
open DashDrop.Trust.Storage (PeerMap PeerTable Keyed peersOf Reply)
open DashDrop.Trust.Statements (Database Storable)
open DashDrop.Trust.TableWrites (Attempt faultsOf replace_refines migrate_refines)

/-- The calls that write the columns of the table and the one that reads them. -/
inductive Access where
  | save (peer : TrustedPeer)
  | replace (trusted : PeerTable)
  | load

/-- Every number fits its column. -/
def Access.Fits : Access → Prop
  | .save peer => Storable peer = true
  | .replace trusted => ∀ fp peer, trusted.find? fp = some peer → Storable peer = true
  | .load => True

def Access.onRows (t : Rows.PeerRows) : Access → Rows.PeerRows
  | .save peer => (Rows.saveTrustedPeer t peer).toOption.getD t
  | .replace trusted => (Rows.replaceTrustedPeers t trusted.rows).1
  | .load => t

def Access.onTable (table : PeerTable) : Access → PeerTable
  | .save peer => table.upsert peer
  | .replace trusted => trusted
  | .load => table

def loaded (t : Rows.PeerRows) : List Access → List (Except String (List TrustedPeer))
  | [] => []
  | a :: rest =>
      (match a with
        | .load => [Rows.loadTrustedPeers t]
        | _ => []) ++ loaded (a.onRows t) rest

def expected (table : PeerTable) : List Access → List (List TrustedPeer)
  | [] => []
  | a :: rest =>
      (match a with
        | .load => [peersOf table.rows]
        | _ => []) ++ expected (a.onTable table) rest

/-- The same peers, in the order of the query. -/
def Returns (result : Except String (List TrustedPeer)) (peers : List TrustedPeer) : Prop :=
  ∃ out, result = .ok out ∧ out.Perm peers

section Columns

variable {t : Rows.PeerRows} {table : PeerTable}

theorem stores_access (h : Rows.Stores t table) {a : Access} (fits : a.Fits) :
    Rows.Stores (a.onRows t) (a.onTable table) := by
  cases a with
  | save peer =>
    obtain ⟨t', saved, stores⟩ := Rows.stores_save h fits
    show Rows.Stores ((Rows.saveTrustedPeer t peer).toOption.getD t) _
    rw [saved]
    exact stores
  | replace trusted => exact (Rows.stores_replace trusted.keyed fits).2
  | load => exact h

/-- A peer is saved twice and loaded, and the table is replaced and loaded again. -/
def sampleAccesses : List Access :=
  [.save (newPeer "a" "Phone" 5), .save (newPeer "a" "Tablet" 5), .load,
    .replace (PeerTable.empty.upsert (newPeer "b" "Laptop" 6)), .load]

end Columns

/-- The calls as the table of peers knows them: what the database answers a replacement, and a
migration whose statements all work. -/
inductive Request where
  | replace (reply : Reply) (trusted : PeerMap)
  | migrate (old new newName : String) (nowUnix : ℕ)

def Request.Fits : Request → Prop
  | .replace _ trusted => ∀ peer ∈ peersOf trusted, Storable peer = true
  | .migrate _ _ _ _ => True

def Request.attempt : Request → Attempt
  | .replace reply trusted => ⟨.replace trusted, faultsOf reply⟩
  | .migrate old new newName nowUnix => ⟨.migrate old new newName nowUnix, fun _ => none⟩

def Request.onTable (table : PeerTable) : Request → PeerTable × Except String Unit
  | .replace reply trusted => Storage.replaceTrustedPeers reply table trusted
  | .migrate old new newName _ => Storage.migrateTrustedPeerIdentity table old new newName

/-- The calls one after the other on one connection, and what each returns. -/
def runStatements (c : Connection Database) :
    List Request → Connection Database × List (Except String Unit)
  | [] => (c, [])
  | r :: rest =>
      let (c', result) := r.attempt.run c
      let (last, results) := runStatements c' rest
      (last, result :: results)

def runTable (table : PeerTable) : List Request → PeerTable × List (Except String Unit)
  | [] => (table, [])
  | r :: rest =>
      let (table', result) := r.onTable table
      let (last, results) := runTable table' rest
      (last, result :: results)

section Statements

variable {d : Database}

/-- One call on an idle connection leaves it idle, with the table and the result of the model. -/
theorem request_refines {r : Request} (fits : r.Fits) :
    ∃ d', r.attempt.run ⟨d, none⟩ = (⟨d', none⟩, (r.onTable d.peers).2) ∧
      d'.peers = (r.onTable d.peers).1 := by
  cases r with
  | replace reply trusted => exact replace_refines reply trusted fits
  | migrate old new newName nowUnix => exact migrate_refines old new newName nowUnix

/-- A replacement that stops after its first row, a migration of that row, and one of a peer that
is not there. -/
def sampleRequests : List Request :=
  [.replace (.insertFails 1 "disk I/O error")
      (((∅ : PeerMap).insert "a" (newPeer "a" "Phone" 5)).insert "b" (newPeer "b" "Tablet" 6)),
    .migrate "b" "c" "Tablet" 7, .migrate "a" "d" "Phone" 8]

end Statements

end DashDrop.Trust.StoreRuns
