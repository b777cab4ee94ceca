/- GID: DashDrop/Trust/TableWrites
   source: src-tauri/src/db.rs
   anchors: []
   digest: Which failures of a statement leave the table of trusted peers half written. -/

import DashDrop.Trust.Statements

set_option autoImplicit false
set_option relaxedAutoImplicit false

namespace DashDrop.Trust.TableWrites

open DashDrop.Foundation.Transactions
open DashDrop.Trust.Peers (TrustedPeer newPeer)
open DashDrop.Trust.Storage (PeerMap PeerTable peersOf find?_upsert find?_delete Reply)
open DashDrop.Trust.Statements

/-- The functions that write the table. -/
inductive Call where
  | replace (trusted : PeerMap)
  | migrate (old new newName : String) (nowUnix : ℕ)

/-- A call, and which of its statements the database fails. -/
structure Attempt where
  call : Call
  faults : ℕ → Option Failure

def Attempt.run (a : Attempt) (c : Connection Database) : Connection Database × Except String Unit :=
  match a.call with
  | .replace trusted => replaceTrustedPeers a.faults c trusted
  | .migrate old new newName nowUnix =>
      migrateTrustedPeerIdentity a.faults c old new newName nowUnix

def Holds (t : PeerTable) (rows : List TrustedPeer) : Prop :=
  ∀ fp peer, t.find? fp = some peer ↔ peer ∈ rows ∧ peer.fingerprint = fp

def Call.Applied (before after : PeerTable) : Call → Prop
  | .replace trusted => Holds after (peersOf trusted)
  | .migrate old new newName _ => ∃ peer, before.find? old = some peer ∧
      ∀ fp, after.find? fp = ((before.delete old).upsert (migrated peer new newName)).find? fp

/-- Applied or nothing, and no transaction left behind. -/
def AllOrNothing (a : Attempt) (c : Connection Database) : Prop :=
  (a.run c).1.pending = none ∧
    (a.call.Applied c.visible.peers (a.run c).1.visible.peers ∨
      ∀ fp, (a.run c).1.visible.peers.find? fp = c.visible.peers.find? fp)

/-- The rows that come in before the first that fails, after those of `done`. -/
def insertedRows (faults : ℕ → Option Failure) :
    ℕ → List TrustedPeer → List TrustedPeer → List TrustedPeer
  | _, done, [] => done
  | n, done, peer :: rest =>
      if faults n = none ∧ Storable peer = true ∧
          peer.fingerprint ∉ done.map TrustedPeer.fingerprint then
        insertedRows faults (n + 1) (done ++ [peer]) rest
      else done

/-- A replacement stops at its `DELETE`, brings in every row, or stops at rows that were the whole
table before. A migration stops before its transaction has begun, or the failure inside it makes the
database roll back. -/
def Safe (a : Attempt) (d : Database) : Prop :=
  match a.call with
  | .replace trusted =>
      a.faults 0 ≠ none ∨ (∀ peer ∈ peersOf trusted,
        peer ∈ insertedRows a.faults 1 [] (peersOf trusted)) ∨
        Holds d.peers (insertedRows a.faults 1 [] (peersOf trusted))
  | .migrate old _ _ _ =>
      a.faults 0 ≠ none ∨ a.faults 1 ≠ none ∨ d.peers.find? old = none ∨ a.faults 2 ≠ none ∨
        ∀ failure, firstFault a.faults 3 4 = some failure → failure.rollsBack = true

section Inserts

variable {faults : ℕ → Option Failure} {d : Database} {rows done : List TrustedPeer}

theorem holds_empty : Holds .empty [] := by
  intro fp peer
  simp [PeerTable.find?, PeerTable.empty]

theorem holds_upsert {t : PeerTable} {peer : TrustedPeer} (h : Holds t done)
    (fresh : t.find? peer.fingerprint = none) : Holds (t.upsert peer) (done ++ [peer]) := by
  intro fp row
  rw [find?_upsert, List.mem_append, List.mem_singleton]
  split_ifs with same
  · subst same
    constructor
    · intro found
      obtain rfl := Option.some.inj found
      exact ⟨.inr rfl, rfl⟩
    · rintro ⟨old | rfl, key⟩
      · have found := (h peer.fingerprint row).mpr ⟨old, key⟩
        rw [fresh] at found
        cases found
      · rfl
  · rw [h fp row]
    constructor
    · exact fun ⟨old, key⟩ => ⟨.inl old, key⟩
    · rintro ⟨old | rfl, key⟩
      · exact ⟨old, key⟩
      · exact absurd key.symm same

theorem find?_isSome_iff {t : PeerTable} (h : Holds t done) (fp : String) :
    (t.find? fp).isSome = true ↔ fp ∈ done.map TrustedPeer.fingerprint := by
  rw [Option.isSome_iff_exists, List.mem_map]
  exact exists_congr fun peer => h fp peer

theorem insertedRows_subset (faults : ℕ → Option Failure) (n : ℕ) (done rows : List TrustedPeer) :
    insertedRows faults n done rows ⊆ done ++ rows := by
  induction rows generalizing n done with
  | nil => simp [insertedRows]
  | cons peer rest ih =>
    unfold insertedRows
    split_ifs
    · have later : insertedRows faults (n + 1) (done ++ [peer]) rest ⊆ done ++ [peer] ++ rest :=
        ih (n + 1) (done ++ [peer])
      simpa using later
    · exact List.subset_append_left _ _

theorem inserts_hold (faults : ℕ → Option Failure) (rows : List TrustedPeer)
    (h : Holds d.peers done) (n : ℕ) :
    ∃ d' outcome, Connection.executeAll faults n (rows.map fun peer => .run (insertRow peer))
      ⟨d, none⟩ = (⟨d', none⟩, outcome) ∧ Holds d'.peers (insertedRows faults n done rows) := by
  induction rows generalizing n d done with
  | nil => exact ⟨d, .ok (), rfl, h⟩
  | cons peer rest ih =>
    cases fault : faults n with
    | some failure =>
      refine ⟨d, .error failure.cause, ?_, ?_⟩
      · rw [List.map_cons, executeAll_cons_fault fault]
        cases failure.rollsBack <;> rfl
      · simpa [insertedRows, fault] using h
    | none =>
      by_cases fits : Storable peer = true
      · by_cases fresh : peer.fingerprint ∈ done.map TrustedPeer.fingerprint
        · have there := (find?_isSome_iff h peer.fingerprint).mpr fresh
          have refused : insertRow peer d =
              .error "UNIQUE constraint failed: trusted_peers_store.fingerprint" := by
            simp [insertRow, fits, there]
          refine ⟨d, _, executeAll_cons_refused fault refused, ?_⟩
          simpa only [insertedRows, fresh, not_true, and_false, if_false] using h
        · have absent : d.peers.find? peer.fingerprint = none := by
            rw [← Option.not_isSome_iff_eq_none, find?_isSome_iff h]
            exact fresh
          have stored : insertRow peer d = .ok (d.store peer fits) := by
            simp [insertRow, fits, absent]
          have next : Holds (d.store peer fits).peers (done ++ [peer]) := holds_upsert h absent
          obtain ⟨d', outcome, ran, holds⟩ := ih next (n + 1)
          refine ⟨d', outcome, ?_, ?_⟩
          · rw [List.map_cons, executeAll_cons_run fault stored]
            exact ran
          · simpa only [insertedRows, fault, fits, fresh, not_false_iff, and_self, if_true] using
              holds
      · have refused : insertRow peer d = .error outOfRange := by
          simp [insertRow, fits]
        refine ⟨d, _, executeAll_cons_refused fault refused, ?_⟩
        simpa [insertedRows, fits] using h

end Inserts

section Calls

variable {faults : ℕ → Option Failure} {d : Database}

theorem replace_leaves (faults : ℕ → Option Failure) (d : Database) (trusted : PeerMap) :
    ∃ d' outcome, replaceTrustedPeers faults ⟨d, none⟩ trusted = (⟨d', none⟩, outcome) ∧
      if faults 0 = none then Holds d'.peers (insertedRows faults 1 [] (peersOf trusted))
      else d' = d := by
  cases fault : faults 0 with
  | some failure =>
    refine ⟨d, .error failure.cause, ?_, by simp⟩
    rw [replaceTrustedPeers, executeAll_cons_fault fault]
    cases failure.rollsBack <;> rfl
  | none =>
    have cleared : Holds d.clear.peers [] := holds_empty
    obtain ⟨d', outcome, ran, holds⟩ := inserts_hold faults (peersOf trusted) cleared 1
    refine ⟨d', outcome, ?_, by simpa using holds⟩
    exact (executeAll_cons_run (f := fun e : Database => .ok e.clear) fault rfl).trans ran

theorem holds_iff_of_holds {t : PeerTable} {some_rows rows : List TrustedPeer}
    (h : Holds t some_rows) (subset : some_rows ⊆ rows) :
    Holds t rows ↔ ∀ peer ∈ rows, peer ∈ some_rows := by
  constructor
  · intro all peer mem
    have found := (all peer.fingerprint peer).mpr ⟨mem, rfl⟩
    exact ((h peer.fingerprint peer).mp found).1
  · intro all fp peer
    rw [h fp peer]
    exact and_congr_left fun _ => ⟨fun mem => subset mem, fun mem => all peer mem⟩

theorem same_rows_iff {t t' : PeerTable} {rows : List TrustedPeer} (h : Holds t' rows) :
    (∀ fp, t'.find? fp = t.find? fp) ↔ Holds t rows := by
  constructor
  · intro same fp peer
    rw [← same fp]
    exact h fp peer
  · intro holds fp
    apply Option.ext
    intro peer
    rw [h fp peer, holds fp peer]

theorem replace_allOrNothing_iff (trusted : PeerMap) :
    AllOrNothing ⟨.replace trusted, faults⟩ ⟨d, none⟩ ↔ Safe ⟨.replace trusted, faults⟩ d := by
  obtain ⟨d', outcome, ran, left⟩ := replace_leaves faults d trusted
  have run : (Attempt.mk (.replace trusted) faults).run ⟨d, none⟩ = (⟨d', none⟩, outcome) := ran
  simp only [AllOrNothing, run, Safe, Call.Applied, Connection.visible, Option.getD_none, true_and]
  split_ifs at left with fault
  · have subset : insertedRows faults 1 [] (peersOf trusted) ⊆ peersOf trusted := by
      simpa using insertedRows_subset faults 1 [] (peersOf trusted)
    rw [holds_iff_of_holds left subset, same_rows_iff left]
    simp [fault]
  · subst left
    exact ⟨fun _ => .inl fault, fun _ => .inr fun _ => rfl⟩

theorem storable_migrated {peer : TrustedPeer} (h : Storable peer = true) (new newName : String) :
    Storable (migrated peer new newName) = true := by
  simp only [Storable, Bool.and_eq_true] at h
  obtain ⟨kept, -⟩ := h
  simp [Storable, migrated, kept]

theorem runAll_migration {old : String} {peer : TrustedPeer} (found : d.peers.find? old = some peer)
    (new newName : String) (nowUnix : ℕ) :
    ∃ d', runAll (migration peer old new newName nowUnix) d = .ok d' ∧
      d'.peers = (d.peers.delete old).upsert (migrated peer new newName) := by
  have fits := storable_migrated (d.fits old peer found) new newName
  refine ⟨((d.delete old).store (migrated peer new newName) fits).log
    (migratedEvent old new nowUnix), ?_, rfl⟩
  simp [migration, runAll, saveTrustedPeer, fits]

theorem execute_read (fault : Option Failure) :
    Connection.execute ⟨d, none⟩ fault read =
      (⟨d, none⟩, (fault.map fun failure => Except.error failure.cause).getD (.ok ())) := by
  cases fault with
  | none => rfl
  | some failure => cases h : failure.rollsBack <;> simp [Connection.execute, h]

theorem migrate_stops {old : String} (new newName : String) (nowUnix : ℕ)
    (stop : faults 0 ≠ none ∨ faults 1 ≠ none ∨ d.peers.find? old = none) :
    ∃ cause, migrateTrustedPeerIdentity faults ⟨d, none⟩ old new newName nowUnix =
      (⟨d, none⟩, .error cause) := by
  unfold migrateTrustedPeerIdentity
  rw [execute_read]
  cases first : faults 0 with
  | some failure => exact ⟨failure.cause, rfl⟩
  | none =>
    simp only [Option.map_none, Option.getD_none, execute_read]
    cases second : faults 1 with
    | some failure => exact ⟨_, rfl⟩
    | none =>
      have missing : d.peers.find? old = none := by simpa [first, second] using stop
      simp only [Option.map_none, Option.getD_none, Connection.visible, missing]
      exact ⟨_, rfl⟩

theorem migrate_begins {old : String} {peer : TrustedPeer} (new newName : String) (nowUnix : ℕ)
    (first : faults 0 = none) (second : faults 1 = none)
    (found : d.peers.find? old = some peer) :
    migrateTrustedPeerIdentity faults ⟨d, none⟩ old new newName nowUnix =
      Connection.executeAll faults 2
        (.begin :: ((migration peer old new newName nowUnix).map .run ++ [.commit])) ⟨d, none⟩ := by
  unfold migrateTrustedPeerIdentity
  simp only [execute_read, first, second, Option.map_none, Option.getD_none, Connection.visible,
    found]

theorem opened_transaction (faults : ℕ → Option Failure) (d : Database)
    (fs : List (Database → Except String Database)) (works : faults 2 = none) :
    Connection.executeAll faults 2 (.begin :: (fs.map .run ++ [.commit])) ⟨d, none⟩ =
      Connection.executeAll faults 3 (fs.map .run ++ [.commit]) ⟨d, some d⟩ := by
  simp [Connection.executeAll, Connection.execute, works]

theorem migrate_allOrNothing_iff (old new newName : String) (nowUnix : ℕ) :
    AllOrNothing ⟨.migrate old new newName nowUnix, faults⟩ ⟨d, none⟩ ↔
      Safe ⟨.migrate old new newName nowUnix, faults⟩ d := by
  -- a call that leaves the connection as it was is all right
  have untouched {cause : String} (left : migrateTrustedPeerIdentity faults ⟨d, none⟩ old new
      newName nowUnix = (⟨d, none⟩, .error cause)) :
      AllOrNothing ⟨.migrate old new newName nowUnix, faults⟩ ⟨d, none⟩ := by
    have run : (Attempt.mk (.migrate old new newName nowUnix) faults).run ⟨d, none⟩ =
        (⟨d, none⟩, .error cause) := left
    rw [AllOrNothing, run]
    exact ⟨rfl, .inr fun _ => rfl⟩
  by_cases stop : faults 0 ≠ none ∨ faults 1 ≠ none ∨ d.peers.find? old = none
  · obtain ⟨cause, left⟩ := migrate_stops new newName nowUnix stop
    refine ⟨fun _ => ?_, fun _ => untouched left⟩
    obtain first | second | missing := stop
    · exact .inl first
    · exact .inr (.inl second)
    · exact .inr (.inr (.inl missing))
  · push Not at stop
    obtain ⟨first, second, there⟩ := stop
    obtain ⟨peer, found⟩ := Option.ne_none_iff_exists'.mp there
    have begins := migrate_begins new newName nowUnix first second found
    cases third : faults 2 with
    | some failure =>
      have left : migrateTrustedPeerIdentity faults ⟨d, none⟩ old new newName nowUnix =
          (⟨d, none⟩, .error failure.cause) := by
        rw [begins, executeAll_cons_fault third]
        cases failure.rollsBack <;> rfl
      exact ⟨fun _ => .inr (.inr (.inr (.inl (by simp [third])))), fun _ => untouched left⟩
    | none =>
      have safe_iff : Safe ⟨.migrate old new newName nowUnix, faults⟩ d ↔
          ∀ failure, firstFault faults 3 4 = some failure → failure.rollsBack = true := by
        simp [Safe, first, second, third, found]
      rw [safe_iff]
      obtain ⟨d', ran, swapped⟩ := runAll_migration found new newName nowUnix
      rw [opened_transaction faults d (migration peer old new newName nowUnix) third] at begins
      obtain ⟨clean, done⟩ | ⟨failure, fault, c', stopped, kept, undone⟩ :=
        executeAll_in_transaction faults d ran 3
      · have run : (Attempt.mk (.migrate old new newName nowUnix) faults).run ⟨d, none⟩ =
            (⟨d', none⟩, .ok ()) := begins.trans done
        have clear : firstFault faults 3 4 = none := clean
        constructor
        · intro _ failure fault
          rw [clear] at fault
          cases fault
        · intro _
          rw [AllOrNothing, run]
          refine ⟨rfl, .inl ⟨peer, found, fun fp => ?_⟩⟩
          exact congrArg (fun t => t.find? fp) swapped
      · have run : (Attempt.mk (.migrate old new newName nowUnix) faults).run ⟨d, none⟩ =
            (c', .error failure.cause) := begins.trans stopped
        have here : firstFault faults 3 4 = some failure := fault
        constructor
        · intro clean other same
          obtain rfl : failure = other := Option.some.inj (here.symm.trans same)
          have closed := clean.1
          rw [run] at closed
          rw [closed] at undone
          simpa using undone.symm
        · intro rolls
          have closed : c' = ⟨d, none⟩ := by
            obtain ⟨committed, pending⟩ := c'
            rw [rolls failure here] at undone
            simp only [Bool.not_true, Option.isSome_eq_false_iff, Option.isNone_iff_eq_none] at undone
            subst undone kept
            rfl
          subst closed
          exact untouched (begins.trans stopped)

theorem allOrNothing_iff (a : Attempt) (d : Database) :
    AllOrNothing a ⟨d, none⟩ ↔ Safe a d := by
  obtain ⟨call, faults⟩ := a
  cases call with
  | replace trusted => exact replace_allOrNothing_iff trusted
  | migrate old new newName nowUnix => exact migrate_allOrNothing_iff old new newName nowUnix

end Calls

def faultsOf : Reply → ℕ → Option Failure
  | .deleteFails cause, n => if n = 0 then some ⟨cause, false⟩ else none
  | .insertFails rows cause, n => if n = rows + 1 then some ⟨cause, false⟩ else none
  | .fine, _ | .poisoned, _ | .configFails _, _ => none

section Refinement

variable {d : Database} {rows : List TrustedPeer}

def faultFrom (fault : Option (ℕ × String)) (m : ℕ) : Option Failure :=
  fault.bind fun f => if m = f.1 then some ⟨f.2, false⟩ else none

theorem inserts_refine (faults : ℕ → Option Failure) (fault : Option (ℕ × String)) (n : ℕ)
    (same : ∀ m, faults (n + m) = faultFrom fault m)
    (all : ∀ peer ∈ rows, Storable peer = true) :
    ∃ d', Connection.executeAll faults n (rows.map fun peer => .run (insertRow peer)) ⟨d, none⟩ =
        (⟨d', none⟩, (Storage.insertRows fault d.peers rows).2) ∧
      d'.peers = (Storage.insertRows fault d.peers rows).1 := by
  induction rows generalizing n d fault with
  | nil => exact ⟨d, rfl, rfl⟩
  | cons peer rest ih =>
    have fits := all peer List.mem_cons_self
    have here : faults n = faultFrom fault 0 := same 0
    match fault, here, same with
    | some (0, cause), here, _ =>
      refine ⟨d, ?_, rfl⟩
      exact executeAll_cons_fault (by simpa [faultFrom] using here)
    | none, here, same | some (k + 1, cause), here, same =>
      have works : faults n = none := by simpa [faultFrom] using here
      unfold Storage.insertRows
      split_ifs with taken
      · have refused : insertRow peer d =
            .error "UNIQUE constraint failed: trusted_peers_store.fingerprint" := by
          simp [insertRow, fits, taken]
        exact ⟨d, executeAll_cons_refused works refused, rfl⟩
      · have stored : insertRow peer d = .ok (d.store peer fits) := by
          simp [insertRow, fits, taken]
        rw [List.map_cons, executeAll_cons_run works stored]
        apply ih
        · intro m
          have next := same (m + 1)
          rw [show n + 1 + m = n + (m + 1) by omega, next]
          simp [faultFrom]
        · exact fun other mem => all other (List.mem_cons_of_mem _ mem)

/-- On an idle connection, and with numbers that fit, the statements do what the model of the table
says. -/
theorem replace_refines (reply : Reply) (trusted : PeerMap)
    (all : ∀ peer ∈ peersOf trusted, Storable peer = true) :
    ∃ d', replaceTrustedPeers (faultsOf reply) ⟨d, none⟩ trusted =
        (⟨d', none⟩, (Storage.replaceTrustedPeers reply d.peers trusted).2) ∧
      d'.peers = (Storage.replaceTrustedPeers reply d.peers trusted).1 := by
  have cleared (fault : Option (ℕ × String)) (works : faultsOf reply 0 = none)
      (same : ∀ m, faultsOf reply (1 + m) = faultFrom fault m) :
      ∃ d', replaceTrustedPeers (faultsOf reply) ⟨d, none⟩ trusted =
          (⟨d', none⟩, (Storage.insertRows fault .empty (peersOf trusted)).2) ∧
        d'.peers = (Storage.insertRows fault .empty (peersOf trusted)).1 := by
    obtain ⟨d', ran, peers⟩ := inserts_refine (d := d.clear) (faultsOf reply) fault 1 same all
    refine ⟨d', ?_, peers⟩
    exact (executeAll_cons_run (f := fun e : Database => .ok e.clear) works rfl).trans ran
  cases reply with
  | deleteFails cause => exact ⟨d, rfl, rfl⟩
  | insertFails k cause =>
    apply cleared (some (k, cause)) (by simp [faultsOf])
    intro m
    simp only [faultsOf, faultFrom, Option.bind_some, show 1 + m = k + 1 ↔ m = k by omega]
  | fine | poisoned | configFails => exact cleared none rfl fun _ => rfl

theorem migrate_refines (old new newName : String) (nowUnix : ℕ) :
    ∃ d', migrateTrustedPeerIdentity (fun _ => none) ⟨d, none⟩ old new newName nowUnix =
        (⟨d', none⟩, (Storage.migrateTrustedPeerIdentity d.peers old new newName).2) ∧
      d'.peers = (Storage.migrateTrustedPeerIdentity d.peers old new newName).1 := by
  cases found : d.peers.find? old with
  | none =>
    refine ⟨d, ?_, ?_⟩
    · simp [migrateTrustedPeerIdentity, Storage.migrateTrustedPeerIdentity, execute_read,
        Connection.visible, found]
    · simp [Storage.migrateTrustedPeerIdentity, found]
  | some peer =>
    obtain ⟨d', ran, swapped⟩ := runAll_migration found new newName nowUnix
    have opened := opened_transaction (fun _ => none) d
      (migration peer old new newName nowUnix) rfl
    obtain ⟨-, done⟩ | ⟨failure, fault, -⟩ := executeAll_in_transaction (fun _ => none) d ran 3
    · refine ⟨d', ?_, ?_⟩
      · rw [migrate_begins new newName nowUnix rfl rfl found, opened, done]
        simp [Storage.migrateTrustedPeerIdentity, found]
      · rw [swapped]
        simp [Storage.migrateTrustedPeerIdentity, found, migrated]
    · simp [firstFault, migration] at fault

end Refinement

/-- Every call of a run is all or nothing. -/
def Clean : List Attempt → Connection Database → Prop
  | [], _ => True
  | a :: rest, c => AllOrNothing a c ∧ Clean rest (a.run c).1

/-- Every call of a run meets the condition, in the state that it finds. -/
def Cautious : List Attempt → Connection Database → Prop
  | [], _ => True
  | a :: rest, c => Safe a c.visible ∧ Cautious rest (a.run c).1

/-- From an idle connection on, all calls are all or nothing if and only if all meet the
condition. -/
theorem writes_clean_iff (d : Database) (attempts : List Attempt) :
    Clean attempts ⟨d, none⟩ ↔ Cautious attempts ⟨d, none⟩ := by
  induction attempts generalizing d with
  | nil => exact Iff.rfl
  | cons a rest ih =>
    have onward (h : AllOrNothing a ⟨d, none⟩) :
        Clean rest (a.run ⟨d, none⟩).1 ↔ Cautious rest (a.run ⟨d, none⟩).1 := by
      have closed := h.1
      generalize (a.run ⟨d, none⟩).1 = c at closed ⊢
      obtain ⟨committed, pending⟩ := c
      obtain rfl : pending = none := closed
      exact ih committed
    constructor
    · intro h
      exact ⟨(allOrNothing_iff a d).mp h.1, (onward h.1).mp h.2⟩
    · intro h
      have here := (allOrNothing_iff a d).mpr h.1
      exact ⟨here, (onward here).mpr h.2⟩

def onePeer : Database where
  peers := PeerTable.empty.upsert (newPeer "a" "Phone" 5)
  events := []
  fits := by
    intro fp peer found
    rw [find?_upsert] at found
    split_ifs at found
    · obtain rfl := Option.some.inj found
      decide
    · cases found

def unstorable : PeerMap :=
  ((∅ : PeerMap).insert "a" (newPeer "a" "Phone" 5)).insert "b"
    { newPeer "b" "Tablet" 6 with lastUsedAt := some (2 ^ 63) }

def unlogged : ℕ → Option Failure := fun n => if n = 5 then some ⟨"disk I/O error", false⟩ else none

/-- The first table is empty afterwards, the second migration leaves its transaction open. -/
theorem half_written_table :
    (Attempt.run ⟨.replace unstorable, fun _ => none⟩ ⟨onePeer, none⟩).2 = .error outOfRange ∧
      (Attempt.run ⟨.replace unstorable, fun _ => none⟩ ⟨onePeer, none⟩).1.visible.peers.find? "a" =
        none ∧
      ¬ AllOrNothing ⟨.replace unstorable, fun _ => none⟩ ⟨onePeer, none⟩ ∧
      (Attempt.run ⟨.migrate "a" "c" "Phone" 7, unlogged⟩ ⟨onePeer, none⟩).1.pending.isSome = true ∧
      ¬ AllOrNothing ⟨.migrate "a" "c" "Phone" 7, unlogged⟩ ⟨onePeer, none⟩ := by
  have lost : (Attempt.run ⟨.replace unstorable, fun _ => none⟩
      ⟨onePeer, none⟩).1.visible.peers.find? "a" = none := by decide +kernel
  have left : (Attempt.run ⟨.migrate "a" "c" "Phone" 7, unlogged⟩
      ⟨onePeer, none⟩).1.pending.isSome = true := by decide +kernel
  refine ⟨by rfl, lost, fun clean => ?_, left, fun clean => ?_⟩
  · obtain ⟨-, applied | same⟩ := clean
    · have there := (applied "a" (newPeer "a" "Phone" 5)).mpr ⟨by decide, rfl⟩
      rw [lost] at there
      cases there
    · have there : onePeer.peers.find? "a" = none := (same "a").symm.trans lost
      cases there
  · rw [clean.1] at left
    cases left

end DashDrop.Trust.TableWrites
