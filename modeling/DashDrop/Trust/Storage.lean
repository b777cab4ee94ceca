/- GID: DashDrop/Trust/Storage
   source: src-tauri/src/core_service.rs, src-tauri/src/transport/handshake.rs,
     src-tauri/src/db.rs, src-tauri/src/pairing.rs, src-tauri/src/runtime/bootstrap.rs
   anchors: []
   digest: Trusted peers in memory and in the database, and the sections that move them. -/

import DashDrop.Foundation.Interleaving
import DashDrop.Trust.Peers

set_option autoImplicit false
set_option relaxedAutoImplicit false

namespace DashDrop.Trust.Storage

open DashDrop.Foundation.Program DashDrop.Foundation.Interleaving DashDrop.Foundation.Text
open DashDrop.Runtime.State (TrustLevel AppConfig)
open DashDrop.Trust.Peers

abbrev PeerMap := AList (fun _ : String => TrustedPeer)

/-- Every peer is filed under its own fingerprint. -/
def Keyed (m : PeerMap) : Prop := ∀ fp peer, m.lookup fp = some peer → peer.fingerprint = fp

theorem Keyed.insert {m : PeerMap} (h : Keyed m) (peer : TrustedPeer) :
    Keyed (m.insert peer.fingerprint peer) := by
  intro fp row found
  by_cases same : fp = peer.fingerprint
  · subst same
    rw [AList.lookup_insert] at found
    cases found
    rfl
  · rw [AList.lookup_insert_ne same] at found
    exact h fp row found

theorem Keyed.erase {m : PeerMap} (h : Keyed m) (gone : String) : Keyed (m.erase gone) := by
  intro fp row found
  by_cases same : fp = gone
  · subst same
    rw [AList.lookup_erase] at found
    cases found
  · rw [AList.lookup_erase_ne same] at found
    exact h fp row found

/-- `trusted_peers_store`, whose primary key is the fingerprint of the row. -/
structure PeerTable where
  rows : PeerMap
  keyed : Keyed rows

namespace PeerTable

def empty : PeerTable := ⟨∅, fun fp peer found => by simp at found⟩

def find? (t : PeerTable) (fp : String) : Option TrustedPeer := t.rows.lookup fp

/-- `INSERT ... ON CONFLICT(fingerprint) DO UPDATE` of all columns. -/
def upsert (t : PeerTable) (peer : TrustedPeer) : PeerTable :=
  ⟨t.rows.insert peer.fingerprint peer, t.keyed.insert peer⟩

def delete (t : PeerTable) (fp : String) : PeerTable := ⟨t.rows.erase fp, t.keyed.erase fp⟩

end PeerTable

inductive Reply where
  | fine
  /-- The lock is poisoned. -/
  | poisoned
  | configFails (cause : String)
  | deleteFails (cause : String)
  /-- The insert after so many rows fails. -/
  | insertFails (rows : ℕ) (cause : String)
  deriving DecidableEq

/-- Insert the rows in turn, up to a key that is there or to the fault of the database. -/
def insertRows (fault : Option (ℕ × String)) (t : PeerTable) :
    List TrustedPeer → PeerTable × Except String Unit
  | [] => (t, .ok ())
  | peer :: rest =>
      match fault with
      | some (0, cause) => (t, .error cause)
      | _ =>
          if (t.find? peer.fingerprint).isSome then
            (t, .error "UNIQUE constraint failed: trusted_peers_store.fingerprint")
          else insertRows (fault.map fun f => (f.1 - 1, f.2)) (t.upsert peer) rest

def peersOf (m : PeerMap) : List TrustedPeer := m.entries.map fun e => e.2

def replaceTrustedPeers (reply : Reply) (t : PeerTable) (trusted : PeerMap) :
    PeerTable × Except String Unit :=
  match reply with
  | .deleteFails cause => (t, .error cause)
  | .insertFails n cause => insertRows (some (n, cause)) .empty (peersOf trusted)
  | _ => insertRows none .empty (peersOf trusted)

/-- The row of the old fingerprint moves to the new one, without its freeze. -/
def migrateTrustedPeerIdentity (t : PeerTable) (old new newName : String) :
    PeerTable × Except String Unit :=
  match t.find? old with
  | none => (t, .error ("Old fingerprint " ++ old ++ " not found in trusted peers"))
  | some peer => ((t.delete old).upsert { peer with
      fingerprint := new
      name := newName
      frozenAt := none
      freezeReason := none }, .ok ())

/-- The last three fields only number the states of the map: how often it was written, at which
number each thread took its last clone, and which number the table was last replaced with. -/
structure World where
  memory : TrustState
  config : AppConfig
  table : PeerTable
  configRow : Option AppConfig
  version : ℕ
  clones : ℕ → ℕ
  stored : ℕ

inductive TrustOp where
  /-- Mark a known device as trusted, or no longer so. -/
  | markTrusted (fp : String)
  | unmark (fp : String)
  | addTrust (fp name : String)
  | remove (fp : String)
  | setAlias (fp : String) (peerAlias : Option String)
  | confirm (fp : String) (method : TrustVerificationMethod) (mutualConfirmation : Bool)
  | freeze (fp reason : String) (frozenAt : ℕ)
  | level (fp : String)
  | clone
  | now
  | config
  | setConfig (config : AppConfig)
  /-- The checks of a new download directory, and the new registration of the service. -/
  | probe (dir : String)
  | reregister
  /-- What runs under the lock of the database. -/
  | persist (config : AppConfig) (trusted : PeerMap)
  | replace (trusted : PeerMap)
  | migrate (old new newName : String)

abbrev TrustOp.Resp : TrustOp → Type
  | .markTrusted _ => String
  | .remove _ | .setAlias _ _ | .confirm _ _ _ | .freeze _ _ _ => Bool
  | .level _ => Option TrustLevel
  | .clone => PeerMap
  | .now => ℕ
  | .config => AppConfig
  | .probe _ | .reregister | .persist _ _ | .replace _ | .migrate _ _ _ => Except String Unit
  | .unmark _ | .addTrust _ _ | .setConfig _ => Unit

abbrev Code (α : Type) := Prog TrustOp TrustOp.Resp α

/-- The clock, the database and the rest of the system at a step. -/
structure Ans where
  now : ℕ
  db : Reply
  outcome : Except String Unit

def World.wrote (w : World) (memory : TrustState) : World :=
  { w with memory := memory, version := w.version + 1 }

def changePeer (w : World) (fp : String) (f : TrustedPeer → TrustedPeer) : World × Bool :=
  match w.memory.trustedPeers.lookup fp with
  | some peer => (w.wrote (setPeer w.memory fp (f peer)), true)
  | none => (w, false)

def frozenPeer (reason : String) (frozenAt : ℕ) (peer : TrustedPeer) : TrustedPeer :=
  { peer with trustLevel := .frozen, frozenAt := some frozenAt, freezeReason := some reason }

/-- Replace the table by a clone of thread `i`. -/
def World.replaced (w : World) (i : ℕ) (reply : Reply) (trusted : PeerMap) :
    World × Except String Unit :=
  let outcome := replaceTrustedPeers reply w.table trusted
  match outcome.2 with
  | .ok () => ({ w with table := outcome.1, stored := w.clones i }, .ok ())
  | .error cause => ({ w with table := outcome.1 }, .error cause)

def exec : Exec TrustOp TrustOp.Resp World Ans := fun i o x w =>
  match o with
  | .markTrusted fp =>
      let marked := markTrusted w.memory fp
      some ({ w with memory := marked.1 }, marked.2)
  | .unmark fp =>
      let devices := match w.memory.devices.lookup fp with
        | some device => w.memory.devices.insert fp { device with trusted := false }
        | none => w.memory.devices
      some ({ w with memory := { w.memory with devices := devices } }, ())
  | .addTrust fp name => some (w.wrote (addTrust w.memory fp name x.now), ())
  | .remove fp =>
      if (w.memory.trustedPeers.lookup fp).isSome then
        some (w.wrote { w.memory with trustedPeers := w.memory.trustedPeers.erase fp }, true)
      else some (w, false)
  | .setAlias fp peerAlias =>
      some (changePeer w fp fun peer => { peer with peerAlias := normalizedAlias peerAlias })
  | .confirm fp method mutualConfirmation =>
      some (changePeer w fp fun peer => confirmedPeer peer method mutualConfirmation x.now)
  | .freeze fp reason frozenAt => some (changePeer w fp (frozenPeer reason frozenAt))
  | .level fp => some (w, (w.memory.trustedPeers.lookup fp).map TrustedPeer.trustLevel)
  | .clone =>
      some ({ w with clones := Function.update w.clones i w.version }, w.memory.trustedPeers)
  | .now => some (w, x.now)
  | .config => some (w, w.config)
  | .setConfig config => some ({ w with config := config }, ())
  | .probe _ | .reregister => some (w, x.outcome)
  | .persist config trusted =>
      match x.db with
      | .poisoned => some (w, .error "DB lock poisoned")
      | .configFails cause => some (w, .error cause)
      | reply => some ({ w with configRow := some config }.replaced i reply trusted)
  | .replace trusted =>
      match x.db with
      | .poisoned => some (w, .error "DB lock poisoned")
      | reply => some (w.replaced i reply trusted)
  | .migrate old new newName =>
      match x.db with
      | .poisoned => some (w, .error "Database lock poisoned")
      | .fine =>
          let outcome := migrateTrustedPeerIdentity w.table old new newName
          some ({ w with table := outcome.1 }, outcome.2)
      | _ => none

def ask (o : TrustOp) : Code o.Resp := perform o

def persistRuntimeState : Code (Except String Unit) := do
  let config ← ask .config
  let trusted ← ask .clone
  ask (.persist config trusted)

def pairDevice (fp : String) : Code (Except String Unit) := do
  let name ← ask (.markTrusted fp)
  ask (.addTrust fp name)
  persistRuntimeState

def unpairDevice (fp : String) : Code (Except String Unit) := do
  if ← ask (.remove fp) then
    ask (.unmark fp)
    persistRuntimeState
  else pure (.error (notFound fp))

def setTrustedAlias (fp : String) (peerAlias : Option String) : Code (Except String Unit) := do
  if ← ask (.setAlias fp peerAlias) then persistRuntimeState
  else pure (.error (notFound fp))

def confirmTrustedPeerVerification (fp : String) (method : TrustVerificationMethod)
    (mutualConfirmation : Bool) : Code (Except String Unit) :=
  if mutualConfirmation ∧ (method = .manualPairing ∨ method = .legacyUnsignedLink) then
    pure (.error
      "Mutual confirmation requires a signed pairing link and matching shared pair code.")
  else do
    if ← ask (.confirm fp method mutualConfirmation) then persistRuntimeState
    else pure (.error (notFound fp))

def freezes (level : Option TrustLevel) : Bool :=
  level = some .signedLinkVerified || level = some .mutualConfirmed

def freezeReason (sessionId mdnsFp certFp : String) : String :=
  "Fingerprint changed on session " ++ sessionId ++ ": expected " ++ mdnsFp ++ ", saw " ++ certFp

/-- The part of an incoming handshake that meets another certificate than the announced one. What
becomes of the table is not looked at. -/
def freezeChanged (sessionId mdnsFp certFp : String) : Code (Except String Unit) := do
  let previous ← ask (.level mdnsFp)
  let current ← ask (.level certFp)
  if previous.isSome ∧ current.isNone then
    let level ← ask (.level mdnsFp)
    let nowUnix ← ask .now
    if freezes level then
      if ← ask (.freeze mdnsFp (freezeReason sessionId mdnsFp certFp) nowUnix) then
        let trusted ← ask .clone
        let _ ← ask (.replace trusted)
        pure (.ok ())
      else pure (.ok ())
    else pure (.ok ())
  else pure (.ok ())

/-- The rest of `set_app_config` once the settings and their directory are in order. -/
def applyConfig (oldName : String) (config : AppConfig) : Code (Except String Unit) := do
  let previous ← ask .config
  ask (.setConfig config)
  let stored ← ask .config
  if oldName ≠ stored.deviceName then
    match ← ask .reregister with
    | .error cause =>
        ask (.setConfig previous)
        pure (.error ("device name update rolled back because mDNS refresh failed: " ++ cause))
    | .ok () => persistRuntimeState
  else persistRuntimeState

def setAppConfig (given : AppConfig) : Code (Except String Unit) :=
  let config := { given with deviceName := trimmed given.deviceName }
  if config.deviceName.isEmpty then pure (.error "device_name cannot be empty")
  else if config.maxParallelStreams = 0 ∨ config.maxParallelStreams > 32 then
    pure (.error "max_parallel_streams must be between 1 and 32")
  else do
    let old ← ask .config
    match config.downloadDir with
    | none => applyConfig old.deviceName config
    | some dir =>
        match ← ask (.probe dir) with
        | .error cause => pure (.error cause)
        | .ok () => applyConfig old.deviceName config

/-- What the user and the peers can ask for. -/
inductive Request where
  | pair (fp : String)
  | unpair (fp : String)
  | setAlias (fp : String) (peerAlias : Option String)
  | confirm (fp : String) (method : TrustVerificationMethod) (mutualConfirmation : Bool)
  | freeze (sessionId mdnsFp certFp : String)
  | setConfig (config : AppConfig)

def Request.prog : Request → Code (Except String Unit)
  | .pair fp => pairDevice fp
  | .unpair fp => unpairDevice fp
  | .setAlias fp peerAlias => setTrustedAlias fp peerAlias
  | .confirm fp method mutualConfirmation =>
      confirmTrustedPeerVerification fp method mutualConfirmation
  | .freeze sessionId mdnsFp certFp => freezeChanged sessionId mdnsFp certFp
  | .setConfig config => setAppConfig config

def pool (w : World) (requests : List Request) :
    Pool TrustOp TrustOp.Resp World (Except String Unit) :=
  ⟨w, requests.map Request.prog⟩

theorem pool_thread {w : World} {requests : List Request} {j : ℕ}
    {x : Code (Except String Unit)} (h : (pool w requests).threads[j]? = some x) :
    ∃ request, requests[j]? = some request ∧ request.prog = x := by
  simpa [pool] using h

variable {t : PeerTable} {m : PeerMap}

theorem find?_upsert (t : PeerTable) (peer : TrustedPeer) (fp : String) :
    (t.upsert peer).find? fp = if fp = peer.fingerprint then some peer else t.find? fp := by
  by_cases same : fp = peer.fingerprint
  · subst same
    simp [PeerTable.upsert, PeerTable.find?]
  · simp [PeerTable.upsert, PeerTable.find?, same, AList.lookup_insert_ne same]

theorem find?_delete (t : PeerTable) (gone fp : String) :
    (t.delete gone).find? fp = if fp = gone then none else t.find? fp := by
  by_cases same : fp = gone
  · subst same
    simp [PeerTable.delete, PeerTable.find?]
  · simp [PeerTable.delete, PeerTable.find?, same, AList.lookup_erase_ne same]

private theorem insertRows_ok (rows : List TrustedPeer) (t : PeerTable)
    (distinct : (rows.map TrustedPeer.fingerprint).Nodup)
    (fresh : ∀ peer ∈ rows, t.find? peer.fingerprint = none) :
    (insertRows none t rows).2 = .ok () ∧ ∀ fp peer,
      (insertRows none t rows).1.find? fp = some peer ↔
        t.find? fp = some peer ∨ peer ∈ rows ∧ peer.fingerprint = fp := by
  induction rows generalizing t with
  | nil => simp [insertRows]
  | cons peer rest ih =>
    obtain ⟨apart, distinct⟩ := List.nodup_cons.mp distinct
    have here := fresh peer List.mem_cons_self
    have later : ∀ other ∈ rest, (t.upsert peer).find? other.fingerprint = none := by
      intro other mem
      have ne : other.fingerprint ≠ peer.fingerprint := fun same =>
        apart (same ▸ List.mem_map_of_mem mem)
      rw [find?_upsert, if_neg ne]
      exact fresh other (List.mem_cons_of_mem _ mem)
    obtain ⟨ok, found⟩ := ih (t.upsert peer) distinct later
    have unfolded : insertRows none t (peer :: rest) = insertRows none (t.upsert peer) rest := by
      simp [insertRows, here]
    rw [unfolded]
    refine ⟨ok, fun fp row => ?_⟩
    rw [found, find?_upsert]
    by_cases same : fp = peer.fingerprint
    · subst same
      simp only [if_pos, here, List.mem_cons, Option.some.injEq]
      constructor
      · rintro (rfl | ⟨mem, key⟩)
        · exact .inr ⟨.inl rfl, rfl⟩
        · exact .inr ⟨.inr mem, key⟩
      · rintro (none | ⟨rfl | mem, key⟩)
        · cases none
        · exact .inl rfl
        · exact .inr ⟨mem, key⟩
    · simp only [if_neg same, List.mem_cons]
      constructor
      · rintro (old | ⟨mem, key⟩)
        · exact .inl old
        · exact .inr ⟨.inr mem, key⟩
      · rintro (old | ⟨rfl | mem, key⟩)
        · exact .inl old
        · exact absurd key.symm same
        · exact .inr ⟨mem, key⟩

theorem mem_peersOf (keyed : Keyed m) {fp : String} {peer : TrustedPeer} :
    m.lookup fp = some peer ↔ peer ∈ peersOf m ∧ peer.fingerprint = fp := by
  have entry (y : String) (p : TrustedPeer) : m.lookup y = some p ↔ ⟨y, p⟩ ∈ m.entries :=
    AList.mem_lookup_iff
  simp only [peersOf, List.mem_map]
  constructor
  · intro found
    exact ⟨⟨⟨fp, peer⟩, (entry fp peer).mp found, rfl⟩, keyed fp peer found⟩
  · rintro ⟨⟨⟨y, p⟩, mem, rfl⟩, key⟩
    have found := (entry y p).mpr mem
    rw [← keyed y p found] at found
    rw [← key]
    exact found

theorem nodup_peersOf (keyed : Keyed m) : ((peersOf m).map TrustedPeer.fingerprint).Nodup := by
  have same : (peersOf m).map TrustedPeer.fingerprint = m.keys := by
    rw [peersOf, List.map_map]
    refine List.map_congr_left fun e mem => ?_
    exact keyed e.1 e.2 (AList.mem_lookup_iff.mpr mem)
  rw [same]
  exact m.keys_nodup

theorem replaceTrustedPeers_fine (keyed : Keyed m) :
    (replaceTrustedPeers .fine t m).2 = .ok () ∧
      ∀ fp, (replaceTrustedPeers .fine t m).1.find? fp = m.lookup fp := by
  obtain ⟨ok, found⟩ := insertRows_ok (peersOf m) .empty (nodup_peersOf keyed) fun _ _ => rfl
  refine ⟨ok, fun fp => Option.ext fun peer => ?_⟩
  have none : PeerTable.empty.find? fp ≠ some peer := by simp [PeerTable.empty, PeerTable.find?]
  rw [mem_peersOf keyed]
  exact (found fp peer).trans (or_iff_right none)

private theorem insertRows_of_ok (rows : List TrustedPeer) (fault : Option (ℕ × String))
    (t : PeerTable) (ok : (insertRows fault t rows).2 = .ok ()) :
    insertRows fault t rows = insertRows none t rows := by
  induction rows generalizing fault t with
  | nil => rfl
  | cons peer rest ih =>
    unfold insertRows at ok ⊢
    split at ok
    · cases ok
    · split_ifs at ok ⊢
      rename_i fresh
      exact ih _ _ ok

theorem replaceTrustedPeers_ok (keyed : Keyed m) {reply : Reply}
    (ok : (replaceTrustedPeers reply t m).2 = .ok ()) (fp : String) :
    (replaceTrustedPeers reply t m).1.find? fp = m.lookup fp := by
  have fine := (replaceTrustedPeers_fine (t := t) keyed).2 fp
  cases reply with
  | deleteFails cause => cases ok
  | insertFails n cause =>
    have same := insertRows_of_ok (peersOf m) (some (n, cause)) .empty ok
    exact (congrArg (fun outcome => outcome.1.find? fp) same).trans fine
  | fine | poisoned | configFails => exact fine

section Step

variable {i : ℕ} {o : TrustOp} {x : Ans} {w w' : World} {r : o.Resp}

theorem changePeer_cases {fp : String} {f : TrustedPeer → TrustedPeer} {found : Bool}
    (done : changePeer w fp f = (w', found)) :
    (∃ peer, w.memory.trustedPeers.lookup fp = some peer ∧ found = true ∧
      w' = w.wrote (setPeer w.memory fp (f peer))) ∨ found = false ∧ w' = w := by
  unfold changePeer at done
  split at done
  · rename_i peer here
    cases done
    exact .inl ⟨peer, here, rfl, rfl⟩
  · cases done
    exact .inr ⟨rfl, rfl⟩

private theorem keyed_changePeer {fp : String} {f : TrustedPeer → TrustedPeer} {found : Bool}
    (keyed : Keyed w.memory.trustedPeers) (keeps : ∀ peer, (f peer).fingerprint = peer.fingerprint)
    (done : changePeer w fp f = (w', found)) : Keyed w'.memory.trustedPeers := by
  obtain ⟨peer, here, -, rfl⟩ | ⟨-, rfl⟩ := changePeer_cases done
  · have name : fp = (f peer).fingerprint := (keyed fp peer here).symm.trans (keeps peer).symm
    have filed := keyed.insert (f peer)
    rwa [← name] at filed
  · exact keyed

private theorem keyed_addTrust {memory : TrustState} (keyed : Keyed memory.trustedPeers)
    (fp name : String) (nowUnix : ℕ) : Keyed (addTrust memory fp name nowUnix).trustedPeers := by
  unfold addTrust
  split
  · rename_i existing here
    obtain rfl := keyed fp existing here
    exact keyed.insert { existing with
      name := name
      pairedAt := if existing.pairedAt = 0 then nowUnix else existing.pairedAt
      localConfirmationAt := existing.localConfirmationAt.or (some nowUnix) }
  · exact keyed.insert (newPeer fp name nowUnix)

theorem replaced_memory {reply : Reply} {outcome : Except String Unit}
    (done : w.replaced i reply m = (w', outcome)) : w'.memory = w.memory := by
  simp only [World.replaced] at done
  split at done <;> (cases done; rfl)

theorem persist_memory {config : AppConfig} {outcome : Except String Unit}
    (done : exec i (.persist config m) x w = some (w', outcome)) : w'.memory = w.memory := by
  simp only [exec] at done
  split at done
  · cases done
    rfl
  · cases done
    rfl
  · have kept := replaced_memory (Option.some.inj done)
    exact kept

theorem replace_memory {outcome : Except String Unit}
    (done : exec i (.replace m) x w = some (w', outcome)) : w'.memory = w.memory := by
  simp only [exec] at done
  split at done
  · cases done
    rfl
  · exact replaced_memory (Option.some.inj done)

theorem migrate_memory {old new newName : String} {outcome : Except String Unit}
    (done : exec i (.migrate old new newName) x w = some (w', outcome)) :
    w'.memory = w.memory := by
  simp only [exec] at done
  split at done <;> cases done <;> rfl

theorem exec_keyed (keyed : Keyed w.memory.trustedPeers) (done : exec i o x w = some (w', r)) :
    Keyed w'.memory.trustedPeers := by
  cases o with
  | addTrust fp name =>
    cases done
    exact keyed_addTrust keyed fp name x.now
  | remove fp =>
    simp only [exec] at done
    split_ifs at done <;> cases done
    · exact keyed.erase fp
    · exact keyed
  | setAlias | confirm | freeze =>
    refine keyed_changePeer keyed ?_ (Option.some.inj done)
    exact fun _ => rfl
  | persist config trusted => exact persist_memory done ▸ keyed
  | replace trusted => exact replace_memory done ▸ keyed
  | migrate old new newName => exact migrate_memory done ▸ keyed
  | markTrusted fp =>
    cases done
    exact (markTrusted_trustedPeers w.memory fp).symm ▸ keyed
  | unmark | level | clone | now | config | setConfig | probe | reregister =>
    cases done
    exact keyed

def TrustOp.peer? : TrustOp → Option String
  | .addTrust fp _ | .remove fp | .setAlias fp _ | .confirm fp _ _ | .freeze fp _ _ => some fp
  | _ => none

private theorem changePeer_other {fp other : String} {f : TrustedPeer → TrustedPeer} {found : Bool}
    (apart : other ≠ fp) (done : changePeer w fp f = (w', found)) :
    w'.memory.trustedPeers.lookup other = w.memory.trustedPeers.lookup other := by
  obtain ⟨peer, -, -, rfl⟩ | ⟨-, rfl⟩ := changePeer_cases done
  · exact setPeer_onlyAt w.memory fp (f peer) other apart
  · rfl

theorem exec_lookup_other {fp : String} (other : o.peer? ≠ some fp)
    (done : exec i o x w = some (w', r)) :
    w'.memory.trustedPeers.lookup fp = w.memory.trustedPeers.lookup fp := by
  have apart {y : String} (h : some y ≠ some fp) : fp ≠ y := fun same => h (by rw [same])
  cases o with
  | addTrust y name =>
    cases done
    exact addTrust_onlyAt w.memory y name x.now fp (apart other)
  | remove y =>
    simp only [exec] at done
    split_ifs at done <;> cases done
    · exact AList.lookup_erase_ne (apart other)
    · rfl
  | setAlias y | confirm y | freeze y =>
    exact changePeer_other (apart other) (Option.some.inj done)
  | persist config trusted => rw [persist_memory done]
  | replace trusted => rw [replace_memory done]
  | migrate old new newName => rw [migrate_memory done]
  | markTrusted y =>
    cases done
    exact congrArg (AList.lookup fp) (markTrusted_trustedPeers w.memory y)
  | unmark | level | clone | now | config | setConfig | probe | reregister =>
    cases done
    rfl

end Step

end DashDrop.Trust.Storage
