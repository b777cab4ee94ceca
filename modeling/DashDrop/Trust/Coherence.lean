/- GID: DashDrop/Trust/Coherence
   source: src-tauri/src/state.rs, src-tauri/src/core_service.rs, src-tauri/src/db.rs
   anchors: []
   digest: The level of a trusted peer agrees with the times and reasons of its record. -/

import DashDrop.Trust.Sessions

set_option autoImplicit false
set_option relaxedAutoImplicit false

namespace DashDrop.Trust.Coherence

open DashDrop.Foundation.Program DashDrop.Foundation.Interleaving DashDrop.Foundation.Discipline
open DashDrop.Foundation.Transitions (Reaches play anyStep reaches_of_play)
open DashDrop.Runtime.State (TrustLevel AppConfig)
open DashDrop.Trust.Peers DashDrop.Trust.Storage DashDrop.Trust.Persistence DashDrop.Trust.Migration
open DashDrop.Trust.Sessions

/-- A record is frozen when it says since when and why, and a mutual confirmation has its time. -/
structure Coherent (peer : TrustedPeer) : Prop where
  frozenAt : peer.trustLevel = .frozen ↔ peer.frozenAt.isSome = true
  freezeReason : peer.trustLevel = .frozen ↔ peer.freezeReason.isSome = true
  confirmed : peer.trustLevel = .mutualConfirmed → peer.mutualConfirmedAt.isSome = true

instance (peer : TrustedPeer) : Decidable (Coherent peer) :=
  decidable_of_iff ((peer.trustLevel = .frozen ↔ peer.frozenAt.isSome = true) ∧
      (peer.trustLevel = .frozen ↔ peer.freezeReason.isSome = true) ∧
      (peer.trustLevel = .mutualConfirmed → peer.mutualConfirmedAt.isSome = true))
    ⟨fun ⟨since, why, confirmed⟩ => ⟨since, why, confirmed⟩,
      fun h => ⟨h.frozenAt, h.freezeReason, h.confirmed⟩⟩

section Writers

variable {peer : TrustedPeer}

theorem coherent_newPeer (fp name : String) (nowUnix : ℕ) : Coherent (newPeer fp name nowUnix) := by
  constructor <;> simp [newPeer]

theorem coherent_frozenPeer (reason : String) (frozenAt : ℕ) :
    Coherent (frozenPeer reason frozenAt peer) := by
  constructor <;> simp [frozenPeer]

theorem applyVerification_ne_frozen {current requested : TrustLevel} (plain : requested ≠ .frozen) :
    applyVerification current requested ≠ .frozen := by
  cases current <;> cases requested <;> simp_all [applyVerification, maxLevel, rank]

theorem requestedLevel_ne_frozen (method : TrustVerificationMethod) (mutualConfirmation : Bool) :
    requestedLevel method mutualConfirmation ≠ .frozen := by
  unfold requestedLevel
  split_ifs <;> simp

theorem mutual_of_applyVerification {current : TrustLevel} {method : TrustVerificationMethod}
    {mutualConfirmation : Bool}
    (h : applyVerification current (requestedLevel method mutualConfirmation) = .mutualConfirmed) :
    mutualConfirmation = true ∨ current = .mutualConfirmed := by
  cases mutualConfirmation with
  | true => exact .inl rfl
  | false =>
    right
    unfold requestedLevel at h
    cases current <;> cases method <;> simp_all [applyVerification, maxLevel, rank]

theorem coherent_confirmedPeer (h : Coherent peer) (method : TrustVerificationMethod)
    (mutualConfirmation : Bool) (nowUnix : ℕ) :
    Coherent (confirmedPeer peer method mutualConfirmation nowUnix) := by
  have thawed : applyVerification peer.trustLevel (requestedLevel method mutualConfirmation) ≠
      .frozen := applyVerification_ne_frozen (requestedLevel_ne_frozen method mutualConfirmation)
  constructor
  · simp [confirmedPeer, thawed]
  · simp [confirmedPeer, thawed]
  · intro level
    simp only [confirmedPeer]
    split_ifs with first
    · rfl
    · obtain now | before := mutual_of_applyVerification level
      · by_contra missing
        exact first ⟨now, by simpa using missing⟩
      · exact h.confirmed before

end Writers

def AllCoherent (m : PeerMap) : Prop := ∀ fp peer, m.lookup fp = some peer → Coherent peer

section Maps

variable {m : PeerMap} {t : PeerTable}

theorem AllCoherent.insert (h : AllCoherent m) {fp : String} {peer : TrustedPeer}
    (here : Coherent peer) : AllCoherent (m.insert fp peer) := by
  intro other row found
  by_cases same : other = fp
  · subst same
    rw [AList.lookup_insert] at found
    obtain rfl := Option.some.inj found
    exact here
  · rw [AList.lookup_insert_ne same] at found
    exact h other row found

theorem AllCoherent.erase (h : AllCoherent m) (gone : String) : AllCoherent (m.erase gone) := by
  intro fp row found
  by_cases same : fp = gone
  · subst same
    rw [AList.lookup_erase] at found
    cases found
  · rw [AList.lookup_erase_ne same] at found
    exact h fp row found

theorem allCoherent_empty : AllCoherent ∅ := fun fp peer found => by simp at found

theorem AllCoherent.mem_peersOf (h : AllCoherent m) {peer : TrustedPeer} (mem : peer ∈ peersOf m) :
    Coherent peer := by
  obtain ⟨⟨fp, row⟩, listed, rfl⟩ := List.mem_map.mp mem
  exact h fp row (AList.mem_lookup_iff.mpr listed)

theorem allCoherent_insertRows (fault : Option (ℕ × String)) {rows : List TrustedPeer}
    (h : AllCoherent t.rows) (all : ∀ peer ∈ rows, Coherent peer) :
    AllCoherent (insertRows fault t rows).1.rows := by
  induction rows generalizing fault t with
  | nil => exact h
  | cons peer rest ih =>
    unfold insertRows
    split
    · exact h
    · split_ifs
      · exact h
      · apply ih _ (h.insert (all peer List.mem_cons_self))
        exact fun other mem => all other (List.mem_cons_of_mem _ mem)

theorem allCoherent_replaceTrustedPeers (reply : Reply) (h : AllCoherent t.rows)
    (given : AllCoherent m) : AllCoherent (replaceTrustedPeers reply t m).1.rows := by
  have inserted (fault : Option (ℕ × String)) :
      AllCoherent (insertRows fault .empty (peersOf m)).1.rows :=
    allCoherent_insertRows fault allCoherent_empty fun _ mem => given.mem_peersOf mem
  cases reply with
  | deleteFails cause => exact h
  | insertFails n cause => exact inserted _
  | fine | poisoned | configFails => exact inserted _

theorem allCoherent_migrate (h : AllCoherent t.rows) {old new newName : String}
    (thawed : ∀ peer, t.find? old = some peer → peer.trustLevel ≠ .frozen) :
    AllCoherent (migrateTrustedPeerIdentity t old new newName).1.rows := by
  unfold migrateTrustedPeerIdentity
  split
  · exact h
  · rename_i peer found
    apply AllCoherent.insert (h.erase old)
    constructor
    · simp [thawed peer found]
    · simp [thawed peer found]
    · exact (h old peer found).confirmed

theorem allCoherent_fileAll {peers : List TrustedPeer} (all : ∀ peer ∈ peers, Coherent peer) :
    AllCoherent (fileAll peers) := by
  have filed : ∀ (rest : List TrustedPeer) (m : PeerMap), (∀ peer ∈ rest, Coherent peer) →
      AllCoherent m →
      AllCoherent (rest.foldl (fun m peer => m.insert peer.fingerprint peer) m) := by
    intro rest
    induction rest with
    | nil => exact fun m _ h => h
    | cons peer rest ih =>
      intro m all h
      apply ih
      · exact fun other mem => all other (List.mem_cons_of_mem _ mem)
      · exact h.insert (all peer List.mem_cons_self)
  exact filed peers ∅ all allCoherent_empty

end Maps

/-- Every record, in memory and in the table. -/
structure Records (w : World) : Prop where
  memory : AllCoherent w.memory.trustedPeers
  table : AllCoherent w.table.rows

def written? : TrustOp → Option PeerMap
  | .persist _ trusted | .replace trusted => some trusted
  | _ => none

section Step

variable {i : ℕ} {o : TrustOp} {x : Ans} {w w' : World} {r : o.Resp}

private theorem records_changePeer {fp : String} {f : TrustedPeer → TrustedPeer} {found : Bool}
    (h : Records w) (keeps : ∀ peer, Coherent peer → Coherent (f peer))
    (done : changePeer w fp f = (w', found)) : Records w' := by
  obtain ⟨peer, here, -, rfl⟩ | ⟨-, rfl⟩ := changePeer_cases done
  · exact ⟨h.memory.insert (keeps peer (h.memory fp peer here)), h.table⟩
  · exact h

private theorem records_replaced {reply : Reply} {trusted : PeerMap}
    {outcome : Except String Unit} (h : Records w) (given : AllCoherent trusted)
    (done : w.replaced i reply trusted = (w', outcome)) : Records w' := by
  have table := allCoherent_replaceTrustedPeers reply h.table given
  simp only [World.replaced] at done
  split at done <;> (cases done; exact ⟨h.memory, table⟩)

/-- Every section keeps the records coherent, if the clone that it writes is and if it does not
migrate a frozen row. -/
theorem records_exec (h : Records w) (given : ∀ trusted, written? o = some trusted →
      AllCoherent trusted)
    (thawed : ∀ old new newName peer, o = .migrate old new newName →
      w.table.find? old = some peer → peer.trustLevel ≠ .frozen)
    (done : exec i o x w = some (w', r)) : Records w' := by
  cases o with
  | addTrust fp name =>
    cases done
    refine ⟨?_, h.table⟩
    simp only [World.wrote, addTrust]
    split
    · rename_i existing here
      apply h.memory.insert
      exact ⟨(h.memory fp existing here).frozenAt, (h.memory fp existing here).freezeReason,
        (h.memory fp existing here).confirmed⟩
    · exact h.memory.insert (coherent_newPeer fp name x.now)
  | remove fp =>
    simp only [exec] at done
    split_ifs at done <;> cases done
    · exact ⟨h.memory.erase fp, h.table⟩
    · exact h
  | setAlias fp peerAlias =>
    apply records_changePeer h _ (Option.some.inj done)
    exact fun peer old => ⟨old.frozenAt, old.freezeReason, old.confirmed⟩
  | confirm fp method mutualConfirmation =>
    apply records_changePeer h _ (Option.some.inj done)
    exact fun peer old => coherent_confirmedPeer old method mutualConfirmation x.now
  | freeze fp reason frozenAt =>
    apply records_changePeer h _ (Option.some.inj done)
    exact fun peer _ => coherent_frozenPeer reason frozenAt
  | persist config trusted =>
    simp only [exec] at done
    split at done
    · cases done
      exact h
    · cases done
      exact h
    · have row : Records { w with configRow := some config } := ⟨h.memory, h.table⟩
      exact records_replaced row (given trusted rfl) (Option.some.inj done)
  | replace trusted =>
    simp only [exec] at done
    split at done
    · cases done
      exact h
    · exact records_replaced h (given trusted rfl) (Option.some.inj done)
  | migrate old new newName =>
    simp only [exec] at done
    split at done
    · cases done
      exact h
    · cases done
      exact ⟨h.memory, allCoherent_migrate h.table fun peer => thawed old new newName peer rfl⟩
    · cases done
  | markTrusted fp =>
    cases done
    refine ⟨?_, h.table⟩
    rw [markTrusted_trustedPeers]
    exact h.memory
  | unmark | level | clone | now | config | setConfig | probe | reregister =>
    cases done
    exact ⟨h.memory, h.table⟩

theorem records_restart (deviceName : String) {legacy : LegacyState} (h : Records w)
    (all : ∀ peer ∈ legacy.trustedPeers, Coherent peer) :
    Records (restart deviceName legacy w) := by
  have filed := allCoherent_fileAll all
  unfold restart
  split_ifs
  · exact ⟨filed, h.table⟩
  · exact ⟨filed, allCoherent_replaceTrustedPeers .fine h.table filed⟩
  · exact ⟨h.table, h.table⟩

end Step

section Histories

variable {i : ℕ} {o : TrustOp} {x : Ans} {w w' : World} {r : o.Resp} {s t : Session}
variable {before after : Option PeerMap}

theorem written_of_carrying {trusted : PeerMap} (next : carrying before o r = some after)
    (writes : written? o = some trusted) : before = some trusted := by
  cases o with
  | persist config given =>
    obtain rfl := Option.some.inj writes
    by_contra apart
    simp [carrying, apart] at next
  | replace given =>
    obtain rfl := Option.some.inj writes
    by_contra apart
    simp [carrying, apart] at next
  | _ => cases writes

theorem carried_of_carrying {trusted : PeerMap} (done : exec i o x w = some (w', r))
    (next : carrying before o r = some (some trusted)) :
    trusted = w.memory.trustedPeers ∨ before = some trusted := by
  cases o with
  | clone =>
    cases done
    cases next
    exact .inl rfl
  | persist config given =>
    simp only [carrying] at next
    split_ifs at next
    cases next
  | replace given =>
    simp only [carrying] at next
    split_ifs at next
    cases next
  | _ => exact .inr (Option.some.inj next)

/-- Operation `i` migrates a row whose level is frozen. -/
def migratesFrozen (s : Session) (i : ℕ) : Bool :=
  match operation s i with
  | some (.migrate old _ _) =>
      (s.world.table.find? old).any fun peer => peer.trustLevel = .frozen
  | _ => false

/-- No frozen row is migrated, and what an older installation leaves is coherent. -/
def Orderly (s : Session) : Event → Prop
  | .step i _ => migratesFrozen s i = false
  | .restart _ legacy => ∀ peer ∈ legacy.trustedPeers, Coherent peer
  | .request _ | .migrate _ _ _ => True

instance (s : Session) : (e : Event) → Decidable (Orderly s e)
  | .step i _ => inferInstanceAs (Decidable (migratesFrozen s i = false))
  | .restart _ legacy => inferInstanceAs (Decidable (∀ peer ∈ legacy.trustedPeers, Coherent peer))
  | .request _ | .migrate _ _ _ => isTrue trivial

/-- The records are coherent, and so are the clones on their way to the table. -/
def Kept (s : Session) : Prop :=
  ∃ φ, Tracked (fun _ => carrying) (fun _ _ _ => True) φ s.threads ∧ Records s.world ∧
    ∀ j trusted, φ j = some trusted → AllCoherent trusted

theorem kept_idle (h : Records w) : Kept ⟨w, []⟩ := by
  refine ⟨fun _ => none, ?_, h, ?_⟩
  · intro j y here
    cases here
  · intro j trusted here
    cases here

theorem kept_add {y : Code (Except String Unit)} (h : Kept s)
    (obeys : Obeys carrying none y fun _ _ => True) : Kept (Session.add s y) := by
  obtain ⟨φ, tracked, records, carried⟩ := h
  refine ⟨_, tracked.append obeys, records, fun j trusted here => ?_⟩
  by_cases last : j = s.threads.length
  · subst last
    rw [Function.update_self] at here
    cases here
  · rw [Function.update_of_ne last] at here
    exact carried j trusted here

theorem kept_advance {e : Event} (h : Kept s) (orderly : Orderly s e)
    (next : advance s e = some t) : Kept t := by
  cases e with
  | request request =>
    obtain rfl := Option.some.inj next
    exact kept_add h (request_carries request)
  | migrate previous fingerprint deviceName =>
    obtain rfl := Option.some.inj next
    exact kept_add h (migration_carries previous fingerprint deviceName)
  | restart deviceName legacy =>
    obtain rfl := Option.some.inj next
    obtain ⟨φ, -, records, -⟩ := h
    exact kept_idle (records_restart deviceName records orderly)
  | step i answer =>
    obtain ⟨φ, tracked, records, carried⟩ := h
    obtain ⟨o, k, w, r, here, asks, done, rfl⟩ := step_cases next
    obtain ⟨after, moved, onward⟩ := tracked.step here r
    refine ⟨_, onward, ?_, ?_⟩
    · apply records_exec records _ _ done
      · intro trusted writes
        exact carried i trusted (written_of_carrying moved writes)
      · intro old new newName peer migrates found frozen
        subst migrates
        simp [Orderly, migratesFrozen, asks, found, frozen] at orderly
    · intro j trusted holds
      by_cases own : j = i
      · subst own
        rw [Function.update_self] at holds
        subst holds
        obtain rfl | held := carried_of_carrying done moved
        · exact records.memory
        · exact carried j trusted held
      · rw [Function.update_of_ne own] at holds
        exact carried j trusted holds

/-- Over any requests, migrations and restarts the records stay coherent, in memory and in the
table, as long as no frozen row is migrated. -/
theorem records_stay_coherent (start : Records w) (run : Reaches advance Orderly ⟨w, []⟩ t) :
    Records t.world := by
  obtain ⟨φ, -, records, -⟩ := run.keeps (kept_idle start) fun kept orderly next =>
    kept_advance kept orderly next
  exact records

end Histories

def reloaded : Session :=
  (play advance Orderly ⟨emptyWorld, []⟩ (frozenHistory ++ [.restart "Laptop" ⟨none, []⟩])).getD
    ⟨emptyWorld, []⟩

theorem records_emptyWorld : Records emptyWorld := ⟨allCoherent_empty, allCoherent_empty⟩

theorem frozen_record_reloaded :
    Records reloaded.world ∧
      ((reloaded.world.memory.trustedPeers.lookup "a").map TrustedPeer.frozenAt) = some (some 7) := by
  have run : Reaches advance Orderly ⟨emptyWorld, []⟩ reloaded := reaches_of_play (by rfl :
    play advance Orderly _ (frozenHistory ++ [.restart "Laptop" ⟨none, []⟩]) = some reloaded)
  exact ⟨records_stay_coherent records_emptyWorld run, by decide +kernel⟩

def migratedHistory : List Event :=
  frozenHistory ++ [.migrate (some "a") "c" "Phone"] ++ stepsAt 3 1

def migratedSession : Session :=
  (play advance anyStep ⟨emptyWorld, []⟩ migratedHistory).getD ⟨emptyWorld, []⟩

/-- The level stays, and nothing says since when or why. -/
theorem migrated_freeze_incoherent :
    Reaches advance anyStep ⟨emptyWorld, []⟩ migratedSession ∧ Records emptyWorld ∧
      (∃ peer, migratedSession.world.table.find? "c" = some peer ∧ peer.trustLevel = .frozen ∧
        peer.frozenAt = none ∧ peer.freezeReason = none) ∧ ¬ Records migratedSession.world := by
  have run : Reaches advance anyStep ⟨emptyWorld, []⟩ migratedSession := reaches_of_play (by rfl :
    play advance anyStep _ migratedHistory = some migratedSession)
  have row : (migratedSession.world.table.find? "c").any (fun peer =>
      peer.trustLevel = .frozen && peer.frozenAt.isNone && peer.freezeReason.isNone) = true := by
    decide +kernel
  obtain ⟨peer, found, state⟩ := (Option.any_eq_true _ _).mp row
  simp only [Bool.and_eq_true, decide_eq_true_eq, Option.isNone_iff_eq_none] at state
  obtain ⟨⟨frozen, since⟩, reason⟩ := state
  refine ⟨run, records_emptyWorld, ⟨peer, found, frozen, since, reason⟩, fun records => ?_⟩
  have dated := (records.table "c" peer found).frozenAt.mp frozen
  rw [since] at dated
  cases dated
end DashDrop.Trust.Coherence
