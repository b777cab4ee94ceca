/- GID: DashDrop/Trust/Migration
   source: src-tauri/src/pairing.rs, src-tauri/src/db.rs, src-tauri/src/runtime/bootstrap.rs
   anchors: []
   digest: When a migrated identity stays migrated, in memory and over restarts. -/

import DashDrop.Trust.Persistence

set_option autoImplicit false
set_option relaxedAutoImplicit false

namespace DashDrop.Trust.Migration

open DashDrop.Foundation.Program DashDrop.Foundation.Interleaving DashDrop.Foundation.Discipline
open DashDrop.Foundation.Text
open DashDrop.Runtime.State (TrustLevel AppConfig)
open DashDrop.Trust.Peers DashDrop.Trust.Storage DashDrop.Trust.Persistence

/-- `apply_identity_migration`, by the fingerprint that the proof in the payload names. -/
def applyIdentityMigration (previousFingerprint : Option String) (fingerprint deviceName : String) :
    Code (Except String Unit) :=
  match previousFingerprint with
  | none => pure (.error "No migration proof found in payload")
  | some old => ask (.migrate old fingerprint deviceName)

/-- What `persistence::load_state_at` finds of an older installation. -/
structure LegacyState where
  appConfig : Option AppConfig
  trustedPeers : List TrustedPeer

def fileAll (peers : List TrustedPeer) : PeerMap :=
  peers.foldl (fun m peer => m.insert peer.fingerprint peer) ∅

def startConfig (deviceName : String) (row : Option AppConfig) : AppConfig :=
  let config := row.getD { AppConfig.standard with deviceName := deviceName }
  if (trimmed config.deviceName).isEmpty then { config with deviceName := deviceName } else config

/-- `initialize_state_at`: the map is loaded from the table, or, where the database is new, both from
an older installation. Operations that had not returned are lost. -/
def restart (deviceName : String) (legacy : LegacyState) (w : World) : World :=
  if w.configRow.isNone ∧ w.table.rows.entries = [] then
    let trusted := fileAll legacy.trustedPeers
    let row := legacy.appConfig.or w.configRow
    let table := if legacy.trustedPeers = [] then w.table
      else (replaceTrustedPeers .fine w.table trusted).1
    ⟨⟨∅, trusted⟩, startConfig deviceName row, table, row, 0, fun _ => 0, 0⟩
  else
    ⟨⟨∅, w.table.rows⟩, startConfig deviceName w.configRow, w.table, w.configRow, 0, fun _ => 0, 0⟩

def Swapped (old new : String) (m : PeerMap) : Prop :=
  (m.lookup new).isSome = true ∧ m.lookup old = none

def Migrated (old new : String) (w : World) : Prop :=
  Swapped old new w.memory.trustedPeers ∧ Swapped old new w.table.rows

def onOther (old new : String) : Request → Prop
  | .pair fp | .unpair fp | .setAlias fp _ | .confirm fp _ _ => fp ≠ old ∧ fp ≠ new
  | .setConfig _ => True
  | .freeze _ _ _ => False

def Healthy : Guard TrustOp World Ans := fun _ _ x _ => x.db = .fine

/-- Some of the requests, in any interleaving and as far as they come, or a restart. -/
inductive Later (old new : String) : World → World → Prop where
  | run {w : World} {requests : List Request}
      {t : Pool TrustOp TrustOp.Resp World (Except String Unit)}
      (others : ∀ request ∈ requests, onOther old new request)
      (run : Run exec Healthy (pool w requests) t) : Later old new w t.world
  | restart (w : World) (deviceName : String) (legacy : LegacyState) :
      Later old new w (restart deviceName legacy w)

def Durable (old new : String) (w : World) : Prop :=
  ∀ u, Relation.ReflTransGen (Later old new) w u → Migrated old new u

section Bounds

-- The check of the device name is never evaluated here.
attribute [local irreducible] DashDrop.Foundation.Text.trimmed

variable {old new : String}

def aside (old new : String) (o : TrustOp) : Prop := o.peer? ≠ some old ∧ o.peer? ≠ some new

private theorem aside_none {o : TrustOp} (h : o.peer? = none) : aside old new o := by
  simp [aside, h]

private theorem aside_some {o : TrustOp} {fp : String} (h : o.peer? = some fp)
    (other : fp ≠ old ∧ fp ≠ new) : aside old new o := by
  simpa [aside, h] using other

private theorem persistRuntimeState_aside :
    persistRuntimeState.Within (aside old new) fun _ => True :=
  ⟨aside_none rfl, fun _ => ⟨aside_none rfl, fun _ => ⟨aside_none rfl, fun _ => trivial⟩⟩⟩

private theorem applyConfig_aside (oldName : String) (config : AppConfig) :
    (applyConfig oldName config).Within (aside old new) fun _ => True := by
  refine ⟨aside_none rfl, fun previous => ⟨aside_none rfl, fun _ => ⟨aside_none rfl, fun _ => ?_⟩⟩⟩
  simp only [ret_bind]
  split_ifs
  · refine ⟨aside_none rfl, fun answer => ?_⟩
    cases answer with
    | error cause => exact ⟨aside_none rfl, fun _ => trivial⟩
    | ok _ => exact persistRuntimeState_aside
  · exact persistRuntimeState_aside

theorem request_aside {request : Request} (other : onOther old new request) :
    request.prog.Within (aside old new) fun _ => True := by
  cases request with
  | pair fp =>
    exact ⟨aside_none rfl, fun _ => ⟨aside_some rfl other, fun _ => persistRuntimeState_aside⟩⟩
  | unpair fp =>
    refine ⟨aside_some rfl other, fun found => ?_⟩
    cases found with
    | false => trivial
    | true => exact ⟨aside_none rfl, fun _ => persistRuntimeState_aside⟩
  | setAlias fp peerAlias =>
    refine ⟨aside_some rfl other, fun found => ?_⟩
    cases found with
    | false => trivial
    | true => exact persistRuntimeState_aside
  | confirm fp method mutualConfirmation =>
    simp only [Request.prog, Storage.confirmTrustedPeerVerification]
    split_ifs
    · trivial
    · refine ⟨aside_some rfl other, fun found => ?_⟩
      cases found with
      | false => trivial
      | true => exact persistRuntimeState_aside
  | freeze => exact other.elim
  | setConfig config =>
    simp only [Request.prog, setAppConfig]
    split
    · trivial
    · split
      · trivial
      · refine ⟨aside_none rfl, fun before => ?_⟩
        simp only [ret_bind]
        split
        · exact applyConfig_aside _ _
        · refine ⟨aside_none rfl, fun answer => ?_⟩
          cases answer with
          | error cause => trivial
          | ok _ => exact applyConfig_aside _ _

end Bounds

section Step

variable {old new : String} {i : ℕ} {o : TrustOp} {x : Ans} {w w' : World} {r : o.Resp}
variable {s : Phase} {m : PeerMap}

private theorem held_of_clone (done : exec i o x w = some (w', r))
    (next : saving s o r = some (.holding m)) : m = w.memory.trustedPeers := by
  cases o with
  | clone =>
    cases done
    cases s <;> cases next <;> rfl
  | remove | setAlias | confirm | freeze =>
    cases s with
    | idle =>
      cases r <;> cases next
    | _ => cases next
  | persist config given =>
    cases s with
    | holding mine =>
      simp only [saving] at next
      split_ifs at next <;> cases next
    | _ => cases next
  | replace given =>
    cases s with
    | holding mine =>
      simp only [saving] at next
      split_ifs at next
      cases next
    | _ => cases next
  | _ => cases s <;> cases next

private theorem swapped_table (healthy : x.db = .fine)
    (held : ∀ trusted, s = .holding trusted → Keyed trusted ∧ Swapped old new trusted)
    (before : Swapped old new w.table.rows) (done : exec i o x w = some (w', r))
    (next : (saving s o r).isSome = true) : Swapped old new w'.table.rows := by
  have replaced {v v' : World} {given : PeerMap} {outcome : Except String Unit}
      (good : Keyed given ∧ Swapped old new given)
      (ran : v.replaced i .fine given = (v', outcome)) : Swapped old new v'.table.rows := by
    have find (fp : String) : v'.table.rows.lookup fp = given.lookup fp := by
      obtain ⟨ok, found⟩ := replaceTrustedPeers_fine (t := v.table) good.1
      simp only [World.replaced, ok] at ran
      cases ran
      exact found fp
    rw [Swapped, find, find]
    exact good.2
  cases o with
  | persist config given =>
    cases s with
    | holding mine =>
      obtain rfl : given = mine := by
        by_contra apart
        simp [saving, apart] at next
      simp only [exec, healthy] at done
      exact replaced (held given rfl) (Option.some.inj done)
    | _ => cases next
  | replace given =>
    cases s with
    | holding mine =>
      obtain rfl : given = mine := by
        by_contra apart
        simp [saving, apart] at next
      simp only [exec, healthy] at done
      exact replaced (held given rfl) (Option.some.inj done)
    | _ => cases next
  | migrate => cases s <;> cases next
  | remove fp =>
    simp only [exec] at done
    split_ifs at done <;> cases done <;> exact before
  | setAlias | confirm | freeze =>
    obtain ⟨peer, -, -, rfl⟩ | ⟨-, rfl⟩ := changePeer_cases (Option.some.inj done) <;> exact before
  | markTrusted | unmark | addTrust | level | clone | now | config | setConfig | probe
  | reregister =>
    cases done
    exact before

/-- Both sides hold, and so does every clone on its way to the table. -/
structure Steady (old new : String) (φ : ℕ → Phase) (w : World) : Prop where
  keyed : Keyed w.memory.trustedPeers
  migrated : Migrated old new w
  held : ∀ j trusted, φ j = .holding trusted → Keyed trusted ∧ Swapped old new trusted

theorem steady_step {φ : ℕ → Phase} (h : Steady old new φ w) (healthy : x.db = .fine)
    (other : aside old new o) (done : exec i o x w = some (w', r))
    (next : saving (φ i) o r = some s) : Steady old new (Function.update φ i s) w' := by
  refine ⟨exec_keyed h.keyed done, ⟨?_, ?_⟩, ?_⟩
  · rw [Swapped, exec_lookup_other other.1 done, exec_lookup_other other.2 done]
    exact h.migrated.1
  · exact swapped_table healthy (h.held i) h.migrated.2 done (by simp [next])
  · intro j trusted here
    by_cases own : j = i
    · subst own
      rw [Function.update_self] at here
      subst here
      rw [held_of_clone done next]
      exact ⟨h.keyed, h.migrated.1⟩
    · rw [Function.update_of_ne own] at here
      exact h.held j trusted here

theorem steady_run {requests : List Request}
    {t : Pool TrustOp TrustOp.Resp World (Except String Unit)}
    (others : ∀ request ∈ requests, onOther old new request)
    (run : Run exec Healthy (pool w requests) t) (keyed : Keyed w.memory.trustedPeers)
    (migrated : Migrated old new w) :
    Keyed t.world.memory.trustedPeers ∧ Migrated old new t.world := by
  have bounded := run.bounded (fun _ => aside old new) (by
    intro j y here
    obtain ⟨request, place, rfl⟩ := pool_thread here
    exact request_aside (others request (List.mem_of_getElem? place)))
  have start : Tracked (fun _ => saving) (fun _ => returns) (fun _ => Phase.idle)
      (pool w requests).threads := by
    intro j y here
    obtain ⟨request, -, rfl⟩ := pool_thread here
    exact request_obeys request
  have base : Steady old new (fun _ => Phase.idle) w :=
    ⟨keyed, migrated, fun j trusted here => by cases here⟩
  obtain ⟨φ, -, steady⟩ := Run.tracked bounded (Steady old new) start base (by
    rintro φ i o x w w' r s steady ⟨healthy, other⟩ done next
    exact steady_step steady healthy other done next)
  exact ⟨steady.keyed, steady.migrated⟩

theorem steady_restart (deviceName : String) (legacy : LegacyState)
    (migrated : Migrated old new w) :
    Keyed (restart deviceName legacy w).memory.trustedPeers ∧
      Migrated old new (restart deviceName legacy w) := by
  have filled : w.table.rows.entries ≠ [] := by
    intro empty
    have none : w.table.rows.lookup new = none := by
      simp [AList.lookup, empty]
    have present := migrated.2.1
    rw [none] at present
    cases present
  rw [restart, if_neg fun h => filled h.2]
  exact ⟨w.table.keyed, migrated.2, migrated.2⟩

theorem durable_of_migrated (keyed : Keyed w.memory.trustedPeers) (migrated : Migrated old new w) :
    Durable old new w := by
  intro u later
  have kept : Keyed u.memory.trustedPeers ∧ Migrated old new u := by
    induction later with
    | refl => exact ⟨keyed, migrated⟩
    | tail _ step ih =>
      cases step with
      | run others run => exact steady_run others run ih.1 ih.2
      | restart deviceName legacy => exact steady_restart deviceName legacy ih.2
  exact kept.2

theorem applyIdentityMigration_delivers (old new newName : String) :
    Delivers exec free 0 (fun outcome w' => outcome = .ok () →
      w'.memory = w.memory ∧ (old ≠ new → Swapped old new w'.table.rows))
      (applyIdentityMigration (some old) new newName) w := by
  intro x w' outcome _ done ok
  refine ⟨migrate_memory done, fun apart => ?_⟩
  subst ok
  simp only [exec] at done
  split at done
  · cases done
  · unfold migrateTrustedPeerIdentity at done
    split at done
    · cases done
    · rename_i peer found
      cases done
      have look (fp : String) := find?_upsert (w.table.delete old) { peer with
        fingerprint := new, name := newName, frozenAt := none, freezeReason := none } fp
      constructor
      · exact (congrArg Option.isSome (look new)).trans (by simp)
      · refine (look old).trans ?_
        rw [if_neg apart, find?_delete, if_pos rfl]
  · cases done

end Step

/-- A migration that returns `Ok` is durable if and only if the map already trusted the new
fingerprint and not the old one: it is not told of the migration. -/
theorem migration_durable_iff (w : World) (keyed : Keyed w.memory.trustedPeers)
    (old new newName : String) {t : Pool TrustOp TrustOp.Resp World (Except String Unit)}
    (run : Run exec free ⟨w, [applyIdentityMigration (some old) new newName]⟩ t)
    (returned : t.result 0 = some (.ok ())) :
    Durable old new t.world ↔ Swapped old new w.memory.trustedPeers := by
  obtain ⟨memory, moved⟩ :=
    run.delivers (applyIdentityMigration_delivers old new newName) returned rfl
  constructor
  · intro durable
    have now := (durable t.world .refl).1
    rwa [memory] at now
  · intro swapped
    have apart : old ≠ new := by
      rintro rfl
      rw [Swapped, swapped.2] at swapped
      cases swapped.1
    refine durable_of_migrated (memory ▸ keyed) ⟨?_, moved apart⟩
    rw [memory]
    exact swapped

def worldWith (inMemory inTable : String) : World :=
  { emptyWorld with
    memory := ⟨∅, (∅ : PeerMap).insert inMemory (newPeer inMemory "Phone" 5)⟩
    table := PeerTable.empty.upsert (newPeer inTable "Phone" 5) }

theorem keyed_worldWith (inMemory inTable : String) :
    Keyed (worldWith inMemory inTable).memory.trustedPeers := by
  have empty : Keyed ∅ := fun fp peer found => by simp at found
  exact empty.insert (newPeer inMemory "Phone" 5)

theorem migration_durable_of_paired :
    ∃ t, Run exec free ⟨worldWith "new" "old", [applyIdentityMigration (some "old") "new" "Phone"]⟩ t ∧
      t.result 0 = some (.ok ()) ∧ Durable "old" "new" t.world := by
  obtain ⟨t, run, found⟩ := exists_run_of_play exec unchecked_sound
    (⟨worldWith "new" "old", [applyIdentityMigration (some "old") "new" "Phone"]⟩ :
      Pool TrustOp TrustOp.Resp World (Except String Unit))
    (stepsOf 0 1) (fun t => t.result 0 == some (.ok ())) (by decide)
  have returned := beq_iff_eq.mp found
  refine ⟨t, run, returned, ?_⟩
  exact (migration_durable_iff _ (keyed_worldWith "new" "old") "old" "new" "Phone" run returned).mpr
    ⟨by decide, by decide⟩

/-- The old fingerprint stays trusted, and pairing some other device takes the new one out of the
table again. -/
theorem migration_undone :
    ∃ t, Run exec free ⟨worldWith "old" "old", [applyIdentityMigration (some "old") "new" "Phone"]⟩ t ∧
      t.result 0 = some (.ok ()) ∧ ¬ Durable "old" "new" t.world ∧
      ∃ u, Later "old" "new" t.world u ∧ u.table.find? "new" = none := by
  have sound (i : ℕ) (o : TrustOp) (x : Ans) (w : World) (h : (x.db == .fine) = true) :
      Healthy i o x w := beq_iff_eq.mp h
  let forgets (u : Pool TrustOp TrustOp.Resp World (Except String Unit)) : Bool :=
    (u.world.table.find? "new").isNone
  obtain ⟨t, run, found⟩ := exists_run_of_play exec unchecked_sound
    (⟨worldWith "old" "old", [applyIdentityMigration (some "old") "new" "Phone"]⟩ :
      Pool TrustOp TrustOp.Resp World (Except String Unit)) (stepsOf 0 1)
    (fun t => t.result 0 == some (.ok ()) && ((pool t.world [.pair "c"]).play
      (restrict exec fun _ _ x _ => x.db == .fine) (stepsOf 0 5)).any forgets) (by decide)
  simp only [Bool.and_eq_true, beq_iff_eq] at found
  obtain ⟨returned, forgotten⟩ := found
  obtain ⟨u, onward, missing⟩ := exists_run_of_play exec sound _ _ forgets forgotten
  have others : ∀ request ∈ [Request.pair "c"], onOther "old" "new" request := by
    simp [onOther]
  have later : Later "old" "new" t.world u.world := .run others onward
  have gone : u.world.table.find? "new" = none := Option.isNone_iff_eq_none.mp missing
  refine ⟨t, run, returned, fun durable => ?_, u.world, later, gone⟩
  have kept := (durable u.world (.single later)).2.1
  rw [show u.world.table.rows.lookup "new" = none from gone] at kept
  cases kept

end DashDrop.Trust.Migration
