/- GID: DashDrop/Trust/Persistence
   source: src-tauri/src/core_service.rs, src-tauri/src/transport/handshake.rs
   anchors: []
   digest: When the table of trusted peers has caught up with the map in memory. -/

import DashDrop.Foundation.Discipline
import DashDrop.Trust.Storage

set_option autoImplicit false
set_option relaxedAutoImplicit false

namespace DashDrop.Trust.Persistence

open DashDrop.Foundation.Program DashDrop.Foundation.Interleaving DashDrop.Foundation.Discipline
open DashDrop.Runtime.State (TrustLevel AppConfig)
open DashDrop.Trust.Peers DashDrop.Trust.Storage

/-- The table has the peers of the map. -/
def Agrees (w : World) : Prop := ∀ fp, w.table.find? fp = w.memory.trustedPeers.lookup fp

/-- The state after start-up, with nothing numbered yet. -/
structure Booted (w : World) : Prop where
  agrees : Agrees w
  keyed : Keyed w.memory.trustedPeers
  version : w.version = 0
  stored : w.stored = 0

/-- The table is replaced in the order in which the clones were taken, and the write of a freeze,
whose outcome nobody looks at, does not fail. -/
def InOrder : Guard TrustOp World Ans := fun i o x w =>
  match o with
  | .persist _ _ => w.stored ≤ w.clones i
  | .replace _ => w.stored ≤ w.clones i ∧ x.db = .fine
  | _ => True

inductive Phase where
  | idle
  /-- The map was written. -/
  | changed
  | holding (trusted : PeerMap)
  /-- The database has refused. -/
  | failed

def saving : Automaton TrustOp TrustOp.Resp Phase
  | .idle, .addTrust _ _, _ => some .changed
  | .idle, .remove _, found | .idle, .setAlias _ _, found | .idle, .confirm _ _ _, found
  | .idle, .freeze _ _ _, found => some (if found then .changed else .idle)
  | .idle, .clone, trusted | .changed, .clone, trusted => some (.holding trusted)
  | .holding trusted, .persist _ given, r =>
      if given = trusted then some (if r = .ok () then .idle else .failed) else none
  | .holding trusted, .replace given, _ => if given = trusted then some .idle else none
  | .failed, _, _ => none
  | _, .persist _ _, _ | _, .replace _, _ | _, .migrate _ _ _, _ => none
  | .changed, .addTrust _ _, _ | .changed, .remove _, _ | .changed, .setAlias _ _, _
  | .changed, .confirm _ _ _, _ | .changed, .freeze _ _ _, _ => none
  | .holding _, _, _ => none
  | s, _, _ => some s

/-- An operation that has changed the map returns after its write, and with an error if that has
failed. -/
def returns : Phase → Except String Unit → Prop
  | .idle, _ => True
  | .failed, outcome => outcome ≠ .ok ()
  | .changed, _ | .holding _, _ => False

section Programs

-- The check of the device name is never evaluated here.
attribute [local irreducible] DashDrop.Foundation.Text.trimmed

theorem persistRuntimeState_obeys {s : Phase} (h : s = .idle ∨ s = .changed) :
    Obeys saving s persistRuntimeState returns := by
  have rest (trusted : PeerMap) (config : AppConfig) :
      Obeys saving (.holding trusted) (ask (.persist config trusted)) returns := by
    intro r
    refine ⟨if r = .ok () then .idle else .failed, by simp [saving], ?_⟩
    split_ifs with ok
    · trivial
    · exact ok
  obtain rfl | rfl := h
  · exact fun config => ⟨.idle, rfl, fun trusted => ⟨.holding trusted, rfl, rest trusted config⟩⟩
  · exact fun config => ⟨.changed, rfl, fun trusted => ⟨.holding trusted, rfl, rest trusted config⟩⟩

theorem pairDevice_obeys (fp : String) : Obeys saving .idle (Storage.pairDevice fp) returns := by
  intro name
  refine ⟨.idle, rfl, fun _ => ⟨.changed, rfl, ?_⟩⟩
  exact persistRuntimeState_obeys (.inr rfl)

theorem unpairDevice_obeys (fp : String) : Obeys saving .idle (unpairDevice fp) returns := by
  intro found
  cases found with
  | false => exact ⟨.idle, rfl, trivial⟩
  | true =>
    exact ⟨.changed, rfl, fun _ => ⟨.changed, rfl, persistRuntimeState_obeys (.inr rfl)⟩⟩

theorem setTrustedAlias_obeys (fp : String) (peerAlias : Option String) :
    Obeys saving .idle (Storage.setTrustedAlias fp peerAlias) returns := by
  intro found
  cases found with
  | false => exact ⟨.idle, rfl, trivial⟩
  | true => exact ⟨.changed, rfl, persistRuntimeState_obeys (.inr rfl)⟩

theorem confirmTrustedPeerVerification_obeys (fp : String) (method : TrustVerificationMethod)
    (mutualConfirmation : Bool) :
    Obeys saving .idle (Storage.confirmTrustedPeerVerification fp method mutualConfirmation) returns := by
  unfold Storage.confirmTrustedPeerVerification
  split_ifs
  · trivial
  · intro found
    cases found with
    | false => exact ⟨.idle, rfl, trivial⟩
    | true => exact ⟨.changed, rfl, persistRuntimeState_obeys (.inr rfl)⟩

theorem freezeChanged_obeys (sessionId mdnsFp certFp : String) :
    Obeys saving .idle (freezeChanged sessionId mdnsFp certFp) returns := by
  intro previous
  refine ⟨.idle, rfl, fun current => ⟨.idle, rfl, ?_⟩⟩
  simp only [ret_bind]
  split_ifs
  · refine fun level => ⟨.idle, rfl, fun nowUnix => ⟨.idle, rfl, ?_⟩⟩
    simp only [ret_bind]
    split_ifs
    · intro found
      cases found with
      | false => exact ⟨.idle, rfl, trivial⟩
      | true =>
        refine ⟨.changed, rfl, fun trusted => ⟨.holding trusted, rfl, fun r => ?_⟩⟩
        exact ⟨.idle, by simp [saving], trivial⟩
    · trivial
  · trivial

theorem applyConfig_obeys (oldName : String) (config : AppConfig) :
    Obeys saving .idle (applyConfig oldName config) returns := by
  intro previous
  refine ⟨.idle, rfl, fun _ => ⟨.idle, rfl, fun _ => ⟨.idle, rfl, ?_⟩⟩⟩
  simp only [ret_bind]
  split_ifs
  · intro answer
    cases answer with
    | error cause => exact ⟨.idle, rfl, fun _ => ⟨.idle, rfl, trivial⟩⟩
    | ok _ => exact ⟨.idle, rfl, persistRuntimeState_obeys (.inl rfl)⟩
  · exact persistRuntimeState_obeys (.inl rfl)

theorem setAppConfig_obeys (config : AppConfig) :
    Obeys saving .idle (setAppConfig config) returns := by
  unfold setAppConfig
  simp only
  split
  · trivial
  · split
    · trivial
    · refine fun before => ⟨.idle, rfl, ?_⟩
      simp only [ret_bind]
      split
      · exact applyConfig_obeys _ _
      · intro answer
        cases answer with
        | error cause => exact ⟨.idle, rfl, trivial⟩
        | ok _ => exact ⟨.idle, rfl, applyConfig_obeys _ _⟩

theorem request_obeys (request : Request) : Obeys saving .idle request.prog returns := by
  cases request with
  | pair fp => exact pairDevice_obeys fp
  | unpair fp => exact unpairDevice_obeys fp
  | setAlias fp peerAlias => exact setTrustedAlias_obeys fp peerAlias
  | confirm fp method mutualConfirmation => exact confirmTrustedPeerVerification_obeys fp _ _
  | freeze sessionId mdnsFp certFp => exact freezeChanged_obeys sessionId mdnsFp certFp
  | setConfig config => exact setAppConfig_obeys config

end Programs

/-- What a step of an operation can do: nothing to peers and table, write the map, clone it,
replace the table by the clone, or fail at it. -/
inductive Moved (i : ℕ) (w w' : World) : Phase → Phase → Prop where
  | quiet {s : Phase} (memory : w'.memory.trustedPeers = w.memory.trustedPeers)
      (table : w'.table = w.table)
      (numbers : w'.version = w.version ∧ w'.clones = w.clones ∧ w'.stored = w.stored) :
      Moved i w w' s s
  | wrote (keyed : Keyed w'.memory.trustedPeers) (table : w'.table = w.table)
      (numbers : w'.version = w.version + 1 ∧ w'.clones = w.clones ∧ w'.stored = w.stored) :
      Moved i w w' .idle .changed
  | cloned {s : Phase} (free : s = .idle ∨ s = .changed)
      (same : w' = { w with clones := Function.update w.clones i w.version }) :
      Moved i w w' s (.holding w.memory.trustedPeers)
  | replaced {trusted : PeerMap} (order : w.stored ≤ w.clones i)
      (memory : w'.memory = w.memory) (table : ∀ fp, w'.table.find? fp = trusted.lookup fp)
      (numbers : w'.version = w.version ∧ w'.clones = w.clones ∧ w'.stored = w.clones i) :
      Moved i w w' (.holding trusted) .idle
  | failed {trusted : PeerMap} : Moved i w w' (.holding trusted) .failed

section Step

variable {i : ℕ} {o : TrustOp} {x : Ans} {w w' : World} {r : o.Resp} {s s' : Phase}

private theorem moved_of_change {fp : String} {f : TrustedPeer → TrustedPeer} {found : Bool}
    (keyed : Keyed w'.memory.trustedPeers) (done : changePeer w fp f = (w', found)) :
    Moved i w w' .idle (if found then .changed else .idle) := by
  obtain ⟨peer, -, rfl, rfl⟩ | ⟨rfl, rfl⟩ := changePeer_cases done
  · exact .wrote keyed rfl ⟨rfl, rfl, rfl⟩
  · exact .quiet rfl rfl ⟨rfl, rfl, rfl⟩

private theorem replaced_ok {trusted : PeerMap} (keyed : Keyed trusted) {reply : Reply}
    (done : w.replaced i reply trusted = (w', .ok ())) :
    w'.memory = w.memory ∧ (∀ fp, w'.table.find? fp = trusted.lookup fp) ∧
      w'.version = w.version ∧ w'.clones = w.clones ∧ w'.stored = w.clones i := by
  simp only [World.replaced] at done
  split at done
  · rename_i ok
    cases done
    exact ⟨rfl, replaceTrustedPeers_ok keyed ok, rfl, rfl, rfl⟩
  · cases done

private theorem moved_of_persist {config : AppConfig} {trusted : PeerMap} (keyed : Keyed trusted)
    (order : w.stored ≤ w.clones i) {outcome : Except String Unit}
    (done : exec i (.persist config trusted) x w = some (w', outcome)) :
    Moved i w w' (.holding trusted) (if outcome = .ok () then .idle else .failed) := by
  by_cases ok : outcome = .ok ()
  · subst ok
    rw [if_pos rfl]
    simp only [exec] at done
    split at done
    · cases done
    · cases done
    · obtain ⟨memory, table, numbers⟩ := replaced_ok keyed (Option.some.inj done)
      exact .replaced order memory table numbers
  · rw [if_neg ok]
    exact .failed

private theorem moved_of_replace {trusted : PeerMap} (keyed : Keyed trusted)
    (order : w.stored ≤ w.clones i) (fine : x.db = .fine) {outcome : Except String Unit}
    (done : exec i (.replace trusted) x w = some (w', outcome)) :
    Moved i w w' (.holding trusted) .idle := by
  simp only [exec, fine] at done
  have ok : outcome = .ok () := by
    have answer := congrArg Prod.snd (Option.some.inj done)
    simp only [World.replaced, (replaceTrustedPeers_fine keyed).1] at answer
    exact answer.symm
  subst ok
  obtain ⟨memory, table, numbers⟩ := replaced_ok keyed (Option.some.inj done)
  exact .replaced order memory table numbers

theorem moved_of_exec (keyed : Keyed w.memory.trustedPeers)
    (held : ∀ trusted, s = .holding trusted → Keyed trusted) (allowed : InOrder i o x w)
    (done : exec i o x w = some (w', r)) (next : saving s o r = some s') : Moved i w w' s s' := by
  cases o with
  | addTrust fp name =>
    have filed := exec_keyed keyed done
    cases done
    cases s with
    | idle =>
      cases next
      exact .wrote filed rfl ⟨rfl, rfl, rfl⟩
    | _ => cases next
  | remove fp =>
    cases s with
    | idle =>
      cases next
      simp only [exec] at done
      split_ifs at done
      · cases done
        exact .wrote (keyed.erase fp) rfl ⟨rfl, rfl, rfl⟩
      · cases done
        exact .quiet rfl rfl ⟨rfl, rfl, rfl⟩
    | _ => cases next
  | setAlias fp peerAlias =>
    cases s with
    | idle =>
      cases next
      exact moved_of_change (exec_keyed keyed done) (Option.some.inj done)
    | _ => cases next
  | confirm fp method mutualConfirmation =>
    cases s with
    | idle =>
      cases next
      exact moved_of_change (exec_keyed keyed done) (Option.some.inj done)
    | _ => cases next
  | freeze fp reason frozenAt =>
    cases s with
    | idle =>
      cases next
      exact moved_of_change (exec_keyed keyed done) (Option.some.inj done)
    | _ => cases next
  | clone =>
    cases done
    cases s with
    | idle =>
      cases next
      exact .cloned (.inl rfl) rfl
    | changed =>
      cases next
      exact .cloned (.inr rfl) rfl
    | _ => cases next
  | persist config trusted =>
    cases s with
    | holding mine =>
      by_cases same : trusted = mine
      · subst same
        obtain rfl : (if r = .ok () then .idle else .failed) = s' := by simpa [saving] using next
        exact moved_of_persist (held trusted rfl) allowed done
      · simp [saving, same] at next
    | _ => cases next
  | replace trusted =>
    cases s with
    | holding mine =>
      by_cases same : trusted = mine
      · subst same
        obtain rfl : .idle = s' := by simpa [saving] using next
        exact moved_of_replace (held trusted rfl) allowed.1 allowed.2 done
      · simp [saving, same] at next
    | _ => cases next
  | migrate old new newName => cases s <;> cases next
  | markTrusted fp =>
    cases done
    cases s with
    | idle | changed =>
      cases next
      exact .quiet (markTrusted_trustedPeers w.memory fp) rfl ⟨rfl, rfl, rfl⟩
    | _ => cases next
  | unmark | level | now | config | setConfig | probe | reregister =>
    cases done
    cases s with
    | idle | changed =>
      cases next
      exact .quiet rfl rfl ⟨rfl, rfl, rfl⟩
    | _ => cases next

/-- The table never has a newer state than the map, has its peers when it has the newest one, and
an operation that has not written yet will bring it the newest one. -/
structure Sound (φ : ℕ → Phase) (w : World) : Prop where
  keyed : Keyed w.memory.trustedPeers
  bound : w.stored ≤ w.version
  current : w.stored = w.version → Agrees w
  held : ∀ j trusted, φ j = .holding trusted → Keyed trusted ∧ w.clones j ≤ w.version ∧
    (w.clones j = w.version → trusted = w.memory.trustedPeers)
  owed : w.stored = w.version ∨
    ∃ j, φ j = .changed ∨ ∃ trusted, φ j = .holding trusted ∧ w.clones j = w.version

theorem sound_step {φ : ℕ → Phase} (h : Sound φ w) (moved : Moved i w w' (φ i) s')
    (fine : s' ≠ .failed) : Sound (Function.update φ i s') w' := by
  generalize before : φ i = s at moved
  cases moved with
  | quiet memory table numbers =>
    obtain ⟨version, clones, stored⟩ := numbers
    have same : Function.update φ i s' = φ := by rw [← before, Function.update_eq_self]
    rw [same]
    constructor
    · rw [memory]
      exact h.keyed
    · rw [version, stored]
      exact h.bound
    · intro newest fp
      rw [version, stored] at newest
      rw [table, memory]
      exact h.current newest fp
    · intro j trusted here
      rw [clones, version, memory]
      exact h.held j trusted here
    · rw [clones, version, stored]
      exact h.owed
  | wrote keyed table numbers =>
    obtain ⟨version, clones, stored⟩ := numbers
    have bound := h.bound
    refine ⟨keyed, by omega, fun newest => by omega, ?_, .inr ⟨i, .inl ?_⟩⟩
    · intro j trusted here
      have apart : j ≠ i := by
        rintro rfl
        rw [Function.update_self] at here
        cases here
      rw [Function.update_of_ne apart] at here
      obtain ⟨filed, older, -⟩ := h.held j trusted here
      rw [clones, version]
      exact ⟨filed, by omega, fun same => by omega⟩
    · rw [Function.update_self]
  | cloned free same =>
    subst same
    refine ⟨h.keyed, h.bound, h.current, ?_, ?_⟩
    · intro j trusted here
      by_cases own : j = i
      · subst own
        rw [Function.update_self] at here
        cases here
        exact ⟨h.keyed, by simp, fun _ => rfl⟩
      · rw [Function.update_of_ne own] at here
        simp only [Function.update_of_ne own]
        exact h.held j trusted here
    · -- whoever owed the newest state still does, or the clone of this operation is the newest
      refine h.owed.imp_right fun _ => ⟨i, .inr ⟨_, Function.update_self .., ?_⟩⟩
      simp
  | @replaced trusted order memory table numbers =>
    obtain ⟨version, clones, stored⟩ := numbers
    obtain ⟨-, older, newest⟩ := h.held i trusted before
    have owed : w.clones i = w.version ∨ ∃ j, j ≠ i ∧
        (φ j = .changed ∨ ∃ trusted, φ j = .holding trusted ∧ w.clones j = w.version) := by
      obtain done | ⟨j, owes⟩ := h.owed
      · exact .inl (by omega)
      · by_cases own : j = i
        · subst own
          obtain changed | ⟨mine, -, same⟩ := owes
          · rw [before] at changed
            cases changed
          · exact .inl same
        · exact .inr ⟨j, own, owes⟩
    constructor
    · rw [memory]
      exact h.keyed
    · rw [stored, version]
      exact older
    · intro same fp
      rw [stored, version] at same
      rw [table, memory, newest same]
    · intro j mine here
      have apart : j ≠ i := by
        rintro rfl
        rw [Function.update_self] at here
        cases here
      rw [Function.update_of_ne apart] at here
      rw [clones, version, memory]
      exact h.held j mine here
    · rw [stored, version, clones]
      refine owed.imp_right fun ⟨j, apart, owes⟩ => ⟨j, ?_⟩
      rwa [Function.update_of_ne apart]
  | failed => exact absurd rfl fine

end Step

def movesOf (n : ℕ) (j : ℕ) : Automaton TrustOp TrustOp.Resp Phase :=
  if j < n then saving else fun _ _ _ => none

/-- In every run that replaces the table in the order of the clones, the table has the peers of the
map once every operation has returned `Ok`. -/
theorem saved_in_order_agrees (requests : List Request) (w : World) (booted : Booted w)
    {t : Pool TrustOp TrustOp.Resp World (Except String Unit)}
    (run : Run exec InOrder (pool w requests) t)
    (returned : ∀ j, j < requests.length → t.result j = some (.ok ())) : Agrees t.world := by
  let n := requests.length
  let K (φ : ℕ → Phase) (w : World) : Prop :=
    (∀ j, n ≤ j → φ j = .idle) ∧ ((∃ j, φ j = .failed) ∨ Sound φ w)
  have start : Tracked (movesOf n) (fun _ => returns) (fun _ => .idle)
      (pool w requests).threads := by
    intro j y here
    obtain ⟨request, place, rfl⟩ := pool_thread here
    have inside : j < n := (List.getElem?_eq_some_iff.mp place).1
    simpa only [movesOf, if_pos inside] using request_obeys request
  have base : K (fun _ => .idle) w := by
    refine ⟨fun _ _ => rfl, .inr ⟨booted.keyed, ?_, fun _ => booted.agrees, ?_, .inl ?_⟩⟩
    · rw [booted.stored, booted.version]
    · intro j trusted here
      cases here
    · rw [booted.stored, booted.version]
  obtain ⟨φ, tracked, outside, state⟩ := Run.tracked run K start base (by
    rintro φ i o x w w' r s ⟨outside, state⟩ allowed done moved
    have inside : i < n := by
      by_contra beyond
      simp [movesOf, beyond] at moved
    simp only [movesOf, if_pos inside] at moved
    refine ⟨fun j beyond => ?_, ?_⟩
    · rw [Function.update_of_ne (by omega)]
      exact outside j beyond
    · obtain ⟨j, failed⟩ | sound := state
      · -- an operation that has failed makes no more steps
        have apart : j ≠ i := by
          rintro rfl
          rw [failed] at moved
          cases o <;> cases moved
        exact .inl ⟨j, by rwa [Function.update_of_ne apart]⟩
      · have step := moved_of_exec sound.keyed (fun trusted here => (sound.held i trusted here).1)
          allowed done moved
        by_cases bad : s = .failed
        · exact .inl ⟨i, by rw [Function.update_self, bad]⟩
        · exact .inr (sound_step sound step bad))
  have idle (j : ℕ) : φ j = .idle := by
    by_cases inside : j < n
    · have ended := tracked j _ (Pool.thread_of_result (returned j inside))
      cases phase : φ j with
      | idle => rfl
      | failed =>
        rw [phase] at ended
        exact absurd rfl ended
      | changed | holding =>
        rw [phase] at ended
        exact ended.elim
    · exact outside j (by omega)
  obtain ⟨j, failed⟩ | sound := state
  · rw [idle] at failed
    cases failed
  · refine sound.current ?_
    obtain done | ⟨j, changed | ⟨trusted, holding, -⟩⟩ := sound.owed
    · exact done
    · rw [idle] at changed
      cases changed
    · rw [idle] at holding
      cases holding

def emptyWorld : World where
  memory := ⟨∅, ∅⟩
  config := .standard
  table := .empty
  configRow := none
  version := 0
  clones := fun _ => 0
  stored := 0

theorem booted_empty : Booted emptyWorld where
  agrees := fun _ => rfl
  keyed := fun fp peer found => by simp [emptyWorld] at found
  version := rfl
  stored := rfl

def stepsOf (thread steps : ℕ) : List (ℕ × Ans) := List.replicate steps (thread, ⟨7, .fine, .ok ()⟩)

private def orderCheck (i : ℕ) (o : TrustOp) (x : Ans) (w : World) : Bool :=
  match o with
  | .persist _ _ | .replace _ => w.stored ≤ w.clones i && x.db == .fine
  | _ => true

private theorem inOrder_of_check (i : ℕ) (o : TrustOp) (x : Ans) (w : World)
    (h : orderCheck i o x w = true) : InOrder i o x w := by
  cases o with
  | persist config trusted =>
    simp only [orderCheck, Bool.and_eq_true, decide_eq_true_eq] at h
    exact h.1
  | replace trusted =>
    simp only [orderCheck, Bool.and_eq_true, decide_eq_true_eq, beq_iff_eq] at h
    exact h
  | _ => trivial

private def bothOk (t : Pool TrustOp TrustOp.Resp World (Except String Unit)) : Bool :=
  t.result 0 == some (.ok ()) && t.result 1 == some (.ok ())

private theorem results_of_bothOk {t : Pool TrustOp TrustOp.Resp World (Except String Unit)}
    (h : bothOk t = true) (j : ℕ) (inside : j < 2) : t.result j = some (.ok ()) := by
  simp only [bothOk, Bool.and_eq_true, beq_iff_eq] at h
  match j, inside with
  | 0, _ => exact h.1
  | 1, _ => exact h.2

/-- Two devices are paired one after the other, the second one while the first has its clone. -/
theorem overlapping_pairings_saved :
    ∃ t, Run exec InOrder (pool emptyWorld [.pair "a", .pair "b"]) t ∧
      (∀ j, j < 2 → t.result j = some (.ok ())) ∧ Agrees t.world ∧
      (t.world.table.find? "b").isSome = true := by
  obtain ⟨t, run, found⟩ := exists_run_of_play exec inOrder_of_check
    (pool emptyWorld [.pair "a", .pair "b"])
    (stepsOf 0 4 ++ stepsOf 1 2 ++ stepsOf 0 1 ++ stepsOf 1 3)
    (fun t => bothOk t && (t.world.table.find? "b").isSome) (by decide)
  simp only [Bool.and_eq_true] at found
  have returned := results_of_bothOk found.1
  exact ⟨t, run, returned,
    saved_in_order_agrees [.pair "a", .pair "b"] emptyWorld booted_empty run returned, found.2⟩

/-- Both pairings return `Ok`, and the older clone is written last: the second device is trusted
until the next start. -/
theorem older_clone_written_last :
    ∃ t, Run exec free (pool emptyWorld [.pair "a", .pair "b"]) t ∧ Booted emptyWorld ∧
      (∀ j, j < 2 → t.result j = some (.ok ())) ∧ ¬ Agrees t.world := by
  obtain ⟨t, run, found⟩ := exists_run_of_play exec unchecked_sound
    (pool emptyWorld [.pair "a", .pair "b"]) (stepsOf 0 4 ++ stepsOf 1 5 ++ stepsOf 0 1)
    (fun t => bothOk t && ((t.world.memory.trustedPeers.lookup "b").isSome &&
      (t.world.table.find? "b").isNone)) (by decide)
  simp only [Bool.and_eq_true] at found
  obtain ⟨ok, inMemory, missing⟩ := found
  refine ⟨t, run, booted_empty, results_of_bothOk ok, fun agrees => ?_⟩
  rw [← agrees "b", Option.isNone_iff_eq_none.mp missing] at inMemory
  cases inMemory

end DashDrop.Trust.Persistence
