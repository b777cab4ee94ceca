/- GID: DashDrop/Discovery/Reachability
   source: src-tauri/src/discovery/browser.rs
   anchors: []
   digest: Devices without sessions are on their way out unless a probe brings them back. -/

import DashDrop.Discovery.Sessions

set_option autoImplicit false
set_option relaxedAutoImplicit false

namespace DashDrop.Discovery.Reachability

open DashDrop.Foundation.Program DashDrop.Foundation.Interleaving DashDrop.Foundation.Maps
open DashDrop.Foundation.Leases (lookup_retain)
open DashDrop.Foundation.Transitions
open DashDrop.Trust.Storage (PeerMap)
open DashDrop.Discovery.Devices DashDrop.Discovery.Jobs DashDrop.Discovery.Sessions

/-- A device without sessions has one of the statuses that lead to its eviction. -/
def Evictable (d : DeviceInfo) : Prop :=
  d.isEmpty = true → d.reachability = .offlineCandidate ∨ d.reachability = .offline

theorem evictable_of_session {d : DeviceInfo} {sessions : AList (fun _ : String => SessionInfo)}
    {id : String} {session : SessionInfo} (h : d.sessions = sessions.insert id session) :
    Evictable d := by
  intro empty
  simp [DeviceInfo.isEmpty, h, AList.entries_insert] at empty

theorem evictable_dropSession {d : DeviceInfo} (id : String) : Evictable (dropSession id d) := by
  intro empty
  have none : (d.sessions.erase id).entries.isEmpty = true := empty
  exact .inl (by simp only [dropSession, none, if_true])

theorem evictable_dropStale {d : DeviceInfo} (h : Evictable d) (instant : ℕ) :
    Evictable (dropStale instant d) := by
  unfold dropStale
  split_ifs
  · exact h
  · intro empty
    have none : (Foundation.Leases.retain (fun s => !isStale instant s)
        d.sessions).entries.isEmpty = true := empty
    exact .inl (by simp only [none, if_true])

theorem evictable_markOffline {d : DeviceInfo} (h : Evictable d) (nowUnix : ℕ) :
    Evictable (markOffline nowUnix d) := by
  unfold markOffline
  split_ifs
  · exact fun _ => .inr rfl
  · exact h

/-- The probe meets a session, or it is the third failure in a row or a later one. -/
def Meets (report : ProbeReport) (d : DeviceInfo) : Prop :=
  d.isEmpty = false ∨ report.ok = false ∧ 2 ≤ d.probeFailCount

instance (report : ProbeReport) (d : DeviceInfo) : Decidable (Meets report d) :=
  inferInstanceAs (Decidable (_ ∨ _ ∧ _))

theorem recordProbe_isEmpty (nowUnix : ℕ) (attempted : List String) (report : ProbeReport)
    (d : DeviceInfo) : (recordProbe nowUnix attempted report d).isEmpty = d.isEmpty := by
  unfold recordProbe
  dsimp only
  split_ifs <;> rfl

theorem evictable_recordProbe_iff (nowUnix : ℕ) (attempted : List String) (report : ProbeReport)
    (d : DeviceInfo) : Evictable (recordProbe nowUnix attempted report d) ↔ Meets report d := by
  unfold Evictable Meets
  rw [recordProbe_isEmpty]
  cases empty : d.isEmpty with
  | false => simp
  | true =>
    cases ok : report.ok with
    | true => simp [recordProbe, ok]
    | false =>
      have saturated : 3 ≤ min (d.probeFailCount + 1) (2 ^ 32 - 1) ↔ 2 ≤ d.probeFailCount := by
        omega
      simp only [recordProbe, ok, Bool.false_eq_true, if_false, ge_iff_le, saturated]
      by_cases third : 2 ≤ d.probeFailCount
      · simp [third]
      · cases d.reachability <;> simp [third, ReachabilityStatus.isOffline]

theorem kept_evictable : Kept fun _ d => Evictable d where
  announced := fun _ _ _ => evictable_of_session rfl
  refreshed := fun _ _ _ _ _ => evictable_of_session rfl
  connected := fun _ _ _ _ _ => evictable_of_session rfl
  reached := fun _ _ _ _ _ _ _ => evictable_of_session rfl
  dropped := fun _ _ _ _ => evictable_dropSession _
  pruned := fun _ nowUnix instant _ evictable =>
    evictable_markOffline (evictable_dropStale evictable instant) nowUnix
  flagged := fun _ _ _ evictable => evictable

/-- The device and the result of a probe that is about to be written down. -/
def probed? : DiscoveryOp → Option (String × ProbeReport)
  | .recordProbe fp _ _ report => some (fp, report)
  | _ => none

/-- A result that arrives finds its device, where that is known, as it may. -/
def Timely (s : Session) : Event → Prop
  | .step i _ => ∀ probe ∈ (operation s i).bind probed?,
      ∀ d ∈ s.world.devices.lookup probe.1, Meets probe.2 d
  | _ => True

instance (s : Session) (e : Event) : Decidable (Timely s e) :=
  match e with
  | .step i _ => inferInstanceAs (Decidable (∀ probe ∈ (operation s i).bind probed?,
      ∀ d ∈ s.world.devices.lookup probe.1, Meets probe.2 d))
  | .arrive _ => .isTrue trivial
  | .start _ => .isTrue trivial

variable {s t : Session}

theorem evictable_advance (h : All (fun _ d => Evictable d) s.world.devices) {e : Event}
    (timely : Timely s e) (next : advance s e = some t) :
    All (fun _ d => Evictable d) t.world.devices := by
  apply kept_evictable.advance h next
  intro i x fp nowUnix attempted report d step asks known _
  subst step
  rw [evictable_recordProbe_iff]
  exact timely (fp, report) (by simp [asks, probed?]) d known

/-- In every state of every run of timely steps. -/
theorem vanished_devices_evictable {trustedPeers : PeerMap}
    (run : Reaches advance Timely (boot trustedPeers) s) {fp : String} {d : DeviceInfo}
    (known : s.world.devices.lookup fp = some d) (empty : d.isEmpty = true) :
    d.reachability = .offlineCandidate ∨ d.reachability = .offline := by
  have start : All (fun _ d => Evictable d) (boot trustedPeers).world.devices := by
    intro fp d found
    simp [boot] at found
  have reached : All (fun _ d => Evictable d) s.world.devices :=
    run.keeps (I := fun s => All (fun _ d => Evictable d) s.world.devices) start
      fun evictable timely next => evictable_advance evictable timely next
  exact reached fp d known empty

def quietEvents : List Event :=
  [.arrive phoneBeacon] ++ stepsAt 0 8 ++ [.start 0] ++ stepsAt 1 4 ++
    [.arrive .offlinePass] ++ List.replicate 5 (.step 2 late)

def quietSession : Session := (play advance Timely (boot ∅) quietEvents).getD (boot ∅)

theorem quiet_device_evictable :
    ∃ d, quietSession.world.devices.lookup "f" = some d ∧ d.isEmpty = true ∧
      (d.reachability = .offlineCandidate ∨ d.reachability = .offline) := by
  have run : Reaches advance Timely (boot ∅) quietSession :=
    reaches_of_play (by rfl : play advance Timely _ quietEvents = some quietSession)
  have empty : (quietSession.world.devices.lookup "f").map DeviceInfo.isEmpty = some true := by
    decide +kernel
  obtain ⟨d, known, empty⟩ := Option.map_eq_some_iff.mp empty
  exact ⟨d, known, empty, vanished_devices_evictable run known empty⟩

/-- The session goes stale between the answer to the probe and the write of the result. -/
def overtakenEvents : List Event :=
  [.arrive phoneBeacon] ++ stepsAt 0 8 ++ [.start 0] ++ stepsAt 1 2 ++
    [.arrive .offlinePass] ++ List.replicate 5 (.step 2 late) ++ stepsAt 1 2

def overtakenSession : Session := (play advance anyStep (boot ∅) overtakenEvents).getD (boot ∅)

theorem ghost_stays_reachable :
    Reaches advance anyStep (boot ∅) overtakenSession ∧
      (overtakenSession.world.devices.lookup "f").map
        (fun d => (d.isEmpty, d.reachability)) = some (true, .reachable) := by
  have run : Reaches advance anyStep (boot ∅) overtakenSession :=
    reaches_of_play (by rfl : play advance anyStep _ overtakenEvents = some overtakenSession)
  exact ⟨run, by decide +kernel⟩

end DashDrop.Discovery.Reachability
