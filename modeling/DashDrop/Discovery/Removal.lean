/- GID: DashDrop/Discovery/Removal
   source: src-tauri/src/discovery/browser.rs
   anchors: []
   digest: When a deferred removal leaves the sessions of other devices alone. -/

import DashDrop.Discovery.Sessions

set_option autoImplicit false
set_option relaxedAutoImplicit false

namespace DashDrop.Discovery.Removal

open DashDrop.Foundation.Program DashDrop.Foundation.Interleaving DashDrop.Foundation.Maps
open DashDrop.Foundation.Leases (retain lookup_retain)
open DashDrop.Foundation.Transitions
open DashDrop.Discovery.Devices DashDrop.Discovery.Jobs DashDrop.Discovery.Sessions

/-- Only session `s` may be gone; without any session left the status may have changed. -/
structure OnlyDrops (s : String) (d d' : DeviceInfo) : Prop where
  sessions : ∀ other, other ≠ s → d'.sessions.lookup other = d.sessions.lookup other
  status : d'.isEmpty = false → d'.reachability = d.reachability
  rest : { d' with sessions := d.sessions, reachability := d.reachability } = d

/-- Device `f` as a whole: it is known before and after, or neither. -/
def OwnDevice (s : String) : Option DeviceInfo → Option DeviceInfo → Prop
  | some d, some d' => OnlyDrops s d d'
  | none, none => True
  | _, _ => False

/-- Nothing changes but session `s` of device `f` and the index entries that point to it. -/
structure OnlySession (f s : String) (index index' : SessionIndex) (devices devices' : DeviceMap) :
    Prop where
  own : OwnDevice s (devices.lookup f) (devices'.lookup f)
  others : ∀ g, g ≠ f → devices'.lookup g = devices.lookup g
  entries : ∀ key, index'.lookup key = index.lookup key ∨
    index'.lookup key = none ∧ index.lookup key = some ⟨f, s⟩

theorem OnlyDrops.refl (s : String) (d : DeviceInfo) : OnlyDrops s d d :=
  ⟨fun _ _ => rfl, fun _ => rfl, rfl⟩

theorem OwnDevice.refl (s : String) (d : Option DeviceInfo) : OwnDevice s d d := by
  cases d with
  | none => trivial
  | some d => exact OnlyDrops.refl s d

theorem OnlySession.refl (f s : String) (index : SessionIndex) (devices : DeviceMap) :
    OnlySession f s index index devices devices :=
  ⟨OwnDevice.refl s _, fun _ _ => rfl, fun _ => .inl rfl⟩

theorem onlyDrops_dropSession (s : String) (d : DeviceInfo) : OnlyDrops s d (dropSession s d) := by
  constructor
  · intro other ne
    exact AList.lookup_erase_ne ne
  · intro left
    have remains : (d.sessions.erase s).entries.isEmpty = false := left
    simp [dropSession, remains]
  · rfl

def soughtId (s : String) (index : SessionIndex) : String :=
  ((index.lookup s).map SessionIndexEntry.sessionId).getD s

theorem mem_values_iff (index : SessionIndex) (entry : SessionIndexEntry) :
    entry ∈ index.entries.map (fun e => e.2) ↔ ∃ key, index.lookup key = some entry := by
  simp only [List.mem_map, Sigma.exists]
  constructor
  · rintro ⟨key, value, mem, rfl⟩
    exact ⟨key, AList.mem_lookup_iff.mpr mem⟩
  · rintro ⟨key, found⟩
    exact ⟨key, entry, AList.mem_lookup_iff.mp found, rfl⟩

theorem findEntry_some {s : String} {index : SessionIndex} {entry : SessionIndexEntry}
    (h : findEntry s index = some entry) :
    (∃ key, index.lookup key = some entry) ∧ soughtId s index = entry.sessionId := by
  unfold findEntry at h
  unfold soughtId
  cases direct : index.lookup s with
  | some found =>
    rw [direct] at h
    cases h
    exact ⟨⟨s, direct⟩, rfl⟩
  | none =>
    rw [direct] at h
    have sought : entry.sessionId = s := by simpa using List.find?_some h
    exact ⟨(mem_values_iff index entry).mp (List.mem_of_find?_eq_some h), by simp [sought]⟩

theorem findEntry_none {s : String} {index : SessionIndex} (h : findEntry s index = none)
    {key : String} {entry : SessionIndexEntry} (found : index.lookup key = some entry) :
    entry.sessionId ≠ soughtId s index := by
  unfold findEntry at h
  obtain ⟨direct, absent⟩ := Option.or_eq_none_iff.mp h
  have mem := (mem_values_iff index entry).mpr ⟨key, found⟩
  have other := List.find?_eq_none.mp absent entry mem
  simpa [soughtId, direct] using other

/-- The session is still there, was not refreshed, and its grace period is over. -/
def removalDue (devices : DeviceMap) (f s : String) (observed nowUnix : ℕ) : Bool :=
  (sessionOf devices f s).any fun session =>
    shouldApplyDeferredRemove session.lastSeenUnix observed nowUnix

/-- Every index entry with the session id that the removal looks for points to `(f, s)`. -/
def Unshared (f s : String) (index : SessionIndex) : Prop :=
  ∀ key entry, index.lookup key = some entry → entry.sessionId = soughtId s index →
    entry = ⟨f, s⟩

theorem applyRemoval_of_not_due {f s : String} {observed nowUnix : ℕ} (index : SessionIndex)
    {devices : DeviceMap} (h : removalDue devices f s observed nowUnix = false) :
    (applyRemoval f s observed nowUnix index devices).1 = index ∧
      (applyRemoval f s observed nowUnix index devices).2.1 = devices := by
  unfold applyRemoval
  unfold removalDue at h
  cases session : sessionOf devices f s with
  | none => exact ⟨rfl, rfl⟩
  | some current =>
    rw [session] at h
    have skipped : shouldApplyDeferredRemove current.lastSeenUnix observed nowUnix = false := h
    simp [skipped]

theorem applyRemoval_of_due {f s : String} {observed nowUnix : ℕ} (index : SessionIndex)
    {devices : DeviceMap} (h : removalDue devices f s observed nowUnix = true) :
    (applyRemoval f s observed nowUnix index devices).1 =
        (removeSessionFromState s index devices).1 ∧
      (applyRemoval f s observed nowUnix index devices).2.1 =
        (removeSessionFromState s index devices).2.1 := by
  unfold applyRemoval
  unfold removalDue at h
  cases session : sessionOf devices f s with
  | none =>
    rw [session] at h
    cases h
  | some current =>
    rw [session] at h
    have applies : shouldApplyDeferredRemove current.lastSeenUnix observed nowUnix = true := h
    simp [applies]

theorem onlySession_of_unshared {f s : String} {index : SessionIndex} {devices : DeviceMap}
    (h : Unshared f s index) :
    OnlySession f s index (removeSessionFromState s index devices).1 devices
      (removeSessionFromState s index devices).2.1 := by
  unfold removeSessionFromState
  cases found : findEntry s index with
  | none => exact .refl f s index devices
  | some entry =>
    obtain ⟨⟨key, there⟩, sought⟩ := findEntry_some found
    obtain rfl : entry = ⟨f, s⟩ := h key entry there sought.symm
    constructor
    · dsimp only
      rw [lookup_modify, if_pos rfl]
      cases devices.lookup f with
      | none => trivial
      | some d => exact onlyDrops_dropSession s d
    · intro g ne
      dsimp only
      rw [lookup_modify, if_neg ne]
    · intro name
      dsimp only
      rw [lookup_retain]
      cases there : index.lookup name with
      | none => exact .inl rfl
      | some other =>
        by_cases same : other.sessionId = s
        · have points := h name other there (same.trans sought.symm)
          exact .inr ⟨by simp [Option.filter, same], by rw [points]⟩
        · exact .inl (by simp [Option.filter, same])

theorem unshared_of_onlySession {f s : String} {index : SessionIndex} {devices : DeviceMap}
    (h : OnlySession f s index (removeSessionFromState s index devices).1 devices
      (removeSessionFromState s index devices).2.1) : Unshared f s index := by
  intro key entry there same
  unfold removeSessionFromState at h
  cases found : findEntry s index with
  | none => exact absurd same (findEntry_none found there)
  | some hit =>
    obtain ⟨-, sought⟩ := findEntry_some found
    have entries := h.entries key
    simp only [found] at entries
    rw [lookup_retain, there] at entries
    have gone : ¬ entry.sessionId ≠ hit.sessionId := by simp [same, sought]
    simp only [Option.filter, gone, decide_false, Bool.false_eq_true, if_false] at entries
    obtain kept | ⟨-, points⟩ := entries
    · cases kept
    · exact Option.some.inj points

/-- For every state and every removal that was scheduled for session `s` of device `f`. -/
theorem removal_harmless_iff (f s : String) (observed nowUnix : ℕ) (index : SessionIndex)
    (devices : DeviceMap) :
    OnlySession f s index (applyRemoval f s observed nowUnix index devices).1 devices
        (applyRemoval f s observed nowUnix index devices).2.1 ↔
      (removalDue devices f s observed nowUnix = true → Unshared f s index) := by
  cases due : removalDue devices f s observed nowUnix with
  | false =>
    obtain ⟨sameIndex, sameDevices⟩ := applyRemoval_of_not_due index due
    rw [sameIndex, sameDevices]
    simp [OnlySession.refl]
  | true =>
    obtain ⟨newIndex, newDevices⟩ := applyRemoval_of_due index due
    rw [newIndex, newDevices]
    constructor
    · intro only _
      exact unshared_of_onlySession only
    · intro unshared
      exact onlySession_of_unshared (unshared rfl)

def service (fp fullname : String) (last : UInt8) : Job :=
  .resolved "me" ⟨fullname, "host.local.", 53317, [.v4 192 168 1 last], some fp, some "x",
    some "Phone", some "android"⟩

def sharedEvents : List Event :=
  [.arrive (service "f" "f._dashdrop._udp.local." 5)] ++ stepsAt 0 7 ++
    [.arrive (service "g" "g._dashdrop._udp.local." 6)] ++ stepsAt 1 7 ++
    [.arrive (.removed "f._dashdrop._udp.local.")] ++ stepsAt 2 5 ++ [.start 2]

def graceOver : Ans := { fine with millis := 22000 }

def beforeRemoval : Session :=
  (play advance anyStep (boot ∅) (sharedEvents ++ [.step 3 graceOver])).getD (boot ∅)

def afterRemoval : Session := (advance beforeRemoval (.step 3 graceOver)).getD (boot ∅)

theorem removal_takes_other_device :
    Reaches advance anyStep (boot ∅) beforeRemoval ∧
      (∃ k, beforeRemoval.threads[3]? = some (.op (.applyRemoval "f" "x" 7 22) k)) ∧
      advance beforeRemoval (.step 3 graceOver) = some afterRemoval ∧
      ¬ OnlySession "f" "x" beforeRemoval.world.sessionIndex afterRemoval.world.sessionIndex
        beforeRemoval.world.devices afterRemoval.world.devices := by
  have run : Reaches advance anyStep (boot ∅) beforeRemoval :=
    reaches_of_play (by rfl :
      play advance anyStep _ (sharedEvents ++ [.step 3 graceOver]) = some beforeRemoval)
  refine ⟨run, ⟨_, rfl⟩, by rfl, fun only => ?_⟩
  have same := congrArg (Option.map DeviceInfo.isEmpty) (only.others "g" (by decide))
  have changed : (afterRemoval.world.devices.lookup "g").map DeviceInfo.isEmpty ≠
      (beforeRemoval.world.devices.lookup "g").map DeviceInfo.isEmpty := by decide +kernel
  exact changed same

end DashDrop.Discovery.Removal
