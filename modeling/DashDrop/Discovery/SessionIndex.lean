/- GID: DashDrop/Discovery/SessionIndex
   source: src-tauri/src/discovery/browser.rs, src-tauri/src/discovery/beacon.rs
   anchors: []
   digest: When the session index and the sessions of the devices agree. -/

import DashDrop.Discovery.Removal

set_option autoImplicit false
set_option relaxedAutoImplicit false

namespace DashDrop.Discovery.SessionIndex

open DashDrop.Foundation.Program DashDrop.Foundation.Interleaving DashDrop.Foundation.Maps
open DashDrop.Foundation.Leases (retain lookup_retain)
open DashDrop.Foundation.Transitions
open DashDrop.Trust.Storage (PeerMap)
open DashDrop.Discovery.Devices DashDrop.Discovery.Jobs DashDrop.Discovery.Sessions
open DashDrop.Discovery.Removal (findEntry_some)

def present (devices : DeviceMap) (e : SessionIndexEntry) : Bool :=
  (sessionOf devices e.fingerprint e.sessionId).isSome

def allSessions (devices : DeviceMap) : List SessionIndexEntry :=
  devices.entries.flatMap fun device => device.2.sessions.entries.map fun session =>
    ⟨device.1, session.1⟩

theorem mem_allSessions {devices : DeviceMap} {e : SessionIndexEntry}
    (h : present devices e = true) : e ∈ allSessions devices := by
  obtain ⟨session, there⟩ := Option.isSome_iff_exists.mp h
  obtain ⟨device, known, has⟩ := Option.bind_eq_some_iff.mp there
  refine List.mem_flatMap.mpr ⟨⟨e.fingerprint, device⟩, AList.mem_lookup_iff.mp known, ?_⟩
  exact List.mem_map.mpr ⟨⟨e.sessionId, session⟩, AList.mem_lookup_iff.mp has, rfl⟩

/-- Some pass of the offline loop is about to take out the index entries of the session. -/
def sweeping (s : Session) (e : SessionIndexEntry) : Bool := s.threads.any fun x =>
  match owed (next? x) with
  | .sweep pruned => pruned.sweeps e
  | _ => false

theorem sweeping_iff (s : Session) (e : SessionIndexEntry) :
    sweeping s e = true ↔ ∃ i pruned, owes s i = .sweep pruned ∧ pruned.sweeps e = true := by
  constructor
  · intro h
    obtain ⟨x, mem, sweeps⟩ := List.any_eq_true.mp h
    obtain ⟨i, here⟩ := List.mem_iff_getElem?.mp mem
    cases due : owed (next? x) with
    | sweep pruned =>
      rw [due] at sweeps
      exact ⟨i, pruned, by simpa [owes, operation, here] using due, sweeps⟩
    | _ =>
      rw [due] at sweeps
      cases sweeps
  · rintro ⟨i, pruned, owes, sweeps⟩
    unfold Sessions.owes operation at owes
    cases here : s.threads[i]? with
    | none =>
      rw [here] at owes
      cases owes
    | some x =>
      rw [here] at owes
      refine List.any_eq_true.mpr ⟨x, List.mem_of_getElem? here, ?_⟩
      have due : owed (next? x) = .sweep pruned := owes
      rw [due]
      exact sweeps

section Steady

variable (owner : String → String)

/-- The session that a handler enters in the index is there, or will be swept; and the name of its
service is no id of another session, or that one will be entered again. -/
def EntersWell (s : Session) (e : SessionIndexEntry) (fullname : Option String) : Prop :=
  (present s.world.devices e = true ∨ sweeping s e = true) ∧
    ∀ name ∈ fullname, name = e.sessionId ∨
      present s.world.devices ⟨owner name, name⟩ = false ∨
      owing s (.index ⟨owner name, name⟩) = true

/-- A session that a pass sweeps is gone, or it will be entered again. -/
def SweepsWell (s : Session) (pruned : Pruned) : Prop :=
  ∀ e ∈ allSessions s.world.devices, pruned.sweeps e = true → owing s (.index e) = true

instance (s : Session) (e : SessionIndexEntry) (fullname : Option String) :
    Decidable (EntersWell owner s e fullname) :=
  inferInstanceAs (Decidable (_ ∧ ∀ name ∈ fullname, _ ∨ _ ∨ _))

instance (s : Session) (pruned : Pruned) : Decidable (SweepsWell s pruned) :=
  inferInstanceAs (Decidable (∀ e ∈ allSessions s.world.devices, _ → _))

def announced? : DiscoveryOp → Option SessionIndexEntry
  | .announce fp a => some ⟨fp, a.sessionId⟩
  | _ => none

/-- Is this the entry of a device that the user has typed the address of? -/
def byHand : DiscoveryOp → Bool
  | .connectDevice _ _ _ => true
  | _ => false

def entered? : DiscoveryOp → Option (SessionIndexEntry × Option String)
  | .indexSession e fullname => some (e, fullname)
  | _ => none

def swept? : DiscoveryOp → Option Pruned
  | .sweepIndex pruned => some pruned
  | _ => none

/-- Session ids are announced by their owners only, no address is connected to by hand, and the
second writes of handlers and passes find what they should. -/
def SteadyOp (s : Session) (o : DiscoveryOp) : Prop :=
  (∀ e ∈ announced? o, owner e.sessionId = e.fingerprint) ∧ byHand o = false ∧
    (∀ entry ∈ entered? o, EntersWell owner s entry.1 entry.2) ∧
    ∀ pruned ∈ swept? o, SweepsWell s pruned

instance (s : Session) (o : DiscoveryOp) : Decidable (SteadyOp owner s o) :=
  inferInstanceAs (Decidable ((∀ e ∈ announced? o, _) ∧ _ ∧ (∀ entry ∈ entered? o, _) ∧
    ∀ pruned ∈ swept? o, _))

def Steady (s : Session) : Event → Prop
  | .step i _ => ∀ o ∈ operation s i, SteadyOp owner s o
  | _ => True

instance (s : Session) (e : Event) : Decidable (Steady owner s e) :=
  match e with
  | .step i _ => inferInstanceAs (Decidable (∀ o ∈ operation s i, SteadyOp owner s o))
  | .arrive _ => .isTrue trivial
  | .start _ => .isTrue trivial

end Steady

theorem present_announce (fp : String) (a : Announcement) (instant : ℕ) (devices : DeviceMap)
    (e : SessionIndexEntry) :
    present (announce fp a instant devices).1 e =
      (decide (e = ⟨fp, a.sessionId⟩) || present devices e) := by
  obtain ⟨f, s⟩ := e
  have sessions : sessionOf (announce fp a instant devices).1 f s =
      if f = fp ∧ s = a.sessionId then some ⟨a.sessionId, a.addrs, a.nowUnix, instant⟩
      else sessionOf devices f s := by
    simp only [sessionOf, announce, lookup_insert_ite]
    by_cases same : f = fp
    · subst same
      simp only [if_true, Option.bind_some, refreshDevice, lookup_insert_ite, true_and]
      split_ifs
      · rfl
      · cases devices.lookup f with
        | none => rfl
        | some d => rfl
    · simp [same]
  simp only [present, sessions, SessionIndexEntry.mk.injEq]
  split_ifs with same
  · simp [same]
  · simp [same]

theorem present_modify {f : DeviceInfo → DeviceInfo} (same : ∀ d, (f d).sessions = d.sessions)
    (fp : String) (devices : DeviceMap) (e : SessionIndexEntry) :
    present (modify fp f devices) e = present devices e := by
  simp only [present, sessionOf, lookup_modify]
  split_ifs with here
  · rw [here]
    cases devices.lookup fp with
    | none => rfl
    | some d => simp [same]
  · rfl

theorem present_dropSession (entry : SessionIndexEntry) (devices : DeviceMap)
    (e : SessionIndexEntry) :
    present (modify entry.fingerprint (dropSession entry.sessionId) devices) e =
      (decide (e ≠ entry) && present devices e) := by
  obtain ⟨f, s⟩ := e
  obtain ⟨g, u⟩ := entry
  simp only [present, sessionOf, lookup_modify, SessionIndexEntry.mk.injEq, ne_eq]
  by_cases same : f = g
  · subst same
    simp only [if_true, true_and]
    cases devices.lookup f with
    | none => simp
    | some d =>
      simp only [Option.map_some, Option.bind_some, dropSession, lookup_erase_ite]
      split_ifs with here
      · simp [here]
      · simp [here]
  · simp [same]

theorem lookup_dropStale (instant : ℕ) {d : DeviceInfo} {id : String} {session : SessionInfo}
    (has : d.sessions.lookup id = some session) :
    (dropStale instant d).sessions.lookup id = some session ∨
      id ∈ staleSessionIds instant d := by
  cases stale : isStale instant session with
  | true =>
    right
    refine List.mem_map.mpr ⟨⟨id, session⟩, List.mem_filter.mpr ⟨?_, stale⟩, rfl⟩
    exact AList.mem_lookup_iff.mp has
  | false =>
    left
    unfold dropStale
    split_ifs
    · exact has
    · simp [has, stale, Option.filter]

theorem markOffline_sessions (nowUnix : ℕ) (d : DeviceInfo) :
    (markOffline nowUnix d).sessions = d.sessions := by
  unfold markOffline
  split_ifs <;> rfl

theorem not_lost_of_session (nowUnix : ℕ) {d : DeviceInfo} {id : String} {session : SessionInfo}
    (has : d.sessions.lookup id = some session) : shouldEmitDeviceLost d nowUnix = false := by
  have mem := AList.mem_lookup_iff.mp has
  have full : d.isEmpty = false := by
    unfold DeviceInfo.isEmpty
    cases entries : d.sessions.entries with
    | nil =>
      rw [entries] at mem
      cases mem
    | cons first rest => rfl
  simp [shouldEmitDeviceLost, full]

theorem present_prune {nowUnix instant : ℕ} {devices : DeviceMap} (keyed : Keyed devices)
    {e : SessionIndexEntry} (h : present devices e = true) :
    present (prune nowUnix instant devices).1 e = true ∨
      (e.fingerprint, e.sessionId) ∈ (prune nowUnix instant devices).2.pairs := by
  obtain ⟨session, there⟩ := Option.isSome_iff_exists.mp h
  obtain ⟨d, known, has⟩ := Option.bind_eq_some_iff.mp there
  obtain stays | stale := lookup_dropStale instant has
  · left
    have kept : (markOffline nowUnix (dropStale instant d)).sessions.lookup e.sessionId =
        some session := by rw [markOffline_sessions, stays]
    have alive := not_lost_of_session nowUnix kept
    simp only [present, sessionOf, prune, lookup_retain, lookup_mapValues, known, Option.map_some]
    simp [Option.filter, alive, kept]
  · right
    have named : d.fingerprint = e.fingerprint := keyed _ d known
    refine List.mem_flatMap.mpr ⟨d, ?_, ?_⟩
    · exact List.mem_map.mpr ⟨⟨e.fingerprint, d⟩, AList.mem_lookup_iff.mp known, rfl⟩
    · exact List.mem_map.mpr ⟨e.sessionId, stale, by rw [named]⟩

theorem present_of_prune {nowUnix instant : ℕ} {devices : DeviceMap} {e : SessionIndexEntry}
    (h : present (prune nowUnix instant devices).1 e = true) : present devices e = true := by
  obtain ⟨session, there⟩ := Option.isSome_iff_exists.mp h
  obtain ⟨d, found, has⟩ := Option.bind_eq_some_iff.mp there
  obtain ⟨old, known, rfl⟩ := lookup_prune found
  rw [markOffline_sessions] at has
  unfold dropStale at has
  split_ifs at has
  · simp [present, sessionOf, known, has]
  · rw [lookup_retain] at has
    obtain ⟨was, -⟩ := Option.filter_eq_some_iff.mp has
    simp [present, sessionOf, known, was]

theorem lookup_indexSession (e : SessionIndexEntry) (fullname : Option String)
    (index : SessionIndex) (key : String) :
    (indexSession e fullname index).lookup key =
      if key = e.sessionId ∨ fullname = some key then some e else index.lookup key := by
  cases fullname with
  | none => simp [indexSession, lookup_insert_ite]
  | some name =>
    simp only [indexSession, lookup_insert_ite, Option.some.injEq]
    by_cases under : key = name
    · simp [under]
    · simp [under, Ne.symm under]

/-- Sessions and entries belong to the owners of their ids; a session without its entry will be
entered, and an entry without its session will be swept. -/
structure Indexed (owner : String → String) (s : Session) : Prop where
  owned : ∀ e, present s.world.devices e = true → owner e.sessionId = e.fingerprint
  named : ∀ key e, s.world.sessionIndex.lookup key = some e → owner e.sessionId = e.fingerprint
  due : ∀ e, owing s (.index e) = true → owner e.sessionId = e.fingerprint
  found : ∀ e, present s.world.devices e = true →
    s.world.sessionIndex.lookup e.sessionId = some e ∨ owing s (.index e) = true
  live : ∀ key e, s.world.sessionIndex.lookup key = some e →
    present s.world.devices e = true ∨ sweeping s e = true

theorem indexed_boot (owner : String → String) (trustedPeers : PeerMap) :
    Indexed owner (boot trustedPeers) where
  owned := by simp [boot, present, sessionOf]
  named := by simp [boot]
  due := by simp [boot, owing]
  found := by simp [boot, present, sessionOf]
  live := by simp [boot]

section Steps

variable {owner : String → String} {s t : Session} {i : ℕ} {x : Ans}

theorem still_sweeping {o : DiscoveryOp} {r : o.Resp} (turn : Turn s t i x o r)
    {e : SessionIndexEntry} (was : sweeping s e = true)
    (other : ∀ pruned, owed (some o) = .sweep pruned → pruned.sweeps e = false) :
    sweeping t e = true := by
  obtain ⟨j, pruned, owes, sweeps⟩ := (sweeping_iff s e).mp was
  have elsewhere : j ≠ i := by
    rintro rfl
    rw [turn.owes_eq] at owes
    rw [other pruned owes] at sweeps
    cases sweeps
  exact (sweeping_iff t e).mpr ⟨j, pruned, (turn.others j elsewhere).trans owes, sweeps⟩

def forIndex : Due → Bool
  | .index _ | .sweep _ => true
  | .nothing | .trust _ | .unmark _ => false

/-- A step that leaves the sessions and the index as they are and has nothing due for them. -/
theorem Indexed.kept (h : Indexed owner s) {o : DiscoveryOp} {r : o.Resp}
    (turn : Turn s t i x o r) (before : forIndex (owed (some o)) = false)
    (after : forIndex (incurred o r) = false)
    (sessions : ∀ e, present t.world.devices e = present s.world.devices e)
    (index : t.world.sessionIndex = s.world.sessionIndex) : Indexed owner t := by
  have notOwed (due : Due) (about : forIndex due = true) : owed (some o) ≠ due := by
    rintro rfl
    rw [before] at about
    cases about
  have notIncurred (due : Due) (about : forIndex due = true) : incurred o r ≠ due := by
    rintro rfl
    rw [after] at about
    cases about
  constructor
  · intro e has
    rw [sessions] at has
    exact h.owned e has
  · intro key e there
    rw [index] at there
    exact h.named key e there
  · intro e owing
    exact h.due e (turn.was_owing owing (by simp) (notIncurred _ rfl))
  · intro e has
    rw [sessions] at has
    rw [index]
    exact (h.found e has).imp_right fun owing =>
      turn.still_owing owing (by simp) (notOwed _ rfl)
  · intro key e there
    rw [index] at there
    rw [sessions]
    exact (h.live key e there).imp_right fun swept =>
      still_sweeping turn swept fun pruned is => absurd is (notOwed _ rfl)

theorem Indexed.announced (h : Indexed owner s) {fp : String} {a : Announcement}
    {r : Bool × DeviceInfo} (turn : Turn s t i x (.announce fp a) r)
    (owns : owner a.sessionId = fp) : Indexed owner t := by
  have world : { s.world with devices := (announce fp a x.instant s.world.devices).1 } =
      t.world := by
    have done := turn.done
    simp only [exec, Option.some.injEq, Prod.mk.injEq] at done
    exact done.1
  have index : t.world.sessionIndex = s.world.sessionIndex := by rw [← world]
  have sessions (e : SessionIndexEntry) : present t.world.devices e =
      (decide (e = ⟨fp, a.sessionId⟩) || present s.world.devices e) := by
    rw [← world]
    exact present_announce fp a x.instant _ e
  have new : owing t (.index ⟨fp, a.sessionId⟩) = true := owing_of_owes turn.own (by simp)
  have stays {due : Due} (was : owing s due = true) (ne : due ≠ .nothing) :
      owing t due = true := turn.still_owing was ne (Ne.symm ne)
  constructor
  · intro e has
    rw [sessions, Bool.or_eq_true, decide_eq_true_eq] at has
    obtain rfl | old := has
    · exact owns
    · exact h.owned e old
  · intro key e there
    rw [index] at there
    exact h.named key e there
  · intro e owing
    by_cases same : e = ⟨fp, a.sessionId⟩
    · rw [same]
      exact owns
    · exact h.due e (turn.was_owing owing (by simp) fun is => same (Due.index.inj is).symm)
  · intro e has
    rw [index]
    rw [sessions, Bool.or_eq_true, decide_eq_true_eq] at has
    obtain rfl | old := has
    · exact .inr new
    · exact (h.found e old).imp_right fun owing => stays owing (by simp)
  · intro key e there
    rw [index] at there
    rw [sessions, Bool.or_eq_true]
    obtain has | swept := h.live key e there
    · exact .inl (.inr has)
    · exact .inr (still_sweeping turn swept fun pruned is => by cases is)

theorem Indexed.entered (h : Indexed owner s) {entry : SessionIndexEntry}
    {fullname : Option String} (turn : Turn s t i x (.indexSession entry fullname) ())
    (well : EntersWell owner s entry fullname) : Indexed owner t := by
  have world : { s.world with
      sessionIndex := indexSession entry fullname s.world.sessionIndex } = t.world := by
    have done := turn.done
    simp only [exec, Option.some.injEq, Prod.mk.injEq] at done
    exact done.1
  have devices : t.world.devices = s.world.devices := by rw [← world]
  have index (key : String) : t.world.sessionIndex.lookup key =
      if key = entry.sessionId ∨ fullname = some key then some entry
      else s.world.sessionIndex.lookup key := by
    rw [← world]
    exact lookup_indexSession entry fullname _ key
  have mine : owner entry.sessionId = entry.fingerprint :=
    h.due entry (owing_of_owes turn.owes_eq (by simp))
  have stays {e : SessionIndexEntry} (was : owing s (.index e) = true) (ne : e ≠ entry) :
      owing t (.index e) = true :=
    turn.still_owing was (by simp) fun is => ne (Due.index.inj is).symm
  obtain ⟨there, names⟩ := well
  constructor
  · intro e has
    rw [devices] at has
    exact h.owned e has
  · intro key e at_key
    rw [index] at at_key
    split_ifs at at_key
    · cases at_key
      exact mine
    · exact h.named key e at_key
  · intro e owing
    exact h.due e (turn.was_owing owing (by simp) (by simp [incurred]))
  · intro e has
    rw [devices] at has
    rw [index]
    have owns := h.owned e has
    by_cases same : e.sessionId = entry.sessionId
    · -- the id has one owner, so this is the session that was entered
      obtain rfl : e = entry := by
        obtain ⟨f, u⟩ := e
        obtain ⟨g, v⟩ := entry
        simp only at same owns mine
        subst same
        rw [← owns, ← mine]
      simp
    · have ne : e ≠ entry := fun is => same (by rw [is])
      by_cases named : fullname = some e.sessionId
      · obtain own | gone | owing := names e.sessionId named
        · exact absurd own same
        · rw [owns, has] at gone
          cases gone
        · rw [owns] at owing
          exact .inr (stays owing ne)
      · rw [if_neg (by simp [same, named])]
        exact (h.found e has).imp_right fun owing => stays owing ne
  · intro key e at_key
    rw [devices]
    have sweeps {e : SessionIndexEntry} (was : sweeping s e = true) : sweeping t e = true :=
      still_sweeping turn was fun pruned is => by cases is
    rw [index] at at_key
    split_ifs at at_key
    · cases at_key
      exact there.imp_right sweeps
    · exact (h.live key e at_key).imp_right sweeps

theorem Indexed.swept (h : Indexed owner s) {pruned : Pruned}
    (turn : Turn s t i x (.sweepIndex pruned) ()) (well : SweepsWell s pruned) :
    Indexed owner t := by
  have world : { s.world with sessionIndex := sweepIndex pruned s.world.sessionIndex } =
      t.world := by
    have done := turn.done
    simp only [exec, Option.some.injEq, Prod.mk.injEq] at done
    exact done.1
  have devices : t.world.devices = s.world.devices := by rw [← world]
  have index (key : String) (e : SessionIndexEntry) :
      t.world.sessionIndex.lookup key = some e ↔
        s.world.sessionIndex.lookup key = some e ∧ pruned.sweeps e = false := by
    rw [← world]
    simp [sweepIndex, Option.filter_eq_some_iff]
  have stays {e : SessionIndexEntry} (was : owing s (.index e) = true) :
      owing t (.index e) = true := turn.still_owing was (by simp) (by simp [owed])
  constructor
  · intro e has
    rw [devices] at has
    exact h.owned e has
  · intro key e there
    exact h.named key e ((index key e).mp there).1
  · intro e owing
    exact h.due e (turn.was_owing owing (by simp) (by simp [incurred]))
  · intro e has
    rw [devices] at has
    obtain there | owing := h.found e has
    · cases sweeps : pruned.sweeps e with
      | true => exact .inr (stays (well e (mem_allSessions has) sweeps))
      | false => exact .inl ((index _ e).mpr ⟨there, sweeps⟩)
    · exact .inr (stays owing)
  · intro key e there
    obtain ⟨was, not⟩ := (index key e).mp there
    rw [devices]
    refine (h.live key e was).imp_right fun swept => still_sweeping turn swept ?_
    intro other is
    cases is
    exact not

theorem Indexed.pruned (h : Indexed owner s) (keyed : Keyed s.world.devices) {nowUnix : ℕ}
    {pruned : Pruned} (turn : Turn s t i x (.prune nowUnix) pruned) : Indexed owner t := by
  obtain ⟨world, rfl⟩ :
      { s.world with devices := (prune nowUnix x.instant s.world.devices).1 } = t.world ∧
        (prune nowUnix x.instant s.world.devices).2 = pruned := by
    have done := turn.done
    simp only [exec, Option.some.injEq, Prod.mk.injEq] at done
    exact done
  have index : t.world.sessionIndex = s.world.sessionIndex := by rw [← world]
  have was {e : SessionIndexEntry} (has : present t.world.devices e = true) :
      present s.world.devices e = true := by
    rw [← world] at has
    exact present_of_prune has
  constructor
  · intro e has
    exact h.owned e (was has)
  · intro key e there
    rw [index] at there
    exact h.named key e there
  · intro e owing
    refine h.due e (turn.was_owing owing (by simp) ?_)
    simp only [incurred]
    split_ifs
    · simp
    · simp
  · intro e has
    rw [index]
    exact (h.found e (was has)).imp_right fun owing =>
      turn.still_owing owing (by simp) (by simp [owed])
  · intro key e there
    rw [index] at there
    obtain has | swept := h.live key e there
    · rw [← world]
      refine (present_prune keyed has).imp_right fun pair => ?_
      have some : (prune nowUnix x.instant s.world.devices).2.pairs.isEmpty = false := by
        cases pairs : (prune nowUnix x.instant s.world.devices).2.pairs with
        | nil =>
          rw [pairs] at pair
          cases pair
        | cons first rest => rfl
      have due : owes t i = .sweep (prune nowUnix x.instant s.world.devices).2 := by
        rw [turn.own]
        simp [incurred, some]
      have sweeps : (prune nowUnix x.instant s.world.devices).2.sweeps e = true := by
        simp only [Pruned.sweeps, Bool.or_eq_true, List.any_eq_true, decide_eq_true_eq]
        exact .inr ⟨_, pair, rfl, rfl⟩
      exact (sweeping_iff t e).mpr ⟨i, _, due, sweeps⟩
    · exact .inr (still_sweeping turn swept fun other is => by cases is)

theorem Indexed.removed (h : Indexed owner s) {fp sessionId : String} {observed nowUnix : ℕ}
    {r : Option (String × Bool × Option DeviceInfo) × Bool}
    (turn : Turn s t i x (.applyRemoval fp sessionId observed nowUnix) r) : Indexed owner t := by
  have world : { s.world with
      sessionIndex :=
        (applyRemoval fp sessionId observed nowUnix s.world.sessionIndex s.world.devices).1
      devices :=
        (applyRemoval fp sessionId observed nowUnix s.world.sessionIndex
          s.world.devices).2.1 } = t.world := by
    have done := turn.done
    simp only [exec, Option.some.injEq, Prod.mk.injEq] at done
    exact done.1
  obtain ⟨sameIndex, sameDevices⟩ | ⟨entry, found, newIndex, newDevices⟩ :=
    applyRemoval_cases fp sessionId observed nowUnix s.world.sessionIndex s.world.devices
  · refine h.kept turn rfl rfl ?_ ?_
    · intro e
      rw [← world, sameDevices]
    · rw [← world, sameIndex]
  · obtain ⟨⟨place, indexed⟩, -⟩ := findEntry_some found
    have mine := h.named place entry indexed
    have sessions (e : SessionIndexEntry) :
        present t.world.devices e = (decide (e ≠ entry) && present s.world.devices e) := by
      rw [← world, newDevices]
      exact present_dropSession entry _ e
    have index (key : String) (e : SessionIndexEntry) :
        t.world.sessionIndex.lookup key = some e ↔
          s.world.sessionIndex.lookup key = some e ∧ e.sessionId ≠ entry.sessionId := by
      rw [← world, newIndex]
      simp [Option.filter_eq_some_iff]
    have was {e : SessionIndexEntry} (has : present t.world.devices e = true) :
        e ≠ entry ∧ present s.world.devices e = true := by
      rw [sessions, Bool.and_eq_true, decide_eq_true_eq] at has
      exact has
    constructor
    · intro e has
      exact h.owned e (was has).2
    · intro key e there
      exact h.named key e ((index key e).mp there).1
    · intro e owing
      exact h.due e (turn.was_owing owing (by simp) (by simp [incurred]))
    · intro e has
      obtain ⟨ne, has⟩ := was has
      have owns := h.owned e has
      have other : e.sessionId ≠ entry.sessionId := by
        intro same
        apply ne
        obtain ⟨f, u⟩ := e
        obtain ⟨g, v⟩ := entry
        simp only at same owns mine
        subst same
        rw [← owns, ← mine]
      obtain there | owing := h.found e has
      · exact .inl ((index _ e).mpr ⟨there, other⟩)
      · exact .inr (turn.still_owing owing (by simp) (by simp [owed]))
    · intro key e there
      obtain ⟨there, other⟩ := (index key e).mp there
      rw [sessions, Bool.and_eq_true, decide_eq_true_eq]
      have ne : e ≠ entry := fun is => other (by rw [is])
      obtain has | swept := h.live key e there
      · exact .inl ⟨ne, has⟩
      · exact .inr (still_sweeping turn swept fun pruned is => by cases is)

theorem recordProbe_sessions (nowUnix : ℕ) (attempted : List String) (report : ProbeReport)
    (d : DeviceInfo) : (recordProbe nowUnix attempted report d).sessions = d.sessions := by
  unfold recordProbe
  dsimp only
  split_ifs <;> rfl

theorem Indexed.advance (h : Indexed owner s) (order : Ordered s) (keyed : Keyed s.world.devices)
    {e : Event} (steady : Steady owner s e) (next : advance s e = some t) : Indexed owner t := by
  obtain ⟨-, ⟨⟨spawned, world⟩, same⟩ | ⟨i, x, o, r, rfl, turn⟩⟩ := advance_turn order next
  · have debts (due : Due) (ne : due ≠ .nothing) : owing t due = owing s due := by
      rw [Bool.eq_iff_iff]
      constructor
      · intro owing
        obtain ⟨i, owes⟩ := exists_owes owing
        exact owing_of_owes ((same i).symm.trans owes) ne
      · intro owing
        obtain ⟨i, owes⟩ := exists_owes owing
        exact owing_of_owes ((same i).trans owes) ne
    have sweeps (e : SessionIndexEntry) : sweeping t e = sweeping s e := by
      rw [Bool.eq_iff_iff, sweeping_iff, sweeping_iff]
      simp only [same]
    have index : t.world.sessionIndex = s.world.sessionIndex := by rw [world]
    have devices : t.world.devices = s.world.devices := by rw [world]
    constructor
    · rw [devices]
      exact h.owned
    · rw [index]
      exact h.named
    · intro e owing
      rw [debts _ (by simp)] at owing
      exact h.due e owing
    · intro e has
      rw [devices] at has
      rw [index, debts _ (by simp)]
      exact h.found e has
    · intro key e there
      rw [index] at there
      rw [devices, sweeps]
      exact h.live key e there
  · have done := turn.done
    obtain ⟨owns, typed, enters, sweeps⟩ := steady o turn.operation
    cases o with
    | announce fp a => exact h.announced turn (owns _ rfl)
    | connectDevice fp addr trusted => cases typed
    | indexSession entry fullname => exact h.entered turn (enters _ rfl)
    | sweepIndex pruned => exact h.swept turn (sweeps _ rfl)
    | prune nowUnix => exact h.pruned keyed turn
    | applyRemoval fp sessionId observed nowUnix => exact h.removed turn
    | recordProbe fp nowUnix attempted report =>
      simp only [exec, Option.some.injEq, Prod.mk.injEq] at done
      refine h.kept turn rfl rfl ?_ ?_
      · intro e
        rw [← done.1]
        exact present_modify (recordProbe_sessions nowUnix attempted report) fp _ e
      · rw [← done.1]
    | markTrusted fp =>
      simp only [exec, Option.some.injEq, Prod.mk.injEq] at done
      refine h.kept turn rfl rfl ?_ ?_
      · intro e
        rw [← done.1]
        exact present_modify (fun d => (rfl : (setTrusted true d).sessions = d.sessions)) fp _ e
      · rw [← done.1]
        rfl
    | unmark fp =>
      simp only [exec, Option.some.injEq, Prod.mk.injEq] at done
      refine h.kept turn rfl rfl ?_ ?_
      · intro e
        rw [← done.1]
        exact present_modify (fun d => (rfl : (setTrusted false d).sessions = d.sessions)) fp _ e
      · rw [← done.1]
        rfl
    | addTrust fp name =>
      simp only [exec, Option.some.injEq, Prod.mk.injEq] at done
      refine h.kept turn rfl rfl (fun e => ?_) ?_
      · rw [← done.1]
      · rw [← done.1]
    | removeTrust fp =>
      simp only [exec, Option.some.injEq, Prod.mk.injEq] at done
      refine h.kept turn rfl ?_ (fun e => ?_) ?_
      · simp only [incurred]
        split_ifs <;> rfl
      · rw [← done.1]
      · rw [← done.1]
    | _ =>
      obtain ⟨devices, index, -⟩ := exec_aside rfl done
      refine h.kept turn rfl rfl (fun e => ?_) index
      rw [devices]

end Steps

/-- Every session is found under its id, and every entry points to a session. -/
structure Coherent (w : World) : Prop where
  indexed : ∀ e, present w.devices e = true → w.sessionIndex.lookup e.sessionId = some e
  live : ∀ key e, w.sessionIndex.lookup key = some e → present w.devices e = true

/-- No handler and no pass is between its two writes. -/
def Settled (s : Session) : Prop :=
  ∀ e, owing s (.index e) = false ∧ sweeping s e = false

theorem settled_of_idle {s : Session} (h : idle s = true) : Settled s := by
  intro e
  constructor
  · by_contra some
    obtain ⟨i, owes⟩ := exists_owes (by simpa using some)
    rw [owes_of_idle h i] at owes
    cases owes
  · by_contra some
    obtain ⟨i, pruned, owes, -⟩ := (sweeping_iff s e).mp (by simpa using some)
    rw [owes_of_idle h i] at owes
    cases owes

/-- After every run of steady steps from the start of the process. -/
theorem session_index_coherent {owner : String → String} {trustedPeers : PeerMap} {s : Session}
    (run : Reaches advance (Steady owner) (boot trustedPeers) s) (settled : Settled s) :
    Coherent s.world := by
  have start : Ordered (boot trustedPeers) ∧ Keyed (boot trustedPeers).world.devices ∧
      Indexed owner (boot trustedPeers) :=
    ⟨ordered_boot trustedPeers, keyed_boot trustedPeers, indexed_boot owner trustedPeers⟩
  have reached : Ordered s ∧ Keyed s.world.devices ∧ Indexed owner s := by
    refine run.keeps (I := fun s => Ordered s ∧ Keyed s.world.devices ∧ Indexed owner s) start ?_
    rintro a b e ⟨order, keyed, indexed⟩ steady next
    exact ⟨(advance_turn order next).1, keyed_advance keyed next,
      indexed.advance order keyed steady next⟩
  obtain ⟨-, -, indexed⟩ := reached
  constructor
  · intro e has
    obtain there | owing := indexed.found e has
    · exact there
    · rw [(settled e).1] at owing
      cases owing
  · intro key e there
    obtain has | swept := indexed.live key e there
    · exact has
    · rw [(settled e).2] at swept
      cases swept

/-- A device is heard of, its session goes stale, and it is heard of again. -/
def orderlyEvents : List Event :=
  [.arrive phoneBeacon] ++ stepsAt 0 8 ++ [.arrive .offlinePass] ++
    List.replicate 5 (.step 1 late) ++ [.arrive phoneBeacon] ++ stepsAt 2 8

def orderlySession : Session :=
  (play advance (Steady fun _ => "f") (boot ∅) orderlyEvents).getD (boot ∅)

theorem heard_again_indexed :
    present orderlySession.world.devices ⟨"f", "beacon:1"⟩ = true ∧
      Coherent orderlySession.world := by
  have run : Reaches advance (Steady fun _ => "f") (boot ∅) orderlySession :=
    reaches_of_play (by rfl : play advance (Steady fun _ => "f") _ orderlyEvents =
      some orderlySession)
  exact ⟨by decide +kernel, session_index_coherent run (settled_of_idle (by decide +kernel))⟩

/-- The device is heard of again between the two writes of the pass that takes out its session. -/
def overtakenEvents : List Event :=
  [.arrive phoneBeacon] ++ stepsAt 0 8 ++ [.arrive .offlinePass] ++
    List.replicate 2 (.step 1 late) ++ [.arrive phoneBeacon] ++ List.replicate 8 (.step 2 late) ++
    List.replicate 3 (.step 1 late)

def overtakenSession : Session := (play advance anyStep (boot ∅) overtakenEvents).getD (boot ∅)

theorem live_session_loses_entry :
    Reaches advance anyStep (boot ∅) overtakenSession ∧ idle overtakenSession = true ∧
      (∀ e ∈ allSessions overtakenSession.world.devices, e.fingerprint = "f") ∧
      ¬ Coherent overtakenSession.world := by
  have run : Reaches advance anyStep (boot ∅) overtakenSession :=
    reaches_of_play (by rfl : play advance anyStep _ overtakenEvents = some overtakenSession)
  have there : present overtakenSession.world.devices ⟨"f", "beacon:1"⟩ = true := by
    decide +kernel
  have missing : overtakenSession.world.sessionIndex.lookup "beacon:1" = none := by
    decide +kernel
  refine ⟨run, by decide +kernel, by decide +kernel, fun coherent => ?_⟩
  have found := coherent.indexed _ there
  rw [missing] at found
  cases found

end DashDrop.Discovery.SessionIndex
