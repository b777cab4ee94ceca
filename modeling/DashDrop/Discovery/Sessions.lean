/- GID: DashDrop/Discovery/Sessions
   source: src-tauri/src/discovery/browser.rs, src-tauri/src/discovery/beacon.rs,
     src-tauri/src/core_service.rs
   anchors: []
   digest: Runs of the process from its start, and the second writes that its tasks still owe. -/

import DashDrop.Foundation.Discipline
import DashDrop.Discovery.Jobs

set_option autoImplicit false
set_option relaxedAutoImplicit false

namespace DashDrop.Discovery.Sessions

open DashDrop.Foundation.Program DashDrop.Foundation.Interleaving DashDrop.Foundation.Discipline
open DashDrop.Foundation.Maps
open DashDrop.Foundation.Leases (lookup_retain)
open DashDrop.Trust.Storage (PeerMap)
open DashDrop.Discovery.Devices DashDrop.Discovery.Jobs

/-- The process with the tasks that it has begun. -/
abbrev Session := Pool DiscoveryOp DiscoveryOp.Resp World Unit

/-- The process at its start, with the trusted peers that it has loaded. -/
def boot (trustedPeers : PeerMap) : Session where
  world :=
    { devices := ∅
      sessionIndex := ∅
      pendingRemovedSessions := ∅
      trustedPeers := trustedPeers
      eventCounts := ∅
      failureCounts := ∅
      visibleSince := ∅
      securityEvents := []
      emitted := []
      spawned := [] }
  threads := []

def isExternal : Job → Bool
  | .probe _ _ | .deferredRemoval _ _ _ => false
  | _ => true

/-- A job comes in, a spawned one begins, or a task makes its next step. -/
inductive Event where
  | arrive (job : Job)
  | start (k : ℕ)
  | step (i : ℕ) (answer : Ans)

def Session.begin (s : Session) (spawned : List Job) (job : Job) : Session :=
  ⟨{ s.world with spawned := spawned }, s.threads ++ [job.prog]⟩

def advance (s : Session) : Event → Option Session
  | .arrive job => if isExternal job then some (Session.begin s s.world.spawned job) else none
  | .start k => s.world.spawned[k]?.map fun job =>
      Session.begin s (s.world.spawned.eraseIdx k) job
  | .step i answer => s.step exec i answer

def next? {α : Type} : Code α → Option DiscoveryOp
  | .op o _ => some o
  | .pure _ => none

/-- What task `i` does next. -/
def operation (s : Session) (i : ℕ) : Option DiscoveryOp := s.threads[i]?.bind next?

theorem advance_cases {s t : Session} {e : Event} (h : advance s e = some t) :
    (∃ spawned job, t = Session.begin s spawned job) ∨
      ∃ (i : ℕ) (x : Ans) (o : DiscoveryOp) (k : o.Resp → Code Unit) (w : World) (r : o.Resp),
        e = .step i x ∧ s.threads[i]? = some (.op o k) ∧ exec i o x s.world = some (w, r) ∧
          t = ⟨w, s.threads.set i (k r)⟩ := by
  cases e with
  | arrive job =>
    simp only [advance] at h
    split_ifs at h
    cases h
    exact .inl ⟨_, job, rfl⟩
  | start k =>
    obtain ⟨job, -, rfl⟩ := Option.map_eq_some_iff.mp h
    exact .inl ⟨_, job, rfl⟩
  | step i x =>
    simp only [advance, Pool.step] at h
    split at h
    · rename_i o k here
      obtain ⟨⟨w, r⟩, done, rfl⟩ := Option.map_eq_some_iff.mp h
      exact .inr ⟨i, x, o, k, w, r, rfl, here, done, rfl⟩
    · cases h

inductive Due where
  | nothing
  | trust (fp : String)
  | unmark (fp : String)
  | index (entry : SessionIndexEntry)
  | sweep (pruned : Pruned)
  deriving DecidableEq

def owed : Option DiscoveryOp → Due
  | some (.addTrust fp _) => .trust fp
  | some (.unmark fp) => .unmark fp
  | some (.indexSession entry _) => .index entry
  | some (.sweepIndex pruned) => .sweep pruned
  | _ => .nothing

def incurred : (o : DiscoveryOp) → o.Resp → Due
  | .markTrusted fp, _ => .trust fp
  | .removeTrust fp, found => if found then .unmark fp else .nothing
  | .announce fp a, _ => .index ⟨fp, a.sessionId⟩
  | .prune _, pruned =>
      if !pruned.pairs.isEmpty || !pruned.lost.isEmpty then .sweep pruned else .nothing
  | _, _ => .nothing

def ordered : Automaton DiscoveryOp DiscoveryOp.Resp Due := fun due o r =>
  if due = owed (some o) then some (incurred o r) else none

/-- Every second write follows its first one at once. -/
def InOrder (due : Due) (x : Code Unit) : Prop := Obeys ordered due x fun due _ => due = .nothing

/-- Operations that are neither of two writes, nor the question of a flag or its write. -/
def single : DiscoveryOp → Bool
  | .markTrusted _ | .addTrust _ _ | .removeTrust _ | .unmark _ | .announce _ _
  | .indexSession _ _ | .prune _ | .sweepIndex _ | .isTrusted _ | .connectDevice _ _ _ => false
  | _ => true

theorem ordered_single {o : DiscoveryOp} (h : single o = true) (r : o.Resp) :
    ordered .nothing o r = some .nothing := by
  cases o <;> simp_all [single, ordered, owed, incurred]

def Singles {α : Type} (x : Code α) : Prop := x.Within (fun o => single o = true) fun _ => True

theorem Singles.obeys {α : Type} {x : Code α} (h : Singles x) :
    Obeys ordered .nothing x fun due _ => due = .nothing :=
  (Obeys.stay h fun _ one r => ordered_single one r).mono fun _ _ ends => ends.1

theorem Singles.bind {α β : Type} {x : Code α} {f : α → Code β} (h : Singles x)
    (rest : ∀ a, Singles (f a)) : Singles (x.bind f) :=
  Prog.Within.bind h fun a _ => rest a

theorem singles_op {α : Type} {o : DiscoveryOp} {k : o.Resp → Code α} (h : single o = true)
    (rest : ∀ r, Singles (k r)) : Singles (.op o k) :=
  ⟨h, rest⟩

theorem singles_pure {α : Type} (a : α) : Singles (.pure a) := trivial

theorem singles_ask {o : DiscoveryOp} (h : single o = true) : Singles (ask o) :=
  singles_op h singles_pure

theorem resolveHostnameWithMdns_singles (hostname : String) (port : UInt16) :
    Singles (resolveHostnameWithMdns hostname port) := by
  apply singles_op rfl
  intro reply
  cases reply with
  | noDaemon => exact singles_pure _
  | startFailed => exact singles_op rfl fun _ => singles_pure _
  | found ips joinError =>
    cases joinError with
    | true =>
      apply singles_op rfl
      intro _
      dsimp only
      split_ifs
      · exact singles_op rfl fun _ => singles_pure _
      · exact singles_pure _
    | false =>
      simp only [ret_bind, Bool.false_eq_true, if_false]
      split_ifs
      · exact singles_op rfl fun _ => singles_pure _
      · exact singles_pure _

theorem resolveHostnameWithSystemDns_singles (hostname : String) (port : UInt16) :
    Singles (resolveHostnameWithSystemDns hostname port) := by
  apply singles_op rfl
  intro reply
  cases reply with
  | error e => exact singles_pure _
  | ok extra => exact singles_pure _

theorem resolveAddrs_singles (hostname : String) (port : UInt16) :
    Singles (resolveAddrs hostname port) := by
  apply singles_op rfl
  intro _
  apply (resolveHostnameWithMdns_singles hostname port).bind
  intro addrs
  split_ifs
  · apply (resolveHostnameWithSystemDns_singles hostname port).bind
    intro found
    split_ifs
    · exact singles_op rfl fun _ => singles_pure _
    · exact singles_op rfl fun _ => singles_pure _
  · exact singles_pure _

theorem handleRemoved_singles (key : String) : Singles (handleRemoved key) := by
  apply singles_op rfl
  intro entry
  cases entry with
  | none => exact singles_ask rfl
  | some entry =>
    apply singles_op rfl
    intro observed
    cases observed with
    | none => exact singles_ask rfl
    | some observedLastSeen =>
      apply singles_op rfl
      intro due
      cases due with
      | true => exact singles_op rfl fun _ => singles_ask rfl
      | false => exact singles_ask rfl

theorem runDeferredRemoval_singles (fp sessionId : String) (observedLastSeen : ℕ) :
    Singles (runDeferredRemoval fp sessionId observedLastSeen) := by
  apply singles_op rfl
  intro nowUnix
  apply singles_op rfl
  rintro ⟨removed, refreshed⟩
  cases removed with
  | none => exact singles_op rfl fun _ => singles_ask rfl
  | some removed =>
    obtain ⟨changedFp, gone, updated⟩ := removed
    apply singles_op rfl
    intro _
    cases gone with
    | true => exact singles_op rfl fun _ => singles_ask rfl
    | false =>
      cases updated with
      | none => exact singles_ask rfl
      | some device => exact singles_op rfl fun _ => singles_ask rfl

theorem emitAll_singles (events : List HostEvent) : Singles (emitAll events) := by
  induction events with
  | nil => exact singles_pure _
  | cons event rest ih => exact singles_op rfl fun _ => ih

theorem probeAddrs_singles (addrs : List SocketAddr) (report : ProbeReport) :
    Singles (probeAddrs addrs report) := by
  induction addrs generalizing report with
  | nil => exact singles_pure _
  | cons addr rest ih =>
    apply singles_op rfl
    intro outcome
    cases outcome with
    | ok _ => exact singles_pure _
    | error detail => exact singles_op rfl fun _ => ih _

theorem spawnedProbe_singles (fp : String) (addrs : List SocketAddr) :
    Singles (spawnedProbe fp addrs) := by
  unfold spawnedProbe
  split_ifs
  · exact singles_pure _
  · apply singles_op rfl
    intro nowUnix
    apply (probeAddrs_singles _ _).bind
    intro report
    apply singles_op rfl
    intro device
    cases device with
    | none => exact singles_pure _
    | some device =>
      dsimp only
      split_ifs
      · exact singles_op rfl fun _ => singles_ask rfl
      · exact singles_ask rfl

theorem dialFirst_singles (addrs : List SocketAddr) (errors : List String) :
    Singles (dialFirst addrs errors) := by
  induction addrs generalizing errors with
  | nil => exact singles_pure _
  | cons addr rest ih =>
    apply singles_op rfl
    intro outcome
    cases outcome with
    | ok _ => exact singles_pure _
    | error e => exact ih _

theorem inOrder_op {o : DiscoveryOp} {k : o.Resp → Code Unit} {due : Due}
    (h : due = owed (some o)) (rest : ∀ r, InOrder (incurred o r) (k r)) :
    InOrder due (.op o k) := by
  intro r
  exact ⟨incurred o r, by simp [ordered, h], rest r⟩

theorem enterConnected_inOrder (fp : String) (addr : SocketAddr)
    {rest : Except String ConnectByAddressResult → Code Unit}
    (plain : ∀ result, Singles (rest result)) :
    InOrder .nothing ((enterConnected fp addr).bind rest) := by
  apply inOrder_op rfl
  intro trusted
  apply inOrder_op rfl
  rintro ⟨isNew, device⟩
  exact (singles_op rfl fun _ => plain _).obeys

/-- What `connect_by_address` does before it asks for the flag, and how it ends without. -/
theorem connectByAddress_obeys {σ : Type} {next : Automaton DiscoveryOp DiscoveryOp.Resp σ}
    {start : σ} {fin : σ → Unit → Prop} (address : String)
    (calm : ∀ {α : Type} {x : Code α}, Singles x → Obeys next start x fun c _ => c = start)
    (ends : ∀ a, fin start a)
    (enter : ∀ fp addr, Obeys next start ((enterConnected fp addr).bind fun _ => .pure ()) fin) :
    Obeys next start (Job.prog (.connect address)) fin := by
  have done {x : Code Unit} (h : Singles x) : Obeys next start x fin :=
    (calm h).mono fun c a same => same ▸ ends a
  show Obeys next start ((connectByAddress address).bind fun _ => .pure ()) fin
  unfold connectByAddress
  have asked {α : Type} {o : DiscoveryOp} {f : o.Resp → Code α} {last : σ → α → Prop}
      (one : single o = true) (rest : ∀ r, Obeys next start (f r) last) :
      Obeys next start ((ask o).bind f) last := by
    refine (calm (singles_ask one)).bind ?_
    rintro c r rfl
    exact rest r
  simp only [bind_def, bind_assoc]
  apply asked rfl
  intro resolved
  cases resolved with
  | error e => exact done (singles_pure _)
  | ok resolved =>
    dsimp only
    split_ifs
    · exact done (singles_pure _)
    · simp only [bind_assoc]
      refine (calm (dialFirst_singles resolved [])).bind ?_
      rintro _ reached rfl
      cases reached with
      | error errors => exact done (singles_pure _)
      | ok addr =>
        simp only [bind_assoc]
        apply asked rfl
        intro peer
        cases peer with
        | error e => exact done (singles_pure _)
        | ok fp =>
          simp only [bind_assoc]
          apply asked rfl
          intro answered
          cases answered with
          | error e =>
            simp only [bind_assoc]
            exact asked rfl fun _ => done (singles_pure _)
          | ok _ => exact enter fp addr

theorem enterDevice_inOrder (fp : String) (announcement : Bool → ℕ → Announcement)
    (fullname : Option String) : InOrder .nothing (enterDevice fp announcement fullname) := by
  apply inOrder_op rfl
  intro trusted
  apply inOrder_op rfl
  intro nowUnix
  apply inOrder_op rfl
  rintro ⟨isNew, device⟩
  apply inOrder_op rfl
  intro _
  exact (singles_op rfl fun _ => singles_op rfl fun _ => singles_ask rfl).obeys

theorem enterResolved_inOrder (info : ServiceInfo) (fp : String) (addrs : List SocketAddr) :
    InOrder .nothing (enterResolved info fp addrs) := by
  unfold enterResolved
  dsimp only
  split_ifs
  · exact inOrder_op rfl fun _ => enterDevice_inOrder fp _ _
  · exact enterDevice_inOrder fp _ _

theorem handleResolved_inOrder (ownFp : String) (info : ServiceInfo) :
    InOrder .nothing (handleResolved ownFp info) := by
  unfold handleResolved
  split
  · exact (singles_ask rfl).obeys
  · split_ifs
    · exact (singles_ask rfl).obeys
    · exact (singles_ask rfl).obeys
    · dsimp only
      split_ifs
      · apply (resolveAddrs_singles _ _).obeys.bind
        intro due found nothing
        subst nothing
        exact enterResolved_inOrder info _ found
      · exact enterResolved_inOrder info _ _

theorem receiveBeacon_inOrder (ownFp : String) (packet : BeaconPacket) (source : IpAddr) :
    InOrder .nothing (receiveBeacon ownFp packet source) := by
  unfold receiveBeacon
  dsimp only
  split_ifs
  · exact (singles_pure _).obeys
  · exact (singles_ask rfl).obeys
  · exact (singles_ask rfl).obeys
  · exact inOrder_op rfl fun _ => enterDevice_inOrder _ _ _

theorem tellPruned_singles (pruned : Pruned) : Singles (tellPruned pruned) := by
  apply (emitAll_singles _).bind
  intro _
  apply (emitAll_singles _).bind
  intro _
  split_ifs
  · exact singles_ask rfl
  · exact singles_pure _

theorem offlineTurn_inOrder : InOrder .nothing offlineTurn := by
  apply inOrder_op rfl
  intro nowUnix
  apply inOrder_op rfl
  intro pruned
  simp only [incurred, ret_bind]
  split_ifs
  · exact inOrder_op rfl fun _ => (tellPruned_singles pruned).obeys
  · exact (tellPruned_singles pruned).obeys

theorem pairDevice_inOrder (fp : String) : InOrder .nothing (Job.prog (.pair fp)) := by
  apply inOrder_op rfl
  intro name
  apply inOrder_op rfl
  intro _
  apply inOrder_op rfl
  intro saved
  cases saved with
  | error e => exact (singles_pure _).obeys
  | ok _ => exact (singles_op rfl fun _ => singles_op rfl fun _ => singles_pure _).obeys

theorem unpairDevice_inOrder (fp : String) : InOrder .nothing (Job.prog (.unpair fp)) := by
  apply inOrder_op rfl
  intro found
  cases found with
  | false => exact (singles_pure _).obeys
  | true =>
    apply inOrder_op rfl
    intro _
    apply inOrder_op rfl
    intro saved
    cases saved with
    | error e => exact (singles_pure _).obeys
    | ok _ => exact (singles_op rfl fun _ => singles_pure _).obeys

theorem job_inOrder (job : Job) : InOrder .nothing job.prog := by
  cases job with
  | resolved ownFp info => exact handleResolved_inOrder ownFp info
  | beacon ownFp packet source => exact receiveBeacon_inOrder ownFp packet source
  | removed fullname => exact (handleRemoved_singles fullname).obeys
  | offlinePass => exact offlineTurn_inOrder
  | connect address =>
    apply connectByAddress_obeys address Singles.obeys (fun _ => rfl)
    exact fun fp addr => enterConnected_inOrder fp addr fun _ => singles_pure _
  | pair fp => exact pairDevice_inOrder fp
  | unpair fp => exact unpairDevice_inOrder fp
  | probe fp addrs => exact (spawnedProbe_singles fp addrs).obeys
  | deferredRemoval fp sessionId observedLastSeen =>
    exact (runDeferredRemoval_singles fp sessionId observedLastSeen).obeys

def owes (s : Session) (i : ℕ) : Due := owed (operation s i)

theorem nonempty_resp (o : DiscoveryOp) : Nonempty o.Resp := by
  cases o <;> first
    | exact ⟨()⟩
    | exact ⟨.noDaemon⟩
    | exact ⟨.ok []⟩
    | exact ⟨.ok ()⟩
    | exact ⟨.ok ""⟩
    | exact ⟨true⟩
    | exact ⟨none⟩
    | exact ⟨(0 : ℕ)⟩
    | exact ⟨("" : String)⟩
    | exact ⟨(none, false)⟩
    | exact ⟨⟨[], [], []⟩⟩
    | exact ⟨(true, announcedDevice "" ⟨"", .unknown, true, "", [], 0, 0, 0, "", 0⟩)⟩

theorem InOrder.owed_eq {due : Due} {x : Code Unit} (h : InOrder due x) :
    owed (next? x) = due := by
  cases x with
  | pure a => exact h.symm
  | op o k =>
    obtain ⟨r⟩ := nonempty_resp o
    obtain ⟨due', moved, -⟩ := h r
    simp only [ordered] at moved
    split_ifs at moved with same
    exact same.symm

def owing (s : Session) (due : Due) : Bool := s.threads.any fun x => owed (next? x) = due

theorem owing_of_owes {s : Session} {due : Due} {i : ℕ} (h : owes s i = due)
    (ne : due ≠ .nothing) : owing s due = true := by
  unfold owes operation at h
  cases here : s.threads[i]? with
  | none =>
    rw [here] at h
    exact absurd h.symm ne
  | some x =>
    rw [here] at h
    exact List.any_eq_true.mpr ⟨x, List.mem_of_getElem? here, by simpa using h⟩

theorem exists_owes {s : Session} {due : Due} (h : owing s due = true) : ∃ i, owes s i = due := by
  obtain ⟨x, mem, is⟩ := List.any_eq_true.mp h
  obtain ⟨i, here⟩ := List.mem_iff_getElem?.mp mem
  exact ⟨i, by simpa [owes, operation, here] using is⟩

def idle (s : Session) : Bool := s.threads.all fun x => (next? x).isNone

theorem owes_of_idle {s : Session} (h : idle s = true) (i : ℕ) : owes s i = .nothing := by
  unfold owes operation
  cases here : s.threads[i]? with
  | none => rfl
  | some x =>
    have returned := List.all_eq_true.mp h x (List.mem_of_getElem? here)
    simp only [Option.isNone_iff_eq_none] at returned
    simp [returned, owed]

def Ordered (s : Session) : Prop := ∀ i x, s.threads[i]? = some x → InOrder (owes s i) x

theorem ordered_boot (trustedPeers : PeerMap) : Ordered (boot trustedPeers) := by
  intro i x here
  simp [boot] at here

/-- A step of task `i`, in which it performs `o`. -/
structure Turn (s t : Session) (i : ℕ) (x : Ans) (o : DiscoveryOp) (r : o.Resp) : Prop where
  operation : operation s i = some o
  done : exec i o x s.world = some (t.world, r)
  own : owes t i = incurred o r
  others : ∀ j, j ≠ i → owes t j = owes s j

theorem advance_turn {s t : Session} {e : Event} (order : Ordered s) (h : advance s e = some t) :
    Ordered t ∧
      (((∃ spawned, t.world = { s.world with spawned := spawned }) ∧ ∀ j, owes t j = owes s j) ∨
        ∃ i x o r, e = .step i x ∧ Turn s t i x o r) := by
  obtain ⟨spawned, job, rfl⟩ | ⟨i, x, o, k, w, r, rfl, here, done, rfl⟩ := advance_cases h
  · have owes_eq (j : ℕ) : owes (Session.begin s spawned job) j = owes s j := by
      obtain inside | last | beyond := lt_trichotomy j s.threads.length
      · simp [owes, operation, Session.begin, List.getElem?_append_left inside]
      · subst last
        have fresh := (job_inOrder job).owed_eq
        have before : owes s s.threads.length = .nothing := by simp [owes, operation, owed]
        rw [before]
        simpa [owes, operation, Session.begin] using fresh
      · have out : (s.threads ++ [job.prog])[j]? = none := by
          simp only [List.getElem?_eq_none_iff, List.length_append, List.length_singleton]
          omega
        simp [owes, operation, Session.begin, out, beyond.le]
    refine ⟨?_, .inl ⟨⟨spawned, rfl⟩, owes_eq⟩⟩
    intro j y there
    rw [owes_eq]
    by_cases inside : j < s.threads.length
    · rw [Session.begin, List.getElem?_append_left inside] at there
      exact order j y there
    · have known : (s.threads ++ [job.prog])[j]? = some y := there
      rw [List.getElem?_append_right (by omega)] at known
      have last : j - s.threads.length = 0 := by
        by_contra later
        simp [later] at known
      rw [last] at known
      cases known
      have absent : s.threads[j]? = none := by simpa using inside
      simp only [owes, operation, absent]
      exact job_inOrder job
  · have inside := (List.getElem?_eq_some_iff.mp here).1
    obtain ⟨due, moved, rest⟩ := order i _ here r
    have own : owes ⟨w, s.threads.set i (k r)⟩ i = due := by
      simpa [owes, operation, inside] using InOrder.owed_eq rest
    have others (j : ℕ) (ne : j ≠ i) : owes ⟨w, s.threads.set i (k r)⟩ j = owes s j := by
      simp [owes, operation, List.getElem?_set_ne (Ne.symm ne)]
    have incurs : incurred o r = due := by
      simp only [ordered] at moved
      split_ifs at moved with same
      exact Option.some.inj moved
    refine ⟨?_, .inr ⟨i, x, o, r, rfl, ⟨by simp [operation, here, next?], done,
      own.trans incurs.symm, others⟩⟩⟩
    intro j y there
    by_cases same : j = i
    · subst same
      rw [own]
      simp only [List.getElem?_set, inside] at there
      cases Option.some.inj there
      exact rest
    · rw [others j same]
      rw [List.getElem?_set_ne (Ne.symm same)] at there
      exact order j y there

theorem Turn.owes_eq {s t : Session} {i : ℕ} {x : Ans} {o : DiscoveryOp} {r : o.Resp}
    (h : Turn s t i x o r) : owes s i = owed (some o) := by
  rw [owes, h.operation]

theorem Turn.still_owing {s t : Session} {i : ℕ} {x : Ans} {o : DiscoveryOp} {r : o.Resp}
    (h : Turn s t i x o r) {due : Due} (was : owing s due = true) (ne : due ≠ .nothing)
    (other : owed (some o) ≠ due) : owing t due = true := by
  obtain ⟨j, owes⟩ := exists_owes was
  have elsewhere : j ≠ i := by
    rintro rfl
    exact other (h.owes_eq.symm.trans owes)
  exact owing_of_owes ((h.others j elsewhere).trans owes) ne

theorem Turn.was_owing {s t : Session} {i : ℕ} {x : Ans} {o : DiscoveryOp} {r : o.Resp}
    (h : Turn s t i x o r) {due : Due} (now : owing t due = true) (ne : due ≠ .nothing)
    (other : incurred o r ≠ due) : owing s due = true := by
  obtain ⟨j, owes⟩ := exists_owes now
  have elsewhere : j ≠ i := by
    rintro rfl
    exact other (h.own.symm.trans owes)
  exact owing_of_owes ((h.others j elsewhere).symm.trans owes) ne

def aside : DiscoveryOp → Bool
  | .announce _ _ | .indexSession _ _ | .applyRemoval _ _ _ _ | .prune _ | .sweepIndex _
  | .recordProbe _ _ _ _ | .connectDevice _ _ _ | .markTrusted _ | .addTrust _ _ | .removeTrust _
  | .unmark _ => false
  | _ => true

theorem exec_aside {i : ℕ} {o : DiscoveryOp} {x : Ans} {w w' : World} {r : o.Resp}
    (h : aside o = true) (done : exec i o x w = some (w', r)) :
    w'.devices = w.devices ∧ w'.sessionIndex = w.sessionIndex ∧
      w'.trustedPeers = w.trustedPeers := by
  cases o <;> first
    | (cases done; exact ⟨rfl, rfl, rfl⟩)
    | cases h

section AllDevices

variable {P : String → DeviceInfo → Prop}

def All (P : String → DeviceInfo → Prop) (devices : DeviceMap) : Prop :=
  ∀ fp d, devices.lookup fp = some d → P fp d

structure Kept (P : String → DeviceInfo → Prop) : Prop where
  announced : ∀ fp a instant, P fp (refreshDevice a instant (announcedDevice fp a))
  refreshed : ∀ fp a instant d, P fp d → P fp (refreshDevice a instant d)
  connected : ∀ fp addr trusted nowUnix instant,
    P fp (reachDevice addr trusted nowUnix instant (manualDevice fp addr trusted nowUnix))
  reached : ∀ fp addr trusted nowUnix instant d, P fp d →
    P fp (reachDevice addr trusted nowUnix instant d)
  dropped : ∀ fp sessionId d, P fp d → P fp (dropSession sessionId d)
  pruned : ∀ fp nowUnix instant d, P fp d → P fp (markOffline nowUnix (dropStale instant d))
  flagged : ∀ fp flag d, P fp d → P fp (setTrusted flag d)

theorem All.insert {devices : DeviceMap} (h : All P devices) {fp : String} {entry : DeviceInfo}
    (holds : P fp entry) : All P (devices.insert fp entry) := by
  intro other d found
  rw [lookup_insert_ite] at found
  split_ifs at found with same
  · cases found
    rw [same]
    exact holds
  · exact h other d found

theorem All.modify {devices : DeviceMap} (h : All P devices) {fp : String}
    {f : DeviceInfo → DeviceInfo}
    (keeps : ∀ d, devices.lookup fp = some d → P fp d → P fp (f d)) :
    All P (modify fp f devices) := by
  intro other d found
  obtain ⟨old, known, rfl | ⟨rfl, rfl⟩⟩ := lookup_modify_cases found
  · exact h other d known
  · exact keeps old known (h other old known)

/-- The removal leaves everything alone, or takes out a session that the index has an entry of. -/
theorem applyRemoval_cases (fp sessionId : String) (observed nowUnix : ℕ) (index : SessionIndex)
    (devices : DeviceMap) :
    ((applyRemoval fp sessionId observed nowUnix index devices).1 = index ∧
        (applyRemoval fp sessionId observed nowUnix index devices).2.1 = devices) ∨
      ∃ entry, findEntry sessionId index = some entry ∧
        (applyRemoval fp sessionId observed nowUnix index devices).1 =
          Foundation.Leases.retain (fun v => v.sessionId ≠ entry.sessionId) index ∧
        (applyRemoval fp sessionId observed nowUnix index devices).2.1 =
          Foundation.Maps.modify entry.fingerprint (dropSession entry.sessionId) devices := by
  unfold applyRemoval
  split
  · exact .inl ⟨rfl, rfl⟩
  · dsimp only
    split_ifs
    · dsimp only
      unfold removeSessionFromState
      cases found : findEntry sessionId index with
      | none => exact .inl ⟨rfl, rfl⟩
      | some entry => exact .inr ⟨entry, rfl, rfl, rfl⟩
    · exact .inl ⟨rfl, rfl⟩

theorem lookup_prune {nowUnix instant : ℕ} {devices : DeviceMap} {fp : String} {d : DeviceInfo}
    (found : (prune nowUnix instant devices).1.lookup fp = some d) :
    ∃ old, devices.lookup fp = some old ∧ d = markOffline nowUnix (dropStale instant old) := by
  simp only [prune, lookup_retain, lookup_mapValues, Option.filter_eq_some_iff,
    Option.map_eq_some_iff] at found
  obtain ⟨⟨old, known, rfl⟩, -⟩ := found
  exact ⟨old, known, rfl⟩

theorem Kept.advance (h : Kept P) {s t : Session} (all : All P s.world.devices) {e : Event}
    (next : advance s e = some t)
    (probes : ∀ i x fp nowUnix attempted report d, e = .step i x →
      operation s i = some (.recordProbe fp nowUnix attempted report) →
      s.world.devices.lookup fp = some d → P fp d → P fp (recordProbe nowUnix attempted report d)) :
    All P t.world.devices := by
  obtain ⟨spawned, job, rfl⟩ | ⟨i, x, o, k, w, r, rfl, here, done, rfl⟩ := advance_cases next
  · exact all
  · have asks : operation s i = some o := by simp [operation, here, next?]
    cases o with
    | announce fp a =>
      cases done
      apply all.insert
      cases known : s.world.devices.lookup fp with
      | none => exact h.announced fp a x.instant
      | some d => exact h.refreshed fp a x.instant d (all fp d known)
    | connectDevice fp addr trusted =>
      cases done
      apply all.insert
      cases known : s.world.devices.lookup fp with
      | none => exact h.connected fp addr trusted x.nowUnix x.instant
      | some d => exact h.reached fp addr trusted x.nowUnix x.instant d (all fp d known)
    | applyRemoval fp sessionId observed nowUnix =>
      cases done
      dsimp only
      obtain ⟨-, devices⟩ | ⟨entry, -, -, devices⟩ :=
        applyRemoval_cases fp sessionId observed nowUnix s.world.sessionIndex s.world.devices
      · rw [devices]
        exact all
      · rw [devices]
        exact all.modify fun d _ => h.dropped _ _ d
    | prune nowUnix =>
      cases done
      intro fp d found
      obtain ⟨old, known, rfl⟩ := lookup_prune found
      exact h.pruned fp nowUnix x.instant old (all fp old known)
    | recordProbe fp nowUnix attempted report =>
      cases done
      exact all.modify fun d known => probes i x fp nowUnix attempted report d rfl asks known
    | markTrusted fp =>
      cases done
      exact all.modify fun d _ => h.flagged fp true d
    | unmark fp =>
      cases done
      exact all.modify fun d _ => h.flagged fp false d
    | _ =>
      cases done
      exact all

end AllDevices

@[simp] theorem dropStale_fingerprint (instant : ℕ) (d : DeviceInfo) :
    (dropStale instant d).fingerprint = d.fingerprint := by
  unfold dropStale
  split_ifs <;> rfl

@[simp] theorem markOffline_fingerprint (nowUnix : ℕ) (d : DeviceInfo) :
    (markOffline nowUnix d).fingerprint = d.fingerprint := by
  unfold markOffline
  split_ifs <;> rfl

@[simp] theorem recordProbe_fingerprint (nowUnix : ℕ) (attempted : List String)
    (report : ProbeReport) (d : DeviceInfo) :
    (recordProbe nowUnix attempted report d).fingerprint = d.fingerprint := by
  unfold recordProbe
  dsimp only
  split_ifs <;> rfl

/-- Devices are filed under their fingerprints. -/
abbrev Keyed (devices : DeviceMap) : Prop := All (fun fp d => d.fingerprint = fp) devices

theorem kept_fingerprint : Kept fun fp d => d.fingerprint = fp where
  announced := fun _ _ _ => rfl
  refreshed := fun _ _ _ _ named => named
  connected := fun _ _ _ _ _ => rfl
  reached := fun _ _ _ _ _ _ named => named
  dropped := fun _ _ _ named => named
  pruned := fun _ _ _ _ named => by simpa using named
  flagged := fun _ _ _ named => named

theorem keyed_boot (trustedPeers : PeerMap) : Keyed (boot trustedPeers).world.devices := by
  intro fp d found
  simp [boot] at found

theorem keyed_advance {s t : Session} (h : Keyed s.world.devices) {e : Event}
    (next : advance s e = some t) : Keyed t.world.devices := by
  apply kept_fingerprint.advance h next
  intro i x fp nowUnix attempted report d _ _ _ named
  simpa using named

def phonePacket : BeaconPacket :=
  ⟨beaconKind, "f", "Phone", "Android", 53317, "1", 0⟩

def phoneBeacon : Job := .beacon "me" phonePacket (.v4 192 168 1 5)

def fine : Ans := ⟨7000, 0, .noDaemon, .ok [], .ok "", .ok ()⟩

def late : Ans := { fine with instant := 90 * 10 ^ 9 }

def stepsAt (i steps : ℕ) : List Event := List.replicate steps (.step i fine)

end DashDrop.Discovery.Sessions
