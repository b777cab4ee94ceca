/- GID: DashDrop/Runtime/IdleExit
   source: src-tauri/src/lib.rs, src-tauri/src/state.rs
   anchors: []
   digest: The headless daemon exits after a period without grants in force and open transfers. -/

import DashDrop.Foundation.QuietPeriods
import DashDrop.Ipc.Authorization

set_option autoImplicit false
set_option relaxedAutoImplicit false

namespace DashDrop.Runtime.IdleExit

open DashDrop.Foundation.Json DashDrop.Foundation.Leases DashDrop.Foundation.QuietPeriods
open DashDrop.Runtime.State
open DashDrop.Ipc.Commands DashDrop.Ipc.Dispatch DashDrop.Ipc.Authorization

/-- What one tick of the monitor reads off the clocks once it has counted, in nanoseconds but for
the wall clock. -/
structure Clock where
  started : ℕ
  measured : ℕ
  nowUnixMillis : ℕ
  checked : ℕ
  ordered : started ≤ measured ∧ measured ≤ checked

/-- The arguments of `set_daemon_idle_monitor_state`. -/
structure DaemonIdleMonitorState where
  enabled : Bool
  timeoutSecs : Option ℕ
  deadlineUnixMs : Option ℕ
  blockers : List String
  deriving DecidableEq

/-- The daemon and its monitor, which keeps the count of grants while it waits to count the
transfers. -/
structure Headless (S : Type) where
  daemon : Daemon S
  activeAccessGrants : Option ℕ
  idleStartedAt : Option ℕ
  monitor : DaemonIdleMonitorState
  daemonStatus : String
  runtimeEvents : List (String × Value)
  exited : Bool

def blocker (name : String) (count : ℕ) : List String :=
  if count > 0 then [name ++ ":" ++ toString count] else []

def headlessIdleBlockers (activeAccessGrants : ℕ) (transfers : List TransferTask) : List String :=
  let count (status : TransferStatus) := transfers.countP fun transfer => transfer.status = status
  blocker "local_ipc_access_grants" activeAccessGrants ++
    blocker "draft_transfers" (count .draft) ++
    blocker "pending_accept_transfers" (count .pendingAccept) ++
    blocker "active_transfers" (count .transferring)

def timeoutNanos (timeoutSecs : ℕ) : ℕ := 1000000000 * timeoutSecs

/-- A step of a request, of another task, or of the monitor. -/
inductive Step (S : Type) where
  | request (call : Call)
  | elsewhere (change : S → S)
  | countGrants (now : ℕ)
  | countTransfers (clock : Clock)

/-- A look with what was so at it: the turns of the daemon when the grants were counted and the
transfers when they were. -/
structure Look where
  now : ℕ
  record : List Entry
  transfers : List TransferTask
  blockers : List String
  clock : Clock

def meter : Meter Look where
  began look := look.clock.started
  checked look := look.clock.checked
  quiet look := look.blockers.isEmpty

section Monitor

variable {Config Capsule S : Type} (serde : FromValue Config Capsule)
  (service : Service Config Capsule S) (currentUid : ℕ) (transfers : S → List TransferTask)
  (timeoutSecs : ℕ)

/-- `idle_started_at.get_or_insert_with(Instant::now)` -/
def Headless.idleStarted (h : Headless S) (clock : Clock) : ℕ := h.idleStartedAt.getD clock.started

def deadlineUnixMs (clock : Clock) (idleStarted : ℕ) : ℕ :=
  let remaining := timeoutNanos timeoutSecs - (clock.measured - idleStarted)
  saturatingAdd clock.nowUnixMillis (min (remaining / 1000000) (2 ^ 64 - 1))

/-- `set_daemon_idle_monitor_state` at a tick that found nothing. -/
def Headless.markIdle (h : Headless S) (clock : Clock) : Headless S :=
  { h with
    activeAccessGrants := none
    idleStartedAt := some (h.idleStarted clock)
    monitor := ⟨true, some timeoutSecs,
      some (deadlineUnixMs timeoutSecs clock (h.idleStarted clock)), []⟩ }

def Headless.markBlocked (h : Headless S) (blockers : List String) : Headless S :=
  { h with
    activeAccessGrants := none
    idleStartedAt := none
    monitor := ⟨true, some timeoutSecs, none, blockers⟩ }

def Headless.shutDown (h : Headless S) : Headless S :=
  { h with
    daemonStatus := "headless_idle_shutdown"
    runtimeEvents := h.runtimeEvents ++ [("daemon_idle_shutdown_triggered",
      .object [("reason", .string "idle_timeout_elapsed"), ("timeout_secs", .nat timeoutSecs)])]
    exited := true }

/-- `await_headless_idle_shutdown` from the blockers to the next tick. -/
def conclude (clock : Clock) (blockers : List String) (h : Headless S) : Headless S :=
  if blockers.isEmpty then
    if clock.checked - h.idleStarted clock ≥ timeoutNanos timeoutSecs then
      (h.markIdle timeoutSecs clock).shutDown timeoutSecs
    else h.markIdle timeoutSecs clock
  else h.markBlocked timeoutSecs blockers

/-- A run so far: the daemon, the turns it took with their replies, what the look under way began
with, and the looks that were concluded. -/
structure Watched (S : Type) where
  headless : Headless S
  record : List Entry
  asked : Option (ℕ × List Entry)
  looks : List Look

def Watched.turn (w : Watched S) (turn : Turn) : Watched S :=
  let (daemon, entry) := serve serde service currentUid w.headless.daemon turn
  { w with headless := { w.headless with daemon := daemon }, record := w.record ++ [entry] }

/-- The grants are counted at a tick, unless the transfers are still to be counted. -/
def Watched.countGrants (now : ℕ) (w : Watched S) : Watched S :=
  if w.headless.activeAccessGrants.isSome then w
  else
    let counted := w.turn serde service currentUid (.idle now)
    let grants := (activeLocalIpcAccessGrantCount now w.headless.daemon.tokens).1
    { counted with
      headless := { counted.headless with activeAccessGrants := some grants }
      asked := some (now, w.record) }

def Watched.countTransfers (clock : Clock) (w : Watched S) : Watched S :=
  match w.headless.activeAccessGrants, w.asked with
  | some grants, some (now, record) =>
      let tasks := transfers w.headless.daemon.rest
      let blockers := headlessIdleBlockers grants tasks
      { w with
        headless := conclude timeoutSecs clock blockers w.headless
        asked := none
        looks := w.looks ++ [⟨now, record, tasks, blockers, clock⟩] }
  | _, _ => w

def Watched.move (w : Watched S) : Step S → Watched S
  | .request call => w.turn serde service currentUid (.request call)
  | .elsewhere change =>
      let daemon := { w.headless.daemon with rest := change w.headless.daemon.rest }
      { w with headless := { w.headless with daemon := daemon } }
  | .countGrants now => w.countGrants serde service currentUid now
  | .countTransfers clock => w.countTransfers transfers timeoutSecs clock

def Watched.step (w : Watched S) (step : Step S) : Watched S :=
  if w.headless.exited then w else w.move serde service currentUid transfers timeoutSecs step

/-- The daemon as `run_headless_daemon` starts it. -/
def Headless.start (rest : S) : Headless S where
  daemon := ⟨∅, rest⟩
  activeAccessGrants := none
  idleStartedAt := none
  monitor := ⟨true, some timeoutSecs, none, headlessIdleBlockers 0 (transfers rest)⟩
  daemonStatus := "headless_active"
  runtimeEvents := []
  exited := false

def run (rest : S) (steps : List (Step S)) : Watched S :=
  steps.foldl (Watched.step serde service currentUid transfers timeoutSecs)
    ⟨Headless.start transfers timeoutSecs rest, [], none, []⟩

end Monitor

theorem blocker_eq_nil {name : String} {count : ℕ} : blocker name count = [] ↔ count = 0 := by
  unfold blocker
  split_ifs with some
  · simp
    omega
  · simp
    omega

theorem not_terminal {status : TransferStatus} : status.isTerminal = true ↔
    status ≠ .draft ∧ status ≠ .pendingAccept ∧ status ≠ .transferring := by
  cases status <;> simp [TransferStatus.isTerminal]

theorem headlessIdleBlockers_isEmpty {grants : ℕ} {transfers : List TransferTask} :
    (headlessIdleBlockers grants transfers).isEmpty = true ↔
      grants = 0 ∧ ∀ transfer ∈ transfers, transfer.status.isTerminal = true := by
  have none_in (status : TransferStatus) :
      transfers.countP (fun transfer => transfer.status = status) = 0 ↔
        ∀ transfer ∈ transfers, transfer.status ≠ status := by
    simp [List.countP_eq_zero]
  simp only [headlessIdleBlockers, List.isEmpty_iff, List.append_eq_nil_iff, blocker_eq_nil,
    none_in, not_terminal]
  constructor
  · rintro ⟨⟨⟨none, draft⟩, pending⟩, active⟩
    exact ⟨none, fun t mem => ⟨draft t mem, pending t mem, active t mem⟩⟩
  · rintro ⟨none, all⟩
    exact ⟨⟨⟨none, fun t mem => (all t mem).1⟩, fun t mem => (all t mem).2.1⟩,
      fun t mem => (all t mem).2.2⟩

theorem activeGrants_eq_zero {now : ℕ} {tokens : TokenMap} :
    (activeLocalIpcAccessGrantCount now tokens).1 = 0 ↔ ∀ token, ¬ Live token now tokens := by
  rw [activeLocalIpcAccessGrantCount, List.length_eq_zero_iff]
  constructor
  · intro none token live
    obtain ⟨record, found, -⟩ := (live_retain le_rfl).mpr live
    rw [AList.lookup, none] at found
    cases found
  · intro dead
    by_contra some
    obtain ⟨⟨token, record⟩, mem⟩ := List.exists_mem_of_ne_nil _ some
    have found := AList.mem_lookup_iff.mpr mem
    rw [lookup_retain] at found
    obtain ⟨held, fresh⟩ := Option.filter_eq_some_iff.mp found
    exact dead token ⟨record, held, of_decide_eq_true fresh⟩

section Steps

variable {Config Capsule S : Type} {serde : FromValue Config Capsule}
  {service : Service Config Capsule S} {currentUid : ℕ} {transfers : S → List TransferTask}
  {timeoutSecs : ℕ}

/-- By the record, the token was issued, is not over, and was not withdrawn. -/
def Stands (serde : FromValue Config Capsule) (token : String) (now : ℕ) (record : List Entry) :
    Prop :=
  Since (fun entry => ∃ t0, Issues serde token t0 entry ∧ now < saturatingAdd t0 tokenTtlMs)
    (Withdraws serde token) record

/-- No grant is in force and no transfer is open. -/
def Quiet (serde : FromValue Config Capsule) (look : Look) : Prop :=
  (∀ token, ¬ Stands serde token look.now look.record) ∧
    ∀ transfer ∈ look.transfers, transfer.status.isTerminal = true

structure Recorded (serde : FromValue Config Capsule) (now : ℕ) (w : Watched S) : Prop where
  sound : Sound now w.headless.daemon.tokens
  live : ∀ token, Live token now w.headless.daemon.tokens ↔ Stands serde token now w.record

def Step.wall : Step S → Option ℕ
  | .request call => some call.now
  | .countGrants now => some now
  | .elsewhere _ | .countTransfers _ => none

def Step.clock : Step S → Option Clock
  | .countTransfers clock => some clock
  | .request _ | .elsewhere _ | .countGrants _ => none

theorem recorded_turn {w : Watched S} {turn : Turn} {now : ℕ}
    (sound : Sound turn.now w.headless.daemon.tokens)
    (live : ∀ token, Live token now w.headless.daemon.tokens ↔ Stands serde token now w.record)
    (due : turn.now ≤ now) : Recorded serde now (w.turn serde service currentUid turn) where
  sound := (sound_serve serde service currentUid turn sound).later due
  live token := by
    show Live token now (serve serde service currentUid w.headless.daemon turn).1.tokens ↔
      Stands serde token now (w.record ++ [(serve serde service currentUid w.headless.daemon turn).2])
    rw [live_serve serde service currentUid turn sound due, live, Stands, Stands, since_snoc]
    apply or_congr_left
    constructor
    · intro ⟨issues, fresh⟩
      exact ⟨turn.now, issues, fresh⟩
    · intro ⟨t0, issues, fresh⟩
      obtain rfl := issues_now serde service currentUid issues
      exact ⟨issues, fresh⟩

theorem Recorded.congr {now : ℕ} {w w' : Watched S} (h : Recorded serde now w)
    (tokens : w'.headless.daemon.tokens = w.headless.daemon.tokens)
    (record : w'.record = w.record) : Recorded serde now w' :=
  ⟨tokens ▸ h.sound, fun token => by rw [tokens, record, h.live]⟩

section Conclude

variable {clock : Clock} {blockers : List String} {h : Headless S}

theorem conclude_daemon : (conclude timeoutSecs clock blockers h).daemon = h.daemon ∧
    (conclude timeoutSecs clock blockers h).activeAccessGrants = none := by
  unfold conclude
  split_ifs
  · exact ⟨rfl, rfl⟩
  · exact ⟨rfl, rfl⟩
  · exact ⟨rfl, rfl⟩

theorem conclude_started {now : ℕ} {record : List Entry} {tasks : List TransferTask} :
    (conclude timeoutSecs clock blockers h).idleStartedAt =
      meter.since h.idleStartedAt ⟨now, record, tasks, blockers, clock⟩ := by
  unfold conclude
  split_ifs with empty long
  · exact (if_pos empty).symm
  · exact (if_pos empty).symm
  · exact (if_neg empty).symm

theorem conclude_exited (running : h.exited = false) {now : ℕ} {record : List Entry}
    {tasks : List TransferTask} :
    (conclude timeoutSecs clock blockers h).exited = meter.due (timeoutNanos timeoutSecs)
      h.idleStartedAt ⟨now, record, tasks, blockers, clock⟩ := by
  by_cases empty : blockers.isEmpty = true
  · have kept : meter.since h.idleStartedAt ⟨now, record, tasks, blockers, clock⟩ =
        some (h.idleStarted clock) := if_pos empty
    rw [Meter.due, kept, Option.any_some, conclude, if_pos empty]
    split_ifs with long
    · exact (decide_eq_true long).symm
    · exact running.trans (decide_eq_false long).symm
  · have dropped : meter.since h.idleStartedAt ⟨now, record, tasks, blockers, clock⟩ = none :=
      if_neg empty
    rw [Meter.due, dropped, conclude, if_neg empty]
    exact running

end Conclude

section Runs

variable {rest : S} {steps : List (Step S)}

theorem run_snoc (step : Step S) :
    run serde service currentUid transfers timeoutSecs rest (steps ++ [step]) =
      (run serde service currentUid transfers timeoutSecs rest steps).step serde service currentUid
        transfers timeoutSecs step := by
  rw [run, List.foldl_append, List.foldl_cons, List.foldl_nil, run]

theorem step_exited {w : Watched S} {step : Step S} (ended : w.headless.exited = true) :
    w.step serde service currentUid transfers timeoutSecs step = w := if_pos ended

theorem step_running {w : Watched S} {step : Step S} (running : ¬ w.headless.exited = true) :
    w.step serde service currentUid transfers timeoutSecs step =
      w.move serde service currentUid transfers timeoutSecs step := if_neg running

theorem filterMap_snoc {T : Type} (f : Step S → Option T) (step : Step S) :
    (steps ++ [step]).filterMap f = steps.filterMap f ++ (f step).toList := by
  rw [List.filterMap_append, List.filterMap_cons, List.filterMap_nil]
  cases f step <;> rfl

theorem recorded_run (clock : (steps.filterMap Step.wall).Pairwise (· ≤ ·)) {now : ℕ}
    (later : ∀ t ∈ steps.filterMap Step.wall, t ≤ now) :
    Recorded serde now (run serde service currentUid transfers timeoutSecs rest steps) := by
  induction steps using List.reverseRecOn generalizing now with
  | nil =>
    refine ⟨Sound.start now, fun token => ⟨?_, fun stands => absurd stands not_since_nil⟩⟩
    intro ⟨record, found, _⟩
    exact absurd found (by simp [run, Headless.start])
  | append_singleton steps step ih =>
    rw [filterMap_snoc, List.pairwise_append] at clock
    obtain ⟨earlier, -, before⟩ := clock
    have sofar := ih earlier fun t mem => later t (by
      rw [filterMap_snoc]
      exact List.mem_append_left _ mem)
    have turned (turn : Turn) (wall : step.wall = some turn.now) : Recorded serde now
        ((run serde service currentUid transfers timeoutSecs rest steps).turn serde service
          currentUid turn) := by
      have due : turn.now ≤ now := later turn.now (by simp [wall])
      have then_sound := (ih earlier fun t mem => before t mem turn.now (by simp [wall])).sound
      exact recorded_turn then_sound sofar.live due
    rw [run_snoc]
    by_cases ended : (run serde service currentUid transfers timeoutSecs rest steps).headless.exited
    · rw [step_exited ended]
      exact sofar
    rw [step_running ended]
    cases step with
    | request call => exact turned (.request call) rfl
    | elsewhere change => exact sofar.congr rfl rfl
    | countGrants t =>
      rw [Watched.move, Watched.countGrants]
      split_ifs
      · exact sofar
      · exact (turned (.idle t) rfl).congr rfl rfl
    | countTransfers clock =>
      rw [Watched.move, Watched.countTransfers]
      split
      · exact sofar.congr (congrArg Daemon.tokens conclude_daemon.1) rfl
      · exact sofar

structure Looked (serde : FromValue Config Capsule) (w : Watched S) : Prop where
  asked : ∀ grants, w.headless.activeAccessGrants = some grants → ∃ now record,
    w.asked = some (now, record) ∧ (grants = 0 ↔ ∀ token, ¬ Stands serde token now record)
  looks : ∀ look ∈ w.looks, look.blockers.isEmpty = true ↔ Quiet serde look

theorem looked_run (clock : (steps.filterMap Step.wall).Pairwise (· ≤ ·)) :
    Looked serde (run serde service currentUid transfers timeoutSecs rest steps) := by
  induction steps using List.reverseRecOn with
  | nil => exact ⟨fun grants asked => (by cases asked), fun look mem => (by cases mem)⟩
  | append_singleton steps step ih =>
    rw [filterMap_snoc, List.pairwise_append] at clock
    obtain ⟨earlier, -, before⟩ := clock
    have sofar := ih earlier
    rw [run_snoc]
    by_cases ended : (run serde service currentUid transfers timeoutSecs rest steps).headless.exited
    · rw [step_exited ended]
      exact sofar
    rw [step_running ended]
    cases step with
    | request call => exact ⟨sofar.asked, sofar.looks⟩
    | elsewhere change => exact ⟨sofar.asked, sofar.looks⟩
    | countGrants t =>
      rw [Watched.move, Watched.countGrants]
      split_ifs
      · exact sofar
      · refine ⟨fun grants counted => ⟨t, _, rfl, ?_⟩, sofar.looks⟩
        obtain rfl := Option.some.inj counted
        have known : Recorded serde t
            (run serde service currentUid transfers timeoutSecs rest steps) :=
          recorded_run earlier fun u mem => before u mem t (by simp [Step.wall])
        rw [activeGrants_eq_zero]
        exact forall_congr' fun token => not_congr (known.live token)
    | countTransfers clock =>
      rw [Watched.move, Watched.countTransfers]
      split
      case h_1 grants now record counted asked =>
        refine ⟨fun grants counted => ?_, fun look mem => ?_⟩
        · rw [conclude_daemon.2] at counted
          cases counted
        · rcases List.mem_append.mp mem with old | new
          · exact sofar.looks look old
          · rw [List.mem_singleton.mp new]
            obtain ⟨now', record', asked', none⟩ := sofar.asked grants counted
            cases asked.symm.trans asked'
            rw [headlessIdleBlockers_isEmpty, none]
            rfl
      case h_2 => exact sofar

theorem looks_clocks : List.Sublist
    ((run serde service currentUid transfers timeoutSecs rest steps).looks.map Look.clock)
    (steps.filterMap Step.clock) := by
  induction steps using List.reverseRecOn with
  | nil => exact List.Sublist.refl _
  | append_singleton steps step ih =>
    rw [filterMap_snoc]
    have same : List.Sublist
        ((run serde service currentUid transfers timeoutSecs rest steps).looks.map Look.clock)
        (steps.filterMap Step.clock ++ step.clock.toList) :=
      ih.trans (List.sublist_append_left _ _)
    rw [run_snoc]
    by_cases ended : (run serde service currentUid transfers timeoutSecs rest steps).headless.exited
    · rwa [step_exited ended]
    rw [step_running ended]
    cases step with
    | request call => exact same
    | elsewhere change => exact same
    | countGrants t =>
      rw [Watched.move, Watched.countGrants]
      split_ifs
      · exact same
      · exact same
    | countTransfers clock =>
      rw [Watched.move, Watched.countTransfers]
      split
      · rw [List.map_append]
        exact ih.append (List.Sublist.refl _)
      · exact same

theorem looks_inOrder
    (instants : (steps.filterMap Step.clock).Pairwise fun clock later =>
      clock.checked ≤ later.started) :
    meter.InOrder (run serde service currentUid transfers timeoutSecs rest steps).looks := by
  constructor
  · intro look _
    exact look.clock.ordered.1.trans look.clock.ordered.2
  · exact List.pairwise_map.mp (instants.sublist looks_clocks)

/-- The monitor as a meter of its looks. -/
structure Measured (timeoutSecs : ℕ) (w : Watched S) : Prop where
  started : w.headless.idleStartedAt = w.looks.foldl meter.since none
  exits : w.headless.exited = true ↔
    ∃ period, period <:+: w.looks ∧ meter.Lasted (timeoutNanos timeoutSecs) period

theorem measured_run
    (instants : (steps.filterMap Step.clock).Pairwise fun clock later =>
      clock.checked ≤ later.started) :
    Measured timeoutSecs (run serde service currentUid transfers timeoutSecs rest steps) := by
  induction steps using List.reverseRecOn with
  | nil =>
    refine ⟨rfl, fun exited => (by cases exited), ?_⟩
    rintro ⟨period, inside, first, -, head, -⟩
    rw [List.infix_nil.mp inside] at head
    cases head
  | append_singleton steps step ih =>
    have ordered : meter.InOrder (run serde service currentUid transfers timeoutSecs rest
        (steps ++ [step])).looks := looks_inOrder instants
    rw [filterMap_snoc, List.pairwise_append] at instants
    have sofar := ih instants.1
    rw [run_snoc] at ordered ⊢
    by_cases ended : (run serde service currentUid transfers timeoutSecs rest steps).headless.exited
    · rwa [step_exited ended]
    rw [step_running ended] at ordered ⊢
    cases step with
    | request call => exact ⟨sofar.started, sofar.exits⟩
    | elsewhere change => exact ⟨sofar.started, sofar.exits⟩
    | countGrants t =>
      rw [Watched.move, Watched.countGrants]
      split_ifs
      · exact sofar
      · exact ⟨sofar.started, sofar.exits⟩
    | countTransfers clock =>
      rw [Watched.move, Watched.countTransfers] at ordered ⊢
      split at ordered
      case h_1 grants now record counted asked =>
        have running := Bool.eq_false_iff.mpr ended
        refine ⟨?_, ?_⟩
        · rw [List.foldl_append, ← sofar.started]
          exact conclude_started
        · show (conclude timeoutSecs clock _ _).exited = true ↔ _
          rw [conclude_exited running, sofar.started, meter.due_iff ordered]
          constructor
          · rintro ⟨period, suffix, lasted⟩
            exact ⟨period, suffix.isInfix, lasted⟩
          · rintro ⟨period, inside, lasted⟩
            rcases List.infix_concat_iff.mp inside with suffix | old
            · exact ⟨period, suffix, lasted⟩
            · exact absurd (sofar.exits.mpr ⟨period, old, lasted⟩) ended
      case h_2 => exact sofar

end Runs

end Steps

def readOnce (seconds : ℕ) : Clock :=
  ⟨1000000000 * seconds, 1000000000 * seconds, 1000 * seconds, 1000000000 * seconds, le_rfl, le_rfl⟩

def tickAt (seconds : ℕ) : List (Step Unit) :=
  [.countGrants (1000 * seconds), .countTransfers (readOnce seconds)]

/-- A grant of five minutes, a look while it is in force, and two when it is over. -/
def grantRunsOut : List (Step Unit) :=
  .request (issueAt 1000) :: (tickAt 2 ++ tickAt 302 ++ tickAt 304)

/-- A grant that is asked for after the last count of grants does not keep the daemon up. -/
example :
    let steps := tickAt 1 ++
      [.countGrants 3000, .request (issueAt 3000), .countTransfers (readOnce 3)]
    let last := (run sampleSerde sampleService 501 (fun _ => []) 2 () steps).headless
    last.exited = true ∧ (activeLocalIpcAccessGrantCount 3000 last.daemon.tokens).1 = 1 := by
  decide +kernel

end DashDrop.Runtime.IdleExit
