/- GID: DashDrop/Ui/Convergence
   source: src/store.ts
   anchors: []
   digest: What the store shows agrees with the backend once nothing is outstanding. -/

import DashDrop.Ui.Store

set_option autoImplicit false
set_option relaxedAutoImplicit false

namespace DashDrop.Ui.Convergence

open DashDrop.Foundation.Transitions
open DashDrop.Runtime.State (TransferStatus TransferDirection)
open DashDrop.Ui.Store

variable {Info : Type}

/-- An event that brings a transfer to a revision, with the status it has there. -/
def Says (event : RuntimeEvent Info) (transferId : String) (revision : ℕ)
    (status : TransferStatus) : Prop :=
  match event with
  | .transferStarted id _ _ _ r => id = transferId ∧ r = revision ∧ status = .pendingAccept
  | event => ∃ e, event.stateEvent? = some e ∧ e.transferId = transferId ∧
      e.revision = revision ∧ e.change.status = status

def Used (backend : Backend Info) (transferId : String) : Prop :=
  ∃ event ∈ backend.log, event.named = some transferId

/-- The transfer has been at this revision, with this status where it still is. -/
def Told (backend : Backend Info) (transferId : String) (revision : ℕ) (status : TransferStatus) :
    Prop :=
  Used backend transferId ∧ ∀ view, backend.transfers transferId = some view →
    revision ≤ view.revision ∧ (revision = view.revision → status = view.status)

def StartedAt (log : List (RuntimeEvent Info)) (i : ℕ) (transferId : String) : Prop :=
  ∃ batchId info totalSize revision,
    log[i]? = some (.transferStarted transferId batchId info totalSize revision)

/-- The log tells each revision once it is reached, the last one after the start. -/
structure Chronicle (backend : Backend Info) : Prop where
  known : ∀ id view, backend.transfers id = some view → Used backend id
  stated : ∀ event ∈ backend.log, ∀ id revision status,
    Says event id revision status → Told backend id revision status
  counts : ∀ id batchId bytes total revision,
    .transferProgress id batchId bytes total revision ∈ backend.log →
      ∃ status, Told backend id revision status
  last : ∀ id view, backend.transfers id = some view →
    (view.revision = 0 ∧ view.direction = .receive) ∨
      ∃ j event, backend.log[j]? = some event ∧ Says event id view.revision view.status ∧
        ∀ i, StartedAt backend.log i id → i ≤ j

structure Later (before after : Backend Info) : Prop where
  told : ∀ id revision status, Told before id revision status → Told after id revision status
  grown : before.log <+: after.log
  gone : ∀ id, Used before id → before.transfers id = none → after.transfers id = none
  moved : ∀ id view, after.transfers id = some view →
    (∃ old, before.transfers id = some old ∧ old.status = view.status ∧
        old.revision = view.revision ∧ old.direction = view.direction) ∨
      (∃ j ≥ before.log.length, ∃ event, after.log[j]? = some event ∧
        Says event id view.revision view.status) ∨
      (¬ Used before id ∧ view.revision = 0 ∧ view.direction = .receive)

/-- How a step of the backend moves one transfer: along its revisions, or from an unused name. -/
structure Moves (backend : Backend Info) (transferId : String) (view : TransferView Info)
    (events : List (RuntimeEvent Info)) : Prop where
  ahead : (∃ old, backend.transfers transferId = some old ∧ old.revision ≤ view.revision ∧
      (old.revision = view.revision → old.status = view.status)) ∨ ¬ Used backend transferId
  named : ∃ event ∈ events, event.named = some transferId
  said : ∀ event ∈ events, ∀ id revision status, Says event id revision status →
    id = transferId ∧ revision = view.revision ∧ status = view.status
  counted : ∀ id batchId bytes total revision,
    .transferProgress id batchId bytes total revision ∈ events →
      id = transferId ∧ revision = view.revision
  first : ∀ i id, StartedAt events i id → i = 0
  told : (∃ event, events[0]? = some event ∧ Says event transferId view.revision view.status) ∨
    (∃ old, backend.transfers transferId = some old ∧ old.status = view.status ∧
      old.revision = view.revision ∧ old.direction = view.direction ∧
      ∀ i, ¬ StartedAt events i transferId) ∨
    (¬ Used backend transferId ∧ view.revision = 0 ∧ view.direction = .receive)

section Backend

variable {backend : Backend Info} {transferId : String} {view : TransferView Info}
  {events : List (RuntimeEvent Info)}

theorem used_append {transfers : String → Option (TransferView Info)} {id : String}
    (h : Used backend id) : Used ⟨transfers, backend.log ++ events⟩ id := by
  obtain ⟨event, mem, named⟩ := h
  exact ⟨event, List.mem_append_left _ mem, named⟩

theorem told_put {id : String} {revision : ℕ} {status : TransferStatus}
    (h : Told backend id revision status) (moves : Moves backend transferId view events) :
    Told (backend.put transferId (some view) events) id revision status := by
  refine ⟨used_append h.1, ?_⟩
  intro next held
  by_cases same : id = transferId
  · subst same
    have here : view = next := by simpa [Backend.put] using held
    subst here
    rcases moves.ahead with ⟨old, was, le, status⟩ | unused
    · obtain ⟨bound, agrees⟩ := h.2 old was
      refine ⟨bound.trans le, ?_⟩
      intro reached
      have stays : old.revision = view.revision := by omega
      exact (agrees (by omega)).trans (status stays)
    · exact absurd h.1 unused
  · apply h.2
    simpa [Backend.put, Function.update_of_ne same] using held

theorem told_self (moves : Moves backend transferId view events) :
    Told (backend.put transferId (some view) events) transferId view.revision view.status := by
  obtain ⟨event, mem, named⟩ := moves.named
  refine ⟨⟨event, List.mem_append_right _ mem, named⟩, ?_⟩
  intro next held
  have here : view = next := by simpa [Backend.put] using held
  subst here
  exact ⟨le_rfl, fun _ => rfl⟩

theorem startedAt_append {log : List (RuntimeEvent Info)} {i : ℕ} {id : String}
    (h : StartedAt (log ++ events) i id) :
    StartedAt log i id ∨ (log.length ≤ i ∧ StartedAt events (i - log.length) id) := by
  obtain ⟨batchId, info, totalSize, revision, found⟩ := h
  by_cases before : i < log.length
  · rw [List.getElem?_append_left before] at found
    exact .inl ⟨batchId, info, totalSize, revision, found⟩
  · rw [List.getElem?_append_right (by omega)] at found
    exact .inr ⟨by omega, batchId, info, totalSize, revision, found⟩

theorem StartedAt.lt {log : List (RuntimeEvent Info)} {i : ℕ} {id : String}
    (h : StartedAt log i id) : i < log.length := by
  obtain ⟨_, _, _, _, found⟩ := h
  exact (List.getElem?_eq_some_iff.mp found).1

theorem StartedAt.used {i : ℕ} {id : String} (h : StartedAt backend.log i id) :
    Used backend id := by
  obtain ⟨_, _, _, _, found⟩ := h
  exact ⟨_, List.mem_of_getElem? found, rfl⟩

theorem chronicle_put (h : Chronicle backend) (moves : Moves backend transferId view events) :
    Chronicle (backend.put transferId (some view) events) := by
  constructor
  case known =>
    intro id next held
    by_cases same : id = transferId
    · subst same
      exact (told_self moves).1
    · apply used_append
      apply h.known id next
      simpa [Backend.put, Function.update_of_ne same] using held
  case stated =>
    intro event mem id revision status said
    rcases List.mem_append.mp mem with old | new
    · exact told_put (h.stated event old id revision status said) moves
    · obtain ⟨rfl, rfl, rfl⟩ := moves.said event new id revision status said
      exact told_self moves
  case counts =>
    intro id batchId bytes total revision mem
    rcases List.mem_append.mp mem with old | new
    · obtain ⟨status, told⟩ := h.counts id batchId bytes total revision old
      exact ⟨status, told_put told moves⟩
    · obtain ⟨rfl, rfl⟩ := moves.counted id batchId bytes total revision new
      exact ⟨_, told_self moves⟩
  case last =>
    intro id next held
    by_cases same : id = transferId
    · subst same
      have here : view = next := by simpa [Backend.put] using held
      subst here
      rcases moves.told with ⟨event, found, said⟩ | ⟨old, was, status, revision, direction, none⟩ |
          ⟨_, zero, receive⟩
      · refine .inr ⟨backend.log.length, event, ?_, said, ?_⟩
        · show (backend.log ++ events)[backend.log.length]? = some event
          rw [List.getElem?_append_right le_rfl, Nat.sub_self]
          exact found
        · intro i started
          rcases startedAt_append started with old | ⟨bound, new⟩
          · exact old.lt.le
          · have := moves.first _ _ new
            omega
      · rcases h.last id old was with ⟨zero, receive⟩ | ⟨j, event, found, said, order⟩
        · exact .inl ⟨revision ▸ zero, direction ▸ receive⟩
        · refine .inr ⟨j, event, ?_, status ▸ revision ▸ said, ?_⟩
          · have bound : j < backend.log.length := (List.getElem?_eq_some_iff.mp found).1
            show (backend.log ++ events)[j]? = some event
            rw [List.getElem?_append_left bound]
            exact found
          · intro i started
            rcases startedAt_append started with old | ⟨_, new⟩
            · exact order i old
            · exact absurd new (none _)
      · exact .inl ⟨zero, receive⟩
    · have was : backend.transfers id = some next := by
        simpa [Backend.put, Function.update_of_ne same] using held
      rcases h.last id next was with zero | ⟨j, event, found, said, order⟩
      · exact .inl zero
      · have bound : j < backend.log.length := (List.getElem?_eq_some_iff.mp found).1
        refine .inr ⟨j, event, ?_, said, ?_⟩
        · show (backend.log ++ events)[j]? = some event
          rw [List.getElem?_append_left bound]
          exact found
        · intro i started
          rcases startedAt_append started with old | ⟨_, new⟩
          · exact order i old
          · obtain ⟨batchId, info, totalSize, revision, mem⟩ := new
            have other := (moves.said _ (List.mem_of_getElem? mem) id revision .pendingAccept
              ⟨rfl, rfl, rfl⟩).1
            exact absurd other same

theorem later_put (moves : Moves backend transferId view events) :
    Later backend (backend.put transferId (some view) events) := by
  constructor
  case told => exact fun _ _ _ told => told_put told moves
  case grown => exact List.prefix_append _ _
  case gone =>
    intro id used free
    by_cases same : id = transferId
    · subst same
      rcases moves.ahead with ⟨old, was, _⟩ | unused
      · rw [free] at was
        cases was
      · exact absurd used unused
    · simpa [Backend.put, Function.update_of_ne same] using free
  case moved =>
    intro id next held
    by_cases same : id = transferId
    · subst same
      have here : view = next := by simpa [Backend.put] using held
      subst here
      rcases moves.told with ⟨event, found, said⟩ | ⟨old, was, status, revision, direction, _⟩ | fresh
      · refine .inr (.inl ⟨backend.log.length, le_rfl, event, ?_, said⟩)
        show (backend.log ++ events)[backend.log.length]? = some event
        rw [List.getElem?_append_right le_rfl, Nat.sub_self]
        exact found
      · exact .inl ⟨old, was, status, revision, direction⟩
      · exact .inr (.inr fresh)
    · refine .inl ⟨next, ?_, rfl, rfl, rfl⟩
      simpa [Backend.put, Function.update_of_ne same] using held

def Silent (event : RuntimeEvent Info) : Prop :=
  event.stateEvent? = none ∧
    (∀ id batchId info totalSize revision,
      event ≠ .transferStarted id batchId info totalSize revision) ∧
    ∀ id batchId bytes total revision, event ≠ .transferProgress id batchId bytes total revision

theorem not_says_of_silent {event : RuntimeEvent Info} (h : Silent event) (id : String)
    (revision : ℕ) (status : TransferStatus) : ¬ Says event id revision status := by
  intro said
  cases event with
  | transferStarted id batchId info totalSize revision => exact h.2.1 _ _ _ _ _ rfl
  | _ =>
    obtain ⟨e, made, _⟩ := said
    rw [h.1] at made
    cases made

section Quiet

variable {transfers : String → Option (TransferView Info)}

theorem later_quiet (free : ∀ id next, transfers id = some next → backend.transfers id = some next) :
    Later backend ⟨transfers, backend.log ++ events⟩ := by
  constructor
  case told =>
    exact fun id _ _ told => ⟨used_append told.1, fun next held => told.2 next (free id next held)⟩
  case grown => exact List.prefix_append _ _
  case gone =>
    intro id _ none
    by_contra held
    obtain ⟨next, held⟩ := Option.ne_none_iff_exists'.mp held
    rw [free id next held] at none
    cases none
  case moved => exact fun id next held => .inl ⟨next, free id next held, rfl, rfl, rfl⟩

theorem chronicle_quiet (h : Chronicle backend)
    (free : ∀ id next, transfers id = some next → backend.transfers id = some next)
    (silent : ∀ event ∈ events, Silent event) :
    Chronicle ⟨transfers, backend.log ++ events⟩ := by
  have later : Later backend ⟨transfers, backend.log ++ events⟩ := later_quiet free
  constructor
  case known => exact fun id next held => used_append (h.known id next (free id next held))
  case stated =>
    intro event mem id revision status said
    rcases List.mem_append.mp mem with old | new
    · exact later.told _ _ _ (h.stated event old id revision status said)
    · exact absurd said (not_says_of_silent (silent event new) _ _ _)
  case counts =>
    intro id batchId bytes total revision mem
    rcases List.mem_append.mp mem with old | new
    · obtain ⟨status, told⟩ := h.counts id batchId bytes total revision old
      exact ⟨status, later.told _ _ _ told⟩
    · exact absurd rfl ((silent _ new).2.2 id batchId bytes total revision)
  case last =>
    intro id next held
    rcases h.last id next (free id next held) with zero | ⟨j, event, found, said, order⟩
    · exact .inl zero
    · have bound : j < backend.log.length := (List.getElem?_eq_some_iff.mp found).1
      refine .inr ⟨j, event, ?_, said, ?_⟩
      · show (backend.log ++ events)[j]? = some event
        rw [List.getElem?_append_left bound]
        exact found
      · intro i started
        rcases startedAt_append started with old | ⟨_, batchId, info, totalSize, revision, new⟩
        · exact order i old
        · exact absurd rfl ((silent _ (List.mem_of_getElem? new)).2.1 _ _ _ _ _)

end Quiet

theorem startedAt_singleton {event : RuntimeEvent Info} {i : ℕ} {id : String}
    (h : StartedAt [event] i id) : i = 0 := by
  have bound := h.lt
  rw [List.length_singleton] at bound
  omega

theorem moves_change {old : TransferView Info} (was : backend.transfers transferId = some old)
    (change : StateChange) {rest : List (RuntimeEvent Info)}
    (others : ∀ event ∈ rest, (∀ id revision status, Says event id revision status →
      id = transferId ∧ revision = old.revision + 1 ∧ status = change.status) ∧
      (∀ id batchId info totalSize revision,
        event ≠ .transferStarted id batchId info totalSize revision) ∧
      ∀ id batchId bytes total revision, event ≠ .transferProgress id batchId bytes total revision) :
    Moves backend transferId (Backend.changed change old)
      (.state ⟨transferId, old.batchId, old.revision + 1, change⟩ :: rest) := by
  constructor
  case ahead =>
    refine .inl ⟨old, was, Nat.le_succ _, ?_⟩
    intro same
    exact absurd same (Nat.lt_succ_self _).ne
  case named => exact ⟨_, List.mem_cons_self, rfl⟩
  case said =>
    intro event mem id revision status said
    rcases List.mem_cons.mp mem with rfl | later
    · obtain ⟨e, made, rfl, rfl, rfl⟩ := said
      obtain rfl := Option.some.inj made
      exact ⟨rfl, rfl, rfl⟩
    · exact (others event later).1 id revision status said
  case counted =>
    intro id batchId bytes total revision mem
    rcases List.mem_cons.mp mem with same | later
    · cases same
    · exact absurd rfl ((others _ later).2.2 id batchId bytes total revision)
  case first =>
    intro i id started
    obtain ⟨batchId, info, totalSize, revision, found⟩ := started
    rcases List.mem_cons.mp (List.mem_of_getElem? found) with same | later
    · cases same
    · exact absurd rfl ((others _ later).2.1 id batchId info totalSize revision)
  case told => exact .inl ⟨_, rfl, _, rfl, rfl, rfl, rfl⟩

theorem moves_create (unused : ¬ Used backend transferId) (batchId : Option String)
    (direction : TransferDirection) (info : Info) (totalSize : ℕ) :
    Moves backend transferId ⟨batchId, direction, info, .pendingAccept, 0, totalSize, 0, none⟩
      [match direction with
        | .send => .transferStarted transferId batchId info totalSize 0
        | .receive => .transferIncoming transferId] := by
  cases direction with
  | send =>
    refine ⟨.inr unused, ⟨_, List.mem_singleton_self _, rfl⟩, ?_, ?_, ?_, ?_⟩
    · intro event mem id revision status said
      obtain rfl := List.mem_singleton.mp mem
      obtain ⟨rfl, rfl, rfl⟩ := said
      exact ⟨rfl, rfl, rfl⟩
    · intro id batchId bytes total revision mem
      cases List.mem_singleton.mp mem
    · exact fun i id started => startedAt_singleton started
    · exact .inl ⟨_, rfl, rfl, rfl, rfl⟩
  | receive =>
    refine ⟨.inr unused, ⟨_, List.mem_singleton_self _, rfl⟩, ?_, ?_, ?_, ?_⟩
    · intro event mem id revision status said
      obtain rfl := List.mem_singleton.mp mem
      obtain ⟨e, made, _⟩ := said
      cases made
    · intro id batchId bytes total revision mem
      cases List.mem_singleton.mp mem
    · exact fun i id started => startedAt_singleton started
    · exact .inr (.inr ⟨unused, rfl, rfl⟩)

theorem moves_progress {old : TransferView Info} (was : backend.transfers transferId = some old)
    (bytes : ℕ) :
    Moves backend transferId { old with bytesTransferred := bytes }
      [.transferProgress transferId old.batchId bytes old.totalBytes old.revision] := by
  refine ⟨.inl ⟨old, was, le_rfl, fun _ => rfl⟩, ⟨_, List.mem_singleton_self _, rfl⟩, ?_, ?_, ?_, ?_⟩
  · intro event mem id revision status said
    obtain rfl := List.mem_singleton.mp mem
    obtain ⟨e, made, _⟩ := said
    cases made
  · intro id batchId bytes total revision mem
    cases List.mem_singleton.mp mem
    exact ⟨rfl, rfl⟩
  · exact fun i id started => startedAt_singleton started
  · refine .inr (.inl ⟨old, was, rfl, rfl, rfl, ?_⟩)
    intro i started
    obtain ⟨_, _, _, _, found⟩ := started
    cases List.mem_singleton.mp (List.mem_of_getElem? found)

theorem chronicle_step {after : Backend Info} {l : BackendStep Info} (h : Chronicle backend)
    (step : backendStep backend l = some after) : Chronicle after ∧ Later backend after := by
  cases l with
  | create transferId batchId direction info totalSize =>
    simp only [backendStep] at step
    split_ifs at step with taken
    obtain rfl := Option.some.inj step
    have unused : ¬ Used backend transferId := by
      rintro ⟨event, mem, named⟩
      exact taken (List.any_eq_true.mpr ⟨event, mem, by simpa using named⟩)
    have moves := moves_create unused batchId direction info totalSize
    exact ⟨chronicle_put h moves, later_put moves⟩
  | change transferId change =>
    obtain ⟨old, was, rfl⟩ := Option.map_eq_some_iff.mp step
    have moves : Moves backend transferId (Backend.changed change old)
        [.state ⟨transferId, old.batchId, old.revision + 1, change⟩] :=
      moves_change was change (by simp)
    exact ⟨chronicle_put h moves, later_put moves⟩
  | failWithError transferId reasonCode =>
    obtain ⟨old, was, rfl⟩ := Option.map_eq_some_iff.mp step
    have moves : Moves backend transferId (Backend.changed (.failed reasonCode) old)
        [.state ⟨transferId, old.batchId, old.revision + 1, .failed reasonCode⟩,
          .transferError (some transferId) old.batchId reasonCode (old.revision + 1)] := by
      apply moves_change was
      intro event mem
      obtain rfl := List.mem_singleton.mp mem
      refine ⟨?_, by simp, by simp⟩
      rintro id revision status ⟨e, made, rfl, rfl, rfl⟩
      simp only [RuntimeEvent.stateEvent?] at made
      split_ifs at made
      obtain rfl := Option.some.inj made
      exact ⟨rfl, rfl, rfl⟩
    exact ⟨chronicle_put h moves, later_put moves⟩
  | progress transferId bytes =>
    obtain ⟨old, was, rfl⟩ := Option.map_eq_some_iff.mp step
    have moves := moves_progress was bytes
    exact ⟨chronicle_put h moves, later_put moves⟩
  | expire transferId =>
    obtain rfl := Option.some.inj step
    have free : ∀ id next, backend.transfers id = some next → backend.transfers id = some next :=
      fun _ _ held => held
    refine ⟨chronicle_quiet h free ?_, later_quiet free⟩
    intro event mem
    obtain rfl := List.mem_singleton.mp mem
    exact ⟨rfl, by simp, by simp⟩
  | remove transferId =>
    obtain rfl := Option.some.inj step
    have free : ∀ id next, Function.update backend.transfers transferId none id = some next →
        backend.transfers id = some next := by
      intro id next held
      by_cases same : id = transferId
      · subst same
        simp at held
      · simpa [Function.update_of_ne same] using held
    exact ⟨chronicle_quiet h free (by simp), later_quiet free⟩

end Backend

section Store

variable {world : World Info}

def After.event? : After → Option StateEvent
  | .hydrateFailed event | .gap event => some event
  | .alone | .init _ => none

def pending : Point Info → Option StateEvent
  | .hydrating event | .hydrateAnswered event _ | .hydrated event _ => some event
  | .snapshotting after | .snapshotAnswered after _ | .listing after | .listed after =>
      After.event? after
  | .subscribing _ | .done => none

def Shows (store : AppStore Info) (transferId : String) (view : TransferView Info) : Prop :=
  ∃ task, store.shown transferId = some task ∧ task.status = view.status ∧
    task.revision = view.revision

/-- An incoming request that nobody has answered, which is not among the transfers shown. -/
def Waits (store : AppStore Info) (transferId : String) (view : TransferView Info) : Prop :=
  store.activeTransfers transferId = none ∧ view.revision = 0 ∧ view.direction = .receive

def Ahead (log : List (RuntimeEvent Info)) (first : ℕ) (transferId : String)
    (view : TransferView Info) : Prop :=
  ∃ j ≥ first, ∃ event, log[j]? = some event ∧ Says event transferId view.revision view.status

def InFlight (calls : List (Point Info)) (transferId : String) (view : TransferView Info) : Prop :=
  ∃ point ∈ calls, ∃ event, pending point = some event ∧ event.transferId = transferId ∧
    event.revision = view.revision ∧ event.change.status = view.status

/-- Each transfer is shown as it is, or an event that tells it is still to come. -/
def Accounted (backend : Backend Info) (store : AppStore Info) (first : ℕ) : Prop :=
  first ≤ backend.log.length ∧ ∀ id view, backend.transfers id = some view →
    Shows store id view ∨ Ahead backend.log first id view ∨ InFlight store.calls id view ∨
      Waits store id view

/-- The answer to the first snapshot and the events after it account for each transfer. -/
def Kept (backend : Backend Info) (reply : String → Option (TransferView Info)) (taken : ℕ) : Prop :=
  taken ≤ backend.log.length ∧ ∀ id view, backend.transfers id = some view →
    (∃ old, reply id = some old ∧ old.status = view.status ∧ old.revision = view.revision) ∨
      Ahead backend.log taken id view ∨
      (reply id = none ∧ view.revision = 0 ∧ view.direction = .receive)

/-- What holds at an await, besides that the pending event was told. -/
def Phase (backend : Backend Info) (store : AppStore Info) : Point Info → Prop
  | .hydrateAnswered event reply =>
      (∀ view, reply = some view → Told backend event.transferId view.revision view.status) ∧
        (reply = none → backend.transfers event.transferId = none)
  | .hydrated event task => task = none → backend.transfers event.transferId = none
  | .snapshotAnswered after reply =>
      (∀ id view, reply id = some view → Told backend id view.revision view.status) ∧
        (∀ event, After.event? after = some event → reply event.transferId = none →
          backend.transfers event.transferId = none) ∧
        ∀ taken, after = .init taken → Kept backend reply taken
  | .listing after | .listed after =>
      (∀ event, After.event? after = some event → store.activeTransfers event.transferId = none →
        backend.transfers event.transferId = none) ∧
        ∀ taken, after = .init taken → store.cursor = none → Accounted backend store taken
  | .subscribing taken => store.cursor = none → Accounted backend store taken
  | .hydrating _ | .snapshotting _ | .done => True

def Live (backend : Backend Info) (store : AppStore Info) : Prop :=
  ∀ id n, store.activeTransfers id = some n →
    ∃ task status, store.objects n id = some task ∧ Told backend id task.revision status

structure Sound (world : World Info) : Prop where
  chronicle : Chronicle world.backend
  live : Live world.backend world.store
  meant : ∀ point ∈ world.store.calls, ∀ event, pending point = some event →
    Told world.backend event.transferId event.revision event.change.status
  phases : ∀ point ∈ world.store.calls, Phase world.backend world.store point
  accounted : ∀ first, world.store.cursor = some first →
    Accounted world.backend world.store first

variable {backend after : Backend Info} {store base : AppStore Info} {first : ℕ}

theorem told_of_held (h : Chronicle backend) {id : String} {view : TransferView Info}
    (held : backend.transfers id = some view) : Told backend id view.revision view.status := by
  refine ⟨h.known id view held, ?_⟩
  intro other same
  obtain rfl := Option.some.inj (held.symm.trans same)
  exact ⟨le_rfl, fun _ => rfl⟩

theorem Ahead.later {id : String} {view : TransferView Info}
    (h : Ahead backend.log first id view) (later : Later backend after) :
    Ahead after.log first id view := by
  obtain ⟨j, ge, event, found, said⟩ := h
  obtain ⟨more, same⟩ := later.grown
  have bound : j < backend.log.length := (List.getElem?_eq_some_iff.mp found).1
  refine ⟨j, ge, event, ?_, said⟩
  rw [← same, List.getElem?_append_left bound]
  exact found

theorem Accounted.later (h : Accounted backend store first) (live : Live backend store)
    (later : Later backend after) : Accounted after store first := by
  refine ⟨h.1.trans later.grown.length_le, ?_⟩
  intro id view held
  rcases later.moved id view held with ⟨old, was, status, revision, direction⟩ |
      ⟨j, ge, event, found, said⟩ | ⟨unused, zero, receive⟩
  · rcases h.2 id old was with ⟨task, shown, same, reached⟩ | ahead |
        ⟨point, mem, event, awaits, named, reached, same⟩ | ⟨unshown, zero, receive⟩
    · exact .inl ⟨task, shown, same.trans status, reached.trans revision⟩
    · refine .inr (.inl (Ahead.later ?_ later))
      obtain ⟨j, ge, event, found, said⟩ := ahead
      exact ⟨j, ge, event, found, status ▸ revision ▸ said⟩
    · exact .inr (.inr (.inl
        ⟨point, mem, event, awaits, named, reached.trans revision, same.trans status⟩))
    · exact .inr (.inr (.inr ⟨unshown, revision ▸ zero, direction ▸ receive⟩))
  · exact .inr (.inl ⟨j, h.1.trans ge, event, found, said⟩)
  · refine .inr (.inr (.inr ⟨?_, zero, receive⟩))
    by_contra some
    obtain ⟨n, active⟩ := Option.ne_none_iff_exists'.mp some
    obtain ⟨task, status, _, told⟩ := live id n active
    exact unused told.1

theorem Kept.later {reply : String → Option (TransferView Info)} (h : Kept backend reply first)
    (told : ∀ id view, reply id = some view → Told backend id view.revision view.status)
    (later : Later backend after) : Kept after reply first := by
  refine ⟨h.1.trans later.grown.length_le, ?_⟩
  intro id view held
  rcases later.moved id view held with ⟨old, was, status, revision, direction⟩ |
      ⟨j, ge, event, found, said⟩ | ⟨unused, zero, receive⟩
  · rcases h.2 id old was with ⟨task, shown, same, reached⟩ | ahead | ⟨none, zero, receive⟩
    · exact .inl ⟨task, shown, same.trans status, reached.trans revision⟩
    · refine .inr (.inl (Ahead.later ?_ later))
      obtain ⟨j, ge, event, found, said⟩ := ahead
      exact ⟨j, ge, event, found, status ▸ revision ▸ said⟩
    · exact .inr (.inr ⟨none, revision ▸ zero, direction ▸ receive⟩)
  · exact .inr (.inl ⟨j, h.1.trans ge, event, found, said⟩)
  · refine .inr (.inr ⟨?_, zero, receive⟩)
    by_contra some
    obtain ⟨old, listed⟩ := Option.ne_none_iff_exists'.mp some
    exact unused (told id old listed).1

theorem sound_backend (h : Sound ⟨backend, store⟩) (chronicle : Chronicle after)
    (later : Later backend after) : Sound ⟨after, store⟩ := by
  constructor
  case chronicle => exact chronicle
  case live =>
    intro id n active
    obtain ⟨task, status, found, told⟩ := h.live id n active
    exact ⟨task, status, found, later.told _ _ _ told⟩
  case meant => exact fun point mem event awaits => later.told _ _ _ (h.meant point mem event awaits)
  case phases =>
    intro point mem
    have phase := h.phases point mem
    have meant := h.meant point mem
    have gone {event : StateEvent} (awaits : pending point = some event)
        (free : backend.transfers event.transferId = none) :
        after.transfers event.transferId = none :=
      later.gone _ (meant event awaits).1 free
    cases point with
    | hydrateAnswered event reply =>
      exact ⟨fun view same => later.told _ _ _ (phase.1 view same), fun none => gone rfl (phase.2 none)⟩
    | hydrated event task => exact fun none => gone rfl (phase none)
    | snapshotAnswered next reply =>
      obtain ⟨told, lists, kept⟩ := phase
      refine ⟨fun id view same => later.told _ _ _ (told id view same), ?_, ?_⟩
      · exact fun event same none => gone same (lists event same none)
      · exact fun taken same => (kept taken same).later told later
    | listing next =>
      exact ⟨fun event same none => gone same (phase.1 event same none),
        fun taken same free => (phase.2 taken same free).later h.live later⟩
    | listed next =>
      exact ⟨fun event same none => gone same (phase.1 event same none),
        fun taken same free => (phase.2 taken same free).later h.live later⟩
    | subscribing taken => exact fun free => (phase free).later h.live later
    | hydrating event => trivial
    | snapshotting next => trivial
    | done => trivial
  case accounted => exact fun first same => (h.accounted first same).later h.live later

/-- What a turn of the page does to the entries of the transfers that are held. -/
structure Follows (backend : Backend Info) (store base : AppStore Info) : Prop where
  calls : base.calls = store.calls
  cursor : base.cursor = store.cursor
  live : Live backend base
  kept : ∀ id, base.activeTransfers id = none →
    backend.transfers id = none ∨ store.activeTransfers id = none
  shows : ∀ id view, backend.transfers id = some view → Shows store id view → Shows base id view
  waits : ∀ id view, backend.transfers id = some view → Waits store id view →
    Waits base id view ∨ Shows base id view

theorem Follows.refl (live : Live backend store) : Follows backend store store :=
  ⟨rfl, rfl, live, fun _ none => .inr none, fun _ _ _ shows => shows, fun _ _ _ waits => .inl waits⟩

structure Handled (backend : Backend Info) (store base : AppStore Info) : Prop where
  live : Live backend base
  kept : ∀ id, base.activeTransfers id = none →
    backend.transfers id = none ∨ store.activeTransfers id = none
  waits : ∀ id view, backend.transfers id = some view → Waits store id view →
    Waits base id view ∨ Shows base id view
  flight : ∀ point ∈ store.calls, point ∈ base.calls
  fresh : ∀ point ∈ base.calls, point ∈ store.calls ∨ ∃ event : StateEvent,
    (point = .hydrating event ∨ point = .snapshotting (.gap event)) ∧
      Told backend event.transferId event.revision event.change.status

theorem Follows.handled (h : Follows backend store base) : Handled backend store base :=
  ⟨h.live, h.kept, h.waits, fun _ mem => h.calls ▸ mem, fun _ mem => .inl (h.calls ▸ mem)⟩

variable {i : ℕ} {old new : Point Info}

theorem inFlight_set (found : store.calls[i]? = some old) {id : String} {view : TransferView Info}
    (h : InFlight store.calls id view)
    (passes : ∀ event, pending old = some event → event.transferId = id →
      event.revision = view.revision → event.change.status = view.status →
      pending new = some event ∨ Shows base id view) :
    Shows base id view ∨ InFlight (store.calls.set i new) id view := by
  obtain ⟨point, mem, event, awaits, named, reached, same⟩ := h
  obtain ⟨j, listed⟩ := List.mem_iff_getElem?.mp mem
  have bound : i < store.calls.length := (List.getElem?_eq_some_iff.mp found).1
  by_cases here : j = i
  · subst here
    obtain rfl := Option.some.inj (listed.symm.trans found)
    rcases passes event awaits named reached same with still | shows
    · refine .inr ⟨new, ?_, event, still, named, reached, same⟩
      exact List.mem_of_getElem? (List.getElem?_set_self bound)
    · exact .inl shows
  · refine .inr ⟨point, ?_, event, awaits, named, reached, same⟩
    apply List.mem_of_getElem?
    rw [List.getElem?_set_ne (Ne.symm here)]
    exact listed

theorem Accounted.set (h : Accounted backend store first) (follows : Follows backend store base)
    (found : store.calls[i]? = some old)
    (passes : ∀ event, pending old = some event → pending new = some event ∨
      ∀ view, backend.transfers event.transferId = some view → event.revision = view.revision →
        event.change.status = view.status → Shows base event.transferId view) :
    Accounted backend (base.setCall i new) first := by
  refine ⟨h.1, ?_⟩
  intro id view held
  have calls : (base.setCall i new).calls = store.calls.set i new :=
    congrArg (List.set · i new) follows.calls
  rcases h.2 id view held with shows | ahead | flight | waits
  · exact .inl (follows.shows id view held shows)
  · exact .inr (.inl ahead)
  · rw [calls]
    have moved : Shows base id view ∨ InFlight (store.calls.set i new) id view := by
      apply inFlight_set found flight
      intro event awaits named reached same
      subst named
      rcases passes event awaits with still | shows
      · exact .inl still
      · exact .inr (shows view held reached same)
    rcases moved with shows | still
    · exact .inl shows
    · exact .inr (.inr (.inl still))
  · rcases follows.waits id view held waits with waits | shows
    · exact .inr (.inr (.inr waits))
    · exact .inl shows

theorem sound_call (h : Sound ⟨backend, store⟩) (follows : Follows backend store base)
    (found : store.calls[i]? = some old)
    (meant : ∀ event, pending new = some event → pending old = some event)
    (passes : ∀ event, pending old = some event → pending new = some event ∨
      ∀ view, backend.transfers event.transferId = some view → event.revision = view.revision →
        event.change.status = view.status → Shows base event.transferId view)
    (phase : (∀ first, store.cursor = none → Accounted backend store first →
        Accounted backend (base.setCall i new) first) → Phase backend (base.setCall i new) new) :
    Sound ⟨backend, base.setCall i new⟩ := by
  have carried : ∀ first, Accounted backend store first →
      Accounted backend (base.setCall i new) first :=
    fun first accounted => accounted.set follows found passes
  have listed : ∀ point ∈ (base.setCall i new).calls, point = new ∨ point ∈ store.calls := by
    intro point mem
    have calls : (base.setCall i new).calls = store.calls.set i new :=
      congrArg (List.set · i new) follows.calls
    rw [calls] at mem
    exact (List.mem_or_eq_of_mem_set mem).symm
  constructor
  case chronicle => exact h.chronicle
  case live => exact follows.live
  case meant =>
    intro point mem event awaits
    rcases listed point mem with rfl | mem
    · exact h.meant old (List.mem_of_getElem? found) event (meant event awaits)
    · exact h.meant point mem event awaits
  case phases =>
    intro point mem
    rcases listed point mem with rfl | mem
    · exact phase fun first _ => carried first
    · have phase := h.phases point mem
      have gone {event : StateEvent} (free : base.activeTransfers event.transferId = none)
          (before : store.activeTransfers event.transferId = none →
            backend.transfers event.transferId = none) :
          backend.transfers event.transferId = none :=
        (follows.kept _ free).elim id before
      have still : (base.setCall i new).cursor = none → store.cursor = none :=
        fun free => follows.cursor ▸ free
      cases point with
      | listing next =>
        exact ⟨fun event same free => gone free (phase.1 event same),
          fun taken same free => carried taken (phase.2 taken same (still free))⟩
      | listed next =>
        exact ⟨fun event same free => gone free (phase.1 event same),
          fun taken same free => carried taken (phase.2 taken same (still free))⟩
      | subscribing taken => exact fun free => carried taken (phase (still free))
      | _ => exact phase
  case accounted =>
    intro first same
    exact carried first (h.accounted first (follows.cursor ▸ same))

section Entries

variable {transferId : String} {n : ℕ} {task : TransferView Info}

theorem objects_setObject_of_ne {id : String} (ne : id ≠ transferId) (m : ℕ) :
    (store.setObject n transferId task).objects m id = store.objects m id := by
  by_cases same : m = n
  · subst same
    simp [AppStore.setObject, Function.update_of_ne ne]
  · simp [AppStore.setObject, Function.update_of_ne same]

theorem objects_setObject_self :
    (store.setObject n transferId task).objects n transferId = some task := by
  simp [AppStore.setObject]

/-- An entry is rewritten in place, at a revision that was told and not below its own. -/
theorem follows_setObject (h : Live backend store)
    (active : store.activeTransfers transferId = some n) {status : TransferStatus}
    (told : Told backend transferId task.revision status)
    (shows : ∀ view, backend.transfers transferId = some view → Shows store transferId view →
      task.status = view.status ∧ task.revision = view.revision) :
    Follows backend store (store.setObject n transferId task) := by
  have here : (store.setObject n transferId task).shown transferId = some task := by
    unfold AppStore.shown
    rw [show (store.setObject n transferId task).activeTransfers transferId = some n from active]
    exact objects_setObject_self
  constructor
  case calls => rfl
  case cursor => rfl
  case live =>
    intro id m mapped
    by_cases same : id = transferId
    · subst same
      obtain rfl := Option.some.inj (active.symm.trans mapped)
      exact ⟨task, status, objects_setObject_self, told⟩
    · rw [objects_setObject_of_ne same]
      exact h id m mapped
  case kept => exact fun id none => .inr none
  case shows =>
    intro id view held shown
    by_cases same : id = transferId
    · subst same
      exact ⟨task, here, shows view held shown⟩
    · obtain ⟨other, found, agrees⟩ := shown
      refine ⟨other, ?_, agrees⟩
      rw [← found]
      unfold AppStore.shown
      refine Option.bind_congr ?_
      intro m _
      exact objects_setObject_of_ne same m
  case waits => exact fun id view _ waits => .inl waits

theorem shown_eq (active : store.activeTransfers transferId = some n)
    (found : store.objects n transferId = some task) : store.shown transferId = some task := by
  unfold AppStore.shown
  rw [active]
  exact found

theorem status_updater (change : StateChange) (task : TransferView Info) :
    (change.updater task).status = change.status := by
  cases change <;> rfl

theorem revision_updater (change : StateChange) (batchId : Option String)
    (task : TransferView Info) :
    (change.updater (AppStore.applyBatchId batchId task)).revision = task.revision := by
  cases batchId <;> cases change <;> rfl

/-- A state event on the entry that is shown: the entry reaches the revision of the event, or was
beyond it. -/
theorem follows_applyTo (h : Live backend store) {event : StateEvent}
    (active : store.activeTransfers event.transferId = some n)
    (told : Told backend event.transferId event.revision event.change.status) :
    Follows backend store (store.applyTo event n) ∧
      ∀ view, backend.transfers event.transferId = some view → event.revision = view.revision →
        event.change.status = view.status →
        Shows (store.applyTo event n) event.transferId view := by
  obtain ⟨task, status, found, known⟩ := h _ n active
  by_cases refused : event.revision < task.revision
  · have same : store.applyTo event n = store := by
      simp [AppStore.applyTo, found, AppStore.applyRevision, refused]
    rw [same]
    refine ⟨.refl h, ?_⟩
    intro view held reached _
    have bound := (known.2 view held).1
    omega
  · have same : store.applyTo event n = store.setObject n event.transferId (event.change.updater
        (AppStore.applyBatchId event.batchId { task with revision := event.revision })) := by
      simp [AppStore.applyTo, found, AppStore.applyRevision, refused]
    have revision : (event.change.updater (AppStore.applyBatchId event.batchId
        { task with revision := event.revision })).revision = event.revision :=
      revision_updater ..
    have status := status_updater event.change
      (AppStore.applyBatchId event.batchId { task with revision := event.revision })
    rw [same]
    refine ⟨follows_setObject h active (revision.symm ▸ told) ?_, ?_⟩
    · intro view held ⟨other, shown, _, reached⟩
      obtain rfl := Option.some.inj ((shown_eq active found).symm.trans shown)
      obtain ⟨bound, agrees⟩ := told.2 view held
      rw [revision, status]
      exact ⟨agrees (by omega), by omega⟩
    · intro view held reached agrees
      refine ⟨_, shown_eq (show _ from active) objects_setObject_self, ?_, ?_⟩
      · rw [status, agrees]
      · rw [revision, reached]

theorem shown_assign : (store.assign transferId task).shown transferId = some task := by
  simp [AppStore.shown, AppStore.assign, AppStore.setObject]

theorem shown_assign_of_ne {id : String} (ne : id ≠ transferId) :
    (store.assign transferId task).shown id = store.shown id := by
  unfold AppStore.shown
  rw [show (store.assign transferId task).activeTransfers id = store.activeTransfers id by
    simp [AppStore.assign, Function.update_of_ne ne]]
  refine Option.bind_congr ?_
  intro m _
  exact objects_setObject_of_ne ne m

theorem handled_assign (h : Live backend store) {status : TransferStatus}
    (told : Told backend transferId task.revision status)
    (waits : ∀ view, backend.transfers transferId = some view → view.revision = 0 →
      task.status = view.status ∧ task.revision = view.revision) :
    Handled backend store (store.assign transferId task) := by
  have here : (store.assign transferId task).activeTransfers transferId = some store.allocated := by
    simp [AppStore.assign]
  have there {id : String} (ne : id ≠ transferId) :
      (store.assign transferId task).activeTransfers id = store.activeTransfers id := by
    simp [AppStore.assign, Function.update_of_ne ne]
  have self : (store.assign transferId task).objects store.allocated transferId = some task :=
    objects_setObject_self
  have other {id : String} (ne : id ≠ transferId) (m : ℕ) :
      (store.assign transferId task).objects m id = store.objects m id :=
    objects_setObject_of_ne ne m
  constructor
  case flight => exact fun _ mem => mem
  case fresh => exact fun _ mem => .inl mem
  case live =>
    intro id m mapped
    by_cases same : id = transferId
    · subst same
      obtain rfl := Option.some.inj (here.symm.trans mapped)
      exact ⟨task, status, self, told⟩
    · rw [there same] at mapped
      rw [other same]
      exact h id m mapped
  case kept =>
    intro id none
    by_cases same : id = transferId
    · subst same
      rw [here] at none
      cases none
    · rw [there same] at none
      exact .inr none
  case waits =>
    intro id view held ⟨unshown, zero, receive⟩
    by_cases same : id = transferId
    · subst same
      exact .inr ⟨task, shown_assign, waits view held zero⟩
    · exact .inl ⟨(there same).trans unshown, zero, receive⟩

theorem follows_assign (h : Live backend store)
    (told : Told backend transferId task.revision task.status)
    (recent : (backend.transfers transferId).isSome →
      ∀ old, store.shown transferId = some old → old.revision ≤ task.revision) :
    Follows backend store (store.assign transferId task) := by
  have handled : Handled backend store (store.assign transferId task) := by
    refine handled_assign h told ?_
    intro view held zero
    obtain ⟨bound, agrees⟩ := told.2 view held
    exact ⟨agrees (by omega), by omega⟩
  refine ⟨rfl, rfl, handled.live, handled.kept, ?_, handled.waits⟩
  intro id view held ⟨old, shown, agrees, reached⟩
  by_cases same : id = transferId
  · subst same
    have le := recent (by rw [held]; rfl) old shown
    obtain ⟨bound, agrees⟩ := told.2 view held
    exact ⟨task, shown_assign, agrees (by omega), by omega⟩
  · exact ⟨old, (shown_assign_of_ne same).trans shown, agrees, reached⟩

/-- All entries are replaced by the answer to a snapshot that is not older than they are. -/
theorem follows_assignAll {reply : String → Option (TransferView Info)}
    (told : ∀ id view, reply id = some view → Told backend id view.revision view.status)
    (recent : ∀ id view, backend.transfers id = some view → ∀ task, store.shown id = some task →
      ∃ next, reply id = some next ∧ task.revision ≤ next.revision)
    (h : Live backend store) : Follows backend store (store.assignAll reply) := by
  have entry {id : String} {view : TransferView Info} (listed : reply id = some view) :
      (store.assignAll reply).shown id = some view := by
    simp [AppStore.shown, AppStore.assignAll, listed]
  constructor
  case calls => rfl
  case cursor => rfl
  case live =>
    intro id m mapped
    obtain ⟨view, listed, rfl⟩ := Option.map_eq_some_iff.mp mapped
    refine ⟨view, view.status, ?_, told id view listed⟩
    simp [AppStore.assignAll, listed]
  case kept =>
    intro id none
    by_contra both
    obtain ⟨held, active⟩ := not_or.mp both
    obtain ⟨view, held⟩ := Option.ne_none_iff_exists'.mp held
    obtain ⟨n, active⟩ := Option.ne_none_iff_exists'.mp active
    obtain ⟨task, _, found, _⟩ := h id n active
    obtain ⟨next, listed, _⟩ := recent id view held task (shown_eq active found)
    rw [show (store.assignAll reply).activeTransfers id = some store.allocated by
      simp [AppStore.assignAll, listed]] at none
    cases none
  case shows =>
    intro id view held ⟨task, shown, _, reached⟩
    obtain ⟨next, listed, le⟩ := recent id view held task shown
    obtain ⟨bound, agrees⟩ := (told id next listed).2 view held
    exact ⟨next, entry listed, agrees (by omega), by omega⟩
  case waits =>
    intro id view held ⟨_, zero, receive⟩
    cases listed : reply id with
    | none =>
      refine .inl ⟨?_, zero, receive⟩
      simp [AppStore.assignAll, listed]
    | some next =>
      obtain ⟨bound, agrees⟩ := (told id next listed).2 view held
      exact .inr ⟨next, entry listed, agrees (by omega), by omega⟩

theorem follows_detached (h : Live backend store)
    (detached : store.activeTransfers transferId ≠ some n) :
    Follows backend store (store.setObject n transferId task) := by
  have same (id : String) (m : ℕ) (active : store.activeTransfers id = some m) :
      (store.setObject n transferId task).objects m id = store.objects m id := by
    by_cases named : id = transferId
    · subst named
      have other : m ≠ n := by
        rintro rfl
        exact detached active
      simp [AppStore.setObject, Function.update_of_ne other]
    · exact objects_setObject_of_ne named m
  have shown (id : String) : (store.setObject n transferId task).shown id = store.shown id := by
    unfold AppStore.shown
    exact Option.bind_congr fun m active => same id m active
  constructor
  case calls => rfl
  case cursor => rfl
  case live =>
    intro id m active
    rw [same id m active]
    exact h id m active
  case kept => exact fun id none => .inr none
  case shows =>
    intro id view _ ⟨task, found, agrees⟩
    exact ⟨task, (shown id).trans found, agrees⟩
  case waits => exact fun id view _ waits => .inl waits

theorem follows_applyTo_detached (h : Live backend store) {event : StateEvent}
    (detached : store.activeTransfers event.transferId ≠ some n) :
    Follows backend store (store.applyTo event n) := by
  unfold AppStore.applyTo
  split
  · exact follows_detached h detached
  · exact .refl h

end Entries

/-- Every call to the backend is answered, and no event after the first snapshot is missed. -/
def Delivered (world : World Info) : Step Info → Prop
  | .fail _ => False
  | .subscribe i first =>
      match world.store.calls[i]? with
      | some (.subscribing taken) => first ≤ taken
      | _ => True
  | _ => True

/-- Besides, no answer is older than an entry that it replaces, and an entry that was just read
is still the one shown when its event is applied. -/
def Recent (world : World Info) : Step Info → Prop
  | .arrive i =>
      match world.store.calls[i]? with
      | some (.hydrateAnswered event (some view)) =>
          (world.backend.transfers event.transferId).isSome →
            ∀ task, world.store.shown event.transferId = some task → task.revision ≤ view.revision
      | some (.snapshotAnswered _ reply) =>
          ∀ id, (world.backend.transfers id).isSome → ∀ task, world.store.shown id = some task →
            ∃ next, reply id = some next ∧ task.revision ≤ next.revision
      | _ => True
  | .resume i =>
      match world.store.calls[i]? with
      | some (.hydrated event (some n)) => (world.backend.transfers event.transferId).isSome →
          world.store.activeTransfers event.transferId = some n
      | _ => True
  | l => Delivered world l

theorem sound_push (h : Sound ⟨backend, store⟩) {point : Point Info}
    (meant : ∀ event, pending point = some event →
      Told backend event.transferId event.revision event.change.status)
    (phase : ∀ store, Phase backend store point) : Sound ⟨backend, store.push point⟩ := by
  have carried (first : ℕ) (accounted : Accounted backend store first) :
      Accounted backend (store.push point) first := by
    refine ⟨accounted.1, ?_⟩
    intro id view held
    rcases accounted.2 id view held with shows | ahead | flight | waits
    · exact .inl shows
    · exact .inr (.inl ahead)
    · obtain ⟨other, mem, rest⟩ := flight
      exact .inr (.inr (.inl ⟨other, List.mem_append_left _ mem, rest⟩))
    · exact .inr (.inr (.inr waits))
  constructor
  case chronicle => exact h.chronicle
  case live => exact h.live
  case meant =>
    intro other mem event awaits
    rcases List.mem_append.mp mem with old | new
    · exact h.meant other old event awaits
    · obtain rfl := List.mem_singleton.mp new
      exact meant event awaits
  case phases =>
    intro other mem
    rcases List.mem_append.mp mem with old | new
    · have phase := h.phases other old
      cases other with
      | listing next =>
        exact ⟨phase.1, fun taken same free => carried taken (phase.2 taken same free)⟩
      | listed next =>
        exact ⟨phase.1, fun taken same free => carried taken (phase.2 taken same free)⟩
      | subscribing taken => exact fun free => carried taken (phase free)
      | _ => exact phase
    · obtain rfl := List.mem_singleton.mp new
      exact phase _
  case accounted => exact fun first same => carried first (h.accounted first same)

theorem passes_same {P : StateEvent → Prop} (same : pending new = pending old) :
    ∀ event, pending old = some event → pending new = some event ∨ P event :=
  fun _ awaits => .inl (same.trans awaits)

theorem sound_applyFrom (h : Sound ⟨backend, store⟩) {event : StateEvent} {n : ℕ}
    (found : store.calls[i]? = some old) (awaits : pending old = some event)
    (active : (backend.transfers event.transferId).isSome →
      store.activeTransfers event.transferId = some n) :
    Sound ⟨backend, store.applyFrom i event n⟩ := by
  have told := h.meant old (List.mem_of_getElem? found) event awaits
  unfold AppStore.applyFrom
  split_ifs with gap
  · refine sound_call h (.refl h.live) found ?_ (passes_same awaits.symm) fun _ => trivial
    exact fun other same => awaits.trans same
  · have follows : Follows backend store (store.applyTo event n) := by
      by_cases shown : store.activeTransfers event.transferId = some n
      · exact (follows_applyTo h.live shown told).1
      · exact follows_applyTo_detached h.live shown
    refine sound_call h follows found (fun _ none => by cases none) ?_ fun _ => trivial
    intro other same
    obtain rfl := Option.some.inj (awaits.symm.trans same)
    refine .inr ?_
    intro view held
    have shown := active (by rw [held]; rfl)
    exact (follows_applyTo h.live shown told).2 view held

theorem sound_answer {next : World Info} (h : Sound ⟨backend, store⟩)
    (step : storeStep ⟨backend, store⟩ (.answer i) = some next) : Sound next := by
  simp only [storeStep] at step
  split at step
  · rename_i event found
    obtain rfl := Option.some.inj step
    refine sound_call h (.refl h.live) found (fun _ same => same) (passes_same rfl) fun _ => ?_
    exact ⟨fun view held => told_of_held h.chronicle held, fun none => none⟩
  · rename_i after found
    obtain rfl := Option.some.inj step
    have same : After.event? (after.stamp backend.log.length) = After.event? after := by
      cases after <;> rfl
    refine sound_call h (.refl h.live) found (fun _ awaits => same.symm.trans awaits)
      (passes_same same) fun _ => ?_
    refine ⟨fun id view held => told_of_held h.chronicle held, fun _ _ none => none, ?_⟩
    intro taken stamped
    cases after with
    | init earlier =>
      obtain rfl := After.init.inj stamped
      exact ⟨le_rfl, fun id view held => .inl ⟨view, held, rfl, rfl⟩⟩
    | _ => cases stamped
  · cases step

theorem sound_arrive {next : World Info} (h : Sound ⟨backend, store⟩)
    (recent : Recent ⟨backend, store⟩ (.arrive i))
    (step : storeStep ⟨backend, store⟩ (.arrive i) = some next) : Sound next := by
  obtain ⟨moved, turn, rfl⟩ := Option.map_eq_some_iff.mp step
  clear step
  simp only [AppStore.arrive] at turn
  simp only [Recent] at recent
  split at turn
  · rename_i event view found
    obtain rfl := Option.some.inj turn
    rw [found] at recent
    obtain ⟨told, _⟩ := h.phases _ (List.mem_of_getElem? found)
    have follows := follows_assign h.live (told view rfl) recent
    exact sound_call h follows found (fun _ same => same) (passes_same rfl) fun _ none => by cases none
  · rename_i event found
    obtain rfl := Option.some.inj turn
    obtain ⟨_, gone⟩ := h.phases _ (List.mem_of_getElem? found)
    exact sound_call h (.refl h.live) found (fun _ same => same) (passes_same rfl)
      fun _ _ => gone rfl
  · rename_i after reply found
    obtain rfl := Option.some.inj turn
    rw [found] at recent
    obtain ⟨told, lists, kept⟩ := h.phases _ (List.mem_of_getElem? found)
    have follows : Follows backend store (store.assignAll reply) :=
      follows_assignAll told (fun id view held => recent id (by rw [held]; rfl)) h.live
    refine sound_call h follows found (fun _ same => same) (passes_same rfl) fun _ => ⟨?_, ?_⟩
    · intro event same unshown
      apply lists event same
      simpa [AppStore.assignAll, AppStore.setCall] using unshown
    · intro taken same _
      obtain ⟨bound, each⟩ := kept taken same
      refine ⟨bound, ?_⟩
      intro id view held
      rcases each id view held with ⟨old, listed, agrees⟩ | ahead | ⟨unlisted, waits⟩
      · refine .inl ⟨old, ?_, agrees⟩
        simp [AppStore.shown, AppStore.assignAll, AppStore.setCall, listed]
      · exact .inr (.inl ahead)
      · refine .inr (.inr (.inr ⟨?_, waits⟩))
        simp [AppStore.assignAll, AppStore.setCall, unlisted]
  · cases turn

theorem sound_list {next : World Info} (h : Sound ⟨backend, store⟩)
    (step : storeStep ⟨backend, store⟩ (.list i) = some next) : Sound next := by
  simp only [storeStep] at step
  split at step
  · rename_i after found
    obtain rfl := Option.some.inj step
    obtain ⟨gone, accounted⟩ := h.phases _ (List.mem_of_getElem? found)
    refine sound_call h (.refl h.live) found (fun _ same => same) (passes_same rfl) fun carried => ?_
    exact ⟨gone, fun taken same free => carried taken free (accounted taken same free)⟩
  · cases step

theorem sound_resume {next : World Info} (h : Sound ⟨backend, store⟩)
    (recent : Recent ⟨backend, store⟩ (.resume i))
    (step : storeStep ⟨backend, store⟩ (.resume i) = some next) : Sound next := by
  obtain ⟨moved, turn, rfl⟩ := Option.map_eq_some_iff.mp step
  clear step
  simp only [AppStore.resume] at turn
  simp only [Recent] at recent
  -- The event of a call that finds no entry belongs to a transfer that is gone.
  have dropped {event : StateEvent} {old : Point Info} (found : store.calls[i]? = some old)
      (awaits : pending old = some event) (gone : backend.transfers event.transferId = none) :
      Sound ⟨backend, store.setCall i .done⟩ := by
    refine sound_call h (.refl h.live) found (fun _ none => by cases none) ?_ fun _ => trivial
    intro other same
    obtain rfl := Option.some.inj (awaits.symm.trans same)
    refine .inr ?_
    intro view held
    rw [gone] at held
    cases held
  split at turn
  · rename_i event n found
    obtain rfl := Option.some.inj turn
    rw [found] at recent
    exact sound_applyFrom h found rfl recent
  · rename_i event found
    obtain rfl := Option.some.inj turn
    exact sound_call h (.refl h.live) found (fun _ same => same) (passes_same rfl) fun _ => trivial
  · rename_i event found
    obtain ⟨gone, _⟩ := h.phases _ (List.mem_of_getElem? found)
    split at turn
    · rename_i unshown
      obtain rfl := Option.some.inj turn
      exact dropped found rfl (gone event rfl unshown)
    · rename_i n active
      obtain rfl := Option.some.inj turn
      exact sound_applyFrom h found rfl fun _ => active
  · rename_i event found
    obtain ⟨gone, _⟩ := h.phases _ (List.mem_of_getElem? found)
    split at turn
    · rename_i unshown
      obtain rfl := Option.some.inj turn
      exact dropped found rfl (gone event rfl unshown)
    · rename_i n active
      obtain rfl := Option.some.inj turn
      have told := h.meant _ (List.mem_of_getElem? found) event rfl
      obtain ⟨follows, shows⟩ := follows_applyTo h.live active told
      refine sound_call h follows found (fun _ none => by cases none) ?_ fun _ => trivial
      intro other same
      obtain rfl := Option.some.inj same
      exact .inr shows
  · rename_i found
    obtain rfl := Option.some.inj turn
    exact sound_call h (.refl h.live) found (fun _ same => same) (passes_same rfl) fun _ => trivial
  · rename_i taken found
    obtain rfl := Option.some.inj turn
    obtain ⟨_, accounted⟩ := h.phases _ (List.mem_of_getElem? found)
    exact sound_call h (.refl h.live) found (fun _ same => same) (passes_same rfl)
      fun carried free => carried taken free (accounted taken rfl free)
  · cases turn

theorem sound_subscribe {next : World Info} {first : ℕ} (h : Sound ⟨backend, store⟩)
    (recent : Recent ⟨backend, store⟩ (.subscribe i first))
    (step : storeStep ⟨backend, store⟩ (.subscribe i first) = some next) : Sound next := by
  simp only [storeStep] at step
  split at step
  · rename_i taken found free
    obtain rfl := Option.some.inj step
    have le : first ≤ taken := by
      simpa [Recent, Delivered, found] using recent
    have ended : Sound ⟨backend, store.setCall i .done⟩ :=
      sound_call h (.refl h.live) found (fun _ none => by cases none)
        (fun _ none => by cases none) fun _ => trivial
    have accounted : Accounted backend (store.setCall i .done) taken := by
      refine (h.phases _ (List.mem_of_getElem? found) free).set (.refl h.live) found ?_
      exact fun _ none => by cases none
    constructor
    case chronicle => exact ended.chronicle
    case live => exact ended.live
    case meant => exact ended.meant
    case phases =>
      intro point mem
      have phase := ended.phases point mem
      cases point with
      | listing next => exact ⟨phase.1, fun _ _ none => by cases none⟩
      | listed next => exact ⟨phase.1, fun _ _ none => by cases none⟩
      | subscribing taken => exact fun none => by cases none
      | _ => exact phase
    case accounted =>
      intro start same
      obtain rfl := Option.some.inj same
      refine ⟨le.trans accounted.1, ?_⟩
      intro id view held
      rcases accounted.2 id view held with shows | ⟨j, ge, rest⟩ | flight | waits
      · exact .inl shows
      · exact .inr (.inl ⟨j, le.trans ge, rest⟩)
      · exact .inr (.inr (.inl flight))
      · exact .inr (.inr (.inr waits))
  · cases step

theorem sound_delivered {c : ℕ} {event : RuntimeEvent Info} (h : Sound ⟨backend, store⟩)
    (cursor : store.cursor = some c) (found : backend.log[c]? = some event)
    (handled : Handled backend store base)
    (shows : ∀ id view, backend.transfers id = some view → Shows store id view →
      Shows base id view ∨ Ahead backend.log (c + 1) id view)
    (told : ∀ id view, backend.transfers id = some view →
      Says event id view.revision view.status →
      Shows base id view ∨ InFlight base.calls id view) :
    Sound ⟨backend, { base with cursor := some (c + 1) }⟩ := by
  constructor
  case chronicle => exact h.chronicle
  case live => exact handled.live
  case meant =>
    intro point mem event awaits
    rcases handled.fresh point mem with old | ⟨made, rfl | rfl, told⟩
    · exact h.meant point old event awaits
    · exact Option.some.inj awaits ▸ told
    · exact Option.some.inj awaits ▸ told
  case phases =>
    intro point mem
    rcases handled.fresh point mem with old | ⟨made, rfl | rfl, told⟩
    · have phase := h.phases point old
      have gone {event : StateEvent} (free : base.activeTransfers event.transferId = none)
          (before : store.activeTransfers event.transferId = none →
            backend.transfers event.transferId = none) :
          backend.transfers event.transferId = none :=
        (handled.kept _ free).elim id before
      cases point with
      | listing next =>
        exact ⟨fun event same free => gone free (phase.1 event same), fun _ _ none => by cases none⟩
      | listed next =>
        exact ⟨fun event same free => gone free (phase.1 event same), fun _ _ none => by cases none⟩
      | subscribing taken => exact fun none => by cases none
      | _ => exact phase
    · trivial
    · trivial
  case accounted =>
    intro start same
    obtain rfl := Option.some.inj same
    refine ⟨(List.getElem?_eq_some_iff.mp found).1, ?_⟩
    intro id view held
    rcases (h.accounted c cursor).2 id view held with shown | ⟨j, ge, other, at_j, said⟩ |
        ⟨point, mem, rest⟩ | waiting
    · rcases shows id view held shown with still | ahead
      · exact .inl still
      · exact .inr (.inl ahead)
    · rcases Nat.lt_or_ge c j with later | now
      · exact .inr (.inl ⟨j, later, other, at_j, said⟩)
      · obtain rfl : j = c := by omega
        obtain rfl := Option.some.inj (found.symm.trans at_j)
        rcases told id view held said with still | flies
        · exact .inl still
        · exact .inr (.inr (.inl flies))
    · exact .inr (.inr (.inl ⟨point, handled.flight point mem, rest⟩))
    · rcases handled.waits id view held waiting with still | shown
      · exact .inr (.inr (.inr still))
      · exact .inl shown

/-- The start of a transfer replaces its entry; the events after it are still to come. -/
theorem sound_started {c : ℕ} {id : String} {batchId : Option String} {info : Info}
    {totalSize revision : ℕ} (h : Sound ⟨backend, store⟩) (cursor : store.cursor = some c)
    (found : backend.log[c]? = some (.transferStarted id batchId info totalSize revision)) :
    Sound ⟨backend, { store.handleTransferStarted id batchId info totalSize revision with
      cursor := some (c + 1) }⟩ := by
  have told := h.chronicle.stated _ (List.mem_of_getElem? found) id revision .pendingAccept
    ⟨rfl, rfl, rfl⟩
  have here (view : TransferView Info) (held : backend.transfers id = some view)
      (reached : revision = view.revision) :
      Shows (store.handleTransferStarted id batchId info totalSize revision) id view :=
    ⟨_, shown_assign, (told.2 view held).2 reached, reached⟩
  refine sound_delivered h cursor found (handled_assign h.live told ?_) ?_ ?_
  · intro view held zero
    obtain ⟨bound, agrees⟩ := told.2 view held
    exact ⟨agrees (by omega), show revision = _ by omega⟩
  · intro other view held ⟨task, shown, agrees⟩
    by_cases same : other = id
    · subst same
      rcases h.chronicle.last other view held with ⟨zero, _⟩ | ⟨j, event, at_j, said, order⟩
      · have bound := (told.2 view held).1
        exact .inl (here view held (by omega))
      · have le := order c ⟨_, _, _, _, found⟩
        rcases Nat.lt_or_ge c j with later | now
        · exact .inr ⟨j, later, event, at_j, said⟩
        · obtain rfl : j = c := by omega
          obtain rfl := Option.some.inj (found.symm.trans at_j)
          exact .inl (here view held said.2.1)
    · exact .inl ⟨task, (shown_assign_of_ne same).trans shown, agrees⟩
  · intro other view held said
    obtain ⟨rfl, reached, _⟩ := said
    exact .inl (here view held reached)

theorem sound_progress {c : ℕ} {id : String} {batchId : Option String} {bytes total revision : ℕ}
    (h : Sound ⟨backend, store⟩) (cursor : store.cursor = some c)
    (found : backend.log[c]? = some (.transferProgress id batchId bytes total revision)) :
    Sound ⟨backend, { store.handleTransferProgress id batchId bytes total revision with
      cursor := some (c + 1) }⟩ := by
  obtain ⟨status, told⟩ := h.chronicle.counts id batchId bytes total revision
    (List.mem_of_getElem? found)
  have follows : Follows backend store
      (store.handleTransferProgress id batchId bytes total revision) := by
    unfold AppStore.handleTransferProgress
    split
    · exact .refl h.live
    · rename_i n active
      obtain ⟨task, _, object, _⟩ := h.live id n active
      rw [object]
      simp only [Option.bind_some, AppStore.applyRevision]
      split_ifs with refused
      · exact .refl h.live
      · have same : ({ AppStore.applyBatchId batchId { task with revision := revision } with
            bytesTransferred := bytes, totalBytes := total } : TransferView Info).revision =
            revision := by
          cases batchId <;> rfl
        refine follows_setObject h.live active (same.symm ▸ told) ?_
        intro view held ⟨old, shown, agrees, reached⟩
        obtain rfl := Option.some.inj ((shown_eq active object).symm.trans shown)
        have bound := (told.2 view held).1
        refine ⟨?_, same.trans (by omega)⟩
        rw [← agrees]
        cases batchId <;> rfl
  refine sound_delivered h cursor found follows.handled ?_ ?_
  · exact fun id view held shows => .inl (follows.shows id view held shows)
  · intro id view _ said
    obtain ⟨_, none, _⟩ := said
    cases none

theorem handled_push (h : Live backend store) {event : StateEvent} {point : Point Info}
    (made : point = .hydrating event ∨ point = .snapshotting (.gap event))
    (told : Told backend event.transferId event.revision event.change.status) :
    Handled backend store (store.push point) := by
  constructor
  case live => exact h
  case kept => exact fun id none => .inr none
  case waits => exact fun id view _ waits => .inl waits
  case flight => exact fun point mem => List.mem_append_left _ mem
  case fresh =>
    intro other mem
    rcases List.mem_append.mp mem with old | new
    · exact .inl old
    · obtain rfl := List.mem_singleton.mp new
      exact .inr ⟨event, made, told⟩

theorem says_of_stateEvent {event : RuntimeEvent Info} {made : StateEvent}
    (leads : event.stateEvent? = some made) {id : String} {revision : ℕ} {status : TransferStatus} :
    Says event id revision status ↔
      made.transferId = id ∧ made.revision = revision ∧ made.change.status = status := by
  cases event with
  | transferStarted => cases leads
  | _ =>
    constructor
    · rintro ⟨other, same, agrees⟩
      obtain rfl := Option.some.inj (leads.symm.trans same)
      exact agrees
    · exact fun agrees => ⟨made, leads, agrees⟩

theorem sound_state {c : ℕ} {event : RuntimeEvent Info} {made : StateEvent}
    (h : Sound ⟨backend, store⟩) (cursor : store.cursor = some c)
    (found : backend.log[c]? = some event) (leads : event.stateEvent? = some made) :
    Sound ⟨backend, { store.applyStateEvent made with cursor := some (c + 1) }⟩ := by
  have told : Told backend made.transferId made.revision made.change.status :=
    h.chronicle.stated event (List.mem_of_getElem? found) _ _ _
      ((says_of_stateEvent leads).mpr ⟨rfl, rfl, rfl⟩)
  have called {point : Point Info} (awaits : pending point = some made)
      (made_for : point = .hydrating made ∨ point = .snapshotting (.gap made)) :
      Sound ⟨backend, { store.push point with cursor := some (c + 1) }⟩ := by
    refine sound_delivered h cursor found (handled_push h.live made_for told) ?_ ?_
    · exact fun id view _ shows => .inl shows
    · intro id view _ said
      have agrees := (says_of_stateEvent leads).mp said
      refine .inr ⟨point, ?_, made, awaits, agrees⟩
      exact List.mem_append_right _ (List.mem_singleton_self _)
  unfold AppStore.applyStateEvent
  split
  · exact called rfl (.inl rfl)
  · rename_i n active
    split_ifs with gap
    · exact called rfl (.inr rfl)
    · obtain ⟨follows, shows⟩ := follows_applyTo h.live active told
      refine sound_delivered h cursor found follows.handled ?_ ?_
      · exact fun id view held shown => .inl (follows.shows id view held shown)
      · intro id view held said
        obtain ⟨rfl, reached, agrees⟩ := (says_of_stateEvent leads).mp said
        exact .inl (shows view held reached agrees)

theorem sound_deliver {next : World Info} (h : Sound ⟨backend, store⟩)
    (step : storeStep ⟨backend, store⟩ .deliver = some next) : Sound next := by
  simp only [storeStep] at step
  split at step
  · cases step
  · rename_i c cursor
    obtain ⟨event, found, rfl⟩ := Option.map_eq_some_iff.mp step
    have ignored (none : event.stateEvent? = none)
        (other : ∀ id batchId info totalSize revision,
          event ≠ .transferStarted id batchId info totalSize revision) :
        Sound ⟨backend, { store with cursor := some (c + 1) }⟩ := by
      refine sound_delivered h cursor found (Follows.refl h.live).handled ?_ ?_
      · exact fun id view _ shows => .inl shows
      · intro id view _ said
        cases event with
        | transferStarted => exact absurd rfl (other _ _ _ _ _)
        | _ =>
          obtain ⟨made, leads, _⟩ := said
          rw [none] at leads
          cases leads
    cases event with
    | transferStarted id batchId info totalSize revision => exact sound_started h cursor found
    | transferProgress id batchId bytes total revision => exact sound_progress h cursor found
    | transferIncoming id => exact ignored rfl (by simp)
    | state made => exact sound_state h cursor found rfl
    | transferError id batchId reasonCode revision =>
      cases leads :
          (.transferError id batchId reasonCode revision : RuntimeEvent Info).stateEvent? with
      | some made =>
        simp only [AppStore.dispatchRuntimeEvent, leads]
        exact sound_state h cursor found leads
      | none =>
        simp only [AppStore.dispatchRuntimeEvent, leads]
        exact ignored leads (by simp)

theorem sound_step {next : World Info} {l : Step Info} (h : Sound world) (recent : Recent world l)
    (step : storeStep world l = some next) : Sound next := by
  obtain ⟨backend, store⟩ := world
  cases l with
  | backend l =>
    obtain ⟨after, moved, rfl⟩ := Option.map_eq_some_iff.mp step
    obtain ⟨chronicle, later⟩ := chronicle_step h.chronicle moved
    exact sound_backend h chronicle later
  | init =>
    obtain rfl := Option.some.inj step
    exact sound_push h (fun _ none => by cases none) fun _ => trivial
  | refresh =>
    obtain rfl := Option.some.inj step
    exact sound_push h (fun _ none => by cases none) fun _ => trivial
  | deliver => exact sound_deliver h step
  | answer i => exact sound_answer h step
  | arrive i => exact sound_arrive h recent step
  | fail i => exact absurd recent id
  | list i => exact sound_list h step
  | resume i => exact sound_resume h recent step
  | subscribe i first => exact sound_subscribe h recent step

/-- The store is subscribed, every event was delivered, and no call is in flight. -/
def Settled (world : World Info) : Prop :=
  world.store.cursor = some world.backend.log.length ∧
    ∀ point ∈ world.store.calls, point = .done

/-- Each transfer that the backend holds is shown with its status and revision, unless it is an
incoming request that nobody has answered: those are queued for the user instead. -/
def Converged (world : World Info) : Prop :=
  ∀ id view, world.backend.transfers id = some view →
    Shows world.store id view ∨ Waits world.store id view

theorem sound_start : Sound (World.start : World Info) := by
  constructor
  case chronicle => constructor <;> simp [World.start]
  case live => simp [Live, World.start, AppStore.empty]
  case meant => simp [World.start, AppStore.empty]
  case phases => simp [World.start, AppStore.empty]
  case accounted => simp [World.start, AppStore.empty]

/-- In every run whose answers are recent, the store shows what the backend has once nothing is
outstanding. -/
theorem store_converges (h : Reaches storeStep Recent (World.start : World Info) world)
    (settled : Settled world) : Converged world := by
  have sound : Sound world := h.keeps (I := Sound) sound_start sound_step
  intro id view held
  rcases (sound.accounted _ settled.1).2 id view held with shows | ⟨j, ge, event, found, _⟩ |
      ⟨point, mem, event, awaits, _⟩ | waits
  · exact .inl shows
  · have bound : j < world.backend.log.length := (List.getElem?_eq_some_iff.mp found).1
    omega
  · obtain rfl := settled.2 point mem
    cases awaits
  · exact .inr waits

def startSteps : List (Step Unit) :=
  [.init, .answer 0, .arrive 0, .list 0, .resume 0, .subscribe 0 0,
    .backend (.create "t" none .send () 10), .deliver]

/-- A snapshot that was answered before the transfer is accepted arrives after that. -/
def staleSteps : List (Step Unit) :=
  startSteps ++ [.refresh, .answer 1, .backend (.change "t" .accepted), .deliver, .arrive 1, .list 1,
    .resume 1]

instance (world : World Unit) (l : Step Unit) : Decidable (Delivered world l) :=
  match l with
  | .fail _ => inferInstanceAs (Decidable False)
  | .subscribe i first =>
      match h : world.store.calls[i]? with
      | some (.subscribing taken) => decidable_of_iff (first ≤ taken) (by simp [Delivered, h])
      | none | some (.hydrating _) | some (.hydrateAnswered _ _) | some (.hydrated _ _)
      | some (.snapshotting _) | some (.snapshotAnswered _ _) | some (.listing _) | some (.listed _)
      | some .done => .isTrue (by simp [Delivered, h])
  | .backend _ | .init | .refresh | .deliver | .answer _ | .arrive _ | .list _ | .resume _ =>
      .isTrue trivial

/-- A stale snapshot is shown in the end: the revision falls from 1 to 0 and stays there. -/
theorem stale_snapshot_stays_shown :
    ∃ world, Reaches storeStep Delivered (World.start : World Unit) world ∧ Settled world ∧
      ((world.backend.transfers "t").map fun view => (view.status, view.revision)) =
        some (.transferring, 1) ∧
      ((world.store.shown "t").map fun task => (task.status, task.revision)) =
        some (.pendingAccept, 0) ∧ ¬ Converged world := by
  have played : (play storeStep Delivered (World.start : World Unit) staleSteps).isSome = true := by
    rfl
  refine ⟨_, reaches_of_play (Option.some_get played).symm, ⟨rfl, ?_⟩, rfl, rfl, ?_⟩
  · intro point mem
    have calls : ((play storeStep Delivered (World.start : World Unit) staleSteps).get
        played).store.calls = [.done, .done] := rfl
    rw [calls] at mem
    simpa using mem
  · intro converged
    rcases converged "t" _ rfl with ⟨task, shown, same, _⟩ | ⟨none, _⟩
    · obtain rfl := Option.some.inj shown
      cases same
    · cases none

theorem settled_of_calls (cursor : world.store.cursor = some world.backend.log.length)
    (calls : world.store.calls = [.done]) : Settled world := by
  refine ⟨cursor, ?_⟩
  intro point mem
  rw [calls] at mem
  exact List.mem_singleton.mp mem

theorem started_transfer_converges :
    ∃ world, Reaches storeStep Recent (World.start : World Unit) world ∧ Settled world ∧
      ((world.backend.transfers "t").map fun view => (view.status, view.revision)) =
        some (.pendingAccept, 0) ∧ Converged world := by
  have reached : ∃ world, Reaches storeStep Recent (World.start : World Unit) world ∧
      world.store.cursor = some world.backend.log.length ∧ world.store.calls = [.done] ∧
      ((world.backend.transfers "t").map fun view => (view.status, view.revision)) =
        some (.pendingAccept, 0) :=
    ⟨_, Relation.ReflTransGen.refl.tail ⟨.init, trivial, rfl⟩ |>.tail ⟨.answer 0, trivial, rfl⟩
      |>.tail ⟨.arrive 0, (fun id held => nomatch held), rfl⟩
      |>.tail ⟨.list 0, trivial, rfl⟩ |>.tail ⟨.resume 0, trivial, rfl⟩
      |>.tail ⟨.subscribe 0 0, by exact Nat.le_refl 0, rfl⟩
      |>.tail ⟨.backend (.create "t" none .send () 10), trivial, rfl⟩
      |>.tail ⟨.deliver, trivial, rfl⟩, rfl, rfl, rfl⟩
  obtain ⟨world, steps, cursor, calls, view⟩ := reached
  have settled := settled_of_calls cursor calls
  exact ⟨world, steps, settled, view, store_converges steps settled⟩

end Store

end DashDrop.Ui.Convergence
