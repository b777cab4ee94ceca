/- GID: DashDrop/Ui/Polling
   source: src/ipc.ts
   anchors: []
   digest: One shared poll loop, each event once, and a loop for every subscriber. -/

import DashDrop.Ipc.Frames
import DashDrop.Ui.SharedPoller

set_option autoImplicit false
set_option relaxedAutoImplicit false

namespace DashDrop.Ui.Polling

open DashDrop.Foundation DashDrop.Foundation.Transitions DashDrop.Foundation.Numbering
open DashDrop.Events.Journal DashDrop.Events.Feed DashDrop.Events.Replay DashDrop.Ui.SharedPoller

variable {Value : Type}

def looping : Point Value → Bool
  | .awaitEvents _ | .answered _ | .saving _ _ | .saved _ | .sleeping => true
  | .awaitCheckpoint _ | .loaded | .done => false

def scheduled : Point Value → Bool
  | .awaitCheckpoint _ | .loaded => true
  | _ => false

/-- The daemon counts on in its generation or starts one that it never had. -/
def Forward (d d' : Daemon) : Prop :=
  (d'.generation = d.generation ∧ d.latest ≤ d'.latest ∧ d'.past = d.past) ∨
    (d'.generation ∉ d.generation :: d.past ∧ d'.past = d.generation :: d.past)

/-- No subscription while an earlier call is on its way to the loop, and a daemon that reuses no
number. -/
def OneAtATime (page : Page Value) : PageStep Value → Prop
  | .subscribe _ => page.loopRunning = true ∨ ∀ point ∈ page.calls, scheduled point = false
  | .daemon daemon => Forward page.daemon daemon
  | _ => True

def Alone (i : ℕ) (point : Point Value) (calls : List (Point Value)) : Prop :=
  calls[i]? = some point ∧ ∀ j other, calls[j]? = some other → j ≠ i → other = .done

/-- No call is in flight, or one is on its way to the loop, or one is in it. -/
inductive Single (page : Page Value) : Prop where
  | idle (finished : ∀ point ∈ page.calls, point = .done) (stopped : page.loopRunning = false)
      (unheard : page.subscribers = [])
  | loading (i : ℕ) (point : Point Value) (alone : Alone i point page.calls)
      (phase : scheduled point = true) (stopped : page.loopRunning = false)
  | loops (i : ℕ) (point : Point Value) (alone : Alone i point page.calls)
      (phase : looping point = true) (runs : page.loopRunning = true)
      (stop : page.loopStopRequested = true → page.subscribers = [])

section Alone

variable {i j : ℕ} {point other next : Point Value} {calls : List (Point Value)}

theorem Alone.unique (h : Alone i point calls) (found : calls[j]? = some other)
    (flies : other ≠ .done) : j = i ∧ other = point := by
  have same : j = i := by
    by_contra ne
    exact flies (h.2 j other found ne)
  subst same
  exact ⟨rfl, Option.some.inj (found.symm.trans h.1)⟩

theorem Alone.set (h : Alone i point calls) (next : Point Value) :
    Alone i next (calls.set i next) := by
  have bound : i < calls.length := (List.getElem?_eq_some_iff.mp h.1).1
  constructor
  · rw [List.getElem?_set_self bound]
  · intro j other found ne
    rw [List.getElem?_set_ne (Ne.symm ne)] at found
    exact h.2 j other found ne

theorem Alone.finished (h : Alone i point calls) : ∀ other ∈ calls.set i .done, other = .done := by
  intro other mem
  obtain ⟨j, found⟩ := List.mem_iff_getElem?.mp mem
  by_cases same : j = i
  · subst same
    exact Option.some.inj (found.symm.trans (h.set .done).1)
  · exact (h.set .done).2 j other found same

theorem alone_push (finished : ∀ other ∈ calls, other = .done) (point : Point Value) :
    Alone calls.length point (calls ++ [point]) := by
  constructor
  · simp
  · intro j other found ne
    have bound : j < (calls ++ [point]).length := (List.getElem?_eq_some_iff.mp found).1
    rw [List.length_append, List.length_singleton] at bound
    rw [List.getElem?_append_left (by omega)] at found
    exact finished other (List.mem_of_getElem? found)

end Alone

section Step

variable {page next : Page Value} {i : ℕ} {point : Point Value}

theorem Single.of_call (h : Single page) (found : page.calls[i]? = some point)
    (flies : point ≠ .done) :
    Alone i point page.calls ∧
      ((scheduled point = true ∧ page.loopRunning = false) ∨
        (looping point = true ∧ page.loopRunning = true ∧
          (page.loopStopRequested = true → page.subscribers = []))) := by
  cases h with
  | idle finished _ _ => exact absurd (finished point (List.mem_of_getElem? found)) flies
  | loading j other alone phase stopped =>
    obtain ⟨rfl, rfl⟩ := alone.unique found flies
    exact ⟨alone, .inl ⟨phase, stopped⟩⟩
  | loops j other alone phase runs stop =>
    obtain ⟨rfl, rfl⟩ := alone.unique found flies
    exact ⟨alone, .inr ⟨phase, runs, stop⟩⟩

theorem Single.of_looping (h : Single page) (found : page.calls[i]? = some point)
    (flies : looping point = true) :
    Alone i point page.calls ∧ page.loopRunning = true ∧
      (page.loopStopRequested = true → page.subscribers = []) := by
  obtain ⟨alone, phase⟩ := h.of_call found (by rintro rfl; cases flies)
  refine ⟨alone, ?_⟩
  rcases phase with ⟨ahead, _⟩ | ⟨_, runs, stop⟩
  · cases point <;> first | (cases flies; done) | cases ahead
  · exact ⟨runs, stop⟩

theorem single_leaveLoop (alone : Alone i point page.calls) (unheard : page.subscribers = []) :
    Single (page.leaveLoop i) :=
  .idle alone.finished rfl unheard

theorem single_loopHead (alone : Alone i point page.calls) (runs : page.loopRunning = true)
    (stop : page.loopStopRequested = true → page.subscribers = []) :
    Single (page.loopHead i) := by
  unfold Page.loopHead
  split_ifs with asked
  · exact single_leaveLoop alone (stop asked)
  · exact .loops i _ (alone.set _) rfl runs stop

theorem single_loopTail (alone : Alone i point page.calls) (runs : page.loopRunning = true)
    (stop : page.loopStopRequested = true → page.subscribers = []) :
    Single (page.loopTail i) := by
  unfold Page.loopTail
  split_ifs with asked
  · refine single_leaveLoop alone ?_
    rcases asked with asked | unheard
    · exact stop asked
    · exact List.isEmpty_iff.mp unheard
  · exact .loops i _ (alone.set _) rfl runs stop

end Step

section Feed

def resting : Point Value → Bool
  | .saving _ _ | .saved _ => true
  | _ => false

theorem looping_of_resting {point : Point Value} (h : resting point = true) :
    looping point = true := by
  cases point <;> first | rfl | cases h

def deliveries (subscribers : List ℕ) (feed : RuntimeEventFeedSnapshot Value) :
    List (ℕ × Emitted Value) :=
  feed.events.flatMap fun event =>
    subscribers.map fun callback => (callback, .event feed.generation event)

def lastSeq (afterSeq : ℕ) (events : List (RuntimeEventEnvelope Value)) : ℕ :=
  events.foldl (fun afterSeq event => max afterSeq event.seq) afterSeq

theorem emit_events (feed : RuntimeEventFeedSnapshot Value) (events : List (RuntimeEventEnvelope Value))
    (page : Page Value) :
    events.foldl (fun page event =>
        Page.emitSharedDaemonRuntimeEvent (.event feed.generation event)
          { page with afterSeq := max page.afterSeq event.seq }) page =
      { page with
        afterSeq := lastSeq page.afterSeq events
        delivered := page.delivered ++ events.flatMap fun event =>
          page.subscribers.map fun callback => (callback, .event feed.generation event) } := by
  induction events generalizing page with
  | nil => simp [lastSeq]
  | cons event rest ih =>
    rw [List.foldl_cons, ih]
    simp [Page.emitSharedDaemonRuntimeEvent, lastSeq]

theorem persist_cases (now : ℕ) (after : AfterSave Value) (page : Page Value) :
    ∃ point, resting point = true ∧ page.persistSharedDaemonEventCheckpoint now after =
      (page.persistDaemonEventCursor, point) := by
  unfold Page.persistSharedDaemonEventCheckpoint
  simp only
  split_ifs
  · exact ⟨_, rfl, rfl⟩
  · exact ⟨_, rfl, rfl⟩

/-- The notice that the daemon is back, where its loss was announced. -/
def recovery (page : Page Value) : List (ℕ × Emitted Value) :=
  if page.unavailableNotified then page.subscribers.map fun callback => (callback, .recovered) else []

theorem noteAnswer_eq (feed : RuntimeEventFeedSnapshot Value) (page : Page Value) :
    page.noteAnswer feed = { page with
      failureCount := 0
      unavailableNotified := false
      generation := some feed.generation
      delivered := page.delivered ++ recovery page } := by
  unfold Page.noteAnswer recovery
  split_ifs
  · rfl
  · simp

/-- What an answer does: it moves the cursor to the end, or it is passed on event by event. -/
inductive Taken (i : ℕ) (feed : RuntimeEventFeedSnapshot Value) (page next : Page Value) : Prop where
  | skipped (point : Point Value) (storage : PersistedDaemonEventCursor)
      (rests : resting point = true)
      (same : next = { page with
        failureCount := 0
        unavailableNotified := false
        generation := some feed.generation
        afterSeq := feed.latestAvailableSeq
        delivered := page.delivered ++ recovery page
        storage := storage
        calls := page.calls.set i point })
  | passed (point : Point Value) (storage : PersistedDaemonEventCursor)
      (rests : resting point = true)
      (current : page.generation = none ∨ page.generation = some feed.generation)
      (same : next = { page with
        failureCount := 0
        unavailableNotified := false
        generation := some feed.generation
        afterSeq := lastSeq page.afterSeq feed.events
        delivered := page.delivered ++ recovery page ++ deliveries page.subscribers feed
        storage := storage
        calls := page.calls.set i point })

theorem taken_of_takeFeed (i now : ℕ) (feed : RuntimeEventFeedSnapshot Value) (page : Page Value) :
    Taken i feed page (page.takeFeed i now feed) := by
  unfold Page.takeFeed
  simp only
  rw [noteAnswer_eq]
  by_cases asked : feed.resyncRequired = true ∨
      (page.generation ≠ none ∧ page.generation ≠ some feed.generation)
  · rw [if_pos asked, Page.skipToLatest]
    obtain ⟨point, rests, same⟩ := persist_cases now
      (.resync feed (if page.generation ≠ none ∧ page.generation ≠ some feed.generation then
        "generation_changed" else "cursor_invalid"))
      { page with
        failureCount := 0
        unavailableNotified := false
        generation := some feed.generation
        afterSeq := feed.latestAvailableSeq
        delivered := page.delivered ++ recovery page }
    simp only [same]
    exact .skipped point _ rests rfl
  · rw [if_neg asked, Page.passOn]
    simp only
    rw [emit_events]
    obtain ⟨point, rests, same⟩ := persist_cases now .nothing
      { page with
        failureCount := 0
        unavailableNotified := false
        generation := some feed.generation
        afterSeq := lastSeq page.afterSeq feed.events
        delivered := page.delivered ++ recovery page ++ deliveries page.subscribers feed }
    have current : page.generation = none ∨ page.generation = some feed.generation := by
      by_contra other
      exact asked (.inr (not_or.mp other))
    refine .passed point ⟨lastSeq page.afterSeq feed.events, some feed.generation⟩ rests current ?_
    exact congrArg (fun saved => Page.setCall i saved.2 saved.1) same

end Feed

def receivedEvent : ℕ × Emitted Value → Option (ℕ × String × ℕ)
  | (callback, .event generation envelope) => some (callback, generation, envelope.seq)
  | _ => none

def received (page : Page Value) : List (ℕ × String × ℕ) := page.delivered.filterMap receivedEvent

structure Alike (page next : Page Value) : Prop where
  subscribers : next.subscribers = page.subscribers
  loopRunning : next.loopRunning = page.loopRunning
  loopStopRequested : next.loopStopRequested = page.loopStopRequested
  calls : next.calls = page.calls
  afterSeq : next.afterSeq = page.afterSeq
  generation : next.generation = page.generation
  daemon : next.daemon = page.daemon
  received : received next = received page

section Notices

variable {page : Page Value}

theorem filterMap_notice (subscribers : List ℕ) {notice : Emitted Value}
    (synthetic : ∀ callback, receivedEvent (callback, notice) = none) :
    (subscribers.map fun callback => (callback, notice)).filterMap receivedEvent = [] := by
  induction subscribers with
  | nil => rfl
  | cons callback rest ih => simp [synthetic, ih]

theorem alike_emit {notice : Emitted Value}
    (synthetic : ∀ callback, receivedEvent (callback, notice) = none) :
    Alike page (page.emitSharedDaemonRuntimeEvent notice) := by
  refine ⟨rfl, rfl, rfl, rfl, rfl, rfl, rfl, ?_⟩
  simp [received, Page.emitSharedDaemonRuntimeEvent, filterMap_notice _ synthetic]

theorem received_recovery (page : Page Value) :
    (recovery page).filterMap receivedEvent = [] := by
  unfold recovery
  split_ifs
  · exact filterMap_notice _ fun _ => rfl
  · rfl

theorem feedFailed_eq (i : ℕ) (page : Page Value) :
    ∃ base, Alike page base ∧ page.feedFailed i = base.loopTail i := by
  unfold Page.feedFailed
  simp only
  split_ifs
  · exact ⟨page, ⟨rfl, rfl, rfl, rfl, rfl, rfl, rfl, rfl⟩, rfl⟩
  · let base : Page Value :=
      { page with failureCount := page.failureCount + 1, unavailableNotified := true }
    have alike : Alike base (base.emitSharedDaemonRuntimeEvent .unavailable) :=
      alike_emit fun _ => rfl
    exact ⟨_, ⟨alike.1, alike.2, alike.3, alike.4, alike.5, alike.6, alike.7, alike.8⟩, rfl⟩
  · let base : Page Value := { page with failureCount := page.failureCount + 1 }
    exact ⟨base, ⟨rfl, rfl, rfl, rfl, rfl, rfl, rfl, rfl⟩, rfl⟩

end Notices

section Runs

variable {page next : Page Value} {l : PageStep Value}

def addSubscriber (callback : ℕ) (page : Page Value) : List ℕ :=
  if callback ∈ page.subscribers then page.subscribers else page.subscribers ++ [callback]

theorem subscribe_eq (callback : ℕ) (page : Page Value) :
    page.subscribeDaemonRuntimeEvents callback =
      if page.loopRunning then
        { page with subscribers := addSubscriber callback page, loopStopRequested := false }
      else { page with
        subscribers := addSubscriber callback page
        calls := page.calls ++ [page.loadSharedDaemonEventCursor] } := by
  obtain ⟨subs, afterSeq, running, stop, _, _, _, _, _, _, _, _, _, _⟩ := page
  cases running
  · rfl
  · simp only [Page.subscribeDaemonRuntimeEvents, Page.ensureSharedDaemonRuntimeEventLoop, if_true]
    split_ifs <;> simp [addSubscriber, *]

theorem single_subscribe (h : Single page) (callback : ℕ)
    (allowed : page.loopRunning = true ∨ ∀ point ∈ page.calls, scheduled point = false) :
    Single (page.subscribeDaemonRuntimeEvents callback) := by
  have load : scheduled page.loadSharedDaemonEventCursor = true := by
    unfold Page.loadSharedDaemonEventCursor
    split_ifs <;> rfl
  rw [subscribe_eq]
  cases h with
  | idle finished stopped unheard =>
    rw [if_neg (by simp [stopped])]
    exact .loading page.calls.length _ (alone_push finished _) load stopped
  | loading i point alone phase stopped =>
    rcases allowed with runs | free
    · rw [stopped] at runs
      cases runs
    · rw [free point (List.mem_of_getElem? alone.1)] at phase
      cases phase
  | loops i point alone phase runs stop =>
    rw [if_pos runs]
    exact .loops i point alone phase runs fun asked => by cases asked

theorem single_unsubscribe (h : Single page) (callback : ℕ) : Single (page.unsubscribe callback) := by
  cases h with
  | idle finished stopped unheard =>
    refine .idle finished stopped ?_
    simp [Page.unsubscribe, unheard]
  | loading i point alone phase stopped => exact .loading i point alone phase stopped
  | loops i point alone phase runs stop =>
    refine .loops i point alone phase runs ?_
    simp only [Page.unsubscribe]
    split_ifs with unheard
    · exact fun _ => List.isEmpty_iff.mp unheard
    · intro asked
      rw [stop asked]
      rfl

theorem single_step (h : Single page) (allowed : OneAtATime page l)
    (step : pageStep page l = some next) : Single next := by
  cases l with
  | subscribe callback =>
    obtain rfl := Option.some.inj step
    exact single_subscribe h callback allowed
  | unsubscribe callback =>
    obtain rfl := Option.some.inj step
    exact single_unsubscribe h callback
  | checkpoint i reply =>
    simp only [pageStep] at step
    split at step
    · rename_i localCursor found
      obtain rfl := Option.some.inj step
      obtain ⟨alone, phase⟩ := h.of_call found (by simp)
      rcases phase with ⟨_, stopped⟩ | ⟨looped, _⟩
      · exact .loading i .loaded (alone.set _) rfl stopped
      · cases looped
    · cases step
  | enter i =>
    simp only [pageStep] at step
    split at step
    · rename_i found
      obtain rfl := Option.some.inj step
      exact single_loopHead (h.of_call found (by simp)).1 rfl fun asked => by cases asked
    · cases step
  | answer i feed =>
    simp only [pageStep] at step
    split at step
    · rename_i asked found
      split at step
      · obtain rfl := Option.some.inj step
        obtain ⟨alone, runs, stop⟩ := h.of_looping found rfl
        exact .loops i _ (alone.set _) rfl runs stop
      · cases step
    · cases step
  | arrive i now =>
    simp only [pageStep] at step
    split at step
    · rename_i feed found
      obtain rfl := Option.some.inj step
      obtain ⟨alone, runs, stop⟩ := h.of_looping found rfl
      cases taken_of_takeFeed i now feed page with
      | skipped point storage rests same =>
        rw [same]
        exact .loops i point (alone.set _) (looping_of_resting rests) runs stop
      | passed point storage rests current same =>
        rw [same]
        exact .loops i point (alone.set _) (looping_of_resting rests) runs stop
    · cases step
  | fail i =>
    have failed {point : Point Value} (found : page.calls[i]? = some point)
        (flies : looping point = true) : Single (page.feedFailed i) := by
      obtain ⟨base, alike, same⟩ := feedFailed_eq i page
      obtain ⟨alone, runs, stop⟩ := h.of_looping found flies
      rw [same]
      exact single_loopTail (alike.calls ▸ alone) (alike.loopRunning ▸ runs)
        (by rwa [alike.loopStopRequested, alike.subscribers])
    simp only [pageStep] at step
    split at step
    · rename_i found
      obtain rfl := Option.some.inj step
      exact failed found rfl
    · rename_i found
      obtain rfl := Option.some.inj step
      exact failed found rfl
    · cases step
  | save i ok =>
    simp only [pageStep] at step
    split at step
    · rename_i now after found
      obtain rfl := Option.some.inj step
      obtain ⟨alone, runs, stop⟩ := h.of_looping found rfl
      unfold Page.checkpointSaved
      split_ifs
      · exact .loops i _ (alone.set _) rfl runs stop
      · exact .loops i _ (alone.set _) rfl runs stop
    · cases step
  | saved i =>
    simp only [pageStep] at step
    split at step
    · rename_i after found
      obtain rfl := Option.some.inj step
      obtain ⟨alone, runs, stop⟩ := h.of_looping found rfl
      cases after with
      | nothing => exact single_loopTail alone runs stop
      | resync feed reason =>
        have same : Alone i (.saved (.resync feed reason))
            (page.emitSharedDaemonRuntimeEvent (.resync feed reason)).calls := alone
        exact single_loopTail same runs stop
    · cases step
  | wake i =>
    simp only [pageStep] at step
    split at step
    · rename_i found
      obtain rfl := Option.some.inj step
      obtain ⟨alone, runs, stop⟩ := h.of_looping found rfl
      exact single_loopHead alone runs stop
    · cases step
  | daemon daemon =>
    obtain rfl := Option.some.inj step
    cases h with
    | idle finished stopped unheard => exact .idle finished stopped unheard
    | loading i point alone phase stopped => exact .loading i point alone phase stopped
    | loops i point alone phase runs stop => exact .loops i point alone phase runs stop

end Runs

/-- A number that the daemon has handed out. -/
def Known (daemon : Daemon) (generation : String) (seq : ℕ) : Prop :=
  (generation = daemon.generation ∧ seq ≤ daemon.latest) ∨ generation ∈ daemon.past

/-- What was received lies behind the cursor and was handed out by the daemon. -/
structure Reads (daemon : Daemon) (generation : Option String) (afterSeq : ℕ)
    (got : List (ℕ × String × ℕ)) : Prop where
  fresh : daemon.generation ∉ daemon.past
  once : got.Nodup
  known : ∀ x ∈ got, Known daemon x.2.1 x.2.2
  covered : ∀ x ∈ got, generation = some x.2.1 → x.2.2 ≤ afterSeq
  unread : generation = none → got = []

/-- What a call in flight still knows when it goes on. -/
def Fits (daemon : Daemon) (generation : Option String) (afterSeq : ℕ)
    (got : List (ℕ × String × ℕ)) : Point Value → Prop
  | .awaitCheckpoint _ => generation = none
  | .awaitEvents asked => asked = afterSeq
  | .answered feed =>
      (feed.events.map RuntimeEventEnvelope.seq).Pairwise (· < ·) ∧
        (∀ event ∈ feed.events, afterSeq < event.seq ∧ event.seq ≤ feed.latestAvailableSeq) ∧
        (∀ x ∈ got, x.2.1 = feed.generation → x.2.2 ≤ feed.latestAvailableSeq) ∧
        Known daemon feed.generation feed.latestAvailableSeq
  | _ => True

structure Numbers (page : Page Value) : Prop where
  distinct : page.subscribers.Nodup
  reads : Reads page.daemon page.generation page.afterSeq (received page)
  flight : ∀ point ∈ page.calls,
    Fits page.daemon page.generation page.afterSeq (received page) point

section Numbers

variable {daemon daemon' : Daemon} {generation : Option String} {afterSeq seq : ℕ} {g : String}
  {got : List (ℕ × String × ℕ)} {page next : Page Value} {i : ℕ} {point : Point Value}
  {l : PageStep Value}

theorem Known.forward (h : Known daemon g seq) (forward : Forward daemon daemon') :
    Known daemon' g seq := by
  rcases forward with ⟨same, grown, past⟩ | ⟨_, past⟩
  · rcases h with ⟨here, le⟩ | gone
    · exact .inl ⟨here.trans same.symm, le.trans grown⟩
    · exact .inr (past ▸ gone)
  · rcases h with ⟨here, _⟩ | gone
    · exact .inr (by simp [past, here])
    · exact .inr (by simp [past, gone])

theorem Known.mono (h : Known daemon g seq) {n : ℕ} (le : n ≤ seq) : Known daemon g n := by
  rcases h with ⟨here, bound⟩ | gone
  · exact .inl ⟨here, le.trans bound⟩
  · exact .inr gone

theorem Reads.nil (fresh : daemon.generation ∉ daemon.past) :
    Reads daemon generation afterSeq [] := by
  constructor <;> simp [fresh]

theorem Reads.forward (h : Reads daemon generation afterSeq got) (forward : Forward daemon daemon') :
    Reads daemon' generation afterSeq got := by
  refine ⟨?_, h.once, fun x mem => (h.known x mem).forward forward, h.covered, h.unread⟩
  rcases forward with ⟨same, _, past⟩ | ⟨unused, past⟩
  · rw [same, past]
    exact h.fresh
  · rw [past]
    exact unused

theorem Fits.forward (h : Fits daemon generation afterSeq got point)
    (forward : Forward daemon daemon') : Fits daemon' generation afterSeq got point := by
  cases point with
  | answered feed => exact ⟨h.1, h.2.1, h.2.2.1, h.2.2.2.forward forward⟩
  | _ => exact h

theorem Reads.skip (h : Reads daemon generation afterSeq got) {feed : RuntimeEventFeedSnapshot Value}
    (fits : Fits daemon generation afterSeq got (.answered feed)) :
    Reads daemon (some feed.generation) feed.latestAvailableSeq got := by
  refine ⟨h.fresh, h.once, h.known, ?_, by simp⟩
  intro x mem same
  exact fits.2.2.1 x mem (Option.some.inj same).symm

theorem le_lastSeq (afterSeq : ℕ) (events : List (RuntimeEventEnvelope Value)) :
    afterSeq ≤ lastSeq afterSeq events ∧ ∀ event ∈ events, event.seq ≤ lastSeq afterSeq events := by
  induction events generalizing afterSeq with
  | nil => simp [lastSeq]
  | cons event rest ih =>
    have step := ih (max afterSeq event.seq)
    have same : lastSeq afterSeq (event :: rest) = lastSeq (max afterSeq event.seq) rest := rfl
    rw [same]
    constructor
    · omega
    · intro other mem
      rcases List.mem_cons.mp mem with rfl | mem
      · omega
      · exact step.2 other mem

def brought (subscribers : List ℕ) (feed : RuntimeEventFeedSnapshot Value) :
    List (ℕ × String × ℕ) :=
  feed.events.flatMap fun event =>
    subscribers.map fun callback => (callback, feed.generation, event.seq)

theorem received_deliveries (subscribers : List ℕ) (feed : RuntimeEventFeedSnapshot Value) :
    (deliveries subscribers feed).filterMap receivedEvent = brought subscribers feed := by
  have each (event : RuntimeEventEnvelope Value) :
      (subscribers.map fun callback => (callback, Emitted.event feed.generation event)).filterMap
          receivedEvent =
        subscribers.map fun callback => (callback, feed.generation, event.seq) := by
    rw [List.filterMap_map]
    exact congrFun List.filterMap_eq_map' subscribers
  unfold deliveries brought
  rw [List.filterMap_flatMap]
  simp only [each]

theorem mem_brought {subscribers : List ℕ} {feed : RuntimeEventFeedSnapshot Value}
    {x : ℕ × String × ℕ} (mem : x ∈ brought subscribers feed) :
    x.2.1 = feed.generation ∧ ∃ event ∈ feed.events, x.2.2 = event.seq := by
  simp only [brought, List.mem_flatMap, List.mem_map] at mem
  obtain ⟨event, listed, callback, _, rfl⟩ := mem
  exact ⟨rfl, event, listed, rfl⟩

theorem nodup_brought {subscribers : List ℕ} (distinct : subscribers.Nodup)
    {feed : RuntimeEventFeedSnapshot Value}
    (ascending : (feed.events.map RuntimeEventEnvelope.seq).Pairwise (· < ·)) :
    (brought subscribers feed).Nodup := by
  refine List.nodup_flatMap.mpr ⟨?_, ?_⟩
  · intro event _
    refine distinct.map ?_
    intro a b same
    exact (Prod.mk.inj same).1
  · refine (List.pairwise_map.mp ascending).imp ?_
    intro event other less x left right
    obtain ⟨_, _, rfl⟩ := List.mem_map.mp left
    obtain ⟨_, _, same⟩ := List.mem_map.mp right
    simp only [Prod.mk.injEq] at same
    omega

theorem Reads.pass (h : Reads daemon generation afterSeq got) {feed : RuntimeEventFeedSnapshot Value}
    (fits : Fits daemon generation afterSeq got (.answered feed))
    (current : generation = none ∨ generation = some feed.generation) {subscribers : List ℕ}
    (distinct : subscribers.Nodup) :
    Reads daemon (some feed.generation) (lastSeq afterSeq feed.events)
      (got ++ brought subscribers feed) := by
  obtain ⟨ascending, later, _, known⟩ := fits
  have behind : ∀ x ∈ got, x.2.1 = feed.generation → x.2.2 ≤ afterSeq := by
    intro x mem same
    rcases current with none | here
    · rw [h.unread none] at mem
      cases mem
    · exact h.covered x mem (by rw [here, same])
  have last := le_lastSeq afterSeq feed.events
  constructor
  case fresh => exact h.fresh
  case once =>
    refine List.nodup_append.mpr ⟨h.once, nodup_brought distinct ascending, ?_⟩
    rintro x old _ new rfl
    obtain ⟨same, event, listed, seq⟩ := mem_brought new
    have := behind x old same
    have := (later event listed).1
    omega
  case known =>
    intro x mem
    rcases List.mem_append.mp mem with old | new
    · exact h.known x old
    · obtain ⟨same, event, listed, seq⟩ := mem_brought new
      rw [same, seq]
      exact known.mono (later event listed).2
  case covered =>
    intro x mem same
    rcases List.mem_append.mp mem with old | new
    · exact (behind x old (Option.some.inj same).symm).trans last.1
    · obtain ⟨_, event, listed, seq⟩ := mem_brought new
      rw [seq]
      exact last.2 event listed
  case unread => simp

theorem Numbers.at {calls : List (Point Value)} {after : Point Value} (alone : Alone i point calls)
    (moved : page.calls = calls.set i after) (distinct : page.subscribers.Nodup)
    (reads : Reads page.daemon page.generation page.afterSeq (received page))
    (fits : Fits page.daemon page.generation page.afterSeq (received page) after) :
    Numbers page := by
  refine ⟨distinct, reads, ?_⟩
  intro other mem
  rw [moved] at mem
  obtain ⟨j, found⟩ := List.mem_iff_getElem?.mp mem
  by_cases same : j = i
  · subst same
    rw [Option.some.inj (found.symm.trans (alone.set after).1)]
    exact fits
  · rw [(alone.set after).2 j other found same]
    trivial

theorem numbers_leaveLoop (alone : Alone i point page.calls) (distinct : page.subscribers.Nodup)
    (reads : Reads page.daemon page.generation page.afterSeq (received page)) :
    Numbers (page.leaveLoop i) :=
  .at alone rfl distinct reads trivial

theorem numbers_loopHead (alone : Alone i point page.calls) (distinct : page.subscribers.Nodup)
    (reads : Reads page.daemon page.generation page.afterSeq (received page)) :
    Numbers (page.loopHead i) := by
  unfold Page.loopHead
  split_ifs
  · exact numbers_leaveLoop alone distinct reads
  · exact .at alone rfl distinct reads rfl

theorem numbers_loopTail (alone : Alone i point page.calls) (distinct : page.subscribers.Nodup)
    (reads : Reads page.daemon page.generation page.afterSeq (received page)) :
    Numbers (page.loopTail i) := by
  unfold Page.loopTail
  split_ifs
  · exact numbers_leaveLoop alone distinct reads
  · exact .at alone rfl distinct reads trivial

theorem numbers_loopTail_alike (h : Numbers page) (alone : Alone i point page.calls)
    (alike : Alike page next) : Numbers (next.loopTail i) := by
  have reads := h.reads
  rw [← alike.daemon, ← alike.generation, ← alike.afterSeq, ← alike.received] at reads
  exact numbers_loopTail (alike.calls ▸ alone) (alike.subscribers ▸ h.distinct) reads

theorem numbers_subscribe (h : Numbers page) (callback : ℕ) :
    Numbers (page.subscribeDaemonRuntimeEvents callback) := by
  have distinct : (addSubscriber callback page).Nodup := by
    unfold addSubscriber
    split_ifs with listed
    · exact h.distinct
    · rw [List.nodup_append]
      refine ⟨h.distinct, List.nodup_singleton _, ?_⟩
      intro a mem b added same
      exact listed ((same.trans (List.mem_singleton.mp added)) ▸ mem)
  rw [subscribe_eq]
  split_ifs
  · exact ⟨distinct, h.reads, h.flight⟩
  · refine ⟨distinct, h.reads, ?_⟩
    intro point mem
    rcases List.mem_append.mp mem with old | new
    · exact h.flight point old
    · obtain rfl := List.mem_singleton.mp new
      unfold Page.loadSharedDaemonEventCursor
      split_ifs with known
      · trivial
      · exact Classical.not_not.mp (not_or.mp known).2

theorem fits_answer (reads : Reads daemon generation afterSeq got)
    {feed : RuntimeEventFeedSnapshot Value} (honest : Honest daemon afterSeq feed) :
    Fits daemon generation afterSeq got (.answered feed) := by
  obtain ⟨here, latest, ascending, later, _⟩ := honest
  refine ⟨ascending, ?_, ?_, ?_⟩
  · rw [latest]
    exact later
  · intro x mem same
    rw [latest]
    rcases reads.known x mem with ⟨_, le⟩ | gone
    · exact le
    · rw [same, here] at gone
      exact absurd gone reads.fresh
  · exact .inl ⟨here, latest.le⟩

theorem numbers_arrive (h : Numbers page) {feed : RuntimeEventFeedSnapshot Value}
    (alone : Alone i (.answered feed) page.calls) (now : ℕ) :
    Numbers (page.takeFeed i now feed) := by
  have fits := h.flight _ (List.mem_of_getElem? alone.1)
  have rested {point : Point Value} (rests : resting point = true) (daemon generation afterSeq got) :
      Fits daemon generation afterSeq got point := by
    cases point <;> trivial
  cases taken_of_takeFeed i now feed page with
  | skipped point storage rests same =>
    have got : received (page.takeFeed i now feed) = received page := by
      simp [same, received, received_recovery]
    have reads := h.reads.skip fits
    rw [← got] at reads
    rw [same] at reads ⊢
    exact .at alone rfl h.distinct reads (rested rests ..)
  | passed point storage rests current same =>
    have got : received (page.takeFeed i now feed) =
        received page ++ brought page.subscribers feed := by
      simp [same, received, received_recovery, received_deliveries]
    have reads := h.reads.pass fits current h.distinct
    rw [← got] at reads
    rw [same] at reads ⊢
    exact .at alone rfl h.distinct reads (rested rests ..)

theorem numbers_step (single : Single page) (h : Numbers page) (allowed : OneAtATime page l)
    (step : pageStep page l = some next) : Numbers next := by
  cases l with
  | subscribe callback =>
    obtain rfl := Option.some.inj step
    exact numbers_subscribe h callback
  | unsubscribe callback =>
    obtain rfl := Option.some.inj step
    exact ⟨h.distinct.filter _, h.reads, h.flight⟩
  | checkpoint i reply =>
    simp only [pageStep] at step
    split at step
    · rename_i localCursor found
      obtain rfl := Option.some.inj step
      -- The cursor is read from storage only while nothing was received.
      have none : page.generation = none := h.flight _ (List.mem_of_getElem? found)
      have empty : received ((page.loadCheckpoint localCursor reply).setCall i .loaded) = [] :=
        h.reads.unread none
      refine .at (single.of_call found (by simp)).1 rfl h.distinct ?_ trivial
      rw [empty]
      exact .nil h.reads.fresh
    · cases step
  | enter i =>
    simp only [pageStep] at step
    split at step
    · rename_i found
      obtain rfl := Option.some.inj step
      exact numbers_loopHead (single.of_call found (by simp)).1 h.distinct h.reads
    · cases step
  | answer i feed =>
    simp only [pageStep] at step
    split at step
    · rename_i asked found
      split at step
      · rename_i honest
        obtain rfl := Option.some.inj step
        have cursor : asked = page.afterSeq := h.flight _ (List.mem_of_getElem? found)
        rw [cursor] at honest
        exact .at (single.of_looping found rfl).1 rfl h.distinct h.reads (fits_answer h.reads honest)
      · cases step
    · cases step
  | arrive i now =>
    simp only [pageStep] at step
    split at step
    · rename_i feed found
      obtain rfl := Option.some.inj step
      exact numbers_arrive h (single.of_looping found rfl).1 now
    · cases step
  | fail i =>
    have failed {point : Point Value} (found : page.calls[i]? = some point)
        (flies : looping point = true) : Numbers (page.feedFailed i) := by
      obtain ⟨base, alike, same⟩ := feedFailed_eq i page
      rw [same]
      exact numbers_loopTail_alike h (single.of_looping found flies).1 alike
    simp only [pageStep] at step
    split at step
    · rename_i found
      obtain rfl := Option.some.inj step
      exact failed found rfl
    · rename_i found
      obtain rfl := Option.some.inj step
      exact failed found rfl
    · cases step
  | save i ok =>
    simp only [pageStep] at step
    split at step
    · rename_i now after found
      obtain rfl := Option.some.inj step
      have alone := (single.of_looping found rfl).1
      unfold Page.checkpointSaved
      split_ifs
      · exact .at alone rfl h.distinct h.reads trivial
      · exact .at alone rfl h.distinct h.reads trivial
    · cases step
  | saved i =>
    simp only [pageStep] at step
    split at step
    · rename_i after found
      obtain rfl := Option.some.inj step
      have alone := (single.of_looping found rfl).1
      cases after with
      | nothing => exact numbers_loopTail alone h.distinct h.reads
      | resync feed reason => exact numbers_loopTail_alike h alone (alike_emit fun _ => rfl)
    · cases step
  | wake i =>
    simp only [pageStep] at step
    split at step
    · rename_i found
      obtain rfl := Option.some.inj step
      exact numbers_loopHead (single.of_looping found rfl).1 h.distinct h.reads
    · cases step
  | daemon daemon =>
    obtain rfl := Option.some.inj step
    exact ⟨h.distinct, h.reads.forward allowed,
      fun point mem => (h.flight point mem).forward allowed⟩

end Numbers

section Main

/-- One loop at most, no event twice at a subscriber, and a loop for every subscriber. -/
def Served (page : Page Value) : Prop :=
  page.calls.countP looping ≤ 1 ∧
    (∀ callback generation seq, (received page).count (callback, generation, seq) ≤ 1) ∧
    (page.subscribers ≠ [] → ∃ point ∈ page.calls, looping point = true ∨ scheduled point = true)

variable {page : Page Value}

theorem countP_of_alone {i : ℕ} {point : Point Value} {calls : List (Point Value)}
    (alone : Alone i point calls) : calls.countP looping ≤ 1 := by
  induction calls generalizing i with
  | nil => simp
  | cons head rest ih =>
    cases i with
    | zero =>
      have finished : ∀ other ∈ rest, ¬ looping other = true := by
        intro other mem
        obtain ⟨j, found⟩ := List.mem_iff_getElem?.mp mem
        rw [alone.2 (j + 1) other (by simpa using found) (by omega)]
        simp [looping]
      rw [List.countP_cons, List.countP_eq_zero.mpr finished]
      split_ifs <;> omega
    | succ i =>
      have ended : head = .done := alone.2 0 head rfl (by omega)
      have tail : Alone i point rest := by
        refine ⟨by simpa using alone.1, ?_⟩
        intro j other found ne
        exact alone.2 (j + 1) other (by simpa using found) (by omega)
      rw [ended, List.countP_cons_of_neg (by simp [looping])]
      exact ih tail

theorem served_of (single : Single page) (numbers : Numbers page) : Served page := by
  refine ⟨?_, fun callback generation seq => List.nodup_iff_count_le_one.mp numbers.reads.once _, ?_⟩
  · cases single with
    | idle finished _ _ =>
      rw [List.countP_eq_zero.mpr fun point mem => by simp [finished point mem, looping]]
      omega
    | loading _ _ alone _ _ => exact countP_of_alone alone
    | loops _ _ alone _ _ _ => exact countP_of_alone alone
  · intro heard
    cases single with
    | idle _ _ unheard => exact absurd unheard heard
    | loading _ point alone phase _ => exact ⟨point, List.mem_of_getElem? alone.1, .inr phase⟩
    | loops _ point alone phase _ _ => exact ⟨point, List.mem_of_getElem? alone.1, .inl phase⟩

/-- In every run in which no one subscribes while an earlier call still loads the cursor and the
daemon reuses no number, one loop at most is running, no event comes twice to a subscriber, and a
loop is running or scheduled while there is a subscriber. -/
theorem shared_poller_serves {storage : PersistedDaemonEventCursor} {generation : String}
    {latest : ℕ}
    (h : Reaches pageStep OneAtATime (Page.start storage ⟨generation, latest, []⟩ : Page Value) page) :
    Served page := by
  have inv : Single page ∧ Numbers page := by
    refine h.keeps (I := fun page => Single page ∧ Numbers page) ⟨?_, ?_⟩ ?_
    · exact .idle (by simp [Page.start]) rfl rfl
    · exact ⟨List.nodup_nil, .nil (by simp [Page.start]), by simp [Page.start]⟩
    · intro a b l holds allowed step
      exact ⟨single_step holds.1 allowed step, numbers_step holds.1 holds.2 allowed step⟩
  exact served_of inv.1 inv.2

instance (d d' : Daemon) : Decidable (Forward d d') :=
  inferInstanceAs (Decidable (_ ∨ _))

instance (page : Page ℕ) (l : PageStep ℕ) : Decidable (OneAtATime page l) :=
  match l with
  | .subscribe _ => inferInstanceAs (Decidable (_ ∨ _))
  | .daemon daemon => inferInstanceAs (Decidable (Forward page.daemon daemon))
  | .unsubscribe _ | .checkpoint _ _ | .enter _ | .answer _ _ | .arrive _ _ | .fail _ | .save _ _
  | .saved _ | .wake _ => .isTrue trivial

/-- Every step but those of a daemon that would reuse a number. -/
def FreshNumbers (page : Page Value) : PageStep Value → Prop
  | .daemon daemon => Forward page.daemon daemon
  | _ => True

instance (page : Page ℕ) (l : PageStep ℕ) : Decidable (FreshNumbers page l) :=
  match l with
  | .daemon daemon => inferInstanceAs (Decidable (Forward page.daemon daemon))
  | .subscribe _ | .unsubscribe _ | .checkpoint _ _ | .enter _ | .answer _ _ | .arrive _ _ | .fail _
  | .save _ _ | .saved _ | .wake _ => .isTrue trivial

def oneEventFeed : RuntimeEventFeedSnapshot ℕ :=
  ⟨[⟨1, "transfer_started", 0, 5⟩], "g", some 1, 1, false, .memoryHotWindow, none⟩

def emptyPage : Page ℕ := .start ⟨0, none⟩ ⟨"g", 1, []⟩

def oneSubscriber : List (PageStep ℕ) :=
  [.subscribe 7, .checkpoint 0 none, .enter 0, .answer 0 oneEventFeed, .arrive 0 9, .save 0 true,
    .saved 0, .wake 0]

/-- A second subscription while the first still waits for its checkpoint. -/
def twoSubscribers : List (PageStep ℕ) :=
  [.subscribe 7, .subscribe 8, .checkpoint 0 none, .checkpoint 1 none, .enter 0, .enter 1,
    .answer 0 oneEventFeed, .answer 1 oneEventFeed, .arrive 0 9, .arrive 1 9]

def oneSubscriberPage : Page ℕ :=
  { subscribers := [7], afterSeq := 1, loopRunning := true, loopStopRequested := false
    failureCount := 0, unavailableNotified := false, generation := some "g"
    checkpointPersistedAfterSeq := some 1, checkpointPersistedGeneration := some (some "g")
    checkpointPersistedAtUnixMs := 9, storage := ⟨1, some "g"⟩, calls := [.awaitEvents 1]
    delivered := [(7, .event "g" ⟨1, "transfer_started", 0, 5⟩)], daemon := ⟨"g", 1, []⟩ }

theorem one_subscriber_served :
    Reaches pageStep OneAtATime emptyPage oneSubscriberPage ∧ Served oneSubscriberPage := by
  have reached : Reaches pageStep OneAtATime emptyPage oneSubscriberPage :=
    reaches_of_play (by decide +kernel : play _ _ _ oneSubscriber = some oneSubscriberPage)
  exact ⟨reached, shared_poller_serves reached⟩

def twoSubscribersPage : Page ℕ :=
  { subscribers := [7, 8], afterSeq := 1, loopRunning := true, loopStopRequested := false
    failureCount := 0, unavailableNotified := false, generation := some "g"
    checkpointPersistedAfterSeq := some 0, checkpointPersistedGeneration := some none
    checkpointPersistedAtUnixMs := 0, storage := ⟨1, some "g"⟩
    calls := [.saving 9 .nothing, .saving 9 .nothing]
    delivered := [(7, .event "g" ⟨1, "transfer_started", 0, 5⟩),
      (8, .event "g" ⟨1, "transfer_started", 0, 5⟩), (7, .event "g" ⟨1, "transfer_started", 0, 5⟩),
      (8, .event "g" ⟨1, "transfer_started", 0, 5⟩)]
    daemon := ⟨"g", 1, []⟩ }

/-- Both calls find no loop running and start one, and each passes the event on. -/
theorem overlapping_subscriptions_poll_twice :
    Reaches pageStep FreshNumbers emptyPage twoSubscribersPage ∧
      twoSubscribersPage.calls.countP looping = 2 ∧
      (received twoSubscribersPage).count (7, "g", 1) = 2 ∧ ¬ Served twoSubscribersPage := by
  refine ⟨reaches_of_play
    (by decide +kernel : play _ _ _ twoSubscribers = some twoSubscribersPage), rfl,
    by decide, ?_⟩
  intro served
  exact absurd served.1 (by decide)

theorem owed_consecutive {lo : ℕ} {s : Session Json.Value} (h : Coherent lo s) (asked limit : ℕ) :
    ∃ first last, asked < first ∧ last ≤ s.app.runtimeEventSeq + 1 ∧
      Consecutive RuntimeEventEnvelope.seq first last (Ipc.Frames.owed s asked limit) := by
  unfold Ipc.Frames.owed
  split_ifs with resync start
  · exact ⟨asked + 1, 0, by omega, by omega, .nil (by omega)⟩
  · have tail := (h.recorded.drop (s.app.runtimeEventSeq - runtimeEventFeedCapacity)).take limit
    exact ⟨_, _, by omega, by omega, tail⟩
  · have tail := (h.recorded.drop asked).take limit
    exact ⟨_, _, by omega, by omega, tail⟩

theorem honest_of_coherent {lo : ℕ} {s : Session Json.Value} (h : Coherent lo s)
    (asked limit : ℕ) (past : List String) :
    Honest ⟨s.app.runtimeEventGeneration, s.app.runtimeEventSeq, past⟩ asked
      (s.app.runtimeEventsSince asked limit s.db) := by
  rw [Ipc.Frames.runtimeEventsSince_eq h]
  obtain ⟨first, last, after, bound, owed⟩ := owed_consecutive h asked limit
  refine ⟨rfl, rfl, List.pairwise_map.mpr owed.ascending, ?_, ?_⟩
  · intro event mem
    have bounds := owed.bounds mem
    show asked < event.seq ∧ event.seq ≤ s.app.runtimeEventSeq
    omega
  · intro resync
    show Ipc.Frames.owed s asked limit = []
    have reason : (Ipc.Frames.reasonOf (s.app.request asked limit)).isSome = true := resync
    unfold Ipc.Frames.reasonOf at reason
    unfold Ipc.Frames.owed
    split_ifs at reason with empty
    · have none_wanted : limit = 0 := empty.1
      rw [none_wanted]
      split_ifs <;> simp
    · rw [if_pos reason]

end Main

end DashDrop.Ui.Polling
