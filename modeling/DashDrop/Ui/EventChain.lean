/- GID: DashDrop/Ui/EventChain
   source: src/ipc.ts, src-tauri/src/state.rs, src-tauri/src/db.rs
   anchors: []
   digest: From the record of the daemon to the subscribers of a page: nothing is left out silently. -/

import DashDrop.Foundation.Followers
import DashDrop.Ui.Polling

set_option autoImplicit false
set_option relaxedAutoImplicit false

namespace DashDrop.Ui.EventChain

open DashDrop.Foundation.Json (Value)
open DashDrop.Foundation.Transitions DashDrop.Foundation.Numbering
open DashDrop.Foundation.Followers
open DashDrop.Events.Journal DashDrop.Events.Feed DashDrop.Events.Replay DashDrop.Ui.SharedPoller
open DashDrop.Ui.Polling

def defaultDaemonEventLimit : ℕ := 100

/-- A daemon with its tables, the records of its earlier generations, and a page. -/
structure Chain where
  session : Session Value
  past : List (String × List (RuntimeEventEnvelope Value))
  page : Page Value

namespace Chain

def journal (c : Chain) (generation : String) : List (RuntimeEventEnvelope Value) :=
  (((c.session.app.runtimeEventGeneration, c.session.recorded) :: c.past).lookup generation).getD []

def daemon (c : Chain) : Daemon :=
  ⟨c.session.app.runtimeEventGeneration, c.session.app.runtimeEventSeq, c.past.map Prod.fst⟩

def synced (c : Chain) : Chain := { c with page := { c.page with daemon := c.daemon } }

def start (storage : PersistedDaemonEventCursor) (generation : String) : Chain :=
  synced ⟨.start generation, [], .start storage ⟨generation, 0, []⟩⟩

end Chain

/-- The call `get_runtime_events` with nothing else in between: where the journal is read, the
tables are brought up to date first. -/
def getRuntimeEvents (session : Session Value) (afterSeq : ℕ) :
    Session Value × RuntimeEventFeedSnapshot Value :=
  let request := session.app.request afterSeq defaultDaemonEventLimit
  (if (request.serve session.app.runtimeEventFeed).isSome then session
    else { session with db := ensureRuntimeEventTables session.db },
    session.app.runtimeEventsSince afterSeq defaultDaemonEventLimit session.db)

inductive Turn where
  /-- A call in the daemon, or its restart. -/
  | call (call : SessionCall Value)
  /-- The daemon is started on new tables. -/
  | renew (generation : String)
  /-- The daemon answers the call of the loop. -/
  | answer (i : ℕ)
  | page (step : PageStep Value)
  /-- The page is loaded anew. -/
  | reload

def ownStep : PageStep Value → Bool
  | .answer _ _ | .daemon _ => false
  | _ => true

def turn (c : Chain) : Turn → Option (Chain)
  | .call call => (sessionStep c.session call).map fun session => Chain.synced { c with session := session }
  | .renew generation =>
      if generation ∈ c.session.app.runtimeEventGeneration :: c.past.map Prod.fst then none
      else some (Chain.synced
        ⟨.start generation, (c.session.app.runtimeEventGeneration, c.session.recorded) :: c.past, c.page⟩)
  | .answer i =>
      match c.page.calls[i]? with
      | some (.awaitEvents asked) =>
          let (session, feed) := getRuntimeEvents c.session asked
          some { c with session := session, page := c.page.setCall i (.answered feed) }
      | _ => none
  | .page step =>
      if ownStep step then (pageStep c.page step).map fun page => { c with page := page } else none
  | .reload => some { c with page := .start c.page.storage c.daemon }

/-- No subscription while an earlier call is on its way to the loop. -/
def Allowed (c : Chain) : Turn → Prop
  | .page step => OneAtATime c.page step
  | _ => True

/-- The subscriber stays. -/
def Stays (callback : ℕ) (c : Chain) (turn : Turn) : Prop :=
  Allowed c turn ∧ turn ≠ .page (.unsubscribe callback) ∧ turn ≠ .reload

/-- The events and the resync notices among what a subscriber is called with. -/
def entry : Emitted Value → Option (Told String (RuntimeEventEnvelope Value))
  | .event generation envelope => some (.item generation envelope)
  | .resync feed _ => some (.reset feed.generation feed.latestAvailableSeq)
  | .recovered | .unavailable => none

def told (callback : ℕ) (delivered : List (ℕ × Emitted Value)) :
    List (Told String (RuntimeEventEnvelope Value)) :=
  delivered.filterMap fun call => if call.1 = callback then entry call.2 else none

section Told

variable {callback : ℕ} {subscribers : List ℕ}

theorem told_append (callback : ℕ) (xs ys : List (ℕ × Emitted Value)) :
    told callback (xs ++ ys) = told callback xs ++ told callback ys := List.filterMap_append

theorem told_emitted (distinct : subscribers.Nodup) (listening : callback ∈ subscribers)
    (emitted : Emitted Value) :
    told callback (subscribers.map fun other => (other, emitted)) = (entry emitted).toList := by
  induction subscribers with
  | nil => cases listening
  | cons other rest ih =>
    obtain ⟨new, distinct⟩ := List.nodup_cons.mp distinct
    rcases List.mem_cons.mp listening with rfl | later
    · have others : told callback (rest.map fun other => (other, emitted)) = [] := by
        refine List.filterMap_eq_nil_iff.mpr fun call mem => ?_
        obtain ⟨other, inside, rfl⟩ := List.mem_map.mp mem
        have apart : ¬ other = callback := by
          rintro rfl
          exact new inside
        simp [apart]
      rw [List.map_cons, ← List.singleton_append, told_append, others, List.append_nil]
      cases found : entry emitted <;> simp [told, found]
    · have apart : ¬ other = callback := fun same => new (same ▸ later)
      rw [List.map_cons, ← List.singleton_append, told_append, ih distinct later]
      simp [told, apart]

theorem told_notice {notice : Emitted Value} (untold : entry notice = none) (callback : ℕ)
    (subscribers : List ℕ) : told callback (subscribers.map fun other => (other, notice)) = [] := by
  refine List.filterMap_eq_nil_iff.mpr fun call mem => ?_
  obtain ⟨other, _, rfl⟩ := List.mem_map.mp mem
  simp [untold]

theorem told_recovery (callback : ℕ) (page : Page Value) : told callback (recovery page) = [] := by
  unfold recovery
  split_ifs
  · exact told_notice rfl callback _
  · rfl

theorem told_deliveries (distinct : subscribers.Nodup) (listening : callback ∈ subscribers)
    (feed : RuntimeEventFeedSnapshot Value) :
    told callback (deliveries subscribers feed) = feed.events.map (.item feed.generation) := by
  unfold deliveries
  induction feed.events with
  | nil => rfl
  | cons event rest ih =>
    rw [List.flatMap_cons, told_append, told_emitted distinct listening, ih]
    rfl

end Told

def afterwards : AfterSave Value → Option (RuntimeEventFeedSnapshot Value)
  | .resync feed _ => some feed
  | .nothing => none

def announcing : Point Value → Option (RuntimeEventFeedSnapshot Value)
  | .saving _ after | .saved after => afterwards after
  | _ => none

def pending (page : Page Value) : Option (RuntimeEventFeedSnapshot Value) :=
  page.calls.findSome? announcing

def clear : Point Value → Bool
  | .answered _ | .saving _ _ | .saved _ => false
  | _ => true

section Points

variable {page next : Page Value} {i : ℕ} {point after : Point Value} {calls : List (Point Value)}

theorem mem_of_alone (alone : Alone i point calls) {other : Point Value} (mem : other ∈ calls) :
    other = point ∨ other = .done := by
  obtain ⟨j, found⟩ := List.mem_iff_getElem?.mp mem
  by_cases same : j = i
  · subst same
    exact .inl (Option.some.inj (found.symm.trans alone.1))
  · exact .inr (alone.2 j other found same)

theorem pending_of_alone (alone : Alone i point page.calls) : pending page = announcing point := by
  unfold pending
  cases found : announcing point with
  | none =>
    refine List.findSome?_eq_none_iff.mpr fun other mem => ?_
    rcases mem_of_alone alone mem with rfl | rfl
    · exact found
    · rfl
  | some feed =>
    cases result : page.calls.findSome? announcing with
    | none =>
      have nothing := List.findSome?_eq_none_iff.mp result point (List.mem_of_getElem? alone.1)
      rw [found] at nothing
      cases nothing
    | some other =>
      obtain ⟨at_point, mem, same⟩ := List.exists_of_findSome?_eq_some result
      rcases mem_of_alone alone mem with rfl | rfl
      · exact same.symm.trans found
      · cases same

theorem pending_answered (alone : Alone i point page.calls) (feed : RuntimeEventFeedSnapshot Value) :
    pending (page.setCall i (.answered feed)) = none := by
  have moved : Alone i (.answered feed) (page.setCall i (.answered feed)).calls := alone.set _
  exact pending_of_alone moved

theorem announcing_of_clear (h : clear point = true) : announcing point = none := by
  cases point <;> first | rfl | cases h

/-- The end of a turn of the loop: only the call goes on. -/
structure Ends (i : ℕ) (page next : Page Value) : Prop where
  delivered : next.delivered = page.delivered
  generation : next.generation = page.generation
  afterSeq : next.afterSeq = page.afterSeq
  calls : ∃ point, next.calls = page.calls.set i point ∧ clear point = true

theorem ends_loopHead (i : ℕ) (page : Page Value) : Ends i page (page.loopHead i) := by
  unfold Page.loopHead
  split_ifs
  · exact ⟨rfl, rfl, rfl, .done, rfl, rfl⟩
  · exact ⟨rfl, rfl, rfl, .awaitEvents page.afterSeq, rfl, rfl⟩

theorem ends_loopTail (i : ℕ) (page : Page Value) : Ends i page (page.loopTail i) := by
  unfold Page.loopTail
  split_ifs
  · exact ⟨rfl, rfl, rfl, .done, rfl, rfl⟩
  · exact ⟨rfl, rfl, rfl, .sleeping, rfl, rfl⟩

/-- What a step of the page tells its subscribers and does to the cursor. -/
inductive Heard (page next : Page Value) : Prop where
  | nothing (more : List (ℕ × Emitted Value)) (delivered : next.delivered = page.delivered ++ more)
      (untold : ∀ callback, told callback more = [])
      (generation : next.generation = page.generation) (afterSeq : next.afterSeq = page.afterSeq)
      (same : pending next = pending page)
      (waiting : ∀ feed, .answered feed ∈ next.calls → .answered feed ∈ page.calls)
  | loaded (delivered : next.delivered = page.delivered) (unread : page.generation = none)
      (calm : pending page = none) (same : pending next = none)
      (waiting : ∀ feed, .answered feed ∉ next.calls)
  | skipped (feed : RuntimeEventFeedSnapshot Value) (answered : .answered feed ∈ page.calls)
      (more : List (ℕ × Emitted Value))
      (delivered : next.delivered = page.delivered ++ more)
      (untold : ∀ callback, told callback more = [])
      (generation : next.generation = some feed.generation)
      (afterSeq : next.afterSeq = feed.latestAvailableSeq) (calm : pending page = none)
      (announces : pending next = some feed) (waiting : ∀ feed, .answered feed ∉ next.calls)
  | passed (feed : RuntimeEventFeedSnapshot Value) (answered : .answered feed ∈ page.calls)
      (served : feed.resyncRequired = false)
      (current : page.generation = none ∨ page.generation = some feed.generation)
      (more : List (ℕ × Emitted Value)) (untold : ∀ callback, told callback more = [])
      (delivered : next.delivered = page.delivered ++ more ++ deliveries page.subscribers feed)
      (generation : next.generation = some feed.generation)
      (afterSeq : next.afterSeq = lastSeq page.afterSeq feed.events) (calm : pending page = none)
      (same : pending next = none) (waiting : ∀ feed, .answered feed ∉ next.calls)
  | announced (feed : RuntimeEventFeedSnapshot Value) (reason : String)
      (announces : pending page = some feed)
      (delivered : next.delivered =
        page.delivered ++ page.subscribers.map fun callback => (callback, .resync feed reason))
      (generation : next.generation = page.generation) (afterSeq : next.afterSeq = page.afterSeq)
      (same : pending next = none) (waiting : ∀ feed, .answered feed ∉ next.calls)

/-- Where an answer takes the cursor: to the latest number, or behind the events that it brings. -/
def Moved (feed : RuntimeEventFeedSnapshot Value) (page next : Page Value) : Prop :=
  next.generation = some feed.generation ∧ (next.afterSeq = feed.latestAvailableSeq ∨
    (feed.resyncRequired = false ∧ next.afterSeq = lastSeq page.afterSeq feed.events))

theorem unanswered_of_set (alone : Alone i point calls) (unanswered : ∀ feed, after ≠ .answered feed)
    (feed : RuntimeEventFeedSnapshot Value) : .answered feed ∉ calls.set i after := by
  intro mem
  rcases mem_of_alone (alone.set after) mem with same | ended
  · exact unanswered feed same.symm
  · cases ended

theorem unanswered_of_clear (h : clear point = true) (feed : RuntimeEventFeedSnapshot Value) :
    point ≠ .answered feed := by
  rintro rfl
  cases h

theorem heard_ends {base : Page Value} (alone : Alone i point page.calls) (ends : Ends i base next)
    (calm : announcing point = none) (calls : base.calls = page.calls)
    (generation : base.generation = page.generation) (afterSeq : base.afterSeq = page.afterSeq)
    {more : List (ℕ × Emitted Value)} (delivered : base.delivered = page.delivered ++ more)
    (untold : ∀ callback, told callback more = []) : Heard page next := by
  obtain ⟨after, moved, quiet⟩ := ends.calls
  rw [calls] at moved
  have moved_on : Alone i after next.calls := moved ▸ alone.set after
  refine .nothing more (ends.delivered.trans delivered) untold (ends.generation.trans generation)
    (ends.afterSeq.trans afterSeq) ?_ ?_
  · rw [pending_of_alone moved_on, pending_of_alone alone, calm, announcing_of_clear quiet]
  · intro feed mem
    rw [moved] at mem
    exact absurd mem (unanswered_of_set alone (unanswered_of_clear quiet) feed)

theorem persist_point (now : ℕ) (after : AfterSave Value) (page : Page Value) :
    ∃ point, announcing point = afterwards after ∧ (∀ feed, point ≠ .answered feed) ∧
      page.persistSharedDaemonEventCheckpoint now after = (page.persistDaemonEventCursor, point) := by
  unfold Page.persistSharedDaemonEventCheckpoint
  simp only
  split_ifs
  · exact ⟨.saved after, rfl, by simp, rfl⟩
  · exact ⟨.saving now after, rfl, by simp, rfl⟩

/-- An answer is passed on, or the cursor goes to the end and a resync is to be announced. -/
theorem heard_arrive {feed : RuntimeEventFeedSnapshot Value}
    (alone : Alone i (.answered feed) page.calls) (now : ℕ) :
    Heard page (page.takeFeed i now feed) ∧ Moved feed page (page.takeFeed i now feed) := by
  have calm : pending page = none := pending_of_alone alone
  unfold Page.takeFeed
  simp only
  rw [noteAnswer_eq]
  by_cases asked : feed.resyncRequired = true ∨
      (page.generation ≠ none ∧ page.generation ≠ some feed.generation)
  · rw [if_pos asked, Page.skipToLatest]
    obtain ⟨point, announces, unanswered, same⟩ := persist_point now
      (.resync feed (if page.generation ≠ none ∧ page.generation ≠ some feed.generation then
        "generation_changed" else "cursor_invalid"))
      { page with
        failureCount := 0
        unavailableNotified := false
        generation := some feed.generation
        afterSeq := feed.latestAvailableSeq
        delivered := page.delivered ++ recovery page }
    simp only [same]
    refine ⟨.skipped feed (List.mem_of_getElem? alone.1) (recovery page) rfl
      (fun callback => told_recovery callback page) rfl rfl calm
      ((pending_of_alone (alone.set point)).trans announces) (unanswered_of_set alone unanswered), ?_⟩
    exact ⟨rfl, .inl rfl⟩
  · rw [if_neg asked, Page.passOn]
    simp only
    rw [emit_events]
    obtain ⟨point, announces, unanswered, same⟩ := persist_point now .nothing
      { page with
        failureCount := 0
        unavailableNotified := false
        generation := some feed.generation
        afterSeq := lastSeq page.afterSeq feed.events
        delivered := page.delivered ++ recovery page ++ deliveries page.subscribers feed }
    have current : page.generation = none ∨ page.generation = some feed.generation := by
      by_contra other
      exact asked (.inr (not_or.mp other))
    have served : feed.resyncRequired = false := by
      by_contra resync
      exact asked (.inl (by simpa using resync))
    have moved := congrArg (fun saved => Page.setCall i saved.2 saved.1) same
    refine moved ▸ ⟨.passed feed (List.mem_of_getElem? alone.1) served current (recovery page)
      (fun callback => told_recovery callback page) rfl rfl rfl calm
      ((pending_of_alone (alone.set point)).trans announces) (unanswered_of_set alone unanswered), ?_⟩
    exact ⟨rfl, .inr ⟨served, rfl⟩⟩

theorem heard_failed (alone : Alone i point page.calls) (calm : announcing point = none) :
    Heard page (page.feedFailed i) := by
  unfold Page.feedFailed
  simp only
  split_ifs
  · exact heard_ends alone (ends_loopTail i page) calm rfl rfl rfl (List.append_nil _).symm
      fun _ => rfl
  · exact heard_ends alone (ends_loopTail i _) calm rfl rfl rfl rfl
      fun callback => told_notice rfl callback _
  · exact heard_ends alone (ends_loopTail i _) calm rfl rfl rfl (List.append_nil _).symm
      fun _ => rfl

theorem heard_subscribe (callback : ℕ) (page : Page Value) :
    Heard page (page.subscribeDaemonRuntimeEvents callback) := by
  rw [subscribe_eq]
  have loads : announcing page.loadSharedDaemonEventCursor = none ∧
      ∀ feed, page.loadSharedDaemonEventCursor ≠ .answered feed := by
    unfold Page.loadSharedDaemonEventCursor
    split_ifs <;> simp [announcing]
  split_ifs
  · exact .nothing [] (List.append_nil _).symm (fun _ => rfl) rfl rfl rfl fun _ mem => mem
  · refine .nothing [] (List.append_nil _).symm (fun _ => rfl) rfl rfl ?_ ?_
    · show List.findSome? announcing (page.calls ++ [_]) = List.findSome? announcing page.calls
      rw [List.findSome?_append, List.findSome?_singleton, loads.1, Option.or_none]
    · intro feed mem
      rcases List.mem_append.mp mem with old | new
      · exact old
      · exact absurd (List.mem_singleton.mp new).symm (loads.2 feed)

theorem heard_step (single : Single page) (numbers : Numbers page) {l : PageStep Value}
    (own : ownStep l = true) (step : pageStep page l = some next) : Heard page next := by
  cases l with
  | subscribe callback =>
    obtain rfl := Option.some.inj step
    exact heard_subscribe callback page
  | unsubscribe callback =>
    obtain rfl := Option.some.inj step
    exact .nothing [] (List.append_nil _).symm (fun _ => rfl) rfl rfl rfl fun _ mem => mem
  | checkpoint i reply =>
    simp only [pageStep] at step
    split at step
    · rename_i localCursor found
      obtain rfl := Option.some.inj step
      have alone := (single.of_call found (by simp)).1
      have unread : page.generation = none := numbers.flight _ (List.mem_of_getElem? found)
      have moved : ((page.loadCheckpoint localCursor reply).setCall i .loaded).calls =
          page.calls.set i .loaded := rfl
      have moved_on : Alone i .loaded ((page.loadCheckpoint localCursor reply).setCall i .loaded).calls :=
        moved ▸ alone.set .loaded
      refine .loaded rfl unread (pending_of_alone alone) (pending_of_alone moved_on) ?_
      rw [moved]
      exact unanswered_of_set alone (by simp)
    · cases step
  | enter i =>
    simp only [pageStep] at step
    split at step
    · rename_i found
      obtain rfl := Option.some.inj step
      exact heard_ends (single.of_call found (by simp)).1 (ends_loopHead i _) rfl rfl rfl rfl
        (List.append_nil _).symm fun _ => rfl
    · cases step
  | answer i feed => cases own
  | arrive i now =>
    simp only [pageStep] at step
    split at step
    · rename_i feed found
      obtain rfl := Option.some.inj step
      exact (heard_arrive (single.of_looping found rfl).1 now).1
    · cases step
  | fail i =>
    simp only [pageStep] at step
    split at step
    · rename_i asked found
      obtain rfl := Option.some.inj step
      exact heard_failed (single.of_looping found rfl).1 rfl
    · rename_i feed found
      obtain rfl := Option.some.inj step
      exact heard_failed (single.of_looping found rfl).1 rfl
    · cases step
  | save i ok =>
    simp only [pageStep] at step
    split at step
    · rename_i now after found
      obtain rfl := Option.some.inj step
      have alone := (single.of_looping found rfl).1
      have goes_on (base : Page Value) (calls : base.calls = page.calls)
          (delivered : base.delivered = page.delivered) (generation : base.generation = page.generation)
          (afterSeq : base.afterSeq = page.afterSeq) : Heard page (base.setCall i (.saved after)) := by
        have moved : Alone i (.saved after) (base.setCall i (.saved after)).calls := by
          show Alone i _ (base.calls.set i _)
          rw [calls]
          exact alone.set _
        refine .nothing [] (delivered.trans (List.append_nil _).symm) (fun _ => rfl) generation afterSeq
          ?_ ?_
        · rw [pending_of_alone moved, pending_of_alone alone]
          rfl
        · intro feed mem
          rcases mem_of_alone moved mem with same | ended
          · cases same
          · cases ended
      unfold Page.checkpointSaved
      split_ifs
      · exact goes_on _ rfl rfl rfl rfl
      · exact goes_on _ rfl rfl rfl rfl
    · cases step
  | saved i =>
    simp only [pageStep] at step
    split at step
    · rename_i after found
      obtain rfl := Option.some.inj step
      have alone := (single.of_looping found rfl).1
      cases after with
      | nothing =>
        exact heard_ends alone (ends_loopTail i page) rfl rfl rfl rfl (List.append_nil _).symm
          fun _ => rfl
      | resync feed reason =>
        have ends := ends_loopTail i (page.emitSharedDaemonRuntimeEvent (.resync feed reason))
        obtain ⟨after, moved, quiet⟩ := ends.calls
        have moved_on : Alone i after (page.afterSave i (.resync feed reason)).calls :=
          moved ▸ alone.set after
        refine .announced feed reason (pending_of_alone alone) ends.delivered ends.generation
          ends.afterSeq ((pending_of_alone moved_on).trans (announcing_of_clear quiet)) ?_
        intro other mem
        rw [show (page.afterSave i (.resync feed reason)).calls = page.calls.set i after from moved]
          at mem
        exact unanswered_of_set alone (unanswered_of_clear quiet) other mem
    · cases step
  | wake i =>
    simp only [pageStep] at step
    split at step
    · rename_i found
      obtain rfl := Option.some.inj step
      exact heard_ends (single.of_looping found rfl).1 (ends_loopHead i page) rfl rfl rfl rfl
        (List.append_nil _).symm fun _ => rfl
    · cases step
  | daemon daemon => cases own

/-- Beside the subscriptions a step of the page changes neither the list nor the daemon. -/
structure Kept (page next : Page Value) : Prop where
  subscribers : next.subscribers = page.subscribers
  daemon : next.daemon = page.daemon

theorem kept_loopHead (i : ℕ) (page : Page Value) : Kept page (page.loopHead i) := by
  unfold Page.loopHead
  split_ifs <;> exact ⟨rfl, rfl⟩

theorem kept_loopTail (i : ℕ) (page : Page Value) : Kept page (page.loopTail i) := by
  unfold Page.loopTail
  split_ifs <;> exact ⟨rfl, rfl⟩

theorem kept_step {l : PageStep Value} (own : ownStep l = true)
    (step : pageStep page l = some next) (no_entry : ∀ callback, l ≠ .subscribe callback)
    (no_exit : ∀ callback, l ≠ .unsubscribe callback) : Kept page next := by
  have failed (i : ℕ) : Kept page (page.feedFailed i) := by
    obtain ⟨base, alike, same⟩ := feedFailed_eq i page
    have tail := kept_loopTail i base
    rw [same]
    exact ⟨tail.subscribers.trans alike.subscribers, tail.daemon.trans alike.daemon⟩
  cases l with
  | subscribe callback => exact absurd rfl (no_entry callback)
  | unsubscribe callback => exact absurd rfl (no_exit callback)
  | checkpoint i reply =>
    simp only [pageStep] at step
    split at step
    · obtain rfl := Option.some.inj step
      exact ⟨rfl, rfl⟩
    · cases step
  | enter i =>
    simp only [pageStep] at step
    split at step
    · obtain rfl := Option.some.inj step
      have head := kept_loopHead i { page with loopRunning := true, loopStopRequested := false }
      exact ⟨head.subscribers, head.daemon⟩
    · cases step
  | answer i feed => cases own
  | arrive i now =>
    simp only [pageStep] at step
    split at step
    · rename_i feed found
      obtain rfl := Option.some.inj step
      cases taken_of_takeFeed i now feed page with
      | skipped point storage rests same => exact same ▸ ⟨rfl, rfl⟩
      | passed point storage rests current same => exact same ▸ ⟨rfl, rfl⟩
    · cases step
  | fail i =>
    simp only [pageStep] at step
    split at step
    · obtain rfl := Option.some.inj step
      exact failed i
    · obtain rfl := Option.some.inj step
      exact failed i
    · cases step
  | save i ok =>
    simp only [pageStep] at step
    split at step
    · obtain rfl := Option.some.inj step
      unfold Page.checkpointSaved
      split_ifs <;> exact ⟨rfl, rfl⟩
    · cases step
  | saved i =>
    simp only [pageStep] at step
    split at step
    · rename_i after found
      obtain rfl := Option.some.inj step
      cases after with
      | nothing => exact kept_loopTail i page
      | resync feed reason =>
        have tail := kept_loopTail i (page.emitSharedDaemonRuntimeEvent (.resync feed reason))
        exact ⟨tail.subscribers, tail.daemon⟩
    · cases step
  | wake i =>
    simp only [pageStep] at step
    split at step
    · obtain rfl := Option.some.inj step
      exact kept_loopHead i page
    · cases step
  | daemon daemon => cases own

theorem daemon_of_own {l : PageStep Value} (own : ownStep l = true)
    (step : pageStep page l = some next) : next.daemon = page.daemon := by
  cases l with
  | subscribe callback =>
    obtain rfl := Option.some.inj step
    rw [subscribe_eq]
    split_ifs <;> rfl
  | unsubscribe callback =>
    obtain rfl := Option.some.inj step
    rfl
  | _ => exact (kept_step own step (by simp) (by simp)).daemon

theorem stays_listed {callback : ℕ} (listening : callback ∈ page.subscribers) {l : PageStep Value}
    (own : ownStep l = true) (stays : l ≠ .unsubscribe callback) (step : pageStep page l = some next) :
    callback ∈ next.subscribers := by
  cases l with
  | subscribe other =>
    obtain rfl := Option.some.inj step
    have added : callback ∈ addSubscriber other page := by
      unfold addSubscriber
      split_ifs
      · exact listening
      · exact List.mem_append_left _ listening
    rw [subscribe_eq]
    split_ifs <;> exact added
  | unsubscribe other =>
    obtain rfl := Option.some.inj step
    refine List.mem_filter.mpr ⟨listening, decide_eq_true ?_⟩
    rintro rfl
    exact stays rfl
  | _ => exact (kept_step own step (by simp) (by simp)).subscribers ▸ listening

end Points

section Chain

variable {c c' : Chain} {lo : ℕ} {s t : Session Value}

theorem session_grows (coherent : Coherent lo s) {call : SessionCall Value}
    (step : sessionStep s call = some t) :
    t.app.runtimeEventGeneration = s.app.runtimeEventGeneration ∧
      s.app.runtimeEventSeq ≤ t.app.runtimeEventSeq ∧ s.recorded <+: t.recorded := by
  cases call with
  | record event payload emittedAt now =>
    obtain ⟨-, same, next⟩ := coherent.record step
    obtain rfl := Option.some.inj step
    exact ⟨same, by omega, List.prefix_append _ _⟩
  | restart =>
    obtain ⟨-, same, kept⟩ := coherent.restart step
    obtain rfl := Option.some.inj step
    exact ⟨same, by omega, List.prefix_refl _⟩
  | save consumerId generation seq now =>
    obtain rfl := Option.some.inj step
    exact ⟨rfl, le_rfl, List.prefix_refl _⟩
  | get consumerId now =>
    obtain rfl := Option.some.inj step
    exact ⟨rfl, le_rfl, List.prefix_refl _⟩
  | list now =>
    obtain rfl := Option.some.inj step
    exact ⟨rfl, le_rfl, List.prefix_refl _⟩

theorem journal_current (c : Chain) :
    c.journal c.session.app.runtimeEventGeneration = c.session.recorded := by
  simp [Chain.journal]

theorem journal_other {generation : String} (other : generation ≠ c.session.app.runtimeEventGeneration) :
    c.journal generation = (c.past.lookup generation).getD [] := by
  have apart : (generation == c.session.app.runtimeEventGeneration) = false :=
    beq_eq_false_iff_ne.mpr other
  simp [Chain.journal, List.lookup_cons, apart]

/-- An answer from a cursor: a resync, or events of the record from the cursor on. -/
def Owed (c : Chain) (asked : ℕ) (feed : RuntimeEventFeedSnapshot Value) : Prop :=
  feed.resyncRequired = true ∨
    ((∀ event ∈ feed.events, event ∈ c.journal feed.generation) ∧
      ∃ first last, (asked = 0 ∨ first = asked + 1) ∧
        Consecutive RuntimeEventEnvelope.seq first last feed.events)

theorem Owed.mono {asked : ℕ} {feed : RuntimeEventFeedSnapshot Value} (h : Owed c asked feed)
    (grown : ∀ generation, c.journal generation <+: c'.journal generation) : Owed c' asked feed := by
  rcases h with resync | ⟨recorded, first, last, starts, numbers⟩
  · exact .inl resync
  · exact .inr ⟨fun event mem => (grown _).subset (recorded event mem), first, last, starts, numbers⟩

theorem owed_of_coherent (coherent : Coherent lo c.session) (asked : ℕ) :
    Owed c asked (getRuntimeEvents c.session asked).2 := by
  show Owed c asked (c.session.app.runtimeEventsSince asked defaultDaemonEventLimit c.session.db)
  rw [Ipc.Frames.runtimeEventsSince_eq coherent]
  by_cases resync : (Ipc.Frames.reasonOf
      (c.session.app.request asked defaultDaemonEventLimit)).isSome = true
  · exact .inl resync
  · have calm : ¬ (c.session.app.request asked defaultDaemonEventLimit).marksReason.isSome = true := by
      unfold Ipc.Frames.reasonOf at resync
      rwa [if_neg] at resync
      rintro ⟨none_wanted, -⟩
      cases none_wanted
    have current := journal_current c
    refine .inr ⟨?_, ?_⟩
    · show ∀ event ∈ Ipc.Frames.owed c.session asked defaultDaemonEventLimit, event ∈ c.journal _
      intro event mem
      show event ∈ c.journal c.session.app.runtimeEventGeneration
      rw [current]
      unfold Ipc.Frames.owed at mem
      rw [if_neg calm] at mem
      split_ifs at mem
      · exact List.mem_of_mem_drop (List.mem_of_mem_take mem)
      · exact List.mem_of_mem_drop (List.mem_of_mem_take mem)
    · show ∃ first last, _ ∧ Consecutive _ first last
        (Ipc.Frames.owed c.session asked defaultDaemonEventLimit)
      unfold Ipc.Frames.owed
      rw [if_neg calm]
      split_ifs with zero
      · exact ⟨_, _, .inl zero, (coherent.recorded.drop _).take _⟩
      · exact ⟨1 + asked, _, .inr (by omega), (coherent.recorded.drop _).take _⟩

/-- What holds between two turns. -/
structure Sound (c : Chain) : Prop where
  coherent : ∃ lo, Coherent lo c.session
  mirror : c.page.daemon = c.daemon
  single : Single c.page
  numbers : Numbers c.page
  numbered : ∀ p ∈ c.past, Consecutive RuntimeEventEnvelope.seq 1 (p.2.length + 1) p.2
  owed : ∀ feed, .answered feed ∈ c.page.calls → Owed c c.page.afterSeq feed
  announced : ∀ feed, pending c.page = some feed →
    c.page.generation = some feed.generation ∧ c.page.afterSeq = feed.latestAvailableSeq

theorem Sound.numbered_journal (h : Sound c) (generation : String) :
    Consecutive RuntimeEventEnvelope.seq 1 ((c.journal generation).length + 1)
      (c.journal generation) := by
  by_cases current : generation = c.session.app.runtimeEventGeneration
  · subst current
    rw [journal_current]
    obtain ⟨lo, coherent⟩ := h.coherent
    have length := coherent.recorded.length
    have same : c.session.recorded.length = c.session.app.runtimeEventSeq := by omega
    rw [same]
    exact coherent.recorded
  · rw [journal_other current]
    cases found : c.past.lookup generation with
    | none => exact .nil le_rfl
    | some record =>
      obtain ⟨before, after, split, -⟩ := List.lookup_eq_some_iff.mp found
      exact h.numbered (generation, record) (by simp [split])

/-- What happens in the daemon leaves the page as it is but for what it knows of the daemon. -/
theorem Sound.moves (h : Sound c) {session : Session Value}
    {past : List (String × List (RuntimeEventEnvelope Value))}
    (coherent : ∃ lo, Coherent lo session)
    (numbered : ∀ p ∈ past, Consecutive RuntimeEventEnvelope.seq 1 (p.2.length + 1) p.2)
    (forward : Forward c.daemon (Chain.daemon ⟨session, past, c.page⟩))
    (grown : ∀ generation, c.journal generation <+: Chain.journal ⟨session, past, c.page⟩ generation) :
    Sound (Chain.synced ⟨session, past, c.page⟩) := by
  have allowed : OneAtATime c.page (.daemon (Chain.daemon ⟨session, past, c.page⟩)) := by
    rw [← h.mirror] at forward
    exact forward
  have step : pageStep c.page (.daemon (Chain.daemon ⟨session, past, c.page⟩)) =
      some (Chain.synced ⟨session, past, c.page⟩).page := rfl
  exact ⟨coherent, rfl, single_step h.single allowed step,
    numbers_step h.single h.numbers allowed step, numbered,
    fun feed mem => (h.owed feed mem).mono grown, h.announced⟩

theorem journal_grows_call {session : Session Value}
    (same : session.app.runtimeEventGeneration = c.session.app.runtimeEventGeneration)
    (grown : c.session.recorded <+: session.recorded) (generation : String) :
    c.journal generation <+: Chain.journal { c with session := session } generation := by
  by_cases current : generation = c.session.app.runtimeEventGeneration
  · subst current
    rw [journal_current, ← same]
    have later := journal_current { c with session := session }
    exact later.symm ▸ grown
  · have other : generation ≠ session.app.runtimeEventGeneration := same ▸ current
    rw [journal_other current, journal_other (c := { c with session := session }) other]

theorem journal_grows_renew {generation : String}
    (fresh : generation ∉ c.session.app.runtimeEventGeneration :: c.past.map Prod.fst)
    (other : String) :
    c.journal other <+: Chain.journal
      ⟨.start generation, (c.session.app.runtimeEventGeneration, c.session.recorded) :: c.past, c.page⟩
      other := by
  by_cases new : other = generation
  · subst new
    have unknown : c.journal other = [] := by
      rw [journal_other fun same => fresh (by simp [same])]
      have absent : c.past.lookup other = none := by
        refine List.lookup_eq_none_iff.mpr fun p mem => bne_iff_ne.mpr ?_
        rintro rfl
        exact fresh (List.mem_cons_of_mem _ (List.mem_map_of_mem mem))
      rw [absent]
      rfl
    rw [unknown]
    exact List.nil_prefix
  · rw [journal_other (c := ⟨.start generation, _, c.page⟩) new]
    exact List.prefix_refl _

theorem asked_session (s : Session Value) (asked : ℕ) :
    ∃ db, (getRuntimeEvents s asked).1 = { s with db := db } ∧
      (db = s.db ∨ db = ensureRuntimeEventTables s.db) := by
  unfold getRuntimeEvents
  simp only
  split_ifs
  · exact ⟨s.db, rfl, .inl rfl⟩
  · exact ⟨ensureRuntimeEventTables s.db, rfl, .inr rfl⟩

theorem Sound.own (h : Sound c) {next : Page Value} {l : PageStep Value} (own : ownStep l = true)
    (allowed : OneAtATime c.page l) (step : pageStep c.page l = some next) :
    Sound { c with page := next } := by
  have mirror : next.daemon = c.page.daemon := daemon_of_own own step
  refine ⟨h.coherent, mirror.trans h.mirror, single_step h.single allowed step,
    numbers_step h.single h.numbers allowed step, h.numbered, ?_, ?_⟩
  · intro feed mem
    cases heard_step h.single h.numbers own step with
    | nothing _ _ _ _ afterSeq _ waiting =>
      show Owed c next.afterSeq feed
      rw [afterSeq]
      exact h.owed feed (waiting feed mem)
    | loaded _ _ _ _ waiting => exact absurd mem (waiting feed)
    | skipped _ _ _ _ _ _ _ _ _ waiting => exact absurd mem (waiting feed)
    | passed _ _ _ _ _ _ _ _ _ _ _ waiting => exact absurd mem (waiting feed)
    | announced _ _ _ _ _ _ _ waiting => exact absurd mem (waiting feed)
  · intro feed announces
    change pending next = some feed at announces
    cases heard_step h.single h.numbers own step with
    | nothing _ _ _ generation afterSeq same _ =>
      rw [same] at announces
      obtain ⟨of_it, at_end⟩ := h.announced feed announces
      exact ⟨generation.trans of_it, afterSeq.trans at_end⟩
    | loaded _ _ _ same _ => cases same.symm.trans announces
    | skipped other _ _ _ _ generation afterSeq _ found _ =>
      obtain rfl := Option.some.inj (found.symm.trans announces)
      exact ⟨generation, afterSeq⟩
    | passed _ _ _ _ _ _ _ _ _ _ same _ => cases same.symm.trans announces
    | announced _ _ _ _ _ _ same _ => cases same.symm.trans announces

theorem Sound.answer (h : Sound c) {i asked : ℕ} (found : c.page.calls[i]? = some (.awaitEvents asked)) :
    Sound { c with
      session := (getRuntimeEvents c.session asked).1
      page := c.page.setCall i (.answered (getRuntimeEvents c.session asked).2) } := by
  obtain ⟨lo, coherent⟩ := h.coherent
  obtain ⟨db, same, tables⟩ := asked_session c.session asked
  have alone := (h.single.of_looping found rfl).1
  have cursor : asked = c.page.afterSeq := h.numbers.flight _ (List.mem_of_getElem? found)
  have honest : Honest c.page.daemon asked (getRuntimeEvents c.session asked).2 := by
    rw [h.mirror]
    exact honest_of_coherent coherent asked defaultDaemonEventLimit _
  have allowed : OneAtATime c.page (.answer i (getRuntimeEvents c.session asked).2) := trivial
  have step : pageStep c.page (.answer i (getRuntimeEvents c.session asked).2) =
      some (c.page.setCall i (.answered (getRuntimeEvents c.session asked).2)) := by
    simp only [pageStep, found]
    rw [if_pos honest]
  have later : Coherent lo { c.session with db := db } := by
    rcases tables with rfl | rfl
    · exact coherent
    · exact coherent.with_tidy coherent.tidy.ensure
  have owed := owed_of_coherent coherent asked
  rw [same]
  refine ⟨⟨lo, later⟩, h.mirror, single_step h.single allowed step,
    numbers_step h.single h.numbers allowed step, h.numbered, ?_, ?_⟩
  · intro feed mem
    rcases mem_of_alone (alone.set (.answered (getRuntimeEvents c.session asked).2)) mem with here | ended
    · cases here
      show Owed c c.page.afterSeq _
      rw [← cursor]
      exact owed
    · cases ended
  · intro feed announces
    have calm := pending_answered alone (getRuntimeEvents c.session asked).2
    cases calm.symm.trans announces

theorem Sound.reload (h : Sound c) : Sound { c with page := .start c.page.storage c.daemon } := by
  have fresh : c.daemon.generation ∉ c.daemon.past := h.mirror ▸ h.numbers.reads.fresh
  refine ⟨h.coherent, rfl, .idle (by simp [Page.start]) rfl rfl,
    ⟨List.nodup_nil, .nil fresh, by simp [Page.start]⟩, h.numbered, by simp [Page.start], ?_⟩
  intro feed announces
  cases announces

theorem Sound.turn (h : Sound c) {l : Turn} (allowed : Allowed c l) (step : turn c l = some c') :
    Sound c' ∧ ∀ generation, c.journal generation <+: c'.journal generation := by
  cases l with
  | call call =>
    obtain ⟨session, moved, rfl⟩ := Option.map_eq_some_iff.mp step
    obtain ⟨lo, coherent⟩ := h.coherent
    obtain ⟨same, seq, grown⟩ := session_grows coherent moved
    have journals := journal_grows_call same grown
    exact ⟨h.moves (coherent.step moved) h.numbered (.inl ⟨same, seq, rfl⟩) journals, journals⟩
  | renew generation =>
    simp only [EventChain.turn] at step
    split_ifs at step with used
    obtain rfl := Option.some.inj step
    obtain ⟨lo, coherent⟩ := h.coherent
    have journals := journal_grows_renew used
    refine ⟨h.moves ⟨1, coherent_start generation⟩ ?_ (.inr ⟨used, rfl⟩) journals, journals⟩
    intro p mem
    rcases List.mem_cons.mp mem with rfl | old
    · have numbers := h.numbered_journal c.session.app.runtimeEventGeneration
      rw [journal_current] at numbers
      exact numbers
    · exact h.numbered p old
  | answer i =>
    simp only [EventChain.turn] at step
    split at step
    · rename_i asked found
      obtain rfl := Option.some.inj step
      refine ⟨h.answer found, fun generation => ?_⟩
      obtain ⟨db, same, -⟩ := asked_session c.session asked
      show _ <+: Chain.journal ⟨(getRuntimeEvents c.session asked).1, c.past, _⟩ generation
      rw [same]
      exact List.prefix_refl _
    · cases step
  | page l =>
    simp only [EventChain.turn] at step
    split_ifs at step with own
    obtain ⟨next, moved, rfl⟩ := Option.map_eq_some_iff.mp step
    exact ⟨h.own own allowed moved, fun generation => List.prefix_refl _⟩
  | reload =>
    obtain rfl := Option.some.inj step
    exact ⟨h.reload, fun generation => List.prefix_refl _⟩

theorem sound_start (storage : PersistedDaemonEventCursor) (generation : String) :
    Sound (Chain.start storage generation) := by
  refine ⟨⟨1, coherent_start generation⟩, rfl, .idle (by simp [Chain.start, Chain.synced, Page.start])
    rfl rfl, ⟨List.nodup_nil, .nil ?_, ?_⟩, ?_, ?_, ?_⟩
  · simp [Chain.start, Chain.synced, Chain.daemon, Page.start]
  · simp [Chain.start, Chain.synced, Page.start]
  · simp [Chain.start, Chain.synced]
  · simp [Chain.start, Chain.synced, Page.start]
  · intro feed announces
    cases announces

end Chain

section Follower

theorem lastSeq_le {n afterSeq : ℕ} {events : List (RuntimeEventEnvelope Value)} (start : afterSeq ≤ n)
    (bound : ∀ event ∈ events, event.seq ≤ n) : lastSeq afterSeq events ≤ n := by
  induction events generalizing afterSeq with
  | nil => exact start
  | cons event rest ih =>
    have here := bound event List.mem_cons_self
    have higher : max afterSeq event.seq ≤ n := by omega
    exact ih higher fun other mem => bound other (List.mem_cons_of_mem _ mem)

theorem lastSeq_eq {afterSeq : ℕ} {events : List (RuntimeEventEnvelope Value)}
    {last : RuntimeEventEnvelope Value} (ascending : events.Pairwise fun a b => a.seq < b.seq)
    (later : ∀ event ∈ events, afterSeq < event.seq) (ends : events.getLast? = some last) :
    lastSeq afterSeq events = last.seq := by
  obtain ⟨before, rfl⟩ := List.getLast?_eq_some_iff.mp ends
  have mem : last ∈ before ++ [last] := by simp
  refine le_antisymm (lastSeq_le (later last mem).le fun event inside => ?_)
    ((le_lastSeq afterSeq _).2 last mem)
  rcases List.mem_append.mp inside with old | new
  · exact ((List.pairwise_append.mp ascending).2.2 event old last (by simp)).le
  · rw [List.mem_singleton.mp new]

/-- A subscriber that was called with `base` so far and stays: what it is told from then on, and
that the cursor stands where the last of it ends, but for a resync that is yet to be announced. -/
structure Follower (callback : ℕ) (base : List (ℕ × Emitted Value)) (c : Chain) : Prop where
  listening : callback ∈ c.page.subscribers
  account : ∃ more, c.page.delivered = base ++ more ∧
    Account RuntimeEventEnvelope.seq c.journal (told callback more) ∧
    (pending c.page = none → ∀ last ∈ (told callback more).getLast?,
      c.page.generation = some last.source ∧ c.page.afterSeq = last.number RuntimeEventEnvelope.seq)

variable {c c' : Chain} {callback : ℕ} {base : List (ℕ × Emitted Value)}

theorem Follower.moves (h : Follower callback base c)
    (subscribers : c'.page.subscribers = c.page.subscribers)
    (delivered : c'.page.delivered = c.page.delivered)
    (generation : c'.page.generation = c.page.generation)
    (afterSeq : c'.page.afterSeq = c.page.afterSeq) (same : pending c'.page = pending c.page)
    (grown : ∀ generation, c.journal generation <+: c'.journal generation) :
    Follower callback base c' := by
  obtain ⟨more, split, account, joint⟩ := h.account
  refine ⟨subscribers ▸ h.listening, more, delivered.trans split, account.mono grown, ?_⟩
  intro calm last ends
  obtain ⟨of_it, at_it⟩ := joint (same.symm.trans calm) last ends
  exact ⟨generation.trans of_it, afterSeq.trans at_it⟩

/-- A step of the page tells the subscriber nothing, events that go on from the cursor, or a
resync. -/
theorem Follower.own (h : Follower callback base c) (sound : Sound c) {next : Page Value}
    {l : PageStep Value} (own : ownStep l = true) (stays : l ≠ .unsubscribe callback)
    (step : pageStep c.page l = some next) : Follower callback base { c with page := next } := by
  have listening : callback ∈ next.subscribers := stays_listed h.listening own stays step
  have distinct := sound.numbers.distinct
  obtain ⟨told_so_far, split, account, joint⟩ := h.account
  cases heard_step sound.single sound.numbers own step with
  | nothing more delivered untold generation afterSeq same _ =>
    refine ⟨listening, told_so_far ++ more, by simp [delivered, split], ?_, ?_⟩
    · rw [told_append, untold, List.append_nil]
      exact account
    · rw [told_append, untold, List.append_nil]
      intro calm last ends
      obtain ⟨of_it, at_it⟩ := joint (same.symm.trans calm) last ends
      exact ⟨generation.trans of_it, afterSeq.trans at_it⟩
  | loaded delivered unread calm same _ =>
    refine ⟨listening, told_so_far, delivered.trans split, account, ?_⟩
    -- Nothing was told while the generation is unknown.
    intro _ last ends
    cases unread.symm.trans (joint calm last ends).1
  | skipped feed _ more delivered untold _ _ _ announces _ =>
    refine ⟨listening, told_so_far ++ more, by simp [delivered, split], ?_, ?_⟩
    · rw [told_append, untold, List.append_nil]
      exact account
    · intro calm
      cases announces.symm.trans calm
  | passed feed answered served current more untold delivered generation afterSeq calm same _ =>
    obtain ⟨-, later, -, -⟩ := sound.numbers.flight _ answered
    rcases sound.owed feed answered with resync | ⟨recorded, first, last, starts, numbers⟩
    · cases served.symm.trans resync
    have brings : told callback (more ++ deliveries c.page.subscribers feed) =
        feed.events.map (.item feed.generation) := by
      rw [told_append, untold, told_deliveries distinct h.listening, List.nil_append]
    -- The generation of what was told last is that of the feed.
    have of_feed : ∀ entry ∈ (told callback told_so_far).getLast?, entry.source = feed.generation ∧
        c.page.afterSeq = entry.number RuntimeEventEnvelope.seq := by
      intro entry ends
      obtain ⟨of_it, at_it⟩ := joint calm entry ends
      refine ⟨?_, at_it⟩
      rcases current with unknown | known
      · cases unknown.symm.trans of_it
      · exact Option.some.inj (of_it.symm.trans known)
    refine ⟨listening, told_so_far ++ (more ++ deliveries c.page.subscribers feed), ?_, ?_, ?_⟩
    · simp [delivered, split]
    · rw [told_append, brings]
      refine account.items numbers recorded fun entry ends => ?_
      obtain ⟨of_it, at_it⟩ := of_feed entry ends
      exact ⟨of_it, by omega⟩
    · rw [told_append, brings]
      intro _ entry ends
      rw [generation, afterSeq]
      cases found : feed.events.getLast? with
      | none =>
        have empty : feed.events = [] := List.getLast?_eq_none_iff.mp found
        rw [empty, List.map_nil, List.append_nil] at ends
        obtain ⟨of_it, at_it⟩ := of_feed entry ends
        rw [empty, of_it]
        exact ⟨rfl, at_it⟩
      | some final =>
        rw [List.getLast?_append, List.getLast?_map, found] at ends
        obtain rfl := Option.some.inj ends
        exact ⟨rfl, lastSeq_eq numbers.ascending (fun event mem => (later event mem).1) found⟩
  | announced feed reason announces delivered generation afterSeq same _ =>
    have brings : told callback (c.page.subscribers.map fun other => (other, .resync feed reason)) =
        [.reset feed.generation feed.latestAvailableSeq] := told_emitted distinct h.listening _
    obtain ⟨of_it, at_it⟩ := sound.announced feed announces
    refine ⟨listening, _, by rw [delivered, split, List.append_assoc], ?_, ?_⟩
    · rw [told_append, brings]
      exact account.reset _ _
    · rw [told_append, brings]
      intro _ last ends
      rw [List.getLast?_concat] at ends
      obtain rfl := Option.some.inj ends
      exact ⟨generation.trans of_it, afterSeq.trans at_it⟩

theorem Follower.turn (h : Follower callback base c) (sound : Sound c) {l : Turn}
    (stays : Stays callback c l) (step : turn c l = some c') : Follower callback base c' := by
  obtain ⟨allowed, no_exit, no_reload⟩ := stays
  obtain ⟨-, grown⟩ := sound.turn allowed step
  cases l with
  | call call =>
    obtain ⟨session, moved, rfl⟩ := Option.map_eq_some_iff.mp step
    exact h.moves rfl rfl rfl rfl rfl grown
  | renew generation =>
    simp only [EventChain.turn] at step
    split_ifs at step with used
    obtain rfl := Option.some.inj step
    exact h.moves rfl rfl rfl rfl rfl grown
  | answer i =>
    simp only [EventChain.turn] at step
    split at step
    · rename_i asked found
      obtain rfl := Option.some.inj step
      have alone := (sound.single.of_looping found rfl).1
      refine h.moves rfl rfl rfl rfl ?_ grown
      have calm := pending_answered alone (getRuntimeEvents c.session asked).2
      exact calm.trans (pending_of_alone alone).symm
    · cases step
  | page l =>
    simp only [EventChain.turn] at step
    split_ifs at step with own
    obtain ⟨next, moved, rfl⟩ := Option.map_eq_some_iff.mp step
    exact h.own sound own (fun same => no_exit (congrArg Turn.page same)) moved
  | reload => exact absurd rfl no_reload

theorem sound_of_run {storage : PersistedDaemonEventCursor} {first : String}
    (run : Reaches turn Allowed (Chain.start storage first) c) : Sound c :=
  run.keeps (sound_start storage first) fun h allowed step => (h.turn allowed step).1

theorem follower_of_run (sound : Sound c) (listening : callback ∈ c.page.subscribers)
    (later : Reaches turn (Stays callback) c c') :
    Sound c' ∧ Follower callback c.page.delivered c' := by
  have start : Follower callback c.page.delivered c :=
    ⟨listening, [], (List.append_nil _).symm, .nil, fun _ _ ends => by cases ends⟩
  exact later.keeps (I := fun d => Sound d ∧ Follower callback c.page.delivered d) ⟨sound, start⟩
    fun h stays step => ⟨(h.1.turn stays.1 step).1, h.2.turn h.1 stays step⟩

def polling : Chain :=
  (play turn (fun _ _ => True) (Chain.start ⟨0, none⟩ "g")
    [.page (.subscribe 7), .page (.checkpoint 0 none), .page (.enter 0)]).getD (.start ⟨0, none⟩ "g")

def followed : Chain :=
  (play turn (fun _ _ => True) polling
    [.call (.record "device_updated" .null 10 10), .answer 0, .page (.arrive 0 9)]).getD polling

end Follower

end DashDrop.Ui.EventChain
