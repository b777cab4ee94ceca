/- GID: DashDrop/Events/Naming
   source: src-tauri/src/state.rs, src-tauri/src/db.rs
   anchors: []
   digest: Whether a generation and a sequence number name one event, across restarts. -/

import DashDrop.Events.Concurrency

set_option autoImplicit false
set_option relaxedAutoImplicit false

namespace DashDrop.Events.Naming

open DashDrop.Foundation.Tables DashDrop.Foundation.Transitions
open DashDrop.Events.Journal DashDrop.Events.Feed DashDrop.Events.Concurrency

variable {Value : Type} {h h' : Hub Value}

/-- No two events that were ever in the feed share their generation and their number. -/
def NamesOne (h : Hub Value) : Prop :=
  ∀ p ∈ h.published, ∀ q ∈ h.published, p.1 = q.1 → p.2.seq = q.2.seq → p = q

/-- A restart that loads finds a `last_seq` that no published event of the loaded generation is
beyond. -/
def CounterSaved (h : Hub Value) : Turn Value → Prop
  | .restart => ∀ p ∈ h.published, p.1 = h.db.metaRow.generation → p.2.seq ≤ h.db.metaRow.lastSeq
  | _ => True

instance (h : Hub Value) (turn : Turn Value) : Decidable (CounterSaved h turn) :=
  match turn with
  | .restart => inferInstanceAs (Decidable (∀ p ∈ h.published, _))
  | .work _ => inferInstanceAs (Decidable True)
  | .restartUnloaded _ => inferInstanceAs (Decidable True)

/-- Whatever is in the feed or in the journal, and whatever is to be appended, was published. -/
structure Entered (h : Hub Value) : Prop where
  pushed : ∀ call ∈ h.calls, call.pushed = true →
    (h.app.runtimeEventGeneration, call.envelope) ∈ h.published
  journaled : Journaled (fun g event => (g, event) ∈ h.published) h.db
  feed : ∀ event ∈ h.app.runtimeEventFeed, (h.app.runtimeEventGeneration, event) ∈ h.published

/-- What the process knows of its own generation: the counter is ahead of everything, and a call
that has not pushed holds a number of its own. -/
structure Named (h : Hub Value) : Prop where
  unique : NamesOne h
  published : ∀ p ∈ h.published, p.1 = h.app.runtimeEventGeneration → p.2.seq ≤ h.app.runtimeEventSeq
  calls : ∀ call ∈ h.calls, call.envelope.seq ≤ h.app.runtimeEventSeq
  apart : h.calls.Pairwise fun a b => a.envelope.seq ≠ b.envelope.seq
  waiting : ∀ call ∈ h.calls, call.pushed = false → ∀ p ∈ h.published,
    p.1 = h.app.runtimeEventGeneration → p.2.seq ≠ call.envelope.seq

theorem entered_start (generation : String) : Entered (Hub.start generation : Hub Value) := by
  refine ⟨?_, ?_, ?_⟩ <;>
    simp [Journaled, Hub.start, EventState.load, loadRuntimeEventState, EventDb.rowsOf,
      EventDb.fresh, Table.select]

theorem named_start (generation : String) : Named (Hub.start generation : Hub Value) := by
  refine ⟨?_, ?_, ?_, .nil, ?_⟩ <;> simp [NamesOne, Hub.start]

theorem Entered.with_db (hentered : Entered h) {db : EventDb Value} {poller : Poller Value}
    (hdb : Journaled (fun g event => (g, event) ∈ h.published) db) :
    Entered { h with db := db, poller := poller } :=
  ⟨hentered.pushed, hdb, hentered.feed⟩

theorem Named.with_db (hnamed : Named h) {db : EventDb Value} {poller : Poller Value} :
    Named { h with db := db, poller := poller } :=
  ⟨hnamed.unique, hnamed.published, hnamed.calls, hnamed.apart, hnamed.waiting⟩

section Tables

variable {P : String → RuntimeEventEnvelope Value → Prop} {db : EventDb Value}
  {app : EventState Value}

theorem Journaled.checkpoints (db : EventDb Value)
    (checkpoints : Table RuntimeEventCheckpoint RuntimeEventCheckpoint.consumerId)
    (hdb : Journaled P db) :
    Journaled P { ensureRuntimeEventTables db with checkpoints := checkpoints } :=
  hdb.ensure

theorem Journaled.persist (hdb : Journaled P db) {envelope : RuntimeEventEnvelope Value}
    (hevent : P app.runtimeEventGeneration envelope) (now : ℕ) :
    Journaled P (app.persist envelope now db).2 := by
  have hpruned : Journaled P (EventState.pruneCheckpoints now db) := hdb.ensure
  have happended : Journaled P (appendRuntimeEvent app.runtimeEventGeneration envelope
      (EventState.retention now) (EventState.pruneCheckpoints now db)).1 := hpruned.append hevent
  simp only [EventState.persist]
  split_ifs
  · exact EventState.keeps_refreshCheckpoints Journaled.checkpoints happended none
  · exact happended

theorem Journaled.persistFailing (hdb : Journaled P db) {envelope : RuntimeEventEnvelope Value}
    (hevent : P app.runtimeEventGeneration envelope) (pruned : Bool) (done now : ℕ) :
    Journaled P (app.persistFailing pruned done envelope now db) := by
  unfold EventState.persistFailing
  refine Journaled.appendFailing ?_ hevent done
  split_ifs
  · exact hdb.ensure
  · exact hdb

end Tables

theorem Entered.push (hentered : Entered h) (i : ℕ) (hstep : workStep h (.push i) = some h') :
    Entered h' := by
  simp only [workStep] at hstep
  split at hstep
  · rename_i call hcall
    split_ifs at hstep
    obtain rfl := Option.some.inj hstep
    refine ⟨?_, ?_, ?_⟩
    · intro other hother hpushed
      rcases List.mem_or_eq_of_mem_set hother with hold | rfl
      · exact List.mem_append_left _ (hentered.pushed other hold hpushed)
      · exact List.mem_append_right _ (List.mem_singleton.mpr rfl)
    · intro row hrow
      exact List.mem_append_left _ (hentered.journaled row hrow)
    · intro event hevent
      rcases EventState.mem_push hevent with hold | rfl
      · exact List.mem_append_left _ (hentered.feed event hold)
      · exact List.mem_append_right _ (List.mem_singleton.mpr rfl)
  · cases hstep

theorem Entered.persist (hentered : Entered h) (i now : ℕ) (outcome : AppendOutcome)
    (hstep : workStep h (.persist i now outcome) = some h') : Entered h' := by
  simp only [workStep] at hstep
  split at hstep
  · rename_i call hcall
    split_ifs at hstep with hpushed
    obtain rfl := Option.some.inj hstep
    have hevent := hentered.pushed call (List.mem_of_getElem? hcall) hpushed
    have hkept : ∀ other ∈ h.calls.eraseIdx i, other.pushed = true →
        (h.app.runtimeEventGeneration, other.envelope) ∈ h.published :=
      fun other hother => hentered.pushed other (List.mem_of_mem_eraseIdx hother)
    cases outcome with
    | ok => exact ⟨hkept, Journaled.persist hentered.journaled hevent now, hentered.feed⟩
    | failed pruned done =>
      exact ⟨hkept, Journaled.persistFailing hentered.journaled hevent pruned done now,
        hentered.feed⟩
  · cases hstep

theorem Entered.work (hentered : Entered h) {work : Work Value}
    (hstep : workStep h work = some h') : Entered h' := by
  cases work with
  | draw event payload now =>
    obtain rfl := Option.some.inj hstep
    refine ⟨?_, hentered.journaled, hentered.feed⟩
    intro call hcall hpushed
    rcases List.mem_append.mp hcall with hold | hnew
    · exact hentered.pushed call hold hpushed
    · obtain rfl := List.mem_singleton.mp hnew
      simp at hpushed
  | push i => exact hentered.push i hstep
  | persist i now outcome => exact hentered.persist i now outcome hstep
  | save consumerId generation seq now =>
    obtain rfl := Option.some.inj hstep
    exact hentered.with_db
      (EventState.keeps_saveCheckpoint Journaled.checkpoints hentered.journaled _ _ _ _)
  | get consumerId now =>
    obtain rfl := Option.some.inj hstep
    exact hentered.with_db
      (EventState.keeps_getCheckpoint Journaled.checkpoints hentered.journaled _ _)
  | list now =>
    obtain rfl := Option.some.inj hstep
    exact hentered.with_db
      (EventState.keeps_listCheckpoints Journaled.checkpoints hentered.journaled now)
  | watch cursor =>
    simp only [workStep] at hstep
    split_ifs at hstep
    obtain rfl := Option.some.inj hstep
    exact hentered.with_db hentered.journaled
  | lockFeed limit =>
    simp only [workStep] at hstep
    split_ifs at hstep
    obtain rfl := Option.some.inj hstep
    exact hentered.with_db hentered.journaled
  | loadOldest =>
    simp only [workStep] at hstep
    split at hstep
    · obtain rfl := Option.some.inj hstep
      exact hentered.with_db hentered.journaled
    · cases hstep
  | serve =>
    simp only [workStep] at hstep
    split at hstep
    · split at hstep
      · obtain rfl := Option.some.inj hstep
        exact hentered.with_db hentered.journaled
      · obtain rfl := Option.some.inj hstep
        exact hentered.with_db hentered.journaled
    · cases hstep
  | readJournal answers =>
    simp only [workStep] at hstep
    split at hstep
    · obtain rfl := Option.some.inj hstep
      exact hentered.with_db hentered.journaled.ensure
    · cases hstep

theorem Entered.turn (hentered : Entered h) {turn : Turn Value}
    (hstep : turnStep h turn = some h') : Entered h' := by
  cases turn with
  | work work => exact hentered.work hstep
  | restart =>
    obtain rfl := Option.some.inj hstep
    refine ⟨by simp, hentered.journaled.ensure, ?_⟩
    intro event hevent
    obtain ⟨row, hrow, rfl⟩ := List.mem_map.mp (List.mem_reverse.mp hevent)
    have hmem := List.mem_reverse.mp (List.mem_of_mem_take hrow)
    obtain ⟨hjournal, hg⟩ := Table.mem_select.mp hmem
    have hpublished := hentered.journaled.ensure row hjournal
    rwa [of_decide_eq_true hg] at hpublished
  | restartUnloaded generation =>
    simp only [turnStep] at hstep
    split_ifs at hstep
    obtain rfl := Option.some.inj hstep
    refine ⟨by simp, hentered.journaled, ?_⟩
    intro event hevent
    simp [EventState.unloaded] at hevent

theorem entered_of_reaches {guard : Hub Value → Turn Value → Prop} {first : String}
    (hrun : Reaches turnStep guard (Hub.start first) h) : Entered h :=
  hrun.keeps (entered_start first) fun hentered _ hstep => hentered.turn hstep

theorem Named.draw (hnamed : Named h) (event : String) (payload : Value) (now : ℕ)
    (hstep : workStep h (.draw event payload now) = some h') : Named h' := by
  obtain rfl := Option.some.inj hstep
  have hfresh : ∀ call ∈ h.calls, call.envelope.seq ≠ h.app.runtimeEventSeq + 1 := by
    intro call hcall
    have hle := hnamed.calls call hcall
    omega
  refine ⟨hnamed.unique, fun p hp hg => (hnamed.published p hp hg).trans (Nat.le_succ _), ?_, ?_,
    ?_⟩
  · intro call hcall
    rcases List.mem_append.mp hcall with hold | hnew
    · exact (hnamed.calls call hold).trans (Nat.le_succ _)
    · obtain rfl := List.mem_singleton.mp hnew
      exact le_rfl
  · refine List.pairwise_append.mpr ⟨hnamed.apart, List.pairwise_singleton _ _, ?_⟩
    intro call hcall other hother
    obtain rfl := List.mem_singleton.mp hother
    exact hfresh call hcall
  · intro call hcall hwaiting p hp hg
    rcases List.mem_append.mp hcall with hold | hnew
    · exact hnamed.waiting call hold hwaiting p hp hg
    · obtain rfl := List.mem_singleton.mp hnew
      have hle := hnamed.published p hp hg
      show p.2.seq ≠ h.app.runtimeEventSeq + 1
      omega

theorem Named.seq_ne (hnamed : Named h) {i j : ℕ} {a b : RecordCall Value} (hi : h.calls[i]? = some a)
    (hj : h.calls[j]? = some b) (hne : i ≠ j) : a.envelope.seq ≠ b.envelope.seq := by
  obtain ⟨hi', rfl⟩ := List.getElem?_eq_some_iff.mp hi
  obtain ⟨hj', rfl⟩ := List.getElem?_eq_some_iff.mp hj
  rcases Nat.lt_or_gt_of_ne hne with hlt | hgt
  · exact List.pairwise_iff_getElem.mp hnamed.apart i j hi' hj' hlt
  · exact (List.pairwise_iff_getElem.mp hnamed.apart j i hj' hi' hgt).symm

theorem Named.push (hnamed : Named h) (i : ℕ) (hstep : workStep h (.push i) = some h') :
    Named h' := by
  simp only [workStep] at hstep
  split at hstep
  · rename_i call hcall
    split_ifs at hstep with hready
    obtain rfl := Option.some.inj hstep
    have hmem : call ∈ h.calls := List.mem_of_getElem? hcall
    have hown := hnamed.waiting call hmem hready.1
    -- A call of the new list stands at the place of the push or is an old one elsewhere.
    have hplaces : ∀ other ∈ h.calls.set i { call with pushed := true },
        other = { call with pushed := true } ∨
          other ∈ h.calls ∧ other.envelope.seq ≠ call.envelope.seq := by
      intro other hother
      obtain ⟨j, hj⟩ := List.getElem?_of_mem hother
      by_cases hij : i = j
      · subst hij
        rw [List.getElem?_set_self (List.getElem?_eq_some_iff.mp hcall).1] at hj
        exact .inl (Option.some.inj hj).symm
      · rw [List.getElem?_set_ne hij] at hj
        exact .inr ⟨List.mem_of_getElem? hj, hnamed.seq_ne hj hcall (Ne.symm hij)⟩
    refine ⟨?_, ?_, ?_, ?_, ?_⟩
    · intro p hp q hq hg hseq
      rcases List.mem_append.mp hp with hp | hp <;> rcases List.mem_append.mp hq with hq | hq
      · exact hnamed.unique p hp q hq hg hseq
      · obtain rfl := List.mem_singleton.mp hq
        exact absurd hseq (hown p hp hg)
      · obtain rfl := List.mem_singleton.mp hp
        exact absurd hseq.symm (hown q hq hg.symm)
      · exact (List.mem_singleton.mp hp).trans (List.mem_singleton.mp hq).symm
    · intro p hp hg
      rcases List.mem_append.mp hp with hold | hnew
      · exact hnamed.published p hold hg
      · obtain rfl := List.mem_singleton.mp hnew
        exact hnamed.calls call hmem
    · intro other hother
      rcases hplaces other hother with rfl | ⟨hold, -⟩
      · exact hnamed.calls call hmem
      · exact hnamed.calls other hold
    · have hseqs := seqs_set_pushed hcall
      have hapart := List.pairwise_map.mpr hnamed.apart
      rw [← hseqs] at hapart
      exact List.pairwise_map.mp hapart
    · intro other hother hwaiting p hp hg
      rcases hplaces other hother with rfl | ⟨hold, hne⟩
      · simp at hwaiting
      · rcases List.mem_append.mp hp with hp | hp
        · exact hnamed.waiting other hold hwaiting p hp hg
        · obtain rfl := List.mem_singleton.mp hp
          exact hne.symm
  · cases hstep

theorem Named.persist (hnamed : Named h) (i now : ℕ) (outcome : AppendOutcome)
    (hstep : workStep h (.persist i now outcome) = some h') : Named h' := by
  simp only [workStep] at hstep
  split at hstep
  · split_ifs at hstep
    obtain rfl := Option.some.inj hstep
    have hkept : ∀ other ∈ h.calls.eraseIdx i, other ∈ h.calls :=
      fun other hother => List.mem_of_mem_eraseIdx hother
    have hapart := hnamed.apart.sublist (List.eraseIdx_sublist h.calls i)
    cases outcome with
    | ok =>
      exact ⟨hnamed.unique, hnamed.published,
        fun other hother => hnamed.calls other (hkept other hother), hapart,
        fun other hother => hnamed.waiting other (hkept other hother)⟩
    | failed pruned done =>
      exact ⟨hnamed.unique, hnamed.published,
        fun other hother => hnamed.calls other (hkept other hother), hapart,
        fun other hother => hnamed.waiting other (hkept other hother)⟩
  · cases hstep

theorem Named.work (hnamed : Named h) {work : Work Value} (hstep : workStep h work = some h') :
    Named h' := by
  cases work with
  | draw event payload now => exact hnamed.draw event payload now hstep
  | push i => exact hnamed.push i hstep
  | persist i now outcome => exact hnamed.persist i now outcome hstep
  | save | get | list =>
    obtain rfl := Option.some.inj hstep
    exact hnamed.with_db
  | watch | lockFeed =>
    simp only [workStep] at hstep
    split_ifs at hstep
    obtain rfl := Option.some.inj hstep
    exact hnamed.with_db
  | loadOldest | readJournal =>
    simp only [workStep] at hstep
    split at hstep
    · obtain rfl := Option.some.inj hstep
      exact hnamed.with_db
    · cases hstep
  | serve =>
    simp only [workStep] at hstep
    split at hstep
    · split at hstep
      · obtain rfl := Option.some.inj hstep
        exact hnamed.with_db
      · obtain rfl := Option.some.inj hstep
        exact hnamed.with_db
    · cases hstep

theorem Named.turn (hnamed : Named h) {turn : Turn Value} (hsaved : CounterSaved h turn)
    (hstep : turnStep h turn = some h') : Named h' := by
  cases turn with
  | work work => exact hnamed.work hstep
  | restart =>
    obtain rfl := Option.some.inj hstep
    exact ⟨hnamed.unique, hsaved, by simp, .nil, by simp⟩
  | restartUnloaded generation =>
    simp only [turnStep] at hstep
    split_ifs at hstep with hunused
    obtain rfl := Option.some.inj hstep
    refine ⟨hnamed.unique, fun p hp hg => ?_, by simp, .nil, by simp⟩
    exact absurd hg.symm (hunused.2.2 p hp)

/-- In every run in which no restart loads a `last_seq` that a published event is beyond, a
generation and a number name one event: of everything that was ever in the feed, and so of
everything that is in the feed or in the journal. -/
theorem pair_names_one_event {first : String}
    (hrun : Reaches turnStep CounterSaved (Hub.start first) h) :
    NamesOne h ∧ (∀ event ∈ h.app.runtimeEventFeed,
      (h.app.runtimeEventGeneration, event) ∈ h.published) ∧
      (∀ call ∈ h.calls, call.pushed = true →
        (h.app.runtimeEventGeneration, call.envelope) ∈ h.published) ∧
      Journaled (fun g event => (g, event) ∈ h.published) h.db := by
  have hnamed : Named h :=
    hrun.keeps (named_start first) fun hnamed hsaved hstep => hnamed.turn hsaved hstep
  have hentered := entered_of_reaches hrun
  exact ⟨hnamed.unique, hentered.feed, hentered.pushed, hentered.journaled⟩

/-- Two events with a restart between them, the first of them appended. -/
def savedTurns : List (Turn Unit) :=
  [.work (.draw "device_updated" () 5), .work (.push 0), .work (.persist 0 5 .ok), .restart,
    .work (.draw "device_lost" () 6), .work (.push 0)]

def savedHub : Hub Unit :=
  (play turnStep CounterSaved (Hub.start "g1") savedTurns).getD (Hub.start "g1")

theorem saved_pair_names_one_event : savedHub.published.length = 2 ∧ NamesOne savedHub := by
  have hrun : Reaches turnStep CounterSaved (Hub.start "g1") savedHub :=
    reaches_of_play (by decide +kernel : play _ _ _ savedTurns = some savedHub)
  exact ⟨by decide +kernel, (pair_names_one_event hrun).1⟩

/-- The first event is not appended: the restart counts from the beginning again. -/
def unsavedTurns : List (Turn Unit) :=
  [.work (.draw "device_updated" () 5), .work (.push 0), .work (.persist 0 5 (.failed true 0)),
    .restart, .work (.draw "device_lost" () 6), .work (.push 0), .work (.persist 0 6 .ok)]

def unsavedHub : Hub Unit :=
  (play turnStep anyStep (Hub.start "g1") unsavedTurns).getD (Hub.start "g1")

theorem unsaved_pair_names_two_events :
    Reaches turnStep anyStep (Hub.start "g1") unsavedHub ∧ ¬ NamesOne unsavedHub := by
  refine ⟨reaches_of_play (by decide +kernel : play _ _ _ unsavedTurns = some unsavedHub), ?_⟩
  intro hone
  have hfirst : ("g1", (⟨1, "device_updated", (), 5⟩ : RuntimeEventEnvelope Unit)) ∈
      unsavedHub.published := by decide +kernel
  have hsecond : ("g1", (⟨1, "device_lost", (), 6⟩ : RuntimeEventEnvelope Unit)) ∈
      unsavedHub.published := by decide +kernel
  exact absurd (hone _ hfirst _ hsecond rfl rfl) (by decide)

end DashDrop.Events.Naming
