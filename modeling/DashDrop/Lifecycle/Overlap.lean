/- GID: DashDrop/Lifecycle/Overlap
   source: src-tauri/src/core_service.rs, src-tauri/src/transport/sender.rs,
     src-tauri/src/transport/receiver.rs
   anchors: []
   digest: When a cancel meets the party that works on the transfer, and what each section does. -/

import DashDrop.Runtime.Effects
import DashDrop.Runtime.Footprint

set_option autoImplicit false
set_option relaxedAutoImplicit false

namespace DashDrop.Lifecycle.Overlap

open DashDrop.Foundation.Oneshot DashDrop.Foundation.Program DashDrop.Foundation.Interleaving
open DashDrop.Transport.Protocol
open DashDrop.Runtime.State DashDrop.Runtime.Machine DashDrop.Runtime.Effects
open DashDrop.Runtime.Footprint DashDrop.Runtime.Supervisor

def isCancelOf (id : String) : Event → Prop
  | .cancelled _ y _ _ => y = id
  | _ => False

/-- `cancel_transfer` has set the status of the task. -/
def Cancelled (id : String) (w : World) : Prop := ∃ e ∈ w.journal, isCancelOf id e

def Registrant (id : String) (w : World) (k : ℕ) : Prop := Event.registered k id ∈ w.journal

/-- The thread that decided to count the transfer, or counted it, by an event. -/
def ower (id : String) : Event → Option ℕ
  | .owes j y => if y = id then some j else none
  | _ => none

def owers (id : String) (l : List Event) : List ℕ := l.filterMap (ower id)

def writesStatus (id : String) : TaskOp → Prop
  | .updateStatus y _ _ | .sendTransferring y | .sendRejected y _ | .sendTimedOut y
  | .sendFinished y _ _ => y = id
  | _ => False

/-- The transfer still waits for its answer. A send has read none on the connection of its task
and has connected no further; an offer has its prompt up, and nobody has accepted it. -/
def Undecided (id : String) (t : TransferTask) (w : World) : Prop :=
  match t.direction with
  | .send => ∀ k c, Registrant id w k → t.conn = some c →
      Event.answered k c ∉ w.journal ∧ ∀ d, Event.connected k d ∈ w.journal → d ≤ c
  | .receive => ∃ k chan, Registrant id w k ∧ Event.opened k id chan ∈ w.journal ∧
      (∀ a, Event.observed k chan a ∉ w.journal) ∧ ∀ j, Event.sent j chan true ∉ w.journal

theorem connOpen_of_all_closed {w : World} (h : (w.conns.all fun conn => conn.closed) = true)
    (c : ℕ) : connOpen w c = false := by
  unfold connOpen
  split
  · rename_i conn found
    have closed := List.all_eq_true.mp h conn (List.mem_of_getElem? found)
    simp [closed]
  · rfl

/-- Every cancel of the transfer has closed the connection it found. -/
def Shut (id : String) (w : World) : Prop :=
  ∀ k s c, Event.cancelled k id s (some c) ∈ w.journal → connOpen w c = false

/-- A cancel comes while the transfer waits for its answer, or after its end. The party that
registered the transfer uses the network neither while a cancel is under way nor, after it,
with success: it finds no new connection and its wait does not end by the timer. No accept
arrives after the cancel. -/
def Timely (id : String) : Guard Op World Ans := fun j o x w =>
  match o with
  | .task (.cancel y _) => y = id → ∀ t, w.transfers.lookup id = some t →
      t.status.isTerminal = false → Undecided id t w
  | .net n => Registrant id w j → Shut id w ∧ (Cancelled id w →
      match n with
      | .dial _ => ∀ fp, x.reply ≠ .dialled fp
      | .readWithTimeout _ => isTimer x.reply = false
      | _ => True)
  | .gate (.send chan true) => Cancelled id w → ∀ k, Event.opened k id chan ∉ w.journal
  | _ => True

def Sole (id : String) : Guard Op World Ans := fun j o _ w =>
  match o with
  | .task (.insert t) => t.id = id → ∀ k, Registrant id w k → k = j
  | .task (.sendErrored y _ _) => y = id → ∀ k, Registrant id w k → k = j
  | _ => True

/-- What the sections of the code keep to under these circumstances. -/
def Proper (id : String) : Guard Op World Ans := fun j o _ w =>
  match o with
  | .task (.insert t) => t.id = id → ¬ Cancelled id w ∧ owers id w.journal = []
  | .task (.sendErrored y _ _) => y = id → Cancelled id w →
      ∀ t, w.transfers.lookup id = some t → t.status.isTerminal = true
  | .task u => writesStatus id u → Registrant id w j ∧ ¬ Cancelled id w ∧
      ∀ t, w.transfers.lookup id = some t → t.status.isTerminal = false
  | .net (.write c y m) => y = id → m.isOfferOrChunk = true → Cancelled id w →
      connOpen w c = false
  | _ => True

variable {i j : ℕ} {id : String} {w w' : World} {x : Ans} {o : Op} {r : o.Resp}

/-- The transfer whose count the answer of an operation makes due. -/
def debt : (o : Op) → o.Resp → Option String
  | .task (.updateStatus y _ _), some u => u.record.map fun _ => y
  | .task (.cancel y _), some _ => some y
  | .task (.sendRejected y _), some _ => some y
  | .task (.sendTimedOut y), some _ => some y
  | .task (.sendFinished y _ _), some _ => some y
  | _, _ => none

theorem owers_history (i : ℕ) (w : World) (o : Op) (r : o.Resp) :
    owers id (history i w o r) = if debt o r = some id then [i] else [] := by
  cases o with
  | task u =>
    rw [history, owers, List.filterMap_append, filterMap_emitted i fun _ => rfl, List.append_nil]
    cases u with
    | updateStatus y status reason =>
      cases r with
      | none => rfl
      | some u =>
        cases hu : u.record with
        | none => simp [taskHistory, ower, debt, hu]
        | some _ => by_cases h : y = id <;> simp [taskHistory, ower, debt, hu, h, List.filterMap_cons]
    | cancel y _ | sendRejected y _ | sendTimedOut y | sendFinished y _ _ =>
      cases r with
      | none => rfl
      | some _ => by_cases h : y = id <;> simp [taskHistory, ower, debt, h, List.filterMap_cons]
    | _ => simp [taskHistory, ower, debt]
  | note n => rfl
  | gate g => cases g <;> first | rfl | (cases r <;> rfl)
  | net n => cases n <;> first | rfl | (cases r <;> rfl)
  | env e => cases e <;> rfl
  | fs f => rfl

theorem owers_step (done : exec i o x w = some (w', r)) :
    owers id w'.journal = owers id w.journal ++ if debt o r = some id then [i] else [] := by
  rw [exec_journal done, ← owers_history i w' o r, owers, List.filterMap_append]
  rfl

theorem cancelled_iff :
    Cancelled id w ↔ ∃ k s c, Event.cancelled k id s c ∈ w.journal := by
  constructor
  · rintro ⟨e, he, cancels⟩
    cases e with
    | cancelled k y s c =>
      obtain rfl : y = id := cancels
      exact ⟨k, s, c, he⟩
    | _ => exact cancels.elim
  · rintro ⟨k, s, c, he⟩
    exact ⟨_, he, rfl⟩

def thread : Event → ℕ
  | .registered j _ | .owes j _ | .recorded j _ | .moved j _ _ | .cancelled j _ _ _
  | .connected j _ | .answered j _ | .wrote j _ _ _ | .emitted j _ | .surveyed j _ | .retained j
  | .opened j _ _ | .took j _ _ | .sent j _ _ | .observed j _ _ => j

theorem thread_of_mem_history {e : Event} (h : e ∈ history i w o r) : thread e = i := by
  have origin := origin_of_mem_history h
  cases e <;> exact origin.1

theorem foreign_event (done : exec j o x w = some (w', r)) {e : Event} (other : thread e ≠ j) :
    e ∈ w'.journal ↔ e ∈ w.journal := by
  rw [mem_journal_iff done, or_iff_left fun h => other (thread_of_mem_history h)]

theorem length_conns_le (done : exec i o x w = some (w', r)) :
    w.conns.length ≤ w'.conns.length := by
  rcases Nat.eq_zero_or_pos w.conns.length with none_yet | some_there
  · omega
  · have last := List.getElem?_eq_getElem (l := w.conns) (i := w.conns.length - 1) (by omega)
    obtain ⟨_, found, -⟩ := exec_conns done last
    have := (List.getElem?_eq_some_iff.mp found).1
    omega

/-- The sections that register or cancel the transfer, write its status or end it with an error. -/
def edits (id : String) : Op → Prop
  | .task (.insert t) => t.id = id
  | .task (.cancel y _) | .task (.sendErrored y _ _) => y = id
  | .task u => writesStatus id u
  | _ => False

/-- A step that leaves the transfer running, or ended, as it was, or removes it. -/
structure Calm (id : String) (w w' : World) : Prop where
  task : ∀ t', w'.transfers.lookup id = some t' → ∃ t, w.transfers.lookup id = some t ∧
    t'.status.isTerminal = t.status.isTerminal ∧ t'.direction = t.direction ∧ t'.conn = t.conn
  owers : owers id w'.journal = owers id w.journal
  cancels : ∀ {k s c}, Event.cancelled k id s c ∈ w'.journal ↔
    Event.cancelled k id s c ∈ w.journal
  registrants : ∀ {k}, Registrant id w' k ↔ Registrant id w k
  conns : w.conns.length ≤ w'.conns.length

private theorem untouched (done : exec j o x w = some (w', r)) (other : ¬ edits id o)
    {t' : TransferTask} (found : w'.transfers.lookup id = some t') :
    ∃ t, w.transfers.lookup id = some t ∧ t'.status = t.status ∧ t'.direction = t.direction ∧
      t'.conn = t.conn := by
  rw [exec_lookup_task done] at found
  cases o with
  | task u =>
    cases u with
    | insert t =>
      rw [onTask, taskEffect, if_neg (Ne.symm other)] at found
      exact ⟨t', found, rfl, rfl, rfl⟩
    | cleanup =>
      simp only [onTask, taskEffect, Option.filter_eq_some_iff] at found
      exact ⟨t', found.1, rfl, rfl, rfl⟩
    | revision | status | snapshot | record => exact ⟨t', found, rfl, rfl, rfl⟩
    | setError y _ | addBytes y _ =>
      simp only [onTask, taskEffect] at found
      split_ifs at found
      · obtain ⟨t, before, rfl⟩ := Option.map_eq_some_iff.mp found
        exact ⟨t, before, rfl, rfl, rfl⟩
      · exact ⟨t', found, rfl, rfl, rfl⟩
    | updateStatus y _ _ | cancel y _ | sendRejected y _ | sendTimedOut y | sendTransferring y
    | sendFinished y _ _ | sendErrored y _ _ =>
      rw [onTask, taskEffect, if_neg (Ne.symm other)] at found
      exact ⟨t', found, rfl, rfl, rfl⟩
  | note | gate | net | env | fs => exact ⟨t', found, rfl, rfl, rfl⟩

private theorem edits_of_debt (due : debt o r = some id) :
    (∃ u, o = .task u ∧ writesStatus id u) ∨ ∃ hasHost, o = .task (.cancel id hasHost) := by
  cases o with
  | task u =>
    cases u with
    | updateStatus y status reason =>
      cases r with
      | none => cases due
      | some u =>
        obtain ⟨-, -, rfl⟩ := Option.map_eq_some_iff.mp due
        exact .inl ⟨_, rfl, rfl⟩
    | cancel y hasHost =>
      cases r <;> cases due
      exact .inr ⟨hasHost, rfl⟩
    | sendRejected y _ | sendTimedOut y | sendFinished y _ _ =>
      cases r <;> cases due
      exact .inl ⟨_, rfl, rfl⟩
    | _ => cases due
  | note | gate | net | env | fs => cases due

private theorem owers_same (done : exec j o x w = some (w', r)) (free : debt o r ≠ some id) :
    owers id w'.journal = owers id w.journal := by
  rw [owers_step done, if_neg free, List.append_nil]

private theorem cancels_same (done : exec j o x w = some (w', r))
    (other : ∀ hasHost, o ≠ .task (.cancel id hasHost)) {k : ℕ} {s : TransferStatus}
    {c : Option ℕ} : Event.cancelled k id s c ∈ w'.journal ↔
      Event.cancelled k id s c ∈ w.journal := by
  rw [mem_journal_iff done, or_iff_left]
  intro new
  obtain ⟨-, hasHost, rfl⟩ := origin_of_mem_history new
  exact other hasHost rfl

private theorem registrants_same (done : exec j o x w = some (w', r))
    (other : ∀ t, o = .task (.insert t) → t.id ≠ id) {k : ℕ} :
    Registrant id w' k ↔ Registrant id w k := by
  rw [Registrant, mem_journal_iff done]
  refine or_iff_left fun new => ?_
  obtain ⟨-, t, rfl, same⟩ := origin_of_mem_history new
  exact other t rfl same

theorem calm_of_exec (done : exec j o x w = some (w', r)) (other : ¬ edits id o) :
    Calm id w w' where
  task t' found := by
    obtain ⟨t, before, same, rest⟩ := untouched done other found
    exact ⟨t, before, by rw [same], rest⟩
  owers := by
    refine owers_same done fun due => other ?_
    obtain ⟨u, rfl, writes⟩ | ⟨hasHost, rfl⟩ := edits_of_debt due
    · cases u <;> first | exact writes | exact writes.elim
    · rfl
  cancels := cancels_same done fun _ same => other (same ▸ rfl)
  registrants := registrants_same done fun _ same here => other (same ▸ here)
  conns := length_conns_le done

theorem calm_of_advance {u : TaskOp} {a : u.Resp} (done : exec j (.task u) x w = some (w', a))
    (advances : u = .sendTransferring id ∨ ∃ reason, u = .updateStatus id .transferring reason)
    (running : ∀ t, w.transfers.lookup id = some t → t.status.isTerminal = false) :
    Calm id w w' := by
  have effect := exec_lookup_task done id
  refine ⟨fun t' found => ?_, ?_, ?_, ?_, length_conns_le done⟩
  · obtain rfl | ⟨reason, rfl⟩ := advances <;>
    · rw [onTask, taskEffect, if_pos rfl] at effect
      obtain ⟨t, before, rfl⟩ := Option.map_eq_some_iff.mp (effect ▸ found)
      exact ⟨t, before, by rw [running t before]; rfl, rfl, rfl⟩
  · refine owers_same done ?_
    obtain rfl | ⟨reason, rfl⟩ := advances
    · rintro ⟨⟩
    · have answer := exec_task_answer done
      simp only [execTask, modifyTask_answer] at answer
      rw [answer]
      cases w.transfers.lookup id <;> rintro ⟨⟩
  · refine cancels_same done ?_
    rintro hasHost ⟨⟩
    obtain h | ⟨_, h⟩ := advances <;> cases h
  · refine registrants_same done ?_
    rintro t ⟨⟩
    obtain h | ⟨_, h⟩ := advances <;> cases h

theorem cancel_of_exec {hasHost : Bool} {a : Option (TerminalRecord × Option ℕ)}
    (done : exec j (.task (.cancel id hasHost)) x w = some (w', a)) :
    Calm id w w' ∨ ∃ t, w.transfers.lookup id = some t ∧
      w'.transfers.lookup id = some (applyCancel x.now t) ∧ Cancelled id w' ∧
      (∀ k s c, Event.cancelled k id s c ∈ w'.journal →
        Event.cancelled k id s c ∈ w.journal ∨ c = t.conn) ∧
      ∀ k, Registrant id w' k ↔ Registrant id w k := by
  have effect := exec_lookup_task done id
  rw [onTask, taskEffect, if_pos rfl] at effect
  have answer := exec_task_answer done
  simp only [execTask, modifyTask_answer] at answer
  have same {k : ℕ} : Registrant id w' k ↔ Registrant id w k :=
    registrants_same done fun _ h => by cases h
  cases found : w.transfers.lookup id with
  | none =>
    rw [found] at answer effect
    subst answer
    refine .inl ⟨fun t' there => ?_, owers_same done (by rintro ⟨⟩), fun {k s c} => ?_, same,
      length_conns_le done⟩
    · rw [effect] at there
      cases there
    · rw [mem_journal_iff done, or_iff_left]
      simp [history, taskHistory, sectionEvents]
  | some t =>
    rw [found] at answer effect
    subst answer
    have events {e : Event} : e ∈ w'.journal ↔ e ∈ w.journal ∨ e ∈ history j w'
      (.task (.cancel id hasHost)) (some (terminalRecord (applyCancel x.now t), t.conn)) :=
      mem_journal_iff done
    refine .inr ⟨t, rfl, effect, ?_, fun k s c here => ?_, fun _ => same⟩
    · exact ⟨_, events.mpr (.inr List.mem_cons_self), rfl⟩
    · refine (events.mp here).imp_right fun new => ?_
      have shown : k = j ∧ s = (applyCancel x.now t).status ∧ c = t.conn := by
        simpa [history, taskHistory, terminalRecord] using new
      exact shown.2.2

theorem ended_cancel (now : ℕ) (t : TransferTask) :
    (applyCancel now t).status.isTerminal = true := by
  cases h : t.direction <;> simp [applyCancel, cancelStatus, TransferStatus.isTerminal, h]

theorem Calm.cancelled (calm : Calm id w w') : Cancelled id w' ↔ Cancelled id w := by
  simp only [cancelled_iff, calm.cancels]

theorem insert_of_exec {t : TransferTask} {a : Unit}
    (done : exec j (.task (.insert t)) x w = some (w', a)) :
    w'.transfers.lookup t.id = some t ∧ owers t.id w'.journal = owers t.id w.journal ∧
      (Cancelled t.id w' ↔ Cancelled t.id w) ∧
      ∀ k, Registrant t.id w' k ↔ Registrant t.id w k ∨ k = j := by
  refine ⟨?_, owers_same done (by rintro ⟨⟩), ?_, fun k => ?_⟩
  · rw [exec_lookup_task done, onTask, taskEffect, if_pos rfl]
  · simp only [cancelled_iff, cancels_same done fun _ h => by cases h]
  · rw [Registrant, mem_journal_iff done]
    simp [Registrant, history, taskHistory, sectionEvents]

/-- Nothing happens to a transfer that nobody has registered, and a channel carries what was
sent on it. -/
structure Sourced (id : String) (w : World) : Prop where
  unknown : (∀ k, ¬ Registrant id w k) →
    w.transfers.lookup id = none ∧ ¬ Cancelled id w ∧ owers id w.journal = []
  carried : ∀ {k y chan}, Event.opened k y chan ∈ w.journal → chan < w.channels.length ∧
    ∀ v, (w.channels[chan]?).bind Channel.value? = some v →
      ∃ j, Event.sent j chan v ∈ w.journal

private theorem unknown_step (done : exec j o x w = some (w', r))
    (before : (∀ k, ¬ Registrant id w k) →
      w.transfers.lookup id = none ∧ ¬ Cancelled id w ∧ owers id w.journal = [])
    (nobody : ∀ k, ¬ Registrant id w' k) :
    w'.transfers.lookup id = none ∧ ¬ Cancelled id w' ∧ owers id w'.journal = [] := by
  obtain ⟨missing, clear, free⟩ :=
    before fun k here => nobody k (mem_journal_mono done here)
  have other : ∀ t, o = .task (.insert t) → t.id ≠ id := by
    rintro t rfl rfl
    exact nobody j (((insert_of_exec done).2.2.2 j).mpr (.inr rfl))
  have still : w'.transfers.lookup id = none := by
    rw [exec_lookup_task done, missing]
    cases o with
    | task u =>
      cases u with
      | insert t => rw [onTask, taskEffect, if_neg (Ne.symm (other t rfl))]
      | _ => simp [onTask, taskEffect]
    | note | gate | net | env | fs => rfl
  have calm : Calm id w w' := by
    by_cases edited : edits id o
    · cases o with
      | task u =>
        have answer := exec_task_answer done
        cases u with
        | insert t => exact absurd edited (other t rfl)
        | cancel y hasHost =>
          obtain rfl : y = id := edited
          obtain calm | ⟨t, found, -⟩ := cancel_of_exec done
          · exact calm
          · rw [missing] at found
            cases found
        | updateStatus y _ _ | sendRejected y _ | sendTimedOut y | sendTransferring y
        | sendFinished y _ _ | sendErrored y _ _ =>
          obtain rfl : y = id := edited
          have free : debt _ r ≠ some y := by
            simp only [execTask, modifyTask_answer, missing] at answer
            cases answer
            rintro ⟨⟩
          refine ⟨fun t' found => ?_, owers_same done free,
            cancels_same done (by rintro _ ⟨⟩), registrants_same done (by rintro _ ⟨⟩),
            length_conns_le done⟩
          rw [still] at found
          cases found
        | _ => exact edited.elim
      | note | gate | net | env | fs => exact edited.elim
    · exact calm_of_exec done edited
  exact ⟨still, fun h => clear (calm.cancelled.mp h), calm.owers.trans free⟩

/-- A section of the senders' map keeps the values of the channels, but for the one it sends. -/
private theorem value_of_execGate {g : GateOp} {a : g.Resp} (ran : execGate x w g = some (w', a))
    {chan : ℕ} (inside : chan < w.channels.length) : chan < w'.channels.length ∧
      ∀ v, (w'.channels[chan]?).bind Channel.value? = some v →
        (w.channels[chan]?).bind Channel.value? = some v ∨ g = .send chan v := by
  have dropped (gone : List ℕ) : ((dropSenders w.channels gone)[chan]?).bind Channel.value? =
      (w.channels[chan]?).bind Channel.value? := by
    rw [getElem?_dropSenders]
    split_ifs
    · cases w.channels[chan]? <;> simp [value?_dropSender]
    · rfl
  cases g with
  | register y =>
    cases ran
    refine ⟨by simp; omega, fun v here => .inl ?_⟩
    rw [List.getElem?_append_left (by simpa using inside), dropped] at here
    exact here
  | discard y =>
    cases ran
    exact ⟨by simpa using inside, fun v here => .inl (by rwa [dropped] at here)⟩
  | retain ids =>
    cases ran
    exact ⟨by simpa using inside, fun v here => .inl (by rwa [dropped] at here)⟩
  | take y | contains y =>
    cases ran
    exact ⟨inside, fun v here => .inl here⟩
  | send c v =>
    cases ran
    refine ⟨by simpa using inside, fun v' here => ?_⟩
    simp only [List.getElem?_modify, List.getElem?_eq_getElem inside] at here ⊢
    by_cases same : c = chan
    · subst same
      simp only [if_true, Option.map_eq_map, Option.map_some, Option.bind_some] at here
      exact (value?_send here).imp_right fun same => by rw [same]
    · exact .inl (by simpa [same] using here)
  | wait c =>
    obtain ⟨ch, found, rest⟩ := Option.bind_eq_some_iff.mp ran
    obtain ⟨y, waited, same⟩ := Option.map_eq_some_iff.mp rest
    cases same
    refine ⟨by simpa using inside, fun v here => .inl ?_⟩
    by_cases same : c = chan
    · subst same
      rw [found, Option.bind_some, ← value?_wait waited]
      simpa [inside] using here
    · simpa [List.getElem?_set_ne same] using here

theorem sourced_step (done : exec j o x w = some (w', r)) (sourced : Sourced id w) :
    Sourced id w' := by
  refine ⟨unknown_step done sourced.unknown, fun {k y chan} opened => ?_⟩
  obtain ⟨w₁, ran, logged⟩ := exec_inv done
  have kept : w'.channels = w₁.channels := by rw [logged, log]
  rw [kept]
  cases o with
  | gate g =>
    have ran : execGate x w g = some (w₁, r) := ran
    obtain old | new := (mem_journal_iff done).mp opened
    · obtain ⟨inside, carried⟩ := sourced.carried old
      obtain ⟨still, values⟩ := value_of_execGate ran inside
      refine ⟨still, fun v here => ?_⟩
      obtain before | rfl := values v here
      · obtain ⟨l, there⟩ := carried v before
        exact ⟨l, mem_journal_mono done there⟩
      · exact ⟨j, (mem_journal_iff done).mpr (.inr (List.mem_singleton.mpr rfl))⟩
    · obtain ⟨-, same⟩ := origin_of_mem_history new
      cases same
      cases ran
      have shown : chan = w.channels.length := (Event.opened.inj (List.mem_singleton.mp new)).2.2
      subst shown
      refine ⟨by simp, fun v here => ?_⟩
      simp [Channel.value?] at here
  | task | note | net | env | fs =>
    rw [(frame_execOp ran).channels (by rintro _ ⟨⟩)]
    obtain old | new := (mem_journal_iff done).mp opened
    · obtain ⟨inside, carried⟩ := sourced.carried old
      refine ⟨inside, fun v here => ?_⟩
      obtain ⟨l, there⟩ := carried v here
      exact ⟨l, mem_journal_mono done there⟩
    · cases (origin_of_mem_history new).2

end DashDrop.Lifecycle.Overlap
