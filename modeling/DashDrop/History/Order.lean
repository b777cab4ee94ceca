/- GID: DashDrop/History/Order
   source: src-tauri/src/db.rs, src-tauri/src/persistence_progress.rs
   anchors: []
   digest: The history keeps the largest snapshot of a transfer in whatever order they come. -/

import Mathlib.Data.Prod.Lex
import DashDrop.History.Progress

set_option autoImplicit false
set_option relaxedAutoImplicit false

namespace DashDrop.History.Order

open DashDrop.Runtime.State DashDrop.History.Progress

def key (task : TransferTask) : ℕ ×ₗ ℕ := toLex (task.revision, task.bytesTransferred)

def rowKey (row : HistoryRow) : ℕ ×ₗ ℕ := toLex (row.revision, row.bytesTransferred)

def Tells (row : HistoryRow) (task : TransferTask) : Prop :=
  row.status = statusText task.status ∧ row.bytesTransferred = task.bytesTransferred ∧
    row.revision = task.revision

/-- Equal revisions have equal status, and nothing follows a terminal status. -/
structure Consistent (snapshots : List TransferTask) : Prop where
  status : ∀ s ∈ snapshots, ∀ t ∈ snapshots, s.revision = t.revision → s.status = t.status
  final : ∀ s ∈ snapshots, ∀ t ∈ snapshots, s.status.isTerminal = false →
    t.status.isTerminal = true → s.revision ≤ t.revision

section Order

variable {s t task : TransferTask} {row : HistoryRow} {snapshots : List TransferTask}

theorem key_le_iff : key s ≤ key t ↔
    s.revision < t.revision ∨ (s.revision = t.revision ∧ s.bytesTransferred ≤ t.bytesTransferred) :=
  Prod.Lex.toLex_le_toLex

theorem rowKey_le_iff : rowKey row ≤ key t ↔
    row.revision < t.revision ∨
      (row.revision = t.revision ∧ row.bytesTransferred ≤ t.bytesTransferred) :=
  Prod.Lex.toLex_le_toLex

theorem Tells.rowKey (h : Tells row task) : rowKey row = key task := by
  unfold Order.rowKey key
  rw [h.2.1, h.2.2]

theorem tells_ofTask (unixSecs : ℕ) : Tells (.ofTask unixSecs task) task := ⟨rfl, rfl, rfl⟩

theorem isNewerThan_iff : isNewerThan s t = true ↔ key s ≤ key t := by
  rw [key_le_iff]
  unfold isNewerThan
  rw [decide_eq_true_eq]
  constructor
  · rintro (newer | ⟨same, grown⟩)
    · exact .inl newer
    · exact .inr ⟨same.symm, grown⟩
  · rintro (newer | ⟨same, grown⟩)
    · exact .inl newer
    · exact .inr ⟨same.symm, grown⟩

theorem isTerminalStatusStr_statusText (status : TransferStatus) :
    isTerminalStatusStr (statusText status) = status.isTerminal := by
  cases status <;> decide

theorem Consistent.lt (h : Consistent snapshots) (hs : s ∈ snapshots) (ht : t ∈ snapshots)
    (open_ : s.status.isTerminal = false) (closed : t.status.isTerminal = true) :
    key s < key t := by
  have ne : s.revision ≠ t.revision := by
    intro same
    rw [h.status s hs t ht same, closed] at open_
    cases open_
  have le := h.final s hs t ht open_ closed
  exact Prod.Lex.toLex_lt_toLex.mpr (.inl (by show s.revision < t.revision; omega))

theorem shouldPersist_iff {history : HistoryTable} (held : history task.id = some row)
    (tells : Tells row s) (agrees : s.revision = task.revision → s.status = task.status) :
    shouldPersistTransfer history task = true ↔ rowKey row ≤ key task := by
  obtain ⟨status, _, revision⟩ := tells
  rw [rowKey_le_iff]
  unfold shouldPersistTransfer
  rw [held]
  simp only
  split_ifs with newer older terminal
  · simp [newer]
  · simp only [false_iff]
    omega
  · obtain ⟨closed, open_⟩ := terminal
    rw [status, isTerminalStatusStr_statusText, agrees (by omega)] at closed
    exact absurd closed open_
  · rw [decide_eq_true_eq]
    omega

end Order

/-- A snapshot is saved by its own caller, is sent to the worker, or entries are flushed. -/
inductive Arrival where
  | direct (clock : Clock) (task : TransferTask)
  | schedule (clock : Clock) (task : TransferTask)
  | flushNow (clock : Clock) (task : TransferTask)
  | flush (clock : Clock) (ids : List String)

def arrive (policy : Policy) (worker : Worker) : Arrival → Worker
  | .direct clock task =>
      { worker with history := saveTransfer clock.unixSecs task worker.history }
  | .schedule clock task => worker.schedule policy clock true (progressSnapshot task)
  | .flushNow clock task => worker.flushNow clock true (progressSnapshot task)
  | .flush clock ids => worker.flushEntries clock (fun _ => true) ids

def Arrival.snapshot? (id : String) : Arrival → Option TransferTask
  | .direct _ task | .schedule _ task | .flushNow _ task => if task.id = id then some task else none
  | .flush _ _ => none

def snapshots (id : String) (arrivals : List Arrival) : List TransferTask :=
  arrivals.filterMap (Arrival.snapshot? id)

/-- `flush_now` is called with terminal snapshots. -/
def Arrival.Proper : Arrival → Prop
  | .flushNow _ task => task.status.isTerminal = true
  | _ => True

/-- The row and the entry stand for snapshots that came, and one of them is beyond each. -/
structure Joined (came : List TransferTask) (row : Option HistoryRow)
    (entry : Option PendingTransfer) : Prop where
  stored : ∀ r, row = some r → ∃ s ∈ came, Tells r s
  queued : ∀ e, entry = some e → ∃ s ∈ came, e.latest = progressSnapshot s ∧
    s.status.isTerminal = false
  covered : ∀ s ∈ came, (∃ r, row = some r ∧ key s ≤ rowKey r) ∨
    ∃ e, entry = some e ∧ key s ≤ key e.latest

/-- Each entry is kept under the name of its transfer. -/
def Keyed (worker : Worker) : Prop := ∀ id e, worker.pending id = some e → e.latest.id = id

section Join

variable {came all : List TransferTask} {task : TransferTask} {history : HistoryTable}
  {unixSecs : ℕ} {worker : Worker} {clock : Clock} {id other : String} {policy : Policy}

theorem saved (unixSecs : ℕ)
    (agrees : ∀ s ∈ came, s.revision = task.revision → s.status = task.status)
    (stored : ∀ r, history task.id = some r → ∃ s ∈ came, Tells r s) :
    ∃ r, saveTransfer unixSecs task history task.id = some r ∧
      (Tells r task ∨ ∃ s ∈ came, Tells r s) ∧ key task ≤ rowKey r ∧
      ∀ old, history task.id = some old → rowKey old ≤ rowKey r := by
  unfold saveTransfer
  cases held : history task.id with
  | none =>
    have persists : shouldPersistTransfer history task = true := by
      simp [shouldPersistTransfer, held]
    rw [if_pos persists, Function.update_self]
    exact ⟨_, rfl, .inl (tells_ofTask unixSecs), le_rfl, by simp⟩
  | some old =>
    obtain ⟨s, mem, tells⟩ := stored old held
    have rule := shouldPersist_iff held tells (agrees s mem)
    by_cases persists : shouldPersistTransfer history task = true
    · rw [if_pos persists, Function.update_self]
      refine ⟨_, rfl, .inl (tells_ofTask unixSecs), le_rfl, ?_⟩
      intro other same
      obtain rfl := Option.some.inj same
      exact rule.mp persists
    · rw [if_neg persists, held]
      refine ⟨old, rfl, .inr ⟨s, mem, tells⟩, ?_, ?_⟩
      · exact le_of_not_ge fun le => persists (rule.mpr le)
      · intro other same
        obtain rfl := Option.some.inj same
        exact le_rfl

/-- A snapshot is written; what was queued stays queued, or is behind the snapshot. -/
theorem joined_save {row' : Option HistoryRow} {entry entry' : Option PendingTransfer}
    (h : Joined came (history task.id) entry)
    (agrees : ∀ s ∈ came, s.revision = task.revision → s.status = task.status)
    (now : row' = saveTransfer unixSecs task history task.id)
    (kept : entry' = entry ∨ (entry' = none ∧ ∀ e, entry = some e → key e.latest ≤ key task)) :
    Joined (came ++ [task]) row' entry' := by
  obtain ⟨r, same, tells, above, grown⟩ := saved unixSecs agrees h.stored
  rw [now, same]
  constructor
  case stored =>
    intro row held
    obtain rfl := Option.some.inj held
    rcases tells with tells | ⟨s, mem, tells⟩
    · exact ⟨task, by simp, tells⟩
    · exact ⟨s, List.mem_append_left _ mem, tells⟩
  case queued =>
    intro e queued
    rcases kept with rfl | ⟨rfl, _⟩
    · obtain ⟨s, mem, rest⟩ := h.queued e queued
      exact ⟨s, List.mem_append_left _ mem, rest⟩
    · cases queued
  case covered =>
    intro s mem
    rcases List.mem_append.mp mem with old | new
    · rcases h.covered s old with ⟨row, held, le⟩ | ⟨e, queued, le⟩
      · exact .inl ⟨r, rfl, le.trans (grown row held)⟩
      · rcases kept with rfl | ⟨_, behind⟩
        · exact .inr ⟨e, queued, le⟩
        · exact .inl ⟨r, rfl, (le.trans (behind e queued)).trans above⟩
    · obtain rfl := List.mem_singleton.mp new
      exact .inl ⟨r, rfl, above⟩

theorem Joined.resnap {row : Option HistoryRow} {entry : Option PendingTransfer}
    {more : List TransferTask} (h : Joined (came ++ [progressSnapshot task]) row entry)
    (sub : ∀ s ∈ came, s ∈ more) (mem : task ∈ more) (back : ∀ s ∈ more, s ∈ came ∨ s = task) :
    Joined more row entry := by
  constructor
  case stored =>
    intro r held
    obtain ⟨s, listed, tells⟩ := h.stored r held
    rcases List.mem_append.mp listed with old | new
    · exact ⟨s, sub s old, tells⟩
    · obtain rfl := List.mem_singleton.mp new
      exact ⟨task, mem, tells⟩
  case queued =>
    intro e queued
    obtain ⟨s, listed, same, open_⟩ := h.queued e queued
    rcases List.mem_append.mp listed with old | new
    · exact ⟨s, sub s old, same, open_⟩
    · obtain rfl := List.mem_singleton.mp new
      exact ⟨task, mem, same, open_⟩
  case covered =>
    intro s listed
    rcases back s listed with old | rfl
    · exact h.covered s (List.mem_append_left _ old)
    · exact h.covered (progressSnapshot s) (by simp)

theorem Joined.mono {row : Option HistoryRow} {entry entry' : Option PendingTransfer}
    (h : Joined came row entry) {task : TransferTask}
    (queued : ∀ e, entry' = some e → e.latest = progressSnapshot task ∧
      task.status.isTerminal = false)
    (passed : ∀ e, entry = some e → key e.latest ≤ key task) (made : entry' ≠ none) :
    Joined (came ++ [task]) row entry' := by
  obtain ⟨now, same⟩ := Option.ne_none_iff_exists'.mp made
  have latest : key now.latest = key task := by
    rw [(queued now same).1]
    rfl
  constructor
  case stored =>
    intro r held
    obtain ⟨s, mem, tells⟩ := h.stored r held
    exact ⟨s, List.mem_append_left _ mem, tells⟩
  case queued => exact fun e listed => ⟨task, by simp, queued e listed⟩
  case covered =>
    intro s mem
    rcases List.mem_append.mp mem with old | new
    · rcases h.covered s old with held | ⟨e, listed, le⟩
      · exact .inl held
      · exact .inr ⟨now, same, (le.trans (passed e listed)).trans latest.ge⟩
    · obtain rfl := List.mem_singleton.mp new
      exact .inr ⟨now, same, latest.ge⟩

theorem keyed_remove (keyed : Keyed worker) : Keyed (worker.remove other) := by
  intro id e queued
  by_cases same : id = other
  · subst same
    simp at queued
  · rw [pending_remove_of_ne same] at queued
    exact keyed id e queued

theorem keyed_insert {entry : PendingTransfer} (keyed : Keyed worker)
    (named : entry.latest.id = other) : Keyed (worker.insert other entry) := by
  intro id e queued
  by_cases same : id = other
  · subst same
    rw [pending_insert_self] at queued
    exact Option.some.inj queued ▸ named
  · rw [pending_insert_of_ne same] at queued
    exact keyed id e queued

theorem keyed_persistTask {ok : Bool} (keyed : Keyed worker) :
    Keyed (worker.persistTask clock ok task) := by
  intro id e queued
  rw [pending_persistTask] at queued
  exact keyed id e queued

theorem keyed_flush (clock : Clock) (ok : Bool) (other : String) (keyed : Keyed worker) :
    Keyed (worker.flushTransferById clock ok other) := by
  unfold Worker.flushTransferById
  split
  · exact keyed
  · rename_i entry queued
    have flushed : Keyed ((worker.remove other).persistTask clock ok entry.latest) :=
      keyed_persistTask (keyed_remove keyed)
    simp only
    split_ifs
    · exact flushed
    · exact keyed_insert flushed (keyed other entry queued)

theorem flush_of_ne (clock : Clock) (ok : Bool) (keyed : Keyed worker) (ne : id ≠ other) :
    (worker.flushTransferById clock ok other).history id = worker.history id ∧
      (worker.flushTransferById clock ok other).pending id = worker.pending id := by
  unfold Worker.flushTransferById
  split
  · exact ⟨rfl, rfl⟩
  · rename_i entry queued
    have named := keyed other entry queued
    have history : ((worker.remove other).persistTask clock ok entry.latest).history id =
        worker.history id := history_persistTask_of_ne (named ▸ ne)
    have pending : ((worker.remove other).persistTask clock ok entry.latest).pending id =
        worker.pending id := by
      rw [pending_persistTask, pending_remove_of_ne ne]
    simp only
    split_ifs
    · exact ⟨history, pending⟩
    · exact ⟨history, (pending_insert_of_ne ne).trans pending⟩

theorem joined_flush (consistent : Consistent all) (sub : ∀ s ∈ came, s ∈ all)
    (keyed : Keyed worker) (h : Joined came (worker.history id) (worker.pending id)) :
    Joined came ((worker.flushTransferById clock true id).history id)
        ((worker.flushTransferById clock true id).pending id) ∧
      ∀ s ∈ came, ∃ r, (worker.flushTransferById clock true id).history id = some r ∧
        key s ≤ rowKey r := by
  cases queued : worker.pending id with
  | none =>
    have same : worker.flushTransferById clock true id = worker := by
      simp [Worker.flushTransferById, queued]
    rw [same]
    refine ⟨h, ?_⟩
    intro s mem
    rcases h.covered s mem with held | ⟨e, listed, _⟩
    · exact held
    · rw [queued] at listed
      cases listed
  | some entry =>
    obtain ⟨s, mem, latest, open_⟩ := h.queued entry queued
    have named : entry.latest.id = id := keyed id entry queued
    have status : entry.latest.status = s.status := by rw [latest]; rfl
    have agrees : ∀ t ∈ came, t.revision = entry.latest.revision → t.status = entry.latest.status := by
      intro t came_t same
      rw [latest] at same ⊢
      exact consistent.status t (sub t came_t) s (sub s mem) same
    have stored : ∀ r, worker.history entry.latest.id = some r → ∃ t ∈ came, Tells r t := by
      rw [named]
      exact h.stored
    obtain ⟨r, saves, tells, above, grown⟩ := saved clock.unixSecs agrees stored
    have held : (worker.flushTransferById clock true id).history id = some r := by
      rw [flushTransferById_open queued (status ▸ open_)]
      show saveTransfer clock.unixSecs entry.latest worker.history id = some r
      rw [← named]
      exact saves
    have covers : ∀ t ∈ came, key t ≤ rowKey r := by
      intro t came_t
      rcases h.covered t came_t with ⟨old, was, le⟩ | ⟨e, listed, le⟩
      · exact le.trans (grown old (named ▸ was))
      · obtain rfl := Option.some.inj (queued.symm.trans listed)
        exact le.trans above
    refine ⟨?_, fun t came_t => ⟨r, held, covers t came_t⟩⟩
    rw [held]
    constructor
    case stored =>
      intro row same
      obtain rfl := Option.some.inj same
      rcases tells with tells | known
      · rw [latest] at tells
        exact ⟨s, mem, tells⟩
      · exact known
    case queued =>
      intro e listed
      rw [flushTransferById_open queued (status ▸ open_), pending_insert_self] at listed
      obtain rfl := Option.some.inj listed
      exact ⟨s, mem, latest, open_⟩
    case covered => exact fun t came_t => .inl ⟨r, rfl, covers t came_t⟩

theorem joined_terminal (unixSecs : ℕ) {entry : Option PendingTransfer}
    (consistent : Consistent all) (sub : ∀ s ∈ came, s ∈ all) (mem : task ∈ all)
    (closed : task.status.isTerminal = true) (h : Joined came (history task.id) entry) :
    Joined (came ++ [task]) (saveTransfer unixSecs (progressSnapshot task) history task.id) none := by
  have agrees : ∀ s ∈ came, s.revision = (progressSnapshot task).revision →
      s.status = (progressSnapshot task).status :=
    fun s came_s same => consistent.status s (sub s came_s) task mem same
  have behind : ∀ e, entry = some e → key e.latest ≤ key (progressSnapshot task) := by
    intro e queued
    obtain ⟨s, came_s, latest, open_⟩ := h.queued e queued
    rw [latest]
    exact (consistent.lt (sub s came_s) mem open_ closed).le
  have written : Joined (came ++ [progressSnapshot task])
      (saveTransfer unixSecs (progressSnapshot task) history task.id) none :=
    joined_save h agrees rfl (.inr ⟨rfl, behind⟩)
  refine written.resnap (fun s came_s => List.mem_append_left _ came_s) (by simp) ?_
  intro s listed
  rcases List.mem_append.mp listed with old | new
  · exact .inl old
  · exact .inr (List.mem_singleton.mp new)

theorem joined_flushNow (consistent : Consistent all) (sub : ∀ s ∈ came, s ∈ all)
    (mem : task ∈ all) (closed : task.status.isTerminal = true)
    (h : Joined came (worker.history task.id) (worker.pending task.id)) :
    Joined (came ++ [task])
      ((worker.flushNow clock true (progressSnapshot task)).history task.id)
      ((worker.flushNow clock true (progressSnapshot task)).pending task.id) := by
  have gone : (worker.flushNow clock true (progressSnapshot task)).pending task.id = none := by
    show (Worker.persistTask clock true _ (worker.remove task.id)).pending task.id = none
    rw [pending_persistTask, pending_remove_self]
  rw [gone]
  exact joined_terminal clock.unixSecs consistent sub mem closed h

/-- A snapshot that is not terminal is queued, or is behind the one that is queued. -/
theorem joined_coalesce {row : Option HistoryRow} {entry : Option PendingTransfer} {now : ℕ}
    (open_ : task.status.isTerminal = false) (h : Joined came row entry) :
    (Worker.coalesce policy now (progressSnapshot task) entry = none ∧
        Joined (came ++ [task]) row entry) ∨
      ∃ next, Worker.coalesce policy now (progressSnapshot task) entry = some next ∧
        next.latest = progressSnapshot task ∧ Joined (came ++ [task]) row (some next) := by
  have replaced {next : PendingTransfer} (latest : next.latest = progressSnapshot task)
      (passed : ∀ e, entry = some e → key e.latest ≤ key task) :
      Joined (came ++ [task]) row (some next) := by
    refine h.mono ?_ passed (by simp)
    intro e same
    obtain rfl := Option.some.inj same
    exact ⟨latest, open_⟩
  cases entry with
  | none => exact .inr ⟨_, rfl, rfl, replaced rfl (by simp)⟩
  | some e =>
    by_cases newer : isNewerThan e.latest (progressSnapshot task) = true
    · have passed : key e.latest ≤ key task := isNewerThan_iff.mp newer
      refine .inr ⟨_, if_pos newer, rfl, replaced rfl ?_⟩
      intro other same
      exact Option.some.inj same ▸ passed
    · have behind : key task ≤ key e.latest :=
        le_of_not_ge fun le => newer (isNewerThan_iff.mpr le)
      refine .inl ⟨if_neg newer, ?_⟩
      constructor
      case stored =>
        intro r held
        obtain ⟨s, mem, tells⟩ := h.stored r held
        exact ⟨s, List.mem_append_left _ mem, tells⟩
      case queued =>
        intro other same
        obtain ⟨s, mem, rest⟩ := h.queued other same
        exact ⟨s, List.mem_append_left _ mem, rest⟩
      case covered =>
        intro s mem
        rcases List.mem_append.mp mem with old | new
        · exact h.covered s old
        · obtain rfl := List.mem_singleton.mp new
          exact .inr ⟨e, rfl, behind⟩

theorem joined_schedule (consistent : Consistent all) (sub : ∀ s ∈ came, s ∈ all)
    (mem : task ∈ all) (keyed : Keyed worker)
    (h : Joined came (worker.history task.id) (worker.pending task.id)) :
    Joined (came ++ [task])
      ((worker.schedule policy clock true (progressSnapshot task)).history task.id)
      ((worker.schedule policy clock true (progressSnapshot task)).pending task.id) := by
  cases closed : task.status.isTerminal with
  | true =>
    rw [schedule_terminal (by exact closed)]
    show Joined _ _ ((Worker.remove task.id _).pending task.id)
    rw [pending_remove_self]
    exact joined_terminal clock.unixSecs consistent sub mem closed h
  | false =>
    have sub' : ∀ s ∈ came ++ [task], s ∈ all := by
      intro s listed
      rcases List.mem_append.mp listed with old | new
      · exact sub s old
      · exact List.mem_singleton.mp new ▸ mem
    rcases joined_coalesce closed h with ⟨behind, joined⟩ | ⟨next, made, latest, joined⟩
    · rw [schedule_behind (by exact closed) behind]
      exact joined
    · rw [schedule_queued (by exact closed) made]
      have queued : Joined (came ++ [task]) ((worker.insert task.id next).history task.id)
          ((worker.insert task.id next).pending task.id) := by
        rw [pending_insert_self]
        exact joined
      have keyed' : Keyed (worker.insert task.id next) :=
        keyed_insert keyed (by rw [latest]; rfl)
      split_ifs
      · exact (joined_flush consistent sub' keyed' queued).1
      · exact queued

theorem keyed_schedule (keyed : Keyed worker) :
    Keyed (worker.schedule policy clock true task) := by
  cases closed : task.status.isTerminal with
  | true =>
    rw [schedule_terminal closed]
    exact keyed_remove (keyed_persistTask (keyed_remove keyed))
  | false =>
    cases made : Worker.coalesce policy clock.instant task (worker.pending task.id) with
    | none =>
      rw [schedule_behind closed made]
      exact keyed
    | some next =>
      have inserted : Keyed (worker.insert task.id next) :=
        keyed_insert keyed (by rw [coalesce_latest made])
      rw [schedule_queued closed made]
      split_ifs
      · exact keyed_flush clock true _ inserted
      · exact inserted

theorem schedule_of_ne (policy : Policy) (clock : Clock) (keyed : Keyed worker)
    (ne : id ≠ task.id) :
    (worker.schedule policy clock true task).history id = worker.history id ∧
      (worker.schedule policy clock true task).pending id = worker.pending id := by
  cases closed : task.status.isTerminal with
  | true =>
    rw [schedule_terminal closed]
    refine ⟨(history_persistTask_of_ne ne : (Worker.persistTask clock true task _).history id = _),
      ?_⟩
    rw [pending_remove_of_ne ne, pending_persistTask, pending_remove_of_ne ne]
  | false =>
    cases made : Worker.coalesce policy clock.instant task (worker.pending task.id) with
    | none =>
      rw [schedule_behind closed made]
      exact ⟨rfl, rfl⟩
    | some next =>
      have inserted : Keyed (worker.insert task.id next) :=
        keyed_insert keyed (by rw [coalesce_latest made])
      rw [schedule_queued closed made]
      split_ifs
      · obtain ⟨history, pending⟩ := flush_of_ne clock true inserted ne
        exact ⟨history, pending.trans (pending_insert_of_ne ne)⟩
      · exact ⟨rfl, pending_insert_of_ne ne⟩

theorem joined_flushEntries (clock : Clock) (consistent : Consistent all) (sub : ∀ s ∈ came, s ∈ all)
    (ids : List String) (keyed : Keyed worker)
    (h : Joined came (worker.history id) (worker.pending id)) :
    Joined came ((worker.flushEntries clock (fun _ => true) ids).history id)
        ((worker.flushEntries clock (fun _ => true) ids).pending id) ∧
      Keyed (worker.flushEntries clock (fun _ => true) ids) := by
  induction ids generalizing worker with
  | nil => exact ⟨h, keyed⟩
  | cons other rest ih =>
    have keyed' := keyed_flush clock true other keyed
    by_cases same : id = other
    · subst same
      exact ih keyed' (joined_flush consistent sub keyed h).1
    · obtain ⟨history, pending⟩ := flush_of_ne clock true keyed same
      apply ih keyed'
      rw [history, pending]
      exact h

theorem covers_flushEntries (clock : Clock) (consistent : Consistent all) (sub : ∀ s ∈ came, s ∈ all)
    (ids : List String) (keyed : Keyed worker)
    (h : Joined came (worker.history id) (worker.pending id))
    (flushed : (∀ s ∈ came, ∃ r, worker.history id = some r ∧ key s ≤ rowKey r) ∨ id ∈ ids) :
    ∀ s ∈ came, ∃ r, (worker.flushEntries clock (fun _ => true) ids).history id = some r ∧
      key s ≤ rowKey r := by
  induction ids generalizing worker with
  | nil =>
    rcases flushed with covers | none
    · exact covers
    · cases none
  | cons other rest ih =>
    have keyed' := keyed_flush clock true other keyed
    by_cases same : id = other
    · subst same
      obtain ⟨joined, covers⟩ := joined_flush consistent sub keyed h
      exact ih keyed' joined (.inl covers)
    · obtain ⟨history, pending⟩ := flush_of_ne clock true keyed same
      apply ih keyed'
      · rw [history, pending]
        exact h
      · rw [history]
        rcases flushed with covers | mem
        · exact .inl covers
        · exact .inr ((List.mem_cons.mp mem).resolve_left same)

theorem joined_arrive (policy : Policy) (consistent : Consistent all) (sub : ∀ s ∈ came, s ∈ all)
    {arrival : Arrival} (proper : arrival.Proper)
    (listed : ∀ s, arrival.snapshot? id = some s → s ∈ all) (keyed : Keyed worker)
    (h : Joined came (worker.history id) (worker.pending id)) :
    Joined (came ++ (arrival.snapshot? id).toList) ((arrive policy worker arrival).history id)
        ((arrive policy worker arrival).pending id) ∧
      Keyed (arrive policy worker arrival) := by
  -- An arrival of another transfer brings nothing and changes nothing.
  have aside {next : Worker} (none : arrival.snapshot? id = none)
      (history : next.history id = worker.history id)
      (pending : next.pending id = worker.pending id) :
      Joined (came ++ (arrival.snapshot? id).toList) (next.history id) (next.pending id) := by
    rw [none, history, pending]
    simpa using h
  cases arrival with
  | direct clock task =>
    by_cases same : task.id = id
    · subst same
      have brings : (Arrival.direct clock task).snapshot? task.id = some task := if_pos rfl
      have agrees : ∀ s ∈ came, s.revision = task.revision → s.status = task.status :=
        fun s came_s => consistent.status s (sub s came_s) task (listed task brings)
      rw [brings]
      exact ⟨joined_save h agrees rfl (.inl rfl), keyed⟩
    · exact ⟨aside (if_neg same) (saveTransfer_of_ne (Ne.symm same)) rfl, keyed⟩
  | schedule clock task =>
    refine ⟨?_, keyed_schedule keyed⟩
    by_cases same : task.id = id
    · subst same
      have brings : (Arrival.schedule clock task).snapshot? task.id = some task := if_pos rfl
      rw [brings]
      exact joined_schedule consistent sub (listed task brings) keyed h
    · have ne : id ≠ (progressSnapshot task).id := Ne.symm same
      obtain ⟨history, pending⟩ := schedule_of_ne policy clock keyed ne
      exact aside (if_neg same) history pending
  | flushNow clock task =>
    have step : arrive policy worker (.flushNow clock task) =
        (worker.remove task.id).persistTask clock true (progressSnapshot task) := rfl
    refine ⟨?_, step ▸ keyed_persistTask (keyed_remove keyed)⟩
    by_cases same : task.id = id
    · subst same
      have brings : (Arrival.flushNow clock task).snapshot? task.id = some task := if_pos rfl
      rw [brings]
      exact joined_flushNow consistent sub (listed task brings) proper h
    · have ne : id ≠ (progressSnapshot task).id := Ne.symm same
      rw [step]
      refine aside (if_neg same) (history_persistTask_of_ne ne) ?_
      rw [pending_persistTask]
      exact pending_remove_of_ne ne
  | flush clock ids =>
    obtain ⟨joined, keyed'⟩ := joined_flushEntries clock consistent sub ids keyed h
    exact ⟨by simpa [Arrival.snapshot?, arrive] using joined, keyed'⟩

def afterArrivals (policy : Policy) (worker : Worker) (arrivals : List Arrival) : Worker :=
  arrivals.foldl (arrive policy) worker

theorem joined_run (policy : Policy) (consistent : Consistent all) (sub : ∀ s ∈ came, s ∈ all)
    {arrivals : List Arrival} (proper : ∀ arrival ∈ arrivals, arrival.Proper)
    (listed : ∀ s ∈ snapshots id arrivals, s ∈ all) (keyed : Keyed worker)
    (h : Joined came (worker.history id) (worker.pending id)) :
    Joined (came ++ snapshots id arrivals) ((afterArrivals policy worker arrivals).history id)
        ((afterArrivals policy worker arrivals).pending id) ∧
      Keyed (afterArrivals policy worker arrivals) := by
  induction arrivals generalizing came worker with
  | nil => exact ⟨by simpa [snapshots, afterArrivals] using h, keyed⟩
  | cons arrival rest ih =>
    have split : snapshots id (arrival :: rest) =
        (arrival.snapshot? id).toList ++ snapshots id rest := by
      unfold snapshots
      cases brings : arrival.snapshot? id with
      | none => simp [brings]
      | some s => simp [brings]
    have here : ∀ s, arrival.snapshot? id = some s → s ∈ all := by
      intro s brings
      apply listed s
      rw [split, brings]
      simp
    obtain ⟨joined, keyed'⟩ := joined_arrive policy consistent sub
      (proper arrival (by simp)) here keyed h
    rw [split, ← List.append_assoc]
    refine ih ?_ ?_ ?_ keyed' joined
    · intro s mem
      rcases List.mem_append.mp mem with old | new
      · exact sub s old
      · exact here s (Option.mem_toList.mp new)
    · exact fun other mem => proper other (List.mem_cons_of_mem _ mem)
    · intro s mem
      apply listed s
      rw [split]
      exact List.mem_append_right _ mem

end Join

/-- In whatever order and by whatever way the snapshots of a transfer come, the history holds the
largest of them once the entries of the worker are flushed. -/
theorem history_holds_largest {policy : Policy} {history : HistoryTable} {id : String}
    {arrivals : List Arrival} {clock : Clock} {ids : List String} {largest : TransferTask}
    (unknown : history id = none) (consistent : Consistent (snapshots id arrivals))
    (proper : ∀ arrival ∈ arrivals, arrival.Proper)
    (flushed : ∀ other,
      (afterArrivals policy (.start history) arrivals).pending other ≠ none → other ∈ ids)
    (mem : largest ∈ snapshots id arrivals)
    (beyond : ∀ s ∈ snapshots id arrivals, key s ≤ key largest) :
    ((((afterArrivals policy (.start history) arrivals).flushEntries clock (fun _ => true)
        ids).history id).map fun row => (row.status, row.bytesTransferred, row.revision)) =
      some (statusText largest.status, largest.bytesTransferred, largest.revision) := by
  have empty : Joined [] ((Worker.start history).history id) ((Worker.start history).pending id) := by
    refine ⟨?_, ?_, by simp⟩
    · intro r held
      rw [show (Worker.start history).history id = none from unknown] at held
      cases held
    · intro e queued
      cases queued
  have sub : ∀ s ∈ snapshots id arrivals, s ∈ snapshots id arrivals := fun _ listed => listed
  obtain ⟨joined, keyed⟩ := joined_run policy consistent (by simp) proper sub
    (fun _ _ queued => by cases queued) empty
  rw [List.nil_append] at joined
  have settled := joined_flushEntries clock consistent sub ids keyed joined
  have covers := covers_flushEntries clock consistent sub ids keyed joined ?_
  · obtain ⟨row, held, le⟩ := covers largest mem
    obtain ⟨s, listed, tells⟩ := settled.1.stored row held
    have same : key s = key largest := le_antisymm (beyond s listed) (tells.rowKey ▸ le)
    have parts : (s.revision, s.bytesTransferred) = (largest.revision, largest.bytesTransferred) :=
      toLex.injective same
    obtain ⟨revision, bytes⟩ := Prod.mk.inj parts
    have status := consistent.status s listed largest mem revision
    rw [held, Option.map_some, tells.1, tells.2.1, tells.2.2, revision, bytes, status]
  · by_cases queued : (afterArrivals policy (.start history) arrivals).pending id = none
    · refine .inl ?_
      intro s listed
      rcases joined.covered s listed with covers | ⟨e, other, _⟩
      · exact covers
      · rw [queued] at other
        cases other
    · exact .inr (flushed id queued)

def sampleSnapshot (status : TransferStatus) (revision bytes : ℕ) : TransferTask :=
  ⟨"t", .receive, "fp", "Laptop", [], status, bytes, 20, revision, 1, none, none, none, none, none,
    none, none⟩

/-- The end comes first, then older progress through the worker and by a direct save. -/
def lateProgress : List Arrival :=
  [.flushNow ⟨1, 1⟩ (sampleSnapshot .completed 2 20),
    .schedule ⟨2, 1⟩ (sampleSnapshot .transferring 1 12),
    .direct ⟨3, 1⟩ (sampleSnapshot .transferring 1 15)]

theorem late_progress_is_dropped :
    (((afterArrivals .standard (.start fun _ => none) lateProgress).flushEntries ⟨4, 1⟩
        (fun _ => true) ["t"]).history "t").map
          (fun row => (row.status, row.bytesTransferred, row.revision)) =
      some ("Completed", 20, 2) := by
  have mem : sampleSnapshot .completed 2 20 ∈ snapshots "t" lateProgress := by decide
  refine history_holds_largest rfl ⟨by decide, by decide⟩ ?_ ?_ mem (by decide)
  · simp [lateProgress, Arrival.Proper, sampleSnapshot, TransferStatus.isTerminal]
  · intro other queued
    by_contra ne
    have aside : other ≠ "t" := by simpa using ne
    apply queued
    simp [lateProgress, afterArrivals, arrive, Worker.schedule, Worker.flushNow,
      Worker.persistTask, Worker.insert, Worker.remove, Worker.start, sampleSnapshot,
      progressSnapshot, TransferStatus.isTerminal, Worker.coalesce, Policy.standard,
      Function.update_of_ne aside]

end DashDrop.History.Order
