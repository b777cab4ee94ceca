/- GID: DashDrop/Runtime/Effects
   source: src-tauri/src/state.rs, src-tauri/src/core_service.rs
   anchors: []
   digest: What one section does to each entry of the shared maps, said once. -/

import DashDrop.Foundation.Maps
import DashDrop.Runtime.Machine

set_option autoImplicit false
set_option relaxedAutoImplicit false

namespace DashDrop.Runtime.Effects

open DashDrop.Foundation.FileTree DashDrop.Foundation.Maps DashDrop.Foundation.Oneshot
open DashDrop.Foundation.Program DashDrop.Foundation.Interleaving
open DashDrop.Transport.Protocol DashDrop.Transport.Outcome
open DashDrop.Runtime.State DashDrop.Runtime.Machine

variable {w w' : World} {i : ℕ} {x : Ans}

theorem lookup_retainEntries {β : Type} (m : AList (fun _ : String => β))
    (keep : String → β → Bool) (y : String) :
    (retainEntries m keep).lookup y = (m.lookup y).filter (keep y) := by
  refine Option.ext fun b => ?_
  have found (n : AList (fun _ : String => β)) : n.lookup y = some b ↔ ⟨y, b⟩ ∈ n.entries :=
    AList.mem_lookup_iff
  rw [found, Option.filter_eq_some_iff, found]
  simp [retainEntries]

/-- What a section does to the task at `y`. -/
def taskEffect (now : ℕ) (o : TaskOp) (y : String) (t : Option TransferTask) :
    Option TransferTask :=
  match o with
  | .insert t' => if y = t'.id then some t' else t
  | .updateStatus id status reason => if y = id then t.map (applyStatus now status reason) else t
  | .setError id text => if y = id then t.map fun t => { t with error := some text } else t
  | .addBytes id n =>
      if y = id then t.map fun t => { t with bytesTransferred := t.bytesTransferred + n } else t
  | .cancel id _ => if y = id then t.map (applyCancel now) else t
  | .sendRejected id reason => if y = id then t.map (applyRejected now reason) else t
  | .sendTimedOut id => if y = id then t.map (applyTimedOut now) else t
  | .sendTransferring id => if y = id then t.map applyTransferring else t
  | .sendFinished id outcome _ => if y = id then t.map (applyFinished now outcome) else t
  | .sendErrored id reasonCode detail =>
      if y = id then t.map (applyErrored now reasonCode detail) else t
  | .cleanup => t.filter (cleanupKeeps now)
  | .revision _ | .status _ | .snapshot | .record _ _ => t

private theorem lookup_modifyTask {α : Type} (w : World) (id y : String) (absent : α)
    (update : TransferTask → TransferTask) (answer : TransferTask → TransferTask → α) :
    (modifyTask w id absent update answer).1.transfers.lookup y =
      if y = id then (w.transfers.lookup y).map update else w.transfers.lookup y := by
  unfold modifyTask
  split
  · rename_i t present
    simp only [setTask, lookup_insert_ite]
    split_ifs with h
    · subst h
      simp [present]
    · rfl
  · rename_i missing
    split_ifs with h
    · subst h
      simp [missing]
    · rfl

theorem lookup_execTask (now : ℕ) (w : World) (o : TaskOp) (y : String) :
    (execTask now w o).1.transfers.lookup y = taskEffect now o y (w.transfers.lookup y) := by
  cases o with
  | insert t => exact lookup_insert_ite _ _ _ _
  | cleanup => exact lookup_retainEntries _ _ _
  | revision | status | snapshot | record => rfl
  | updateStatus | setError | addBytes | cancel | sendRejected | sendTimedOut
  | sendTransferring | sendFinished | sendErrored => exact lookup_modifyTask ..

theorem modifyTask_answer {α : Type} (w : World) (id : String) (absent : α)
    (update : TransferTask → TransferTask) (answer : TransferTask → TransferTask → α) :
    (modifyTask w id absent update answer).2 =
      ((w.transfers.lookup id).map fun t => answer t (update t)).getD absent := by
  unfold modifyTask
  split <;> simp_all

/-- What a section does to the notification of `y`. -/
def noteEffect (now uuid : ℕ) (o : NoteOp) (y : String)
    (n : Option IncomingRequestNotification) : Option IncomingRequestNotification :=
  match o with
  | .ensure id =>
      if y = id then
        some ((n.map fun n => { n with active := true, updatedAtUnix := now }).getD
          ⟨uuid, true, none, now⟩)
      else n
  | .markInactive id reason =>
      if y = id then n.map fun n => { n with
        active := false
        updatedAtUnix := now
        terminalReasonCode := reason.or n.terminalReasonCode }
      else n
  | .read _ => n

theorem lookup_execNote (now : ℕ) (w : World) (o : NoteOp) (y : String) :
    (execNote now w o).1.notifications.lookup y =
      noteEffect now w.nextUuid o y (w.notifications.lookup y) := by
  cases o with
  | ensure id =>
    by_cases h : y = id
    · subst h
      simp only [execNote, noteEffect]
      split <;> simp_all
    · simp only [execNote, noteEffect]
      split <;> simp [h]
  | markInactive id reason =>
    by_cases h : y = id
    · subst h
      simp only [execNote, noteEffect]
      split <;> simp_all
    · simp only [execNote, noteEffect]
      split <;> simp [h]
  | read id => rfl

/-- What a section does to the sender stored for `y`. -/
def gateEffect (chan : ℕ) (o : GateOp) (y : String) (c : Option ℕ) : Option ℕ :=
  match o with
  | .register id => if y = id then some chan else c
  | .take id | .discard id => if y = id then none else c
  | .retain ids => if ids.contains y then c else none
  | .contains _ | .send _ _ | .wait _ => c

theorem lookup_execGate {o : GateOp} {r : o.Resp} (done : execGate x w o = some (w', r))
    (y : String) :
    w'.pendingAccepts.lookup y =
      gateEffect w.channels.length o y (w.pendingAccepts.lookup y) := by
  cases o with
  | register id =>
    cases done
    exact lookup_insert_ite _ _ _ _
  | take id =>
    cases done
    exact lookup_erase_ite _ _ _
  | discard id =>
    cases done
    exact lookup_erase_ite _ _ _
  | contains id =>
    cases done
    rfl
  | retain ids =>
    cases done
    refine (lookup_retainEntries _ _ _).trans ?_
    simp only [gateEffect]
    split_ifs with h
    · cases w.pendingAccepts.lookup y <;> simp_all
    · exact Option.filter_eq_none_iff.mpr fun _ _ => by simpa using h
  | send chan value =>
    cases done
    rfl
  | wait chan =>
    obtain ⟨c, -, rest⟩ := Option.bind_eq_some_iff.mp done
    obtain ⟨y', -, same⟩ := Option.map_eq_some_iff.mp rest
    cases same
    rfl

theorem dropSender_idem (c : Channel Bool) : c.dropSender.dropSender = c.dropSender := by
  cases c <;> rfl

theorem getElem?_dropSenders (cs : List (Channel Bool)) (gone : List ℕ) (c : ℕ) :
    (dropSenders cs gone)[c]? = if c ∈ gone then cs[c]?.map Channel.dropSender else cs[c]? := by
  induction gone generalizing cs with
  | nil => simp [dropSenders]
  | cons g gone ih =>
    have next : dropSenders cs (g :: gone) = dropSenders (cs.modify g Channel.dropSender) gone :=
      rfl
    rw [next, ih, List.getElem?_modify]
    by_cases hg : g = c
    · subst hg
      simp [Option.map_map, Function.comp_def, dropSender_idem]
    · simp [hg, Ne.symm hg]

@[simp] theorem length_dropSenders (cs : List (Channel Bool)) (gone : List ℕ) :
    (dropSenders cs gone).length = cs.length := by
  induction gone generalizing cs with
  | nil => rfl
  | cons g gone ih => exact (ih _).trans (List.length_modify ..)

theorem mem_missingSenders {ids : List String} {c : ℕ} :
    c ∈ missingSenders w ids ↔ ∃ y, y ∉ ids ∧ w.pendingAccepts.lookup y = some c := by
  have found (y : String) : w.pendingAccepts.lookup y = some c ↔
      ⟨y, c⟩ ∈ w.pendingAccepts.entries := AList.mem_lookup_iff
  simp only [missingSenders, List.mem_map, List.mem_filter, found]
  constructor
  · rintro ⟨⟨y, c'⟩, ⟨stored, absent⟩, rfl⟩
    exact ⟨y, by simpa using absent, stored⟩
  · rintro ⟨y, absent, stored⟩
    exact ⟨⟨y, c⟩, ⟨stored, by simpa using absent⟩, rfl⟩

/-- What a section does to the task, the notification and the sender of `y`. -/
def onTask (now : ℕ) : Op → String → Option TransferTask → Option TransferTask
  | .task o => taskEffect now o
  | _ => fun _ t => t

def onNote (now uuid : ℕ) : Op → String → Option IncomingRequestNotification →
    Option IncomingRequestNotification
  | .note o => noteEffect now uuid o
  | _ => fun _ n => n

def onGate (chan : ℕ) : Op → String → Option ℕ → Option ℕ
  | .gate o => gateEffect chan o
  | _ => fun _ c => c

/-- The parts of the world that the sections of each lock leave alone. -/
structure Frame (o : Op) (w w' : World) : Prop where
  transfers : (∀ t, o ≠ .task t) → w'.transfers = w.transfers
  notifications : (∀ n, o ≠ .note n) → w'.notifications = w.notifications
  pendingAccepts : (∀ g, o ≠ .gate g) → w'.pendingAccepts = w.pendingAccepts
  channels : (∀ g, o ≠ .gate g) → w'.channels = w.channels
  conns : (∀ n, o ≠ .net n) → w'.conns = w.conns
  fs : (∀ f, o ≠ .fs f) → w'.fs = w.fs ∧ w'.touched = w.touched
  nextUuid : (∀ n, o ≠ .note n) → w'.nextUuid = w.nextUuid
  config : w'.config = w.config
  dirs : w'.hostDownloadDir = w.hostDownloadDir ∧ w'.home = w.home
  trustedPeers : w'.trustedPeers = w.trustedPeers
  journal : w'.journal = w.journal

private theorem frame_modifyTask {α : Type} (o : TaskOp) (w : World) (id : String) (absent : α)
    (update : TransferTask → TransferTask) (answer : TransferTask → TransferTask → α) :
    Frame (.task o) w (modifyTask w id absent update answer).1 := by
  unfold modifyTask
  split <;> constructor <;> simp [setTask]

private theorem frame_execTask (now : ℕ) (w : World) (o : TaskOp) :
    Frame (.task o) w (execTask now w o).1 := by
  cases o with
  | insert | cleanup | revision | status | snapshot | record =>
    constructor <;> simp [execTask, setTask]
  | updateStatus | setError | addBytes | cancel | sendRejected | sendTimedOut
  | sendTransferring | sendFinished | sendErrored => exact frame_modifyTask ..

private theorem frame_execNote (now : ℕ) (w : World) (o : NoteOp) :
    Frame (.note o) w (execNote now w o).1 := by
  cases o with
  | ensure | markInactive =>
    simp only [execNote]
    split <;> constructor <;> simp
  | read => constructor <;> simp [execNote]

private theorem frame_execGate {o : GateOp} {r : o.Resp} (done : execGate x w o = some (w', r)) :
    Frame (.gate o) w w' := by
  cases o with
  | register | take | discard | contains | retain | send =>
    cases done
    constructor <;> simp
  | wait chan =>
    obtain ⟨c, -, rest⟩ := Option.bind_eq_some_iff.mp done
    obtain ⟨y, -, same⟩ := Option.map_eq_some_iff.mp rest
    cases same
    constructor <;> simp

theorem conns_execNet {o : NetOp} {r : o.Resp} (done : execNet x w o = some (w', r)) :
    w' = w ∨ (∃ fp, w' = { w with conns := w.conns ++ [⟨fp, false⟩] }) ∨
      ∃ c, o = .close c ∧ w' = closeConn w c := by
  cases o with
  | dial addr =>
    simp only [execNet] at done
    split at done
    · cases done
      exact .inr (.inl ⟨_, rfl⟩)
    · cases done
      exact .inl rfl
    · cases done
  | close c =>
    cases done
    exact .inr (.inr ⟨c, rfl, rfl⟩)
  | peerFp | closeReason =>
    simp only [execNet] at done
    split at done <;> cases done <;> exact .inl rfl
  | openBi | write | read | readWithTimeout =>
    simp only [execNet] at done
    split at done
    all_goals first
      | (split_ifs at done; cases done; exact .inl rfl)
      | (cases done; exact .inl rfl)
      | cases done

private theorem frame_execNet {o : NetOp} {r : o.Resp} (done : execNet x w o = some (w', r)) :
    Frame (.net o) w w' := by
  obtain rfl | ⟨fp, rfl⟩ | ⟨c, -, rfl⟩ := conns_execNet done <;>
    constructor <;> simp [closeConn]

private theorem frame_execFs {o : FsOp} {r : o.Resp} (done : execFs x w o = some (w', r)) :
    Frame (.fs o) w w' := by
  simp only [execFs] at done
  split at done
  · obtain ⟨r', -, same⟩ := Option.map_eq_some_iff.mp done
    cases same
    constructor <;> simp
  · cases done
    constructor <;> simp

theorem frame_execOp {o : Op} {r : o.Resp} (done : execOp x w o = some (w', r)) :
    Frame o w w' := by
  cases o with
  | task o =>
    obtain rfl := congrArg Prod.fst (Option.some.inj done)
    exact frame_execTask _ _ _
  | note o =>
    obtain rfl := congrArg Prod.fst (Option.some.inj done)
    exact frame_execNote _ _ _
  | gate o => exact frame_execGate done
  | net o => exact frame_execNet done
  | env o =>
    obtain ⟨r', -, same⟩ := Option.map_eq_some_iff.mp done
    cases same
    constructor <;> simp
  | fs o => exact frame_execFs done

private theorem history_log {o : Op} (i : ℕ) (w : World) (es : List Event) (r : o.Resp) :
    history i (log w es) o r = history i w o r := by
  cases o with
  | task o => rfl
  | note o => rfl
  | gate o => rfl
  | net o => rfl
  | env o => cases o <;> rfl
  | fs o => rfl

theorem exec_inv {o : Op} {r : o.Resp} (done : exec i o x w = some (w', r)) :
    ∃ w₁, execOp x w o = some (w₁, r) ∧ w' = log w₁ (history i w' o r) := by
  obtain ⟨⟨w₁, r'⟩, ran, same⟩ := Option.map_eq_some_iff.mp done
  cases same
  exact ⟨w₁, ran, by simp only [history_log]⟩

section Step

variable {o : Op} {r : o.Resp}

theorem exec_journal (done : exec i o x w = some (w', r)) :
    w'.journal = w.journal ++ history i w' o r := by
  obtain ⟨w₁, ran, same⟩ := exec_inv done
  calc w'.journal = w₁.journal ++ history i w' o r := congrArg World.journal same
    _ = w.journal ++ history i w' o r := by rw [(frame_execOp ran).journal]

theorem exec_lookup_task (done : exec i o x w = some (w', r)) (y : String) :
    w'.transfers.lookup y = onTask x.now o y (w.transfers.lookup y) := by
  obtain ⟨w₁, ran, same⟩ := exec_inv done
  have kept : w'.transfers = w₁.transfers := by rw [same, log]
  rw [kept]
  cases o with
  | task o =>
    obtain rfl := congrArg Prod.fst (Option.some.inj ran)
    exact lookup_execTask _ _ _ _
  | note | gate | net | env | fs => exact congrArg _ ((frame_execOp ran).transfers (by simp))

theorem exec_task_answer {u : TaskOp} {r : u.Resp} (done : exec i (.task u) x w = some (w', r)) :
    r = (execTask x.now w u).2 := by
  obtain ⟨w₁, ran, -⟩ := exec_inv done
  exact (congrArg Prod.snd (Option.some.inj ran)).symm

theorem exec_lookup_note (done : exec i o x w = some (w', r)) (y : String) :
    w'.notifications.lookup y = onNote x.now w.nextUuid o y (w.notifications.lookup y) := by
  obtain ⟨w₁, ran, same⟩ := exec_inv done
  have kept : w'.notifications = w₁.notifications := by rw [same, log]
  rw [kept]
  cases o with
  | note o =>
    obtain rfl := congrArg Prod.fst (Option.some.inj ran)
    exact lookup_execNote _ _ _ _
  | task | gate | net | env | fs => exact congrArg _ ((frame_execOp ran).notifications (by simp))

theorem exec_lookup_gate (done : exec i o x w = some (w', r)) (y : String) :
    w'.pendingAccepts.lookup y = onGate w.channels.length o y (w.pendingAccepts.lookup y) := by
  obtain ⟨w₁, ran, same⟩ := exec_inv done
  have kept : w'.pendingAccepts = w₁.pendingAccepts := by rw [same, log]
  rw [kept]
  cases o with
  | gate o => exact lookup_execGate ran y
  | task | note | net | env | fs => exact congrArg _ ((frame_execOp ran).pendingAccepts (by simp))

theorem exec_conns (done : exec i o x w = some (w', r)) {c : ℕ} {k : Connection}
    (found : w.conns[c]? = some k) :
    ∃ k', w'.conns[c]? = some k' ∧ k'.peerFp = k.peerFp ∧ (k.closed = true → k'.closed = true) := by
  obtain ⟨w₁, ran, same⟩ := exec_inv done
  have kept : w'.conns = w₁.conns := by rw [same, log]
  rw [kept]
  cases o with
  | net o =>
    obtain rfl | ⟨fp, rfl⟩ | ⟨d, -, rfl⟩ := conns_execNet ran
    · exact ⟨k, found, rfl, id⟩
    · have inside := (List.getElem?_eq_some_iff.mp found).1
      exact ⟨k, by rw [← found]; exact List.getElem?_append_left inside, rfl, id⟩
    · simp only [closeConn, List.getElem?_modify, found]
      by_cases hd : d = c <;> simp [hd]
  | task | note | gate | env | fs =>
    rw [(frame_execOp ran).conns (by simp)]
    exact ⟨k, found, rfl, id⟩

theorem mem_journal_iff (done : exec i o x w = some (w', r)) {e : Event} :
    e ∈ w'.journal ↔ e ∈ w.journal ∨ e ∈ history i w' o r := by
  rw [exec_journal done, List.mem_append]

theorem mem_journal_mono (done : exec i o x w = some (w', r)) {e : Event}
    (h : e ∈ w.journal) : e ∈ w'.journal :=
  (mem_journal_iff done).mpr (.inl h)

/-- The operation that can leave an event, and the thread that the event names. -/
def Origin (i : ℕ) (o : Op) : Event → Prop
  | .registered j y => j = i ∧ ∃ t, o = .task (.insert t) ∧ t.id = y
  | .owes j y => j = i ∧ ∃ t : TaskOp, o = .task t ∧ t.id? = some y ∧ t.counts = true
  | .recorded j y => j = i ∧ ∃ r, o = .task (.record y r)
  | .moved j y status => j = i ∧ ∃ reason, o = .task (.updateStatus y status reason)
  | .cancelled j y _ _ => j = i ∧ ∃ hasHost, o = .task (.cancel y hasHost)
  | .connected j _ => j = i ∧ ∃ addr, o = .net (.dial addr)
  | .answered j c => j = i ∧ o = .net (.readWithTimeout c)
  | .wrote j c y m => j = i ∧ o = .net (.write c y m)
  | .emitted j e => j = i ∧ (o = .env (.emit e) ∨
      ∃ (u : TaskOp) (a : u.Resp) (revision : ℕ), o = .task u ∧ e ∈ sectionEvents revision u a)
  | .surveyed j _ => j = i ∧ o = .task .snapshot
  | .retained j => j = i ∧ ∃ ids, o = .gate (.retain ids)
  | .opened j y _ => j = i ∧ o = .gate (.register y)
  | .took j y _ => j = i ∧ o = .gate (.take y)
  | .sent j c v => j = i ∧ o = .gate (.send c v)
  | .observed j c _ => j = i ∧ o = .gate (.wait c)

private theorem origin_of_mem_taskHistory {o : TaskOp} {r : o.Resp} {e : Event}
    (h : e ∈ taskHistory i o r) : Origin i (.task o) e := by
  cases o with
  | updateStatus id status reason =>
    cases r with
    | none => cases h
    | some u =>
      simp only [taskHistory, List.mem_cons, Option.mem_toList, Option.map_eq_some_iff] at h
      rcases h with rfl | ⟨-, -, rfl⟩ <;> simp [Origin, TaskOp.id?, TaskOp.counts]
  | cancel id hasHost =>
    cases r with
    | none => cases h
    | some u =>
      simp only [taskHistory, List.mem_cons, List.not_mem_nil, or_false] at h
      rcases h with rfl | rfl <;> simp [Origin, TaskOp.id?, TaskOp.counts]
  | sendRejected | sendTimedOut | sendFinished =>
    cases r with
    | none => cases h
    | some u =>
      obtain rfl := List.mem_singleton.mp h
      simp [Origin, TaskOp.id?, TaskOp.counts]
  | insert | snapshot | record =>
    obtain rfl := List.mem_singleton.mp h
    simp [Origin]
  | setError | addBytes | revision | status | sendTransferring | sendErrored | cleanup => cases h

theorem origin_of_mem_history {e : Event} (h : e ∈ history i w o r) : Origin i o e := by
  cases o with
  | task o =>
    rcases List.mem_append.mp h with h | h
    · exact origin_of_mem_taskHistory h
    · obtain ⟨event, member, rfl⟩ := List.mem_map.mp h
      exact ⟨rfl, .inr ⟨o, r, _, rfl, member⟩⟩
  | note o => cases h
  | gate o =>
    cases o with
    | take id =>
      cases r with
      | none => cases h
      | some c =>
        obtain rfl := List.mem_singleton.mp h
        simp [Origin]
    | register | retain | send | wait =>
      obtain rfl := List.mem_singleton.mp h
      simp [Origin]
    | discard | contains => cases h
  | net o =>
    cases o with
    | dial addr =>
      cases r with
      | error => cases h
      | ok c =>
        obtain rfl := List.mem_singleton.mp h
        simp [Origin]
    | write c y m =>
      cases r with
      | error => cases h
      | ok =>
        obtain rfl := List.mem_singleton.mp h
        simp [Origin]
    | readWithTimeout c =>
      cases r with
      | fault => cases h
      | message | timedOut =>
        obtain rfl := List.mem_singleton.mp h
        simp [Origin]
    | peerFp | close | openBi | read | closeReason => cases h
  | env o =>
    cases o with
    | emit event =>
      obtain rfl := List.mem_singleton.mp h
      exact ⟨rfl, .inl rfl⟩
    | now | config | hostDirs | disks | isActiveTrust | trustLevel | freezeReason | bestAddrs
    | deviceName | missingPath | buildFileItems | joinReceive | joinSend => cases h
  | fs o => cases h

theorem filterMap_emitted {α : Type} {f : Event → Option α} (i : ℕ)
    (silent : ∀ e, f (.emitted i e) = none) (l : List HostEvent) :
    (l.map (Event.emitted i)).filterMap f = [] := by
  rw [List.filterMap_eq_nil_iff]
  rintro e he
  obtain ⟨event, -, rfl⟩ := List.mem_map.mp he
  exact silent event

theorem connOpen_of_wrote (done : exec i o x w = some (w', r)) {j c : ℕ} {y : String}
    {m : DashMessage} (h : Event.wrote j c y m ∈ history i w' o r) : connOpen w c = true := by
  obtain ⟨-, rfl⟩ := origin_of_mem_history h
  obtain ⟨w₁, ran, -⟩ := exec_inv done
  simp only [execOp, execNet] at ran
  split at ran
  · split_ifs at ran with here
    exact here
  · cases ran
    cases h
  · cases ran

theorem origin_of_new (done : exec i o x w = some (w', r)) {e : Event} (now : e ∈ w'.journal) :
    e ∈ w.journal ∨ Origin i o e :=
  ((mem_journal_iff done).mp now).imp_right origin_of_mem_history

end Step

end DashDrop.Runtime.Effects
