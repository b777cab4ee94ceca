/- GID: DashDrop/Exchange/Permits
   source: src-tauri/src/transport/sender.rs, src-tauri/src/transport/receiver.rs
   anchors: []
   digest: When the two parallelism limits cannot hold each other up. -/

import DashDrop.Exchange.Joint

set_option autoImplicit false
set_option relaxedAutoImplicit false

namespace DashDrop.Exchange.Permits

open DashDrop.Foundation.Oneshot DashDrop.Foundation.Slots DashDrop.Foundation.UnixPath
open DashDrop.Foundation.Transitions
open DashDrop.Transport.Protocol DashDrop.Transport.Outcome
open DashDrop.Exchange.Senders DashDrop.Exchange.Receivers DashDrop.Exchange.Joint

/-- The send task of file `i` has a permit. -/
def sends (s : Ends) (i : ℕ) : Bool := s.sender.tasks[i]?.any fun task => task.phase.holds

/-- The receive task of file `i` has a permit. -/
def receives (s : Ends) (i : ℕ) : Bool := s.receiver.tasks[i]?.any fun task => task.phase.holds

/-- Both ends hold permits, those of the sender for files whose Ack cannot come and those of the
receiver for files whose stream cannot come before the other end grants another permit. -/
structure Starved (s : Ends) : Prop where
  sending : ∃ i, sends s i
  receiving : ∃ i, receives s i
  senders : Each (fun i task => task.phase.holds → task.phase = .awaiting ∧ task.ack = .empty ∧
    receives s i = false) s.sender.tasks
  receivers : Each (fun i task => task.phase.holds → task.phase = .waiting ∧
    task.stream = .empty ∧ sends s i = false) s.receiver.tasks

/-- A receive task is granted a permit only while the send task of its file has one, or before any
other permit is in use; and then the sender's next permit goes to that file. -/
def grantFollows (s : Ends) : Label → Prop
  | .receive (.task i .acquire) => sends s i ∨
      Each (fun _ task => task.phase.holds = false) s.sender.tasks ∧
        Each (fun _ task => task.phase ≠ .waiting) s.receiver.tasks
  | .send i .acquire =>
      Each (fun j task => task.phase = .waiting → sends s j ∨ j = i) s.receiver.tasks
  | _ => True

instance (s : Ends) (l : Label) : Decidable (grantFollows s l) := by
  unfold grantFollows
  split <;> infer_instance

def Aligned (s : Ends) (l : Label) : Prop := Steady s l ∧ grantFollows s l

instance (s : Ends) : DecidablePred (Aligned s) :=
  fun l => inferInstanceAs (Decidable (Steady s l ∧ grantFollows s l))

section Steps

variable {items : List FileItem} {s s' : Ends} {i j : ℕ}

def Paired (s : Ends) : Prop :=
  Each (fun i task => task.phase = .waiting → sends s i) s.receiver.tasks

/-- The sender has not begun, and at most one receive task waits for it. -/
def Lone (s : Ends) : Prop :=
  (∀ i, sends s i = false) ∧ ∃ j, Each (fun i task => task.phase = .waiting → i = j) s.receiver.tasks

theorem paired_send {move : SendMove} {next : SendSide × List DashMessage}
    (hids : (items.map FileItem.fileId).Nodup) (hcoupled : Coupled items s) (h : Paired s)
    (hfail : ∀ text, move ≠ .fail text) (htimer : ∀ timer, move = .settle timer → timer = false)
    (hstep : s.sender.step i move = some next) :
    Paired { s with sender := next.1, toReceiver := s.toReceiver ++ next.2 } := by
  obtain ⟨-, task, task', hi, hsends, htasks⟩ :=
    senderOk_step hids hcoupled.sender hfail htimer hstep
  have hlt : i < s.sender.tasks.length := (List.getElem?_eq_some_iff.mp hi).1
  intro j r hj hwaiting
  have hbefore := h j r hj hwaiting
  simp only [sends, htasks] at hbefore ⊢
  by_cases hij : i = j
  · subst hij
    simp only [List.getElem?_set_self hlt, Option.any_some]
    cases hsends with
    | move hholds => exact hholds
    | listen hphase => rfl
    | settle hsent =>
      -- the Ack in the channel was sent by a task that has ended, and ids tell the tasks apart
      have hmem := (hcoupled.sender.tasks i task hi).heard _ _ (by rw [hsent]; rfl)
      obtain ⟨k, t, hk, hid, hended⟩ := hcoupled.receiver.answered _ hmem
      have hsame : r.item = task.item := by
        have hr : items[i]? = some r.item := by
          rw [← hcoupled.receiver.listed, List.getElem?_map, hj]
          rfl
        rw [← hcoupled.sender.listed, List.getElem?_map, hi] at hr
        exact (Option.some.inj hr).symm
      obtain rfl := place_unique (hcoupled.receiver.keys hids) hk hj (by rw [hid, hsame])
      rw [hk] at hj
      cases hj
      rw [hwaiting] at hended
      cases hended
  · rw [List.getElem?_set_ne hij]
    exact hbefore

theorem acquires_of_not_sends {move : SendMove} {next : SendSide × List DashMessage}
    (hidle : sends s i = false) (hstep : s.sender.step i move = some next) :
    move = .acquire ∧ ∃ task : SendTask, task.phase.holds ∧ i < s.sender.tasks.length ∧
      next.1.tasks = s.sender.tasks.set i task := by
  obtain ⟨task, hi, hadv⟩ := Option.bind_eq_some_iff.mp hstep
  have hnone : task.phase.holds = false := by simpa [sends, hi] using hidle
  cases move with
  | acquire =>
    simp only [SendSide.advance] at hadv
    split_ifs at hadv
    cases hadv
    exact ⟨rfl, _, rfl, (List.getElem?_eq_some_iff.mp hi).1, rfl⟩
  | fail text =>
    simp only [SendSide.advance] at hadv
    split_ifs at hadv with hphase
    obtain hphase | hphase := hphase <;> rw [hphase] at hnone <;> cases hnone
  | write m =>
    simp only [SendSide.advance] at hadv
    split_ifs at hadv with hphase
    rw [hphase.1] at hnone
    cases hnone
  | register | finish | settle =>
    simp only [SendSide.advance] at hadv
    split_ifs at hadv with hphase
    rw [hphase] at hnone
    cases hnone

theorem paired_of_lone {move : SendMove} {next : SendSide × List DashMessage} (h : Lone s)
    (haligned : grantFollows s (.send i move)) (hstep : s.sender.step i move = some next) :
    Paired { s with sender := next.1, toReceiver := s.toReceiver ++ next.2 } := by
  obtain ⟨rfl, task, hholds, hlt, htasks⟩ := acquires_of_not_sends (h.1 i) hstep
  intro j r hj hwaiting
  obtain hsends | rfl := haligned j r hj hwaiting
  · rw [h.1 j] at hsends
    cases hsends
  · simp [sends, htasks, hlt, hholds]

/-- A task waits after a step of the receiver that waited before, or that has been granted its
permit. -/
theorem waiting_receive {l : ReceiveLabel} {next : ReceiveSide × List AckPayload}
    (hstep : s.receiver.step l = some next) {task : ReceiveTask}
    (hi : next.1.tasks[i]? = some task) (hwaiting : task.phase = .waiting) :
    l = .task i .acquire ∨ ∃ task', s.receiver.tasks[i]? = some task' ∧ task'.phase = .waiting := by
  have kept {tasks : List ReceiveTask} (h : (tasks.map ReceiveTask.phase)[i]? = some .waiting) :
      ∃ task', tasks[i]? = some task' ∧ task'.phase = .waiting := by
    rwa [List.getElem?_map, Option.map_eq_some_iff] at h
  have hnow : (next.1.tasks.map ReceiveTask.phase)[i]? = some .waiting := by
    rw [List.getElem?_map, hi, ← hwaiting]
    rfl
  obtain ⟨receiver, acks⟩ := next
  cases l with
  | register =>
    obtain ⟨item, -, heq⟩ := Option.map_eq_some_iff.mp hstep
    cases heq
    obtain ⟨phase, hholds, hphases⟩ := phases_registerItem s.receiver item
    rw [hphases] at hnow
    obtain ⟨-, hphase⟩ | ⟨-, hold⟩ := getElem?_set_cases hnow
    · rw [← hphase] at hholds
      cases hholds
    · exact .inr (kept hold)
  | task k move =>
    obtain ⟨old, -, hadv⟩ := Option.bind_eq_some_iff.mp hstep
    obtain ⟨task', permits, hadvances, rfl⟩ := advance_cases hadv
    obtain ⟨rfl, rfl⟩ | ⟨-, hold⟩ := getElem?_set_cases hi
    · cases hadvances with
      | acquire => exact .inl rfl
      | _ => cases hwaiting
    · exact .inr ⟨task, hold, hwaiting⟩
  | stream first =>
    simp only [ReceiveSide.step] at hstep
    split_ifs at hstep
    cases hstep
    rw [phases_dispatch] at hnow
    exact .inr (kept hnow)
  | join =>
    simp only [ReceiveSide.step] at hstep
    split_ifs at hstep
    cases hstep
    exact .inr ⟨task, hi, hwaiting⟩

theorem aligned_receive {l : ReceiveLabel} {next : ReceiveSide × List AckPayload}
    (h : Paired s ∨ Lone s) (haligned : ∀ i, l = .task i .acquire → grantFollows s (.receive l))
    (hstep : s.receiver.step l = some next) :
    Paired (s.received next) ∨ Lone (s.received next) := by
  -- The sender stays as it is, so what a task that waited before had, it still has.
  by_cases hgrant : ∃ i, l = .task i .acquire ∧ sends s i = false
  · obtain ⟨i, rfl, hidle⟩ := hgrant
    obtain hsends | ⟨hnone, hunwaited⟩ := haligned i rfl
    · rw [hidle] at hsends
      cases hsends
    · refine .inr ⟨fun j => ?_, i, fun j task hj hwaiting => ?_⟩
      · show (s.sender.tasks[j]?.any fun task => task.phase.holds) = false
        cases htask : s.sender.tasks[j]? with
        | none => rfl
        | some task => exact hnone j task htask
      · obtain hgranted | ⟨task', hj', hwaiting'⟩ := waiting_receive hstep hj hwaiting
        · cases hgranted
          rfl
        · exact absurd hwaiting' (hunwaited j task' hj')
  · obtain hpaired | ⟨hnone, j, hlone⟩ := h
    · refine .inl fun k task hk hwaiting => ?_
      obtain hgranted | ⟨task', hk', hwaiting'⟩ := waiting_receive hstep hk hwaiting
      · by_contra hsends
        exact hgrant ⟨k, hgranted, Bool.eq_false_iff.mpr hsends⟩
      · exact hpaired k task' hk' hwaiting'
    · refine .inr ⟨hnone, j, fun k task hk hwaiting => ?_⟩
      obtain hgranted | ⟨task', hk', hwaiting'⟩ := waiting_receive hstep hk hwaiting
      · exact absurd ⟨k, hgranted, hnone k⟩ hgrant
      · exact hlone k task' hk' hwaiting'

theorem sends_acknowledge {ack : AckPayload} (toSender : List DashMessage) :
    sends { s with sender := s.sender.acknowledge ack, toSender := toSender } i = sends s i := by
  simp only [sends, SendSide.acknowledge]
  split
  · rw [getElem?_adjust]
    cases htask : s.sender.tasks[i]? with
    | none => rfl
    | some t =>
      simp only [Option.map_some, Option.any_some]
      split_ifs <;> rfl
  · rfl

theorem aligned_step {l : Label} (hids : (items.map FileItem.fileId).Nodup)
    (hcoupled : Coupled items s) (h : Paired s ∨ Lone s) (haligned : Aligned s l)
    (hstep : step s l = some s') : Paired s' ∨ Lone s' := by
  obtain ⟨hsteady, haligned⟩ := haligned
  cases l with
  | send i move =>
    obtain ⟨next, hsend, rfl⟩ := Option.map_eq_some_iff.mp hstep
    obtain hpaired | hlone := h
    · refine .inl (paired_send hids hcoupled hpaired ?_ ?_ hsend)
      · rintro text rfl
        exact hsteady
      · rintro timer rfl
        exact hsteady
    · exact .inl (paired_of_lone hlone haligned hsend)
  | receive l =>
    cases l with
    | stream first => cases hstep
    | register =>
      obtain ⟨next, hnext, rfl⟩ := Option.map_eq_some_iff.mp hstep
      exact aligned_receive h (fun _ heq => by cases heq) hnext
    | task i move =>
      obtain ⟨next, hnext, rfl⟩ := Option.map_eq_some_iff.mp hstep
      exact aligned_receive h (fun _ _ => haligned) hnext
    | join =>
      obtain ⟨next, hnext, rfl⟩ := Option.map_eq_some_iff.mp hstep
      exact aligned_receive h (fun _ heq => by cases heq) hnext
  | deliverStream k =>
    obtain ⟨m, -, hm⟩ := Option.bind_eq_some_iff.mp hstep
    obtain ⟨next, hnext, rfl⟩ := Option.map_eq_some_iff.mp hm
    have hdone := aligned_receive h (fun _ heq => by cases heq) hnext
    exact hdone
  | deliverAck k =>
    simp only [step] at hstep
    split_ifs at hstep
    obtain ⟨m, hm, rfl⟩ := Option.map_eq_some_iff.mp hstep
    cases m with
    | ack ack =>
      obtain hpaired | ⟨hnone, hlone⟩ := h
      · exact .inl fun i task hi hwaiting =>
          (sends_acknowledge _).trans (hpaired i task hi hwaiting)
      · exact .inr ⟨fun i => (sends_acknowledge _).trans (hnone i), hlone⟩
    | cancel payload => cases hsteady _ hm
    | _ => exact h
  | cancelBySender reason =>
    cases hstep
    exact h
  | cancelByReceiver reason =>
    cases hstep
    exact h
  | lose cause => exact absurd hsteady id

theorem not_starved_of_aligned (h : Paired s ∨ Lone s) : ¬ Starved s := by
  intro hstarved
  obtain hpaired | hlone := h
  · obtain ⟨i, hi⟩ := hstarved.receiving
    obtain ⟨task, htask, hholds⟩ := (Option.any_eq_true _ _).mp hi
    obtain ⟨hwaiting, -, hnone⟩ := hstarved.receivers i task htask hholds
    have hsends := hpaired i task htask hwaiting
    rw [hnone] at hsends
    cases hsends
  · obtain ⟨i, hi⟩ := hstarved.sending
    rw [hlone.1 i] at hi
    cases hi

end Steps

theorem aligned_limits_never_starve (saveRoot : PathBuf) (sendLimit receiveLimit : ℕ)
    (items : List FileItem) (hids : (items.map FileItem.fileId).Nodup) (s : Ends)
    (hrun : Reaches step Aligned (.start saveRoot sendLimit receiveLimit items) s) :
    ¬ Starved s := by
  have hstart : Paired (.start saveRoot sendLimit receiveLimit items) := by
    intro i task hi hwaiting
    simp only [Ends.start, ReceiveSide.start, List.getElem?_map, Option.map_eq_some_iff] at hi
    obtain ⟨item, -, rfl⟩ := hi
    cases hwaiting
  have hinv : Coupled items s ∧ (Paired s ∨ Lone s) := by
    apply hrun.keeps ⟨coupled_start saveRoot sendLimit receiveLimit items, .inl hstart⟩
    intro a b l h haligned hstep
    exact ⟨coupled_step hids h.1 haligned.1 hstep, aligned_step hids h.1 h.2 haligned hstep⟩
  exact not_starved_of_aligned hinv.2

def sampleItems : List FileItem :=
  [⟨0, "a", "a", 0, .regularFile, 0, none, none⟩, ⟨1, "b", "b", 0, .regularFile, 0, none, none⟩]

def sampleComplete (fileId : ℕ) : DashMessage := .complete ⟨fileId, ⟨Vector.replicate 32 0⟩⟩

def sampleRoot : PathBuf := .ofText "/d".toList

def sampleEnds : Ends := .start sampleRoot 1 1 sampleItems

/-- The sender starts with the first file, and its stream reaches its receive task. -/
def firstSent : List Label :=
  [.receive .register, .receive .register, .send 0 .acquire, .send 0 .register,
    .send 0 (.write (sampleComplete 0)), .send 0 .finish, .deliverStream 0]

def alignedEnds : Ends :=
  (play step Aligned sampleEnds (firstSent ++ [.receive (.task 0 .acquire)])).getD sampleEnds

theorem same_file_first_not_starved :
    alignedEnds.receiver.permits = 0 ∧ ¬ Starved alignedEnds :=
  ⟨by decide +kernel, aligned_limits_never_starve sampleRoot 1 1 sampleItems (by decide) alignedEnds
    (reaches_of_play (by rfl :
      play _ _ _ (firstSent ++ [.receive (.task 0 .acquire)]) = some alignedEnds))⟩

def crossedEnds : Ends :=
  (play step Steady sampleEnds (firstSent ++ [.receive (.task 1 .acquire)])).getD sampleEnds

theorem crossed_permits_starve :
    Reaches step Steady sampleEnds crossedEnds ∧ crossedEnds.sender.permits = 0 ∧
      crossedEnds.receiver.permits = 0 ∧ Starved crossedEnds := by
  refine ⟨reaches_of_play (by rfl :
      play _ _ _ (firstSent ++ [.receive (.task 1 .acquire)]) = some crossedEnds),
    by decide +kernel, by decide +kernel, ?_⟩
  exact ⟨⟨0, by decide +kernel⟩, ⟨1, by decide +kernel⟩, by decide +kernel, by decide +kernel⟩

end DashDrop.Exchange.Permits
