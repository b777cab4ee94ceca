/- GID: DashDrop/Lifecycle/Owners
   source: src-tauri/src/core_service.rs, src-tauri/src/transport/sender.rs,
     src-tauri/src/transport/receiver.rs
   anchors: []
   digest: The send task and the offer handler leave an ended transfer alone in timely runs. -/

import DashDrop.Foundation.Vows
import DashDrop.Lifecycle.Overlap

set_option autoImplicit false
set_option relaxedAutoImplicit false

namespace DashDrop.Lifecycle.Owners

open DashDrop.Foundation.UnixPath DashDrop.Foundation.FileTree DashDrop.Foundation.Oneshot
open DashDrop.Foundation.Program DashDrop.Foundation.Interleaving DashDrop.Foundation.Vows
open DashDrop.Transport.Protocol DashDrop.Transport.Outcome
open DashDrop.Transport.Sender DashDrop.Transport.Receiver
open DashDrop.Runtime.State DashDrop.Runtime.Machine DashDrop.Runtime.Effects
open DashDrop.Runtime.Footprint DashDrop.Runtime.Supervisor DashDrop.CoreService
open DashDrop.Lifecycle.Overlap

/-- The circumstances of a step, and whatever else is known of it. -/
structure Lawful (id : String) (also : Guard Op World Ans) (j : ℕ) (o : Op) (x : Ans)
    (w : World) : Prop where
  timely : Timely id j o x w
  sole : Sole id j o x w
  sourced : Sourced id w
  also : also j o x w

variable {i j : ℕ} {id : String} {c : ℕ} {dir : TransferDirection} {w w' : World} {x : Ans}
variable {o : Op} {r : o.Resp} {also : Guard Op World Ans}

structure Fresh (i : ℕ) (id : String) (w : World) : Prop where
  absent : ¬ Registrant id w i
  unasked : ∀ chan, Event.opened i id chan ∉ w.journal

/-- The party has registered the transfer, on connection `c`, and has not ended it. -/
structure Held (i : ℕ) (id : String) (c : ℕ) (dir : TransferDirection) (w : World) : Prop where
  mine : Registrant id w i
  only : ∀ k, Registrant id w k → k = i
  task : ∀ t, w.transfers.lookup id = some t → t.direction = dir ∧ t.conn = some c
  running : ¬ Cancelled id w → owers id w.journal = [] ∧
    ∀ t, w.transfers.lookup id = some t → t.status.isTerminal = false
  ended : Cancelled id w → ∀ t, w.transfers.lookup id = some t → t.status.isTerminal = true
  closing : ∀ k s d, Event.cancelled k id s d ∈ w.journal → d = some c
  inside : dir = .send → c < w.conns.length

/-- The answer is there, so that no cancel comes any more before the end. -/
def Shielded (i : ℕ) (id : String) (c : ℕ) (dir : TransferDirection) (w : World) : Prop :=
  match dir with
  | .send => Event.answered i c ∈ w.journal ∨ ∃ d, c < d ∧ Event.connected i d ∈ w.journal
  | .receive => ∀ chan, Event.opened i id chan ∈ w.journal → ∃ a, Event.observed i chan a ∈ w.journal

/-- The transfer is answered and not cancelled. -/
structure Settled (i : ℕ) (id : String) (c : ℕ) (dir : TransferDirection) (w : World) : Prop where
  held : Held i id c dir w
  shield : Shielded i id c dir w
  clear : ¬ Cancelled id w

theorem Held.of_calm (held : Held i id c dir w) (calm : Calm id w w') : Held i id c dir w' where
  mine := calm.registrants.mpr held.mine
  only k h := held.only k (calm.registrants.mp h)
  task t' found := by
    obtain ⟨t, before, -, sameDir, sameConn⟩ := calm.task t' found
    rw [sameDir, sameConn]
    exact held.task t before
  running clear := by
    obtain ⟨free, running⟩ := held.running fun h => clear (calm.cancelled.mpr h)
    refine ⟨calm.owers.trans free, fun t' found => ?_⟩
    obtain ⟨t, before, same, -⟩ := calm.task t' found
    rw [same, running t before]
  ended cancelled t' found := by
    obtain ⟨t, before, same, -⟩ := calm.task t' found
    rw [same, held.ended (calm.cancelled.mp cancelled) t before]
  closing k s d h := held.closing k s d (calm.cancels.mp h)
  inside h := (held.inside h).trans_le calm.conns

theorem Held.of_cancel (held : Held i id c dir w) {hasHost : Bool}
    {a : Option (TerminalRecord × Option ℕ)}
    (done : exec j (.task (.cancel id hasHost)) x w = some (w', a)) : Held i id c dir w' := by
  obtain calm | ⟨t, before, after, cancelled, events, same⟩ := cancel_of_exec done
  · exact held.of_calm calm
  obtain ⟨sameDir, sameConn⟩ := held.task t before
  exact {
    mine := (same i).mpr held.mine
    only := fun k h => held.only k ((same k).mp h)
    task := fun t' found => by
      rw [after] at found
      cases found
      exact ⟨sameDir, sameConn⟩
    running := fun clear => absurd cancelled clear
    ended := fun _ t' found => by
      rw [after] at found
      cases found
      exact ended_cancel _ _
    closing := fun k s d h => by
      obtain old | rfl := events k s d h
      · exact held.closing k s d old
      · exact sameConn
    inside := fun h => (held.inside h).trans_le (length_conns_le done) }

theorem Held.of_insert {t : TransferTask} {a : Unit}
    (done : exec i (.task (.insert t)) x w = some (w', a))
    (sole : ∀ k, Registrant t.id w k → k = i)
    (clear : ¬ Cancelled t.id w ∧ owers t.id w.journal = []) (pending : t.status = .pendingAccept)
    (conn : t.conn = some c) (inside : t.direction = .send → c < w.conns.length) :
    Held i t.id c t.direction w' ∧ ¬ Cancelled t.id w' := by
  obtain ⟨after, sameOwers, sameCancels, registrants⟩ := insert_of_exec done
  have none_yet : ¬ Cancelled t.id w' := fun h => clear.1 (sameCancels.mp h)
  refine ⟨?_, none_yet⟩
  exact {
    mine := (registrants i).mpr (.inr rfl)
    only := fun k h => ((registrants k).mp h).elim (sole k) fun h => h
    task := fun t' found => by
      rw [after] at found
      cases found
      exact ⟨rfl, conn⟩
    running := fun _ => ⟨sameOwers.trans clear.2, fun t' found => by
      rw [after] at found
      cases found
      rw [pending]
      rfl⟩
    ended := fun h => absurd h none_yet
    closing := fun k s d h => absurd (cancelled_iff.mpr ⟨k, s, d, h⟩) none_yet
    inside := fun h => (inside h).trans_le (length_conns_le done) }

theorem Held.foreign (held : Held i id c dir w) (apart : j ≠ i)
    (lawful : Lawful id also j o x w) (proper : Proper id j o x w)
    (done : exec j o x w = some (w', r)) : Held i id c dir w' ∧
      (Cancelled id w' → Cancelled id w ∨
        ∃ t, w.transfers.lookup id = some t ∧ Undecided id t w) := by
  have calmly (calm : Calm id w w') : Held i id c dir w' ∧ (Cancelled id w' → Cancelled id w ∨
      ∃ t, w.transfers.lookup id = some t ∧ Undecided id t w) :=
    ⟨held.of_calm calm, fun h => .inl (calm.cancelled.mp h)⟩
  by_cases edited : edits id o
  · cases o with
    | task u =>
      cases u with
      | insert t => exact absurd (lawful.sole edited i held.mine).symm apart
      | sendErrored y _ _ => exact absurd (lawful.sole edited i held.mine).symm apart
      | cancel y hasHost =>
        obtain rfl : y = id := edited
        refine ⟨held.of_cancel done, fun cancelled => ?_⟩
        obtain calm | ⟨t, before, -⟩ := cancel_of_exec done
        · exact .inl (calm.cancelled.mp cancelled)
        · by_cases already : Cancelled y w
          · exact .inl already
          · exact .inr ⟨t, before,
              lawful.timely rfl t before ((held.running already).2 t before)⟩
      | updateStatus | sendRejected | sendTimedOut | sendTransferring | sendFinished =>
        exact absurd (held.only j (proper edited).1) apart
      | _ => exact edited.elim
    | _ => exact edited.elim
  · exact calmly (calm_of_exec done edited)

theorem Shielded.decided (shield : Shielded i id c dir w) (held : Held i id c dir w)
    {t : TransferTask} (found : w.transfers.lookup id = some t) : ¬ Undecided id t w := by
  obtain ⟨sameDir, sameConn⟩ := held.task t found
  intro undecided
  cases dir with
  | send =>
    simp only [Undecided, sameDir] at undecided
    obtain ⟨unanswered, newest⟩ := undecided i c held.mine sameConn
    obtain answered | ⟨d, newer, connected⟩ := shield
    · exact unanswered answered
    · exact absurd (newest d connected) (by omega)
  | receive =>
    simp only [Undecided, sameDir] at undecided
    obtain ⟨k, chan, registered, opened, unseen, -⟩ := undecided
    obtain rfl := held.only k registered
    obtain ⟨a, seen⟩ := shield chan opened
    exact unseen a seen

theorem Shielded.of_exec (shield : Shielded i id c dir w) (done : exec j o x w = some (w', r))
    (other : j = i → ∀ y, o ≠ .gate (.register y)) : Shielded i id c dir w' := by
  cases dir with
  | send =>
    refine shield.imp (mem_journal_mono done) ?_
    rintro ⟨d, newer, connected⟩
    exact ⟨d, newer, mem_journal_mono done connected⟩
  | receive =>
    intro chan opened
    obtain old | new := (mem_journal_iff done).mp opened
    · obtain ⟨a, seen⟩ := shield chan old
      exact ⟨a, mem_journal_mono done seen⟩
    · obtain ⟨rfl, same⟩ := origin_of_mem_history new
      exact absurd same (other rfl id)

theorem Held.closed (held : Held i id c dir w) (shut : Shut id w) (cancelled : Cancelled id w) :
    connOpen w c = false := by
  obtain ⟨k, s, d, here⟩ := cancelled_iff.mp cancelled
  obtain rfl := held.closing k s d here
  exact shut k s c here

def harmless (id : String) (o : Op) : Prop :=
  ¬ edits id o ∧ ∀ d m, o = .net (.write d id m) → m.isOfferOrChunk = false

/-- Sections that leave the transfer, its prompt and the wire alone. -/
def quietOps (id : String) (o : Op) : Prop :=
  ¬ edits id o ∧ (∀ y, o ≠ .gate (.register y)) ∧ ∀ d y m, o ≠ .net (.write d y m)

/-- Sections that leave the transfer and its prompt alone, on connection `c`. -/
def plainOps (id : String) (c : ℕ) (o : Op) : Prop :=
  ¬ edits id o ∧ (∀ y, o ≠ .gate (.register y)) ∧ ∀ d y m, o = .net (.write d y m) → d = c

theorem plain_of_quiet (quiet : quietOps id o) : plainOps id c o :=
  ⟨quiet.1, quiet.2.1, fun d y m h => absurd h (quiet.2.2 d y m)⟩

theorem proper_of_not_edits (other : ¬ edits id o)
    (writes : ∀ d m, o = .net (.write d id m) → m.isOfferOrChunk = true → Cancelled id w →
      connOpen w d = false) : Proper id j o x w := by
  cases o with
  | task u =>
    cases u with
    | insert | sendErrored => exact fun h => absurd h other
    | updateStatus | sendRejected | sendTimedOut | sendTransferring | sendFinished =>
      exact fun h => absurd h other
    | _ => exact fun h => h.elim
  | net n =>
    cases n with
    | write d y m =>
      rintro rfl
      exact writes d m rfl
    | _ => trivial
  | _ => trivial

abbrev Carries (id : String) (also : Guard Op World Ans) (i : ℕ) : (Op → Prop) → (World → Prop) →
    Prop := Carried exec (Lawful id also) (Proper id) i

theorem harmless_carried : Carries id also i (harmless id) fun _ => True where
  stable := stable_true
  step ho _ _ _ := by
    refine ⟨proper_of_not_edits ho.1 fun d m same carried => ?_, trivial⟩
    rw [ho.2 d m same] at carried
    cases carried

theorem fresh_carried : Carries id also i (quietOps id) (Fresh i id) where
  stable := stable_of_steps fun apart fresh _ _ done =>
    have own {e : Event} (same : thread e = i) := foreign_event (e := e) done (same ▸ apart.symm)
    ⟨fun h => fresh.absent ((own rfl).mp h), fun chan h => fresh.unasked chan ((own rfl).mp h)⟩
  step ho fresh _ done := by
    refine ⟨proper_of_not_edits ho.1 fun d m same => absurd same (ho.2.2 d id m), ?_, ?_⟩
    · exact fun h => fresh.absent ((calm_of_exec done ho.1).registrants.mp h)
    · intro chan h
      obtain old | new := (mem_journal_iff done).mp h
      · exact fresh.unasked chan old
      · exact ho.2.1 id (origin_of_mem_history new).2

private theorem Held.step (held : Held i id c dir w) (ho : plainOps id c o)
    (lawful : Lawful id also i o x w) (done : exec i o x w = some (w', r)) :
    Proper id i o x w ∧ Held i id c dir w' := by
  refine ⟨proper_of_not_edits ho.1 fun d m same _ cancelled => ?_,
    held.of_calm (calm_of_exec done ho.1)⟩
  obtain rfl := ho.2.2 d id m same
  subst same
  exact held.closed (lawful.timely held.mine).1 cancelled

theorem held_carried : Carries id also i (plainOps id c) (Held i id c dir) where
  stable := stable_of_steps fun apart held lawful proper done =>
    (held.foreign apart lawful proper done).1
  step ho held lawful done := held.step ho lawful done

theorem settled_carried : Carries id also i (plainOps id c) (Settled i id c dir) where
  stable := by
    refine stable_of_steps fun apart settled lawful proper done => ?_
    obtain ⟨held, cause⟩ := settled.held.foreign apart lawful proper done
    refine ⟨held, settled.shield.of_exec done fun same => absurd same apart, fun cancelled => ?_⟩
    obtain already | ⟨t, found, undecided⟩ := cause cancelled
    · exact settled.clear already
    · exact settled.shield.decided settled.held found undecided
  step ho settled lawful done := by
    obtain ⟨proper, held⟩ := settled.held.step ho lawful done
    exact ⟨proper, held, settled.shield.of_exec done fun _ => ho.2.1,
      fun h => settled.clear ((calm_of_exec done ho.1).cancelled.mp h)⟩

theorem Settled.proper (settled : Settled i id c dir w) {u : TaskOp} (writes : writesStatus id u) :
    Proper id i (.task u) x w := by
  have allowed : Registrant id w i ∧ ¬ Cancelled id w ∧
      ∀ t, w.transfers.lookup id = some t → t.status.isTerminal = false :=
    ⟨settled.held.mine, settled.clear, (settled.held.running settled.clear).2⟩
  cases u with
  | updateStatus | sendRejected | sendTimedOut | sendTransferring | sendFinished =>
    exact fun _ => allowed
  | _ => exact writes.elim

abbrev Keeps {α : Type} (id : String) (also : Guard Op World Ans) (i : ℕ) (P : World → Prop)
    (y : Code α) (Q : α → World → Prop) : Prop :=
  Triple exec (Lawful id also) (Vowed exec (Lawful id also) (Proper id)) i P y Q

section Updates

variable {α : Type} {u : TaskOp} {k : u.Resp → Code α} {Q : α → World → Prop}

theorem ending_keeps (writes : writesStatus id u)
    (rest : ∀ a, Keeps id also i (fun _ => True) (k a) Q) :
    Keeps id also i (Settled i id c dir) (.op (.task u) k) Q :=
  vow_op (fun _ _ => True) settled_carried.stable
    (fun _ _ _ _ settled _ _ => ⟨settled.proper writes, trivial⟩) rest

theorem advance_keeps
    (advances : u = .sendTransferring id ∨ ∃ reason, u = .updateStatus id .transferring reason)
    (rest : ∀ a, Keeps id also i (Settled i id c dir) (k a) Q) :
    Keeps id also i (Settled i id c dir) (.op (.task u) k) Q := by
  refine vow_op (fun _ => Settled i id c dir) settled_carried.stable
    (fun x w w' a settled _ done => ?_) rest
  have calm := calm_of_advance done advances (settled.held.running settled.clear).2
  refine ⟨settled.proper ?_, settled.held.of_calm calm,
    settled.shield.of_exec done (by rintro _ _ ⟨⟩), fun h => settled.clear (calm.cancelled.mp h)⟩
  obtain rfl | ⟨_, rfl⟩ := advances <;> rfl

end Updates

/-- Before an attempt: the transfer is not registered, or answered and not cancelled. -/
def Ready (i : ℕ) (id : String) (w : World) : Prop :=
  Fresh i id w ∨ ∃ c, Settled i id c .send w

/-- Between the attempts. -/
def Idle (i : ℕ) (id : String) (w : World) : Prop :=
  Fresh i id w ∨ ∃ c, Held i id c .send w

theorem Ready.idle (ready : Ready i id w) : Idle i id w :=
  ready.imp_right fun ⟨c, settled⟩ => ⟨c, settled.held⟩

theorem ready_carried : Carries id also i (quietOps id) (Ready i id) where
  stable := by
    rintro w w' (fresh | ⟨c, settled⟩) e
    · exact .inl (fresh_carried.stable w w' fresh e)
    · exact .inr ⟨c, settled_carried.stable w w' settled e⟩
  step ho ready lawful done := by
    obtain fresh | ⟨c, settled⟩ := ready
    · exact (fresh_carried.step ho fresh lawful done).imp_right .inl
    · exact (settled_carried.step (plain_of_quiet ho) settled lawful done).imp_right
        fun h => .inr ⟨c, h⟩

theorem idle_carried : Carries id also i (quietOps id) (Idle i id) where
  stable := by
    rintro w w' (fresh | ⟨c, held⟩) e
    · exact .inl (fresh_carried.stable w w' fresh e)
    · exact .inr ⟨c, held_carried.stable w w' held e⟩
  step ho idle lawful done := by
    obtain fresh | ⟨c, held⟩ := idle
    · exact (fresh_carried.step ho fresh lawful done).imp_right .inl
    · exact (held_carried.step (plain_of_quiet ho) held lawful done).imp_right fun h => .inr ⟨c, h⟩

theorem inside_carried {p : Op → Prop} {P : World → Prop} (carried : Carries id also i p P) :
    Carries id also i p fun w => P w ∧ c < w.conns.length where
  stable := Stable.and carried.stable (stable_of_steps fun _ here _ _ done =>
    Nat.lt_of_lt_of_le here (length_conns_le done))
  step ho hw lawful done := by
    obtain ⟨proper, after⟩ := carried.step ho hw.1 lawful done
    exact ⟨proper, after, hw.2.trans_le (length_conns_le done)⟩

theorem quiet_of_dial (ho : dialOps o) : quietOps id o := by
  refine ⟨?_, ?_, ?_⟩
  · cases o <;> first | exact ho.elim | exact fun h => h.elim
  · rintro y rfl
    exact ho
  · rintro d y m rfl
    exact ho

theorem plain_of_wire (ho : wireOps id c o) : plainOps id c o := by
  refine ⟨?_, ?_, ?_⟩
  · cases o with
    | task u => cases u <;> first | exact ho.elim | exact fun h => h.elim
    | _ => exact fun h => h.elim
  · rintro y rfl
    exact ho
  · rintro d y m rfl
    exact ho.1

theorem quiet_env {e : EnvOp} : quietOps id (.env e) :=
  ⟨fun h => h.elim, by rintro y ⟨⟩, by rintro d y m ⟨⟩⟩

/-- Where one party works under the identifier, it registers a transfer to which nothing has
happened. -/
theorem Ready.clear (ready : Ready i id w) (sole : ∀ k, Registrant id w k → k = i)
    (sourced : Sourced id w) : ¬ Cancelled id w ∧ owers id w.journal = [] := by
  obtain fresh | ⟨c, settled⟩ := ready
  · refine (sourced.unknown fun k h => fresh.absent ?_).2
    rwa [sole k h] at h
  · exact ⟨settled.clear, (settled.held.running settled.clear).1⟩

theorem Idle.errored (idle : Idle i id w) {code detail : String}
    (lawful : Lawful id also i (.task (.sendErrored id code detail)) x w) :
    Proper id i (.task (.sendErrored id code detail)) x w := by
  intro _ cancelled
  obtain fresh | ⟨c, held⟩ := idle
  · refine absurd cancelled (lawful.sourced.unknown fun k h => fresh.absent ?_).2.1
    rwa [lawful.sole rfl k h] at h
  · exact held.ended cancelled

private theorem dialled_of_exec {addr : String} {a : Except String ℕ}
    (done : exec j (.net (.dial addr)) x w = some (w', a)) :
    (∃ cause, a = .error cause) ∨ ∃ fp, x.reply = .dialled fp ∧ a = .ok w.conns.length ∧
      w.conns.length < w'.conns.length ∧ Event.connected j w.conns.length ∈ w'.journal := by
  have events {e : Event} : e ∈ w'.journal ↔ e ∈ w.journal ∨ e ∈ history j w' (.net (.dial addr)) a :=
    mem_journal_iff done
  obtain ⟨w₁, ran, logged⟩ := exec_inv done
  simp only [execOp, execNet] at ran
  split at ran
  · cases ran
    rename_i fp answered
    refine .inr ⟨fp, answered, rfl, ?_, events.mpr (.inr List.mem_cons_self)⟩
    rw [logged]
    simp [log]
  · cases ran
    exact .inl ⟨_, rfl⟩
  · cases ran

private theorem Idle.dial (idle : Idle i id w) {addr : String} {a : Except String ℕ}
    (lawful : Lawful id also i (.net (.dial addr)) x w)
    (done : exec i (.net (.dial addr)) x w = some (w', a)) : Idle i id w' ∧
      ∀ d, a = .ok d → Ready i id w' ∧ d < w'.conns.length := by
  have quiet : quietOps id (.net (.dial addr)) := quiet_of_dial trivial
  refine ⟨(idle_carried.step quiet idle lawful done).2, ?_⟩
  rintro d rfl
  obtain ⟨_, ⟨⟩⟩ | ⟨fp, answered, same, longer, connected⟩ := dialled_of_exec done
  cases same
  refine ⟨?_, longer⟩
  obtain fresh | ⟨c, held⟩ := idle
  · exact .inl (fresh_carried.step quiet fresh lawful done).2
  · have clear : ¬ Cancelled id w := fun cancelled =>
      (lawful.timely held.mine).2 cancelled fp answered
    have calm := calm_of_exec done quiet.1
    exact .inr ⟨c, held.of_calm calm, .inr ⟨_, held.inside rfl, connected⟩,
      fun h => clear (calm.cancelled.mp h)⟩

private theorem connected {ε : Type} (d : ℕ) :
    Keeps id also i (fun w => Ready i id w ∧ d < w.conns.length) (.pure (.ok d : Except ε ℕ))
      fun found w => Idle i id w ∧
        ∀ e, found = .ok e → Ready i id w ∧ e < w.conns.length := by
  refine (inside_carried ready_carried).pure fun w h => ⟨h.1.idle, fun e same => ?_⟩
  cases same
  exact h

theorem connectFirst_keeps (addrs errors : List String) :
    Keeps id also i (Idle i id) (connectFirst addrs errors) fun found w => Idle i id w ∧
      ∀ d, found = .ok d → Ready i id w ∧ d < w.conns.length := by
  induction addrs generalizing errors with
  | nil => exact idle_carried.pure fun w idle => ⟨idle, by rintro d ⟨⟩⟩
  | cons addr rest ih =>
    refine vow_op (fun a w => Idle i id w ∧ ∀ d, a = .ok d → Ready i id w ∧ d < w.conns.length)
      idle_carried.stable (fun x w w' a idle lawful done => ?_) fun answer => ?_
    · exact ⟨trivial, idle.dial lawful done⟩
    · cases answer with
      | error cause => exact (ih _).conseq (fun _ h => h.1) fun _ _ h => h
      | ok d =>
        exact (connected d).conseq (fun w h => h.2 d rfl) fun _ _ h => h

theorem reconnect_keeps (peerFp : String) :
    Keeps id also i (Idle i id) (reconnectToPeerByBestAddrs peerFp) fun found w => Idle i id w ∧
      ∀ d, found = .ok d → Ready i id w ∧ d < w.conns.length := by
  have failed {cause : String} : Keeps id also i (Idle i id) (.pure (.error cause))
      fun (found : Except String ℕ) w => Idle i id w ∧
        ∀ d, found = .ok d → Ready i id w ∧ d < w.conns.length :=
    idle_carried.pure fun w idle => ⟨idle, by rintro d ⟨⟩⟩
  refine idle_carried.op quiet_env fun best => ?_
  simp only [ret_bind]
  split
  · exact failed
  · exact failed
  · refine (connectFirst_keeps _ []).bind fun found => ?_
    cases found with
    | ok d =>
      exact (connected d).conseq (fun w h => h.2 d rfl) fun _ _ h => h
    | error errors =>
      cases errors <;> exact Triple.conseq failed (fun _ h => h.1) fun _ _ h => h

private theorem answered_of_exec {a : ControlRead}
    (done : exec j (.net (.readWithTimeout c)) x w = some (w', a)) :
    (∃ f, a = .fault f) ∨ Event.answered j c ∈ w'.journal ∧
      (connOpen w c = true ∨ isTimer x.reply = true) := by
  have events {e : Event} :
      e ∈ w'.journal ↔ e ∈ w.journal ∨ e ∈ history j w' (.net (.readWithTimeout c)) a :=
    mem_journal_iff done
  obtain ⟨w₁, ran, -⟩ := exec_inv done
  simp only [execOp, execNet] at ran
  split at ran
  · split_ifs at ran with reached
    cases ran
    exact .inr ⟨events.mpr (.inr List.mem_cons_self), .inl reached⟩
  · cases ran
    exact .inl ⟨_, rfl⟩
  · cases ran
    rename_i timer
    exact .inr ⟨events.mpr (.inr List.mem_cons_self), .inr (by rw [timer]; rfl)⟩
  · cases ran

private theorem Held.answered (held : Held i id c .send w) {a : ControlRead}
    (lawful : Lawful id also i (.net (.readWithTimeout c)) x w)
    (done : exec i (.net (.readWithTimeout c)) x w = some (w', a)) :
    Held i id c .send w' ∧ ((∃ f, a = .fault f) ∨ Settled i id c .send w') := by
  have calm : Calm id w w' := calm_of_exec done fun h => h
  refine ⟨held.of_calm calm, ?_⟩
  obtain fault | ⟨answered, sign⟩ := answered_of_exec done
  · exact .inl fault
  refine .inr ⟨held.of_calm calm, .inl answered, fun later => ?_⟩
  have cancelled := calm.cancelled.mp later
  obtain ⟨shut, refused⟩ := lawful.timely held.mine
  obtain reached | timer := sign
  · rw [held.closed shut cancelled] at reached
    cases reached
  · have quiet : isTimer x.reply = false := refused cancelled
    rw [quiet] at timer
    cases timer

section Send

variable (debug : DashMessage → String)

private theorem recordIfSome_harmless (y : String) (record : Option TerminalRecord) :
    (recordIfSome y record).Within (harmless id) anything := by
  cases record with
  | none => trivial
  | some rec => exact ⟨⟨fun h => h.elim, by rintro d m ⟨⟩⟩, fun _ => trivial⟩

private theorem ended {α : Type} {a : α} {Q : α → World → Prop} (h : ∀ w, Q a w) :
    Keeps id also i (fun _ => True) (.pure a) Q :=
  harmless_carried.pure fun w _ => h w

theorem streamAndFinish_keeps (items : List FileItem) (steps : List StreamStep) :
    Keeps id also i (Settled i id c .send) (streamAndFinish id c items steps)
      fun _ _ => True := by
  refine advance_keeps (.inl rfl) fun revision => ?_
  refine settled_carried.op (plain_of_quiet quiet_env) fun _ => ?_
  have streamed := (streamFiles_within id c steps).mono (fun _ ho => plain_of_wire ho) fun _ h => h
  refine (settled_carried.within streamed).bind fun _ => ?_
  refine settled_carried.op (plain_of_quiet quiet_env) fun joined => ?_
  refine ending_keeps rfl fun record => ?_
  exact (harmless_carried.within (recordIfSome_harmless id record)).bind fun _ =>
    ended fun _ => trivial

theorem awaitAnswer_keeps (version : ℕ) (items : List FileItem) (steps : List StreamStep) :
    Keeps id also i (Held i id c .send) (awaitAnswer debug id c version items steps)
      fun result w => ∀ e, result = .error e → Idle i id w := by
  have failed {e : String} {P : World → Prop} {p : Op → Prop} (carried : Carries id also i p P)
      (idle : ∀ w, P w → Idle i id w) : Keeps id also i P (.pure (.error e))
        fun (result : Except String TransferOutcome) w => ∀ e, result = .error e → Idle i id w :=
    carried.pure fun w hw _ _ => idle w hw
  have settled_idle (w : World) (h : Settled i id c .send w) : Idle i id w := .inr ⟨c, h.held⟩
  have counted (u : TaskOp) (writes : writesStatus id u)
      (k : u.Resp → Option TerminalRecord) (outcome : TransferOutcome) :
      Keeps id also i (Settled i id c .send)
        (.op (.task u) fun a => (recordIfSome id (k a)).bind fun _ => .pure (.ok outcome))
        fun (result : Except String TransferOutcome) w => ∀ e, result = .error e → Idle i id w :=
    ending_keeps writes fun a => (harmless_carried.within (recordIfSome_harmless id (k a))).bind
      fun _ => ended fun _ e h => by cases h
  refine vow_op (fun a w => Held i id c .send w ∧ ((∃ f, a = .fault f) ∨ Settled i id c .send w))
    held_carried.stable (fun x w w' a held lawful done => ⟨trivial, held.answered lawful done⟩)
    fun answer => ?_
  have settled {a : ControlRead} {w : World} (message : ∀ f, a ≠ .fault f)
      (h : Held i id c .send w ∧ ((∃ f, a = .fault f) ∨ Settled i id c .send w)) :
      Settled i id c .send w := h.2.resolve_left fun ⟨f, same⟩ => message f same
  cases answer with
  | fault f =>
    refine Triple.conseq ?_ (fun _ h => h.1) fun _ _ h => h
    refine held_carried.op (plain_of_wire rfl) fun reason => ?_
    exact failed held_carried fun w held => .inr ⟨c, held⟩
  | timedOut =>
    refine Triple.conseq ?_ (fun _ => settled (by rintro f ⟨⟩)) fun _ _ h => h
    exact counted (.sendTimedOut id) rfl (fun a => a) (.failed .timeout)
  | message m =>
    refine Triple.conseq ?_ (fun _ => settled (by rintro f ⟨⟩)) fun _ _ h => h
    cases m with
    | accept accept =>
      simp only [ret_bind]
      split_ifs
      · exact failed settled_carried settled_idle
      · exact Triple.bind (streamAndFinish_keeps items steps) fun _ =>
          ended fun _ e h => by cases h
    | reject reject => exact counted (.sendRejected id reject.reason) rfl (fun a => a) _
    | _ => exact failed settled_carried settled_idle

theorem offerFiles_keeps (q : SendRequest) (items : List FileItem) (peerName : String)
    (steps : List StreamStep) :
    Keeps q.transferId also i (Held i q.transferId c .send)
      (offerFiles debug q c items peerName steps)
      fun result w => ∀ e, result = .error e → Idle i q.transferId w := by
  have failed {e : String} : Keeps q.transferId also i (Held i q.transferId c .send)
      (.pure (.error e)) fun (result : Except String TransferOutcome) w =>
        ∀ e, result = .error e → Idle i q.transferId w :=
    held_carried.pure fun w held _ _ => .inr ⟨c, held⟩
  have greeted := (doHelloAsInitiator_within debug q.transferId c).mono
    (fun _ ho => plain_of_wire ho) fun _ h => h
  refine (held_carried.within greeted).bind fun version => ?_
  cases version with
  | error e => exact failed
  | ok version =>
    refine held_carried.op (plain_of_quiet quiet_env) fun config => ?_
    refine held_carried.op (plain_of_wire ⟨rfl, rfl⟩) fun wrote => ?_
    cases wrote with
    | error f => exact failed
    | ok _ =>
      exact held_carried.op (plain_of_quiet quiet_env) fun _ => awaitAnswer_keeps debug _ items steps

theorem transportSendFiles_keeps (q : SendRequest) (steps : List StreamStep) :
    Keeps q.transferId also i (fun w => Ready i q.transferId w ∧ c < w.conns.length)
      (transportSendFiles debug q c steps)
      fun result w => ∀ e, result = .error e → Idle i q.transferId w := by
  have before : Carries q.transferId also i (quietOps q.transferId)
      fun w => Ready i q.transferId w ∧ c < w.conns.length := inside_carried ready_carried
  have failed {e : String} : Keeps q.transferId also i
      (fun w => Ready i q.transferId w ∧ c < w.conns.length) (.pure (.error e))
      fun (result : Except String TransferOutcome) w =>
        ∀ e, result = .error e → Idle i q.transferId w :=
    before.pure fun w h _ _ => h.1.idle
  refine before.op quiet_env fun built => ?_
  simp only [ret_bind]
  split
  · exact failed
  · exact failed
  · refine before.op quiet_env fun now => before.op quiet_env fun name => ?_
    refine vow_op (fun _ => Held i q.transferId c .send) before.stable
      (fun x w w' a h lawful done => ?_) fun _ => offerFiles_keeps debug q _ _ steps
    have clear := h.1.clear (lawful.sole rfl) lawful.sourced
    exact ⟨fun _ => clear,
      (Held.of_insert done (lawful.sole rfl) clear rfl rfl fun _ => h.2).1⟩

theorem giveUp_keeps (detail : String) :
    Keeps id also i (Idle i id) (giveUp id detail) fun _ _ => True := by
  refine vow_op (fun _ _ => True) idle_carried.stable
    (fun x w w' a idle lawful done => ⟨idle.errored lawful, trivial⟩) fun _ => ?_
  have rest (o : Op) (quiet : ¬ edits id o) (unwritten : ∀ d y m, o ≠ .net (.write d y m)) :
      harmless id o := ⟨quiet, fun d m same => absurd same (unwritten d id m)⟩
  refine harmless_carried.op (rest _ (fun h => h) (by rintro d y m ⟨⟩)) fun _ => ?_
  refine harmless_carried.op (rest _ (fun h => h) (by rintro d y m ⟨⟩)) fun _ => ?_
  exact harmless_carried.op (rest _ (fun h => h) (by rintro d y m ⟨⟩)) fun _ => ended fun _ => trivial

theorem sendTask_keeps (q : SendRequest) (steps retrySteps : List StreamStep) :
    Keeps q.transferId also i (fun w => Ready i q.transferId w ∧ c < w.conns.length)
      (sendTask debug q c steps retrySteps) fun _ _ => True := by
  have gone {a : Unit} {P : World → Prop} {p : Op → Prop}
      (carried : Carries q.transferId also i p P) : Keeps q.transferId also i P (.pure a)
        fun _ _ => True := carried.pure fun _ _ => trivial
  refine (transportSendFiles_keeps debug q steps).bind fun first => ?_
  cases first with
  | ok outcome =>
    exact Triple.conseq (gone harmless_carried) (fun _ _ => trivial) fun _ _ h => h
  | error detail =>
    refine Triple.conseq (P := Idle i q.transferId) ?_ (fun w h => h detail rfl) fun _ _ h => h
    simp only
    split_ifs
    · refine (reconnect_keeps q.peerFp).bind fun again => ?_
      cases again with
      | error e => exact Triple.conseq (giveUp_keeps detail) (fun _ h => h.1) fun _ _ h => h
      | ok d =>
        refine Triple.conseq (P := fun w => Ready i q.transferId w ∧ d < w.conns.length) ?_
          (fun w h => h.2 d rfl) fun _ _ h => h
        refine (transportSendFiles_keeps debug q retrySteps).bind fun second => ?_
        cases second with
        | ok outcome =>
          exact Triple.conseq (gone harmless_carried) (fun _ _ => trivial) fun _ _ h => h
        | error retryDetail =>
          exact Triple.conseq (giveUp_keeps retryDetail) (fun w h => h retryDetail rfl)
            fun _ _ h => h
    · exact giveUp_keeps detail

theorem verifyAndSend_keeps (q : SendRequest) (steps retrySteps : List StreamStep) :
    Keeps q.transferId also i (fun w => Ready i q.transferId w ∧ c < w.conns.length)
      (verifyAndSend debug q c steps retrySteps) fun _ _ => True := by
  have before : Carries q.transferId also i (quietOps q.transferId)
      fun w => Ready i q.transferId w ∧ c < w.conns.length := inside_carried ready_carried
  have refused {e : String} : Keeps q.transferId also i
      (fun w => Ready i q.transferId w ∧ c < w.conns.length) (.pure (.error e))
      fun (_ : Except String Unit) _ => True := before.pure fun _ _ => trivial
  refine before.op (quiet_of_dial trivial) fun answer => ?_
  cases answer with
  | error cause => exact refused
  | ok actualFp =>
    simp only [ret_bind]
    split_ifs
    · exact before.op (quiet_of_dial trivial) fun _ => before.op quiet_env fun _ => refused
    · exact before.op (quiet_of_dial trivial) fun _ => refused
    · exact refused
    · exact (sendTask_keeps debug q steps retrySteps).bind fun _ => ended fun _ => trivial

theorem sendFiles_keeps (q : SendRequest) (steps retrySteps : List StreamStep) :
    Keeps q.transferId also i (Idle i q.transferId) (sendFiles debug q steps retrySteps)
      fun _ _ => True := by
  have refused {e : String} : Keeps q.transferId also i (Idle i q.transferId) (.pure (.error e))
      fun (_ : Except String Unit) _ => True := idle_carried.pure fun _ _ => trivial
  refine idle_carried.op quiet_env fun level => ?_
  simp only [ret_bind]
  split
  · exact idle_carried.op quiet_env fun _ => refused
  · refine idle_carried.op quiet_env fun best => ?_
    simp only [ret_bind]
    split
    · exact refused
    · exact refused
    · refine idle_carried.op quiet_env fun missing => ?_
      simp only [ret_bind]
      split
      · exact refused
      · refine (connectFirst_keeps _ []).bind fun found => ?_
        cases found with
        | error errors => exact Triple.conseq refused (fun _ h => h.1) fun _ _ h => h
        | ok d =>
          exact Triple.conseq (verifyAndSend_keeps debug q steps retrySteps)
            (fun w h => h.2 d rfl) fun _ _ h => h

end Send

/-- The prompt is up: `chan` is the one channel whose answer is still to come, and after a cancel
no accept has been sent on it. -/
structure Asked (i : ℕ) (id : String) (c chan : ℕ) (w : World) : Prop where
  held : Held i id c .receive w
  opened : Event.opened i id chan ∈ w.journal
  last : ∀ ch, Event.opened i id ch ∈ w.journal → ch = chan ∨
    ∃ a, Event.observed i ch a ∈ w.journal
  refused : Cancelled id w → ∀ k, Event.sent k chan true ∉ w.journal

structure Heard (i : ℕ) (id : String) (c : ℕ) (w : World) : Prop where
  held : Held i id c .receive w
  shield : Shielded i id c .receive w

theorem Settled.heard (settled : Settled i id c .receive w) : Heard i id c w :=
  ⟨settled.held, settled.shield⟩

theorem heard_carried : Carries id also i (plainOps id c) (Heard i id c) where
  stable := stable_of_steps fun apart heard lawful proper done =>
    ⟨(heard.held.foreign apart lawful proper done).1,
      heard.shield.of_exec done fun same => absurd same apart⟩
  step ho heard lawful done := by
    obtain ⟨proper, held⟩ := held_carried.step ho heard.held lawful done
    exact ⟨proper, held, heard.shield.of_exec done fun _ => ho.2.1⟩

theorem asked_stable {chan : ℕ} :
    Stable (Vowed exec (Lawful id also) (Proper id)) i (Asked i id c chan) := by
  refine stable_of_steps fun {j o x w w' r} apart asked lawful proper done => ?_
  have own {e : Event} (same : thread e = i) := foreign_event (e := e) done (same ▸ apart.symm)
  obtain ⟨held, cause⟩ := asked.held.foreign apart lawful proper done
  refine ⟨held, (own rfl).mpr asked.opened, fun ch h => ?_, fun cancelled k sent => ?_⟩
  · exact (asked.last ch ((own rfl).mp h)).imp_right fun ⟨a, seen⟩ =>
      ⟨a, mem_journal_mono done seen⟩
  · obtain old | new := (mem_journal_iff done).mp sent
    · obtain already | ⟨t, found, undecided⟩ := cause cancelled
      · exact asked.refused already k old
      · simp only [Undecided, (asked.held.task t found).1] at undecided
        obtain ⟨l, ch, registered, opened, unseen, unsent⟩ := undecided
        obtain rfl := asked.held.only l registered
        obtain rfl | ⟨a, seen⟩ := asked.last ch opened
        · exact unsent k old
        · exact unseen a seen
    · obtain ⟨-, rfl⟩ := origin_of_mem_history new
      have before : Cancelled id w := (calm_of_exec done fun h => h).cancelled.mp cancelled
      exact lawful.timely before i asked.opened

private theorem Settled.asked (settled : Settled i id c .receive w) {chan : ℕ}
    (done : exec i (.gate (.register id)) x w = some (w', chan)) : Asked i id c chan w' := by
  have calm : Calm id w w' := calm_of_exec done fun h => h
  have events {e : Event} : e ∈ w'.journal ↔ e ∈ w.journal ∨ e = .opened i id chan := by
    rw [mem_journal_iff done]
    exact or_congr_right List.mem_singleton
  refine ⟨settled.held.of_calm calm, events.mpr (.inr rfl), fun ch h => ?_,
    fun h => absurd (calm.cancelled.mp h) settled.clear⟩
  obtain old | same := events.mp h
  · obtain ⟨a, seen⟩ := settled.shield ch old
    exact .inr ⟨a, mem_journal_mono done seen⟩
  · exact .inl (Event.opened.inj same).2.2

private theorem Asked.heard {chan : ℕ} (asked : Asked i id c chan w) {a : Wait Bool}
    (lawful : Lawful id also i (.gate (.wait chan)) x w)
    (done : exec i (.gate (.wait chan)) x w = some (w', a)) : Heard i id c w' ∧
      (a = .value true → ¬ Cancelled id w') := by
  have calm : Calm id w w' := calm_of_exec done fun h => h
  have seen : Event.observed i chan a ∈ w'.journal :=
    (mem_journal_iff done).mpr (.inr (List.mem_singleton.mpr rfl))
  refine ⟨⟨asked.held.of_calm calm, fun ch h => ?_⟩, ?_⟩
  · obtain old | new := (mem_journal_iff done).mp h
    · obtain rfl | ⟨b, before⟩ := asked.last ch old
      · exact ⟨a, seen⟩
      · exact ⟨b, mem_journal_mono done before⟩
    · cases (origin_of_mem_history new).2
  · rintro rfl later
    obtain ⟨w₁, ran, -⟩ := exec_inv done
    have ran : execGate x w (.wait chan) = some (w₁, .value true) := ran
    obtain ⟨channel, found, rest⟩ := Option.bind_eq_some_iff.mp ran
    obtain ⟨⟨channel', heard⟩, waited, same⟩ := Option.map_eq_some_iff.mp rest
    cases same
    obtain ⟨k, sent⟩ := (lawful.sourced.carried asked.opened).2 true (by
      rw [found]
      exact value?_of_wait waited)
    exact asked.refused (calm.cancelled.mp later) k sent

private theorem Heard.rejected (heard : Heard i id c w) {m : DashMessage}
    {a : Except WriteFault Unit} (lawful : Lawful id also i (.net (.write c id m)) x w)
    (done : exec i (.net (.write c id m)) x w = some (w', a)) : Heard i id c w' ∧
      (a = .ok () → Settled i id c .receive w') := by
  have plain : plainOps id c (.net (.write c id m)) :=
    ⟨fun h => h, by rintro y ⟨⟩, by rintro d y n ⟨⟩; rfl⟩
  have after := (heard_carried.step plain heard lawful done).2
  refine ⟨after, ?_⟩
  rintro rfl
  refine ⟨after.held, after.shield, fun later => ?_⟩
  have cancelled := (calm_of_exec done plain.1).cancelled.mp later
  have reached : connOpen w c = true := connOpen_of_wrote (j := i) (y := id) (m := m) done
    (List.mem_singleton.mpr rfl)
  rw [heard.held.closed (lawful.timely heard.held.mine).1 cancelled] at reached
  cases reached

section Offer

variable (q : IncomingOffer)

private abbrev Guarded (q : IncomingOffer) (i : ℕ) : World → Prop :=
  Settled i q.id q.conn .receive

private theorem plain_of_calm (ho : calmOps q o) : plainOps q.id q.conn o := by
  refine ⟨?_, ?_, ?_⟩
  · cases o with
    | task u => cases u <;> first | exact ho.elim | exact fun h => h.elim
    | _ => exact fun h => h.elim
  · rintro y rfl
    exact ho
  · rintro d y m rfl
    exact ho.elim

private theorem harmless_of_calm (ho : calmOps q o) : harmless q.id o := by
  refine ⟨(plain_of_calm q ho).1, ?_⟩
  rintro d m rfl
  exact ho.elim

private theorem plain_note {n : NoteOp} : plainOps id c (.note n) :=
  ⟨fun h => h, by rintro y ⟨⟩, by rintro d y m ⟨⟩⟩

private theorem plain_fs {f : FsOp} : plainOps id c (.fs f) :=
  ⟨fun h => h, by rintro y ⟨⟩, by rintro d y m ⟨⟩⟩

private theorem plain_revision {y : String} : plainOps id c (.task (.revision y)) :=
  ⟨fun h => h, by rintro y ⟨⟩, by rintro d y m ⟨⟩⟩

private theorem markIfSome_within_plain (y : String) (notify : Option (Option String)) :
    (markIfSome y notify).Within (plainOps id c) anything := by
  cases notify with
  | none => trivial
  | some reason => exact ⟨plain_note, fun _ => trivial⟩

private theorem recordIfSome_within_plain (y : String) (record : Option TerminalRecord) :
    (recordIfSome y record).Within (plainOps id c) anything := by
  cases record with
  | none => trivial
  | some rec => exact ⟨⟨fun h => h, by rintro y ⟨⟩, by rintro d y m ⟨⟩⟩, fun _ => trivial⟩

private theorem afterwards {P : World → Prop} {p : Op → Prop} (carried : Carries id also i p P)
    {y : String} {u : StatusUpdate} (marks : (markIfSome y u.notify).Within p anything)
    (counts : (recordIfSome y u.record).Within p anything) :
    Keeps id also i P ((markIfSome y u.notify).bind fun _ => (recordIfSome y u.record).bind fun _ =>
      .pure (some u.revision)) fun (_ : Option ℕ) => P := by
  refine (carried.within marks).bind fun _ => (carried.within counts).bind fun _ => ?_
  exact carried.pure fun _ h => h

theorem update_ends (status : TransferStatus) (reason : Option String) :
    Keeps q.id also i (Guarded q i) (updateTransferStatus q.id status reason) fun _ _ => True := by
  refine ending_keeps rfl fun update => ?_
  cases update with
  | none => exact ended fun _ => trivial
  | some u =>
    refine afterwards harmless_carried ?_ (recordIfSome_harmless q.id u.record)
    cases u.notify with
    | none => trivial
    | some reason => exact ⟨⟨fun h => h, by rintro d m ⟨⟩⟩, fun _ => trivial⟩

theorem update_accepts :
    Keeps q.id also i (Guarded q i) (updateTransferStatus q.id .transferring none)
      fun _ => Guarded q i := by
  refine advance_keeps (.inr ⟨none, rfl⟩) fun update => ?_
  cases update with
  | none => exact settled_carried.pure fun _ h => h
  | some u =>
    exact afterwards settled_carried (markIfSome_within_plain q.id u.notify)
      (recordIfSome_within_plain q.id u.record)

private theorem aftermath {α : Type} {y : Code α} (within : y.Within (calmOps q) anything) :
    Keeps q.id also i (fun _ => True) y fun _ _ => True :=
  harmless_carried.within (within.mono (fun _ ho => harmless_of_calm q ho) fun _ h => h)

theorem rejectForSpace_keeps :
    Keeps q.id also i (Guarded q i) (rejectForSpace q) fun _ _ => True := by
  refine settled_carried.op ⟨fun h => h, by rintro y ⟨⟩, by rintro d y m ⟨⟩; rfl⟩ fun wrote => ?_
  cases wrote with
  | error f => exact settled_carried.pure fun _ _ => trivial
  | ok _ =>
    refine (update_ends q .failed (some "E_DISK_FULL")).bind fun _ => ?_
    refine harmless_carried.op ⟨fun h => h, by rintro d m ⟨⟩⟩ fun _ => ?_
    exact (aftermath q (emitTransferTerminal_within q ..)).bind fun _ => ended fun _ => trivial

theorem rejectOffer_keeps (isTimeout : Bool) :
    Keeps q.id also i (Heard i q.id q.conn) (rejectOffer q isTimeout) fun _ _ => True := by
  refine vow_op (fun a w => Heard i q.id q.conn w ∧ (a = .ok () → Guarded q i w))
    heard_carried.stable (fun x w w' a heard lawful done => ?_) fun wrote => ?_
  · refine ⟨fun _ carried => ?_, heard.rejected lawful done⟩
    cases carried
  · cases wrote with
    | error f =>
      exact Triple.conseq (P := Heard i q.id q.conn) (heard_carried.pure fun _ _ => trivial)
        (fun _ h => h.1) fun _ _ h => h
    | ok _ =>
      refine Triple.conseq (P := Guarded q i) ?_ (fun _ h => h.2 rfl) fun _ _ h => h
      refine (update_ends q .rejected _).bind fun _ => ?_
      exact (aftermath q (emitTransferTerminal_within q ..)).bind fun _ => ended fun _ => trivial

theorem finishReceive_keeps (outcome : TransferOutcome) :
    Keeps q.id also i (Guarded q i) (finishReceive q outcome) fun _ _ => True := by
  cases outcome with
  | success =>
    refine (update_ends q .completed none).bind fun _ => aftermath q ?_
    exact ⟨rfl, fun _ => ⟨trivial, fun _ => trivial⟩⟩
  | partialSuccess failed =>
    refine (update_ends q .partialCompleted none).bind fun _ => aftermath q ?_
    exact ⟨rfl, fun _ => ⟨trivial, fun _ => trivial⟩⟩
  | failed e =>
    refine (update_ends q .failed _).bind fun _ => ?_
    refine (aftermath q (emitTransferTerminal_within q ..)).bind fun _ => ?_
    exact aftermath q (emitTransferError_within q ..)
  | cancelledBySender =>
    exact (update_ends q .cancelledBySender _).bind fun _ =>
      aftermath q (emitTransferTerminal_within q ..)
  | cancelledByReceiver =>
    exact (update_ends q .cancelledByReceiver _).bind fun _ =>
      aftermath q (emitTransferTerminal_within q ..)

theorem failSetup_keeps (e : IoError) :
    Keeps q.id also i (Guarded q i) (failSetup q e) fun _ _ => True := by
  refine settled_carried.op ⟨fun h => h, by rintro y ⟨⟩, by rintro d y m ⟨⟩; rfl⟩ fun _ => ?_
  refine (update_ends q .failed _).bind fun _ => ?_
  refine (aftermath q (emitTransferTerminal_within q ..)).bind fun _ => ?_
  exact aftermath q (emitTransferError_within q ..)

theorem acceptOffer_keeps (saveRoot : PathBuf) :
    Keeps q.id also i (Guarded q i) (acceptOffer q saveRoot) fun _ _ => True := by
  refine (update_accepts q).bind fun accepted => ?_
  refine settled_carried.op (plain_of_quiet quiet_env) fun _ => ?_
  refine settled_carried.op (plain_of_quiet quiet_env) fun config => ?_
  have looked : (resumeOffsets config.fileConflictStrategy saveRoot q.offer.items).Within
      (plainOps q.id q.conn) anything := by
    refine (resumeOffsets_within _ _ _).mono (fun o ho => ?_) fun _ h => h
    cases o with
    | fs f => exact plain_fs
    | _ => exact ho.elim
  refine (settled_carried.within looked).bind fun offsets => ?_
  refine settled_carried.op ⟨fun h => h, by rintro y ⟨⟩, by rintro d y m ⟨⟩; rfl⟩ fun wrote => ?_
  cases wrote with
  | error f => exact settled_carried.pure fun _ _ => trivial
  | ok _ =>
    refine settled_carried.op plain_fs fun made => ?_
    cases made with
    | error e => exact (failSetup_keeps q e).bind fun _ => ended fun _ => trivial
    | ok _ =>
      have received := (receiveFiles_within q).mono (fun _ ho => plain_of_calm q ho) fun _ h => h
      refine (settled_carried.within received).bind fun outcome => ?_
      exact (finishReceive_keeps q outcome).bind fun _ => ended fun _ => trivial

def Decided (q : IncomingOffer) (i : ℕ) (decision : Bool × Bool) (w : World) : Prop :=
  Heard i q.id q.conn w ∧ (decision.1 = true → ¬ Cancelled q.id w)

theorem awaitDecision_keeps :
    Keeps q.id also i (Guarded q i) (awaitDecision q) (Decided q i) := by
  refine settled_carried.op plain_note fun _ => ?_
  refine vow_op (fun chan w => Asked i q.id q.conn chan w) settled_carried.stable
    (fun x w w' chan settled _ done => ⟨trivial, settled.asked done⟩) fun chan => ?_
  refine vow_op (fun a w => Heard i q.id q.conn w ∧ (a = .value true → ¬ Cancelled q.id w))
    asked_stable (fun x w w' a asked lawful done => ⟨trivial, asked.heard lawful done⟩) fun a => ?_
  have refused {b : Bool} : Keeps q.id also i (fun w => Heard i q.id q.conn w ∧
      (a = .value true → ¬ Cancelled q.id w)) (.pure (false, b)) (Decided q i) :=
    Triple.conseq (heard_carried.pure fun w h => ⟨h, fun h => by cases h⟩) (fun _ h => h.1)
      fun _ _ h => h
  cases a with
  | value v =>
    cases v with
    | true =>
      exact Triple.conseq (settled_carried.pure fun w h => ⟨h.heard, fun _ => h.clear⟩)
        (fun w h => (⟨h.1.held, h.1.shield, h.2 rfl⟩ : Guarded q i w)) fun _ _ h => h
    | false => exact refused
  | senderGone => exact refused
  | timedOut => exact refused

theorem decideOffer_keeps :
    Keeps q.id also i (Guarded q i) (decideOffer q) (Decided q i) := by
  refine settled_carried.op (plain_of_quiet quiet_env) fun trusted => ?_
  refine settled_carried.op plain_note fun _ => settled_carried.op plain_revision fun _ => ?_
  refine settled_carried.op (plain_of_quiet quiet_env) fun _ => ?_
  refine settled_carried.op (plain_of_quiet quiet_env) fun config => ?_
  simp only [ret_bind]
  split_ifs
  · exact settled_carried.pure fun w h => ⟨h.heard, fun _ => h.clear⟩
  · exact awaitDecision_keeps q

theorem handleOffer_keeps :
    Keeps q.id also i (Fresh i q.id) (handleOffer q) fun _ _ => True := by
  refine fresh_carried.op quiet_env fun now => ?_
  refine vow_op (fun _ => Guarded q i) fresh_carried.stable
    (fun x w w' a fresh lawful done => ?_) fun _ => ?_
  · have clear := Ready.clear (.inl fresh) (lawful.sole rfl) lawful.sourced
    obtain ⟨held, none_yet⟩ := Held.of_insert (c := q.conn) done (lawful.sole rfl) clear rfl rfl
      (by rintro ⟨⟩)
    refine ⟨fun _ => clear, held, fun chan h => ?_, none_yet⟩
    obtain old | new := (mem_journal_iff done).mp h
    · exact absurd old (fresh.unasked chan)
    · cases (origin_of_mem_history new).2
  · refine settled_carried.op (plain_of_quiet quiet_env) fun _ => ?_
    refine settled_carried.op (plain_of_quiet quiet_env) fun _ => ?_
    refine settled_carried.op (plain_of_quiet quiet_env) fun disks => ?_
    simp only [ret_bind]
    split_ifs
    · refine (decideOffer_keeps q).bind fun decision => ?_
      obtain ⟨userAccepted, isTimeout⟩ := decision
      cases userAccepted with
      | true =>
        exact Triple.conseq (acceptOffer_keeps q _)
          (fun w h => ⟨h.1.held, h.1.shield, h.2 rfl⟩) fun _ _ h => h
      | false =>
        exact Triple.conseq (rejectOffer_keeps q isTimeout) (fun w h => h.1) fun _ _ h => h
    · exact rejectForSpace_keeps q

end Offer

theorem proper_of_other {party : Party} (other : Party.registers party ≠ some id)
    (ho : Party.ops party o) : Proper id j o x w := by
  have differs {u : TaskOp} (same : o = .task u) (owned : ownersOnly u = true) :
      u.id? ≠ some id := by
    subst same
    rw [Party.edits_own ho owned]
    exact other
  cases o with
  | task u =>
    cases u with
    | insert | sendErrored => exact fun same => absurd (congrArg some same) (differs rfl rfl)
    | updateStatus | sendRejected | sendTimedOut | sendTransferring | sendFinished =>
      exact fun same => absurd (congrArg some same) (differs rfl rfl)
    | _ => exact fun h => h.elim
  | net n =>
    cases n with
    | write d y m =>
      rintro rfl carried
      exact absurd (Party.writes_own ho carried) other
    | _ => trivial
  | _ => trivial

theorem party_keeps (debug : DashMessage → String) (party : Party) :
    Keeps id also i (Fresh i id) (party.prog debug) fun _ _ => True := by
  by_cases own : Party.registers party = some id
  · cases party with
    | offer q =>
      obtain rfl := Option.some.inj own
      exact handleOffer_keeps q
    | send q steps retrySteps =>
      obtain rfl := Option.some.inj own
      exact (sendFiles_keeps debug q steps retrySteps).conseq (fun _ => .inl) fun _ _ h => h
    | accept | reject | cancel | maintenance | cleanup => cases own
  · have apart : Carries id also i (Party.ops party) fun _ => True :=
      ⟨stable_true, fun ho _ _ _ => ⟨proper_of_other own ho, trivial⟩⟩
    exact (apart.within (Party.within debug party)).conseq (fun _ _ => trivial) fun _ _ h => h

theorem timely_invariant {debug : DashMessage → String} {parties : List Party} {w : World}
    (fresh : w.journal = []) {s t : Pool Op Op.Resp World (Except String Unit)}
    (first : Run exec (Lawful id also) (pool debug w parties) s)
    (later : Run exec (Lawful id also) s t) (I : World → Prop) (base : I s.world)
    (keep : ∀ j o x w w' r, I w → Lawful id also j o x w → Proper id j o x w →
      exec j o x w = some (w', r) → I w') : I t.world := by
  have start : ∀ j y, (pool debug w parties).threads[j]? = some y →
      Safe exec (Lawful id also) (Vowed exec (Lawful id also) (Proper id)) j y
        (fun _ _ => True) w := by
    intro j y hy
    obtain ⟨party, -, rfl⟩ := pool_thread hy
    refine party_keeps debug party w ⟨?_, fun chan => ?_⟩ <;> simp [Registrant, fresh]
  exact vowed_invariant later (first.safe start) I base keep

end DashDrop.Lifecycle.Owners
