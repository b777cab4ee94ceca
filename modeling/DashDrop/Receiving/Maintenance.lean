/- GID: DashDrop/Receiving/Maintenance
   source: src-tauri/src/runtime/supervisor.rs, src-tauri/src/transport/receiver.rs
   anchors: []
   digest: Why a pending offer is rejected, if no sender is stored behind an open pass. -/

import DashDrop.Receiving.Ledger

set_option autoImplicit false
set_option relaxedAutoImplicit false

namespace DashDrop.Receiving.Maintenance

open DashDrop.Foundation.Program DashDrop.Foundation.Interleaving
open DashDrop.Foundation.Discipline DashDrop.Foundation.Oneshot
open DashDrop.Transport.Protocol DashDrop.Transport.Receiver DashDrop.Transport.Sender
open DashDrop.Runtime.State DashDrop.Runtime.Machine DashDrop.Runtime.Effects
open DashDrop.Runtime.Footprint DashDrop.Runtime.Supervisor
open DashDrop.Receiving.Phases DashDrop.Receiving.Registry DashDrop.Receiving.Ledger

/-- The pending identifiers of a pass between its snapshot and its `retain`. -/
def passStep (k : ℕ) (open' : Option (List String)) : Event → Option (List String)
  | .surveyed j ids => if j = k then some ids else open'
  | .retained j => if j = k then none else open'
  | _ => open'

def openPass (k : ℕ) (l : List Event) : Option (List String) := l.foldl (passStep k) none

/-- Identifiers are fresh, and a sender is stored only when every open maintenance pass has
seen its transfer pending. -/
def Timely : Guard Op World Ans := fun i o x w =>
  Fresh i o x w ∧
  match o with
  | .gate (.register y) => ∀ k ids, openPass k w.journal = some ids → y ∈ ids
  | _ => True

/-- `cancel_transfer` has set the status of the transfer. -/
def Cancelled (y : String) (w : World) : Prop :=
  ∃ k status conn, Event.cancelled k y status conn ∈ w.journal

/-- Why an offer learns something else than an acceptance. -/
def Cause (parties : List Party) (y : String) (c : ℕ) (a : Wait Bool) (w : World) : Prop :=
  a = .timedOut ∨ Cancelled y w ∨
  (a = .value false ∧ ∃ k, Event.sent k c false ∈ w.journal ∧
    ((∃ n, parties[k]? = some (.reject y n)) ∨ ∃ hasHost, parties[k]? = some (.cancel y hasHost)))

variable {parties : List Party} {φ : ℕ → Phase} {i : ℕ} {o : Op} {x : Ans} {w w' : World}
variable {r : o.Resp} {s : Phase} {y : String}

/-- The offer of the transfer has been cancelled or has its answer. -/
private def Done (φ : ℕ → Phase) (w : World) (k : ℕ) (y : String) : Prop :=
  Cancelled y w ∨ (verdict (φ k)).isSome = true

/-- The transfer is not an offer, or its offer is done or has lost its sender. -/
private def Over (parties : List Party) (φ : ℕ → Phase) (w : World) (y : String) : Prop :=
  ∃ k, Event.registered k y ∈ w.journal ∧
    (IsOffer parties k y → Done φ w k y ∨
      ∃ c, Event.opened k y c ∈ w.journal ∧ w.pendingAccepts.lookup y ≠ some c)

private def NotPending (w : World) (y : String) : Prop :=
  ∀ t, w.transfers.lookup y = some t → t.status ≠ .pendingAccept

private theorem cancelled_mono (done : exec i o x w = some (w', r)) (h : Cancelled y w) :
    Cancelled y w' := by
  obtain ⟨k, status, conn, here⟩ := h
  exact ⟨k, status, conn, mem_journal_mono done here⟩

private theorem verdict_step {q : Phase} (change : Change parties i q o r s)
    (h : (verdict q).isSome = true) : (verdict s).isSome = true := by
  cases change with
  | stay | enlist | again | ensure | mark | emit | discard => exact h
  | update offer after =>
    have moving := isMoving_afterUpdate after
    cases s with
    | moving | lost => rfl
    | _ => cases moving
  | wait => rfl
  | status role free =>
    cases q with
    | idle | cleared | expired => cases h
    | _ => cases free
  | contains role free =>
    cases q with
    | idle | cleared | expired => cases h
    | _ => cases free
  | take role free => obtain rfl | rfl := free <;> cases h
  | survey loop resting =>
    cases q with
    | idle | marking => cases h
    | _ => cases resting
  | list | note | «show» | register | read | send | retain => cases h

private theorem verdict_update (change : Change parties i (φ i) o r s) {k : ℕ}
    (h : (verdict (φ k)).isSome = true) : (verdict (Function.update φ i s k)).isSome = true := by
  by_cases hk : k = i
  · subst hk
    rw [Function.update_self]
    exact verdict_step change h
  · rwa [Function.update_of_ne hk]

private theorem done_step (done : exec i o x w = some (w', r))
    (change : Change parties i (φ i) o r s) {k : ℕ} (h : Done φ w k y) :
    Done (Function.update φ i s) w' k y :=
  h.imp (cancelled_mono done) (verdict_update change)

private theorem left_step (books : Books parties φ w) (done : exec i o x w = some (w', r))
    {k c : ℕ} (opened : Event.opened k y c ∈ w.journal)
    (left : w.pendingAccepts.lookup y ≠ some c) : w'.pendingAccepts.lookup y ≠ some c := by
  rw [exec_lookup_gate done]
  cases o with
  | gate g =>
    cases g with
    | register z =>
      simp only [onGate, gateEffect]
      split_ifs
      · have inside := (books.gates.opener opened).2.1
        simp only [ne_eq, Option.some.injEq]
        omega
      · exact left
    | take z | discard z =>
      simp only [onGate, gateEffect]
      split_ifs
      · simp
      · exact left
    | retain ids =>
      simp only [onGate, gateEffect]
      split_ifs
      · exact left
      · simp
    | _ => exact left
  | _ => exact left

private theorem over_step (books : Books parties φ w) (done : exec i o x w = some (w', r))
    (change : Change parties i (φ i) o r s) (h : Over parties φ w y) :
    Over parties (Function.update φ i s) w' y := by
  obtain ⟨k, registered, finished⟩ := h
  refine ⟨k, mem_journal_mono done registered, fun offer => ?_⟩
  obtain settled | ⟨c, opened, left⟩ := finished offer
  · exact .inl (done_step done change settled)
  · exact .inr ⟨c, mem_journal_mono done opened, left_step books done opened left⟩

private theorem afterUpdate_status {q : Phase} {found : Bool} :
    q.afterUpdate .pendingAccept found = none := by
  cases q <;> simp [Phase.afterUpdate, TransferStatus.isTerminal]

private theorem not_reinserted (books : Books parties φ w) (allowed : Fresh i o x w)
    (change : Change parties i (φ i) o r s) {k : ℕ} (registered : Event.registered k y ∈ w.journal)
    (offer : IsOffer parties k y) {t : TransferTask} (insert : o = .task (.insert t)) : t.id ≠ y := by
  rintro rfl
  subst insert
  obtain rfl := allowed k registered
  obtain ⟨f, here, -⟩ := offer
  have active := books.registered.begun here registered
  generalize φ k = q at change active
  cases change with
  | stay calm => cases calm
  | list => exact active rfl
  | enlist sends => cases here.symm.trans sends

private theorem notPending_step (done : exec i o x w = some (w', r))
    (change : Change parties i (φ i) o r s)
    (fresh : ∀ t, o = .task (.insert t) → t.id ≠ y) (h : NotPending w y) : NotPending w' y := by
  intro t' found
  rw [exec_lookup_task done] at found
  cases o with
  | task u =>
    cases was : w.transfers.lookup y with
    | none =>
      rw [was] at found
      cases u with
      | insert t =>
        have apart := fresh t rfl
        simp [onTask, taskEffect, Ne.symm apart] at found
      | _ => simp [onTask, taskEffect] at found
    | some t =>
      rw [was] at found
      have before := h t was
      cases u with
      | insert t₀ =>
        have apart := fresh t₀ rfl
        simp only [onTask, taskEffect, Ne.symm apart, if_false, Option.some.injEq] at found
        rwa [← found]
      | updateStatus z status reason =>
        simp only [onTask, taskEffect] at found
        split_ifs at found <;> cases found
        · rintro rfl
          generalize φ i = q at change
          cases change with
          | stay calm => cases calm
          | update offer after =>
            rw [afterUpdate_status] at after
            cases after
        · exact before
      | cancel z hasHost =>
        simp only [onTask, taskEffect] at found
        split_ifs at found <;> cases found
        · cases direction : t.direction <;> simp [applyCancel, cancelStatus, direction]
        · exact before
      | sendErrored z reasonCode detail =>
        simp only [onTask, taskEffect] at found
        split_ifs at found <;> cases found
        · simp only [applyErrored]
          split_ifs
          · exact before
          · simp [overwrite]
        · exact before
      | sendFinished z outcome itemCount =>
        simp only [onTask, taskEffect] at found
        split_ifs at found <;> cases found
        · cases outcome <;> simp [applyFinished, overwrite, outcomeStatus]
        · exact before
      | setError | addBytes | sendRejected | sendTimedOut | sendTransferring =>
        simp only [onTask, taskEffect] at found
        split_ifs at found <;> cases found <;>
          first | exact before | simp [applyRejected, applyTimedOut, applyTransferring, overwrite]
      | cleanup =>
        simp only [onTask, taskEffect, Option.filter_eq_some_iff, Option.some.injEq] at found
        rwa [← found.1]
      | revision | status | snapshot | record =>
        cases found
        exact before
  | _ => exact h t' found

private def StillPending (w : World) (y : String) : Prop :=
  ∃ t, w.transfers.lookup y = some t ∧ t.status = .pendingAccept ∧ t.endedAtUnix = none

private theorem stillPending_step (books : Books parties φ w) (apart : Apart parties)
    (allowed : Fresh i o x w) (done : exec i o x w = some (w', r))
    (moved : moves parties i (φ i) o r = some s) {k : ℕ}
    (registered : Event.registered k y ∈ w.journal) (offer : IsOffer parties k y)
    (h : StillPending w y) :
    StillPending w' y ∨ (Done (Function.update φ i s) w' k y ∧ NotPending w' y) := by
  obtain ⟨t, found, pending, running⟩ := h
  have change := change_of_moves moved
  have after := exec_lookup_task done y
  rw [found] at after
  cases o with
  | task u =>
    have foreign {z : String} (section' : sendSection u = some z) : y ≠ z := by
      rintro rfl
      obtain ⟨f, steps, retrySteps, sends, same⟩ := sendSection_inv moved section'
      obtain ⟨q, there, rfl⟩ := offer
      exact apart f steps retrySteps q (List.mem_of_getElem? sends) (List.mem_of_getElem? there)
        same
    cases u with
    | insert t₀ =>
      have other := not_reinserted books allowed change registered offer rfl
      rw [onTask, taskEffect, if_neg (Ne.symm other)] at after
      exact .inl ⟨t, after, pending, running⟩
    | updateStatus z status reason =>
      simp only [onTask, taskEffect] at after
      split_ifs at after with hz
      · subst hz
        generalize before : φ i = q at change
        cases change with
        | stay calm => cases calm
        | @update f status reason q s a offer' moved' =>
          have active : φ i ≠ .idle := by
            rw [before]
            rintro rfl
            cases moved'
          obtain rfl := books.registered.unique registered
            (books.registered.listed offer' active)
          refine .inr ⟨.inr ?_, fun t' found' => ?_⟩
          · rw [Function.update_self]
            have moving := isMoving_afterUpdate moved'
            cases s with
            | moving | lost => rfl
            | _ => cases moving
          · cases after.symm.trans found'
            rintro rfl
            rw [afterUpdate_status] at moved'
            cases moved'
      · exact .inl ⟨t, after, pending, running⟩
    | cancel z hasHost =>
      simp only [onTask, taskEffect] at after
      split_ifs at after with hz
      · subst hz
        refine .inr ⟨.inl ⟨i, (applyCancel x.now t).status, t.conn, ?_⟩, fun t' found' => ?_⟩
        · refine (mem_journal_iff done).mpr (.inr ?_)
          rw [exec_task_answer done]
          simp [execTask, modifyTask_answer, found, history, taskHistory, terminalRecord,
            applyCancel]
        · cases after.symm.trans found'
          cases direction : t.direction <;> simp [applyCancel, cancelStatus, direction]
      · exact .inl ⟨t, after, pending, running⟩
    | setError z text | addBytes z n =>
      simp only [onTask, taskEffect] at after
      split_ifs at after
      · exact .inl ⟨_, after, pending, running⟩
      · exact .inl ⟨t, after, pending, running⟩
    | sendRejected | sendTimedOut | sendTransferring | sendFinished | sendErrored =>
      rw [onTask, taskEffect, if_neg (foreign rfl)] at after
      exact .inl ⟨t, after, pending, running⟩
    | cleanup =>
      have kept : (some t).filter (cleanupKeeps x.now) = some t := by
        simp [cleanupKeeps, running]
      exact .inl ⟨t, after.trans kept, pending, running⟩
    | revision | status | snapshot | record => exact .inl ⟨t, after, pending, running⟩
  | _ => exact .inl ⟨t, after, pending, running⟩

/-- The offer has learnt something else than an acceptance. -/
def Refused (j : ℕ) (y : String) (w : World) : Prop :=
  ∃ c a, Event.opened j y c ∈ w.journal ∧ Event.observed j c a ∈ w.journal ∧ a ≠ .value true

private structure Swept (parties : List Party) (φ : ℕ → Phase) (w : World) : Prop where
  known : ∀ {y t}, w.transfers.lookup y = some t → ∃ k, Event.registered k y ∈ w.journal
  waits : ∀ {k y}, Event.registered k y ∈ w.journal → IsOffer parties k y →
    StillPending w y ∨ (Done φ w k y ∧ NotPending w y)
  noted : ∀ {y n}, w.notifications.lookup y = some n → n.active = false → Over parties φ w y
  expired : ∀ {k y n}, Decides parties k y n → φ k = .expired → Over parties φ w y
  sweeping : ∀ {k ids inactive}, φ k = .sweeping ids inactive →
    openPass k w.journal = some ids ∧ (∀ y ∈ inactive, Over parties φ w y) ∧
      ∀ y c, w.pendingAccepts.lookup y = some c →
        y ∈ ids ∨ (Over parties φ w y ∧ NotPending w y)
  marking : ∀ {k inactive}, φ k = .marking inactive → ∀ y ∈ inactive, Over parties φ w y
  dropped : ∀ {j y c}, Event.opened j y c ∈ w.journal → w.channels[c]? = some .dropped →
    Cancelled y w
  refused : ∀ {j f}, parties[j]? = some (.offer f) → φ j = .settled false → Refused j f.id w
  rejected : ∀ {j y}, Event.moved j y .rejected ∈ w.journal → Refused j y w

private theorem Swept.over_of_ended (swept : Swept parties φ w) {t : TransferTask}
    (found : w.transfers.lookup y = some t) (ended : t.status ≠ .pendingAccept) :
    Over parties φ w y := by
  obtain ⟨k, registered⟩ := swept.known found
  refine ⟨k, registered, fun offer => .inl ?_⟩
  obtain ⟨t', found', pending, -⟩ | ⟨settled, -⟩ := swept.waits registered offer
  · cases found.symm.trans found'
    exact absurd pending ended
  · exact settled

private theorem Swept.over_of_mark (swept : Swept parties φ w) (books : Books parties φ w)
    (may : MayMark parties i (φ i) y) : Over parties φ w y := by
  obtain ⟨⟨f, offer, rfl⟩, moving⟩ | ⟨n, role, finished⟩ | ⟨v, role, holds⟩ |
      ⟨ids, phase, member⟩ := may
  · have told : (verdict (φ i)).isSome = true ∧ φ i ≠ .idle := by
      generalize φ i = q at moving
      cases q with
      | moving | lost => exact ⟨rfl, by simp⟩
      | _ => cases moving
    exact ⟨i, books.registered.listed offer told.2, fun _ => .inl (.inr told.1)⟩
  · exact swept.expired role finished
  · obtain ⟨c, holding⟩ : ∃ c, φ i = .holding c := by
      generalize φ i = q at holds
      cases q with
      | holding c => exact ⟨c, rfl⟩
      | _ => cases holds
    obtain ⟨-, y', took⟩ := books.gates.held holding
    obtain ⟨⟨j, opened⟩, left, -, -, v', role'⟩ := books.gates.taken took
    obtain ⟨rfl, -⟩ := role'.unique role
    exact ⟨j, books.registered_of_opened opened, fun _ => .inr ⟨c, opened, left⟩⟩
  · exact swept.marking phase y member

/-- A sender that is dropped before its offer has an answer is that of a cancelled transfer. -/
private theorem cancelled_of_over (books : Books parties φ w) (finished : Over parties φ w y) {c : ℕ}
    (stored : w.pendingAccepts.lookup y = some c) (empty : w.channels[c]? = some .empty) :
    Cancelled y w := by
  obtain ⟨⟨j, opened⟩, -⟩ := books.gates.stored stored
  obtain ⟨offer, -, later⟩ := books.gates.opener opened
  obtain ⟨k, registered, finished⟩ := finished
  obtain rfl := books.registered.unique registered (books.registered_of_opened opened)
  obtain (cancelled | told) | ⟨c', opened', left⟩ := finished offer
  · exact cancelled
  · have agree := books.gates.agree c
    rw [empty] at agree
    obtain ⟨waiting, -⟩ | ⟨a, seen, -⟩ := later
    · rw [waiting] at told
      cases told
    · rw [agree.2] at seen
      cases seen
  · obtain rfl := books.gates.once opened opened'
    exact absurd stored left

private theorem known_inv (done : exec i o x w = some (w', r)) {t' : TransferTask}
    (found : w'.transfers.lookup y = some t') :
    (∃ t, w.transfers.lookup y = some t) ∨ ∃ t, o = .task (.insert t) ∧ t.id = y := by
  rw [exec_lookup_task done] at found
  cases was : w.transfers.lookup y with
  | some t => exact .inl ⟨t, rfl⟩
  | none =>
    rw [was] at found
    cases o with
    | task u =>
      cases u with
      | insert t =>
        simp only [onTask, taskEffect] at found
        split_ifs at found with same
        exact .inr ⟨t, rfl, same.symm⟩
      | _ => simp [onTask, taskEffect] at found
    | _ => cases found

private theorem stored_inv (done : exec i o x w = some (w', r)) {c : ℕ}
    (stored : w'.pendingAccepts.lookup y = some c) :
    w.pendingAccepts.lookup y = some c ∨ o = .gate (.register y) := by
  rw [exec_lookup_gate done] at stored
  cases o with
  | gate g =>
    cases g with
    | register z =>
      simp only [onGate, gateEffect] at stored
      split_ifs at stored with same
      · exact .inr (by rw [same])
      · exact .inl stored
    | take z | discard z =>
      simp only [onGate, gateEffect] at stored
      split_ifs at stored
      exact .inl stored
    | retain ids =>
      simp only [onGate, gateEffect] at stored
      split_ifs at stored
      exact .inl stored
    | _ => exact .inl stored
  | _ => exact .inl stored

private theorem dropped_inv (done : exec i o x w = some (w', r)) {c : ℕ}
    (dropped : w'.channels[c]? = some .dropped) :
    w.channels[c]? = some .dropped ∨ (w.channels[c]? = some .empty ∧
      ∃ y, w.pendingAccepts.lookup y = some c ∧
        (o = .gate (.register y) ∨ o = .gate (.discard y) ∨
          ∃ ids, o = .gate (.retain ids) ∧ y ∉ ids)) := by
  have dropping {gone : List ℕ} (h : (dropSenders w.channels gone)[c]? = some .dropped) :
      w.channels[c]? = some .dropped ∨ (w.channels[c]? = some .empty ∧ c ∈ gone) := by
    rw [getElem?_dropSenders] at h
    split_ifs at h with member
    · obtain ⟨ch, found, same⟩ := Option.map_eq_some_iff.mp h
      cases ch with
      | empty => exact .inr ⟨found, member⟩
      | dropped => exact .inl found
      | sent | received | closed => cases same
    · exact .inl h
  obtain ⟨w₁, ran, logged⟩ := exec_inv done
  have kept : w'.channels = w₁.channels := by rw [logged, log]
  rw [kept] at dropped
  cases o with
  | gate g =>
    cases g with
    | register y =>
      cases ran
      have below : (dropSenders w.channels (w.pendingAccepts.lookup y).toList)[c]? =
          some .dropped := by
        simp only [List.getElem?_append] at dropped
        split_ifs at dropped with inside
        · exact dropped
        · generalize c - _ = d at dropped
          cases d <;> simp at dropped
      refine (dropping below).imp_right fun h => ⟨h.1, y, Option.mem_toList.mp h.2, .inl rfl⟩
    | discard y =>
      cases ran
      exact (dropping dropped).imp_right fun h =>
        ⟨h.1, y, Option.mem_toList.mp h.2, .inr (.inl rfl)⟩
    | retain ids =>
      cases ran
      refine (dropping dropped).imp_right fun h => ⟨h.1, ?_⟩
      obtain ⟨y, outside, stored⟩ := mem_missingSenders.mp h.2
      exact ⟨y, stored, .inr (.inr ⟨ids, rfl, outside⟩)⟩
    | take | contains =>
      cases ran
      exact .inl dropped
    | send d v =>
      cases ran
      rw [List.getElem?_modify] at dropped
      obtain ⟨ch, found, same⟩ := Option.map_eq_some_iff.mp dropped
      refine .inl (found.trans ?_)
      split_ifs at same
      · cases ch <;> cases same
        rfl
      · exact congrArg some same
    | wait d =>
      obtain ⟨ch, found, rest⟩ := Option.bind_eq_some_iff.mp ran
      obtain ⟨⟨ch', a⟩, waited, same⟩ := Option.map_eq_some_iff.mp rest
      cases same
      by_cases hd : d = c
      · subst hd
        have inside := (List.getElem?_eq_some_iff.mp found).1
        rw [List.getElem?_set_self inside] at dropped
        cases dropped
        refine .inl (found.trans ?_)
        cases ch with
        | dropped => rfl
        | empty =>
          simp only [Channel.wait] at waited
          split_ifs at waited
          cases waited
        | sent | received | closed => cases waited
      · rw [List.getElem?_set_ne hd] at dropped
        exact .inl dropped
  | _ =>
    rw [(frame_execOp ran).channels (by simp)] at dropped
    exact .inl dropped

private theorem opened_inv (done : exec i o x w = some (w', r)) {j c : ℕ}
    (opened : Event.opened j y c ∈ w'.journal) :
    Event.opened j y c ∈ w.journal ∨ (o = .gate (.register y) ∧ c = w.channels.length) := by
  obtain old | new := (mem_journal_iff done).mp opened
  · exact .inl old
  · obtain ⟨rfl, rfl⟩ := origin_of_mem_history new
    obtain ⟨w₁, ran, -⟩ := exec_gate done
    cases ran
    obtain ⟨-, -, rfl⟩ := Event.opened.inj (List.mem_singleton.mp new)
    exact .inr ⟨rfl, rfl⟩

theorem openPass_step (done : exec i o x w = some (w', r)) {k : ℕ}
    (other : k ≠ i ∨ (o ≠ .task .snapshot ∧ ∀ ids, o ≠ .gate (.retain ids))) :
    openPass k w'.journal = openPass k w.journal := by
  have still : ∀ l : List Event, (∀ e ∈ l, Origin i o e) → ∀ p, l.foldl (passStep k) p = p := by
    intro l
    induction l with
    | nil => exact fun _ _ => rfl
    | cons e l ih =>
      intro from' p
      have here := from' e List.mem_cons_self
      rw [List.foldl_cons, ih fun e he => from' e (List.mem_cons_of_mem _ he)]
      cases e with
      | surveyed j ids =>
        obtain ⟨rfl, survey⟩ := here
        obtain other | ⟨other, -⟩ := other
        · exact if_neg (Ne.symm other)
        · exact absurd survey other
      | retained j =>
        obtain ⟨rfl, ids, retain⟩ := here
        obtain other | ⟨-, other⟩ := other
        · exact if_neg (Ne.symm other)
        · exact absurd retain (other ids)
      | _ => rfl
  rw [exec_journal done, openPass, List.foldl_append]
  exact still _ (fun e he => origin_of_mem_history he) _

private theorem afterUpdate_rejected {q : Phase} {found : Bool}
    (moved : q.afterUpdate .rejected found = some s) : q = .settled false := by
  unfold Phase.afterUpdate at moved
  split at moved <;> simp_all

private theorem pending_at_start (done : exec i o x w = some (w', r))
    (change : Change parties i (φ i) o r s) {t : TransferTask} (insert : o = .task (.insert t))
    (offer : IsOffer parties i t.id) : StillPending w' t.id := by
  subst insert
  refine ⟨t, by rw [exec_lookup_task done]; exact if_pos rfl, ?_⟩
  obtain ⟨f, here, -⟩ := offer
  generalize φ i = q at change
  cases change with
  | stay calm => cases calm
  | list offer same pending => exact pending
  | enlist sends => cases here.symm.trans sends

private theorem waits_step (swept : Swept parties φ w) (books : Books parties φ w)
    (apart : Apart parties) (allowed : Fresh i o x w) (done : exec i o x w = some (w', r))
    (moved : moves parties i (φ i) o r = some s) {k : ℕ}
    (registered : Event.registered k y ∈ w'.journal) (offer : IsOffer parties k y) :
    StillPending w' y ∨ (Done (Function.update φ i s) w' k y ∧ NotPending w' y) := by
  have change := change_of_moves moved
  obtain old | ⟨rfl, t, insert, rfl⟩ := origin_of_new done registered
  · obtain waiting | ⟨settled, ended⟩ := swept.waits old offer
    · exact stillPending_step books apart allowed done moved old offer waiting
    · refine .inr ⟨done_step done change settled, notPending_step done change (fun t => ?_) ended⟩
      exact not_reinserted books allowed change old offer
  · exact .inl (pending_at_start done change insert offer)

private theorem noted_step (swept : Swept parties φ w) (books : Books parties φ w)
    (done : exec i o x w = some (w', r)) (change : Change parties i (φ i) o r s)
    {n : IncomingRequestNotification} (found : w'.notifications.lookup y = some n)
    (inactive : n.active = false) : Over parties (Function.update φ i s) w' y := by
  refine over_step books done change ?_
  rw [exec_lookup_note done] at found
  cases o with
  | note u =>
    cases u with
    | ensure z =>
      simp only [onNote, noteEffect] at found
      split_ifs at found
      · cases was : w.notifications.lookup y <;> rw [was] at found <;> cases found <;> cases inactive
      · exact swept.noted found inactive
    | markInactive z reason =>
      simp only [onNote, noteEffect] at found
      split_ifs at found with same
      · subst same
        generalize before : φ i = q at change
        cases change with
        | stay calm => cases calm
        | mark may => exact swept.over_of_mark books (before ▸ may)
      · exact swept.noted found inactive
    | read z => exact swept.noted found inactive
  | _ => exact swept.noted found inactive

private theorem afterRead_expired {n : Uuid} {entry : Option IncomingRequestNotification}
    (h : afterRead n entry = .expired) : ∃ e, entry = some e ∧ e.active = false := by
  unfold afterRead at h
  split at h
  · rename_i e
    refine ⟨e, rfl, ?_⟩
    split_ifs at h with inactive
    simpa using inactive
  · cases h

private theorem afterStatus_expired {q : Phase} {found : Option TransferStatus}
    (h : afterStatus q found = .expired) :
    q = .expired ∨ ∃ status, found = some status ∧ status ≠ .pendingAccept := by
  unfold afterStatus at h
  split at h
  · exact .inl h
  · exact .inl h
  · rename_i status pending
    exact .inr ⟨status, rfl, pending⟩

private theorem expired_step (swept : Swept parties φ w) (books : Books parties φ w)
    (done : exec i o x w = some (w', r)) (change : Change parties i (φ i) o r s) {n : Uuid}
    (role : Decides parties i y n) (after : s = .expired) :
    Over parties (Function.update φ i s) w' y := by
  refine over_step books done change ?_
  have earlier (h : φ i = .expired) : Over parties φ w y := swept.expired role h
  generalize φ i = q at change earlier
  cases change with
  | stay | enlist | mark | emit => exact earlier after
  | discard => exact earlier rfl
  | read role' =>
    obtain ⟨rfl, rfl⟩ := role.unique role'
    obtain ⟨e, rfl, inactive⟩ := afterRead_expired after
    obtain ⟨w₁, ran, -⟩ := exec_inv done
    obtain ⟨-, found⟩ := Prod.mk.inj (Option.some.inj ran)
    exact swept.noted found inactive
  | status role' =>
    obtain ⟨rfl, rfl⟩ := role.unique role'
    obtain rfl | ⟨status, rfl, ended⟩ := afterStatus_expired after
    · exact earlier rfl
    · obtain ⟨t, found, rfl⟩ := Option.map_eq_some_iff.mp (exec_task_answer done).symm
      exact swept.over_of_ended found ended
  | contains role' free =>
    split_ifs at after
    exact earlier after
  | @take z v taken q role' free => cases taken <;> cases after
  | update offer moved =>
    have moving := isMoving_afterUpdate moved
    rw [after] at moving
    cases moving
  | list | note | again | ensure | «show» | register | wait | send | survey | retain => cases after

def statesOf (w : World) : List (String × TransferStatus × Option String) :=
  w.transfers.entries.map fun e => (e.1, e.2.status, e.2.terminalReasonCode)

theorem mem_pendingOf_iff : y ∈ pendingOf (statesOf w) ↔
    ∃ t, w.transfers.lookup y = some t ∧ t.status = .pendingAccept := by
  constructor
  · intro member
    obtain ⟨e, kept, rfl⟩ := List.mem_map.mp member
    obtain ⟨listed, pending⟩ := List.mem_filter.mp kept
    obtain ⟨⟨y, t⟩, entry, rfl⟩ := List.mem_map.mp listed
    exact ⟨t, AList.mem_lookup_iff.mpr entry, by simpa using pending⟩
  · rintro ⟨t, found, pending⟩
    have entry : (⟨y, t⟩ : Sigma fun _ : String => TransferTask) ∈ w.transfers.entries :=
      AList.mem_lookup_iff.mp found
    refine List.mem_map.mpr ⟨(y, t.status, t.terminalReasonCode), ?_, rfl⟩
    exact List.mem_filter.mpr ⟨List.mem_map.mpr ⟨_, entry, rfl⟩, by simpa using pending⟩

private theorem ended_of_mem_inactiveOf (h : y ∈ (inactiveOf (statesOf w)).map Prod.fst) :
    ∃ t, w.transfers.lookup y = some t ∧ t.status ≠ .pendingAccept := by
  obtain ⟨⟨y, reason⟩, member, rfl⟩ := List.mem_map.mp h
  obtain ⟨e, member, same⟩ := List.mem_map.mp member
  obtain ⟨member, ended⟩ := List.mem_filter.mp member
  obtain ⟨⟨y, t⟩, entry, rfl⟩ := List.mem_map.mp member
  cases same
  exact ⟨t, AList.mem_lookup_iff.mpr entry, by simpa using ended⟩

/-- What holds of a pass between its snapshot and its `retain`. -/
private def PassOpen (parties : List Party) (φ : ℕ → Phase) (w : World) (ids inactive : List String) :
    Prop :=
  (∀ y ∈ inactive, Over parties φ w y) ∧
  ∀ y c, w.pendingAccepts.lookup y = some c → y ∈ ids ∨ (Over parties φ w y ∧ NotPending w y)

private theorem passOpen_of_snapshot (swept : Swept parties φ w) (books : Books parties φ w) :
    PassOpen parties φ w (pendingOf (statesOf w)) ((inactiveOf (statesOf w)).map Prod.fst) := by
  constructor
  · intro y member
    obtain ⟨t, found, ended⟩ := ended_of_mem_inactiveOf member
    exact swept.over_of_ended found ended
  · intro y c stored
    obtain ⟨⟨j, opened⟩, -⟩ := books.gates.stored stored
    have registered := books.registered_of_opened opened
    obtain ⟨t, found, pending, -⟩ | ⟨settled, ended⟩ :=
      swept.waits registered (books.gates.opener opened).1
    · exact .inl (mem_pendingOf_iff.mpr ⟨t, found, pending⟩)
    · exact .inr ⟨⟨j, registered, fun _ => .inl settled⟩, ended⟩

private theorem passOpen_step (books : Books parties φ w) (allowed : Timely i o x w)
    (done : exec i o x w = some (w', r)) (change : Change parties i (φ i) o r s) {k : ℕ}
    {ids inactive : List String} (here : openPass k w.journal = some ids ∨ o = .task .snapshot)
    (h : PassOpen parties φ w ids inactive) :
    PassOpen parties (Function.update φ i s) w' ids inactive := by
  obtain ⟨finished, seen⟩ := h
  refine ⟨fun y hy => over_step books done change (finished y hy), fun y c stored => ?_⟩
  obtain old | rfl := stored_inv done stored
  · obtain member | ⟨finished, ended⟩ := seen y c old
    · exact .inl member
    · obtain ⟨⟨j, opened⟩, -⟩ := books.gates.stored old
      refine .inr ⟨over_step books done change finished,
        notPending_step done change (fun t => ?_) ended⟩
      exact not_reinserted books allowed.1 change (books.registered_of_opened opened)
        (books.gates.opener opened).1
  · obtain here | wrong := here
    · exact .inl (allowed.2 k ids here)
    · cases wrong

/-- A pass is open because it was, or because its thread has just taken the snapshot. -/
theorem sweeping_inv (done : exec i o x w = some (w', r)) {q : Phase}
    {ids inactive : List String} (change : Change parties i q o r s)
    (phase : s = .sweeping ids inactive) :
    (q = .sweeping ids inactive ∧ o ≠ .task .snapshot ∧ ∀ ids, o ≠ .gate (.retain ids)) ∨
    (o = .task .snapshot ∧ ids = pendingOf (statesOf w) ∧
      inactive = (inactiveOf (statesOf w)).map Prod.fst) := by
  cases change with
  | stay calm =>
    refine .inl ⟨phase, ?_, ?_⟩
    · rintro rfl
      cases calm
    · rintro ids rfl
      cases calm
  | enlist | mark | emit | ensure => exact .inl ⟨phase, by simp, by simp⟩
  | @survey ticks q states loop resting =>
    obtain rfl : states = statesOf w := exec_task_answer done
    cases phase
    exact .inr ⟨rfl, rfl, rfl⟩
  | read role =>
    have undecided := undecided_afterRead _ _ |>.symm.trans (congrArg Phase.undecided phase)
    cases undecided
  | status role free =>
    have undecided := undecided_afterStatus free _ |>.symm.trans (congrArg Phase.undecided phase)
    cases undecided
  | contains role free =>
    split_ifs at phase
    rw [phase] at free
    cases free
  | @take z v taken q role free => cases taken <;> cases phase
  | update offer moved =>
    have moving := isMoving_afterUpdate moved
    rw [phase] at moving
    cases moving
  | list | note | again | «show» | register | wait | discard | send | retain => cases phase

theorem openPass_snapshot {r : TaskOp.snapshot.Resp}
    (done : exec i (.task .snapshot) x w = some (w', r)) :
    openPass i w'.journal = some (pendingOf (statesOf w)) := by
  obtain rfl : r = statesOf w := exec_task_answer done
  rw [exec_journal done, openPass, List.foldl_append]
  simp [history, taskHistory, sectionEvents, passStep]

private theorem sweeping_step (swept : Swept parties φ w) (books : Books parties φ w)
    (allowed : Timely i o x w) (done : exec i o x w = some (w', r))
    (change : Change parties i (φ i) o r s) {k : ℕ} {ids inactive : List String}
    (phase : Function.update φ i s k = .sweeping ids inactive) :
    openPass k w'.journal = some ids ∧
      PassOpen parties (Function.update φ i s) w' ids inactive := by
  have earlier (before : φ k = .sweeping ids inactive)
      (other : k ≠ i ∨ (o ≠ .task .snapshot ∧ ∀ ids, o ≠ .gate (.retain ids))) :
      openPass k w'.journal = some ids ∧
        PassOpen parties (Function.update φ i s) w' ids inactive := by
    obtain ⟨here, pass⟩ := swept.sweeping before
    exact ⟨(openPass_step done other).trans here,
      passOpen_step books allowed done change (.inl here) pass⟩
  by_cases hk : k = i
  · subst hk
    rw [Function.update_self] at phase
    obtain ⟨before, other⟩ | ⟨rfl, rfl, rfl⟩ := sweeping_inv done change phase
    · exact earlier before (.inr other)
    · exact ⟨openPass_snapshot done, passOpen_step (k := k) books allowed done change (.inr rfl)
        (passOpen_of_snapshot swept books)⟩
  · rw [Function.update_of_ne hk] at phase
    exact earlier phase (.inl hk)

private theorem marking_step (swept : Swept parties φ w) (books : Books parties φ w)
    (done : exec i o x w = some (w', r)) (change : Change parties i (φ i) o r s) {k : ℕ}
    {inactive : List String} (phase : Function.update φ i s k = .marking inactive)
    (member : y ∈ inactive) : Over parties (Function.update φ i s) w' y := by
  refine over_step books done change ?_
  by_cases hk : k = i
  · subst hk
    rw [Function.update_self] at phase
    have earlier (h : φ k = .marking inactive) : Over parties φ w y := swept.marking h y member
    have closing {ids : List String} (h : φ k = .sweeping ids inactive) : Over parties φ w y :=
      (swept.sweeping h).2.1 y member
    generalize φ k = q at change earlier closing
    cases change with
    | stay | enlist | mark | emit => exact earlier phase
    | retain =>
      cases phase
      exact closing rfl
    | read role =>
      have undecided := undecided_afterRead _ _ |>.symm.trans (congrArg Phase.undecided phase)
      cases undecided
    | status role free =>
      have undecided := undecided_afterStatus free _ |>.symm.trans (congrArg Phase.undecided phase)
      cases undecided
    | contains role free =>
      split_ifs at phase
      rw [phase] at free
      cases free
    | @take z v taken q role free => cases taken <;> cases phase
    | update offer moved =>
      have moving := isMoving_afterUpdate moved
      rw [phase] at moving
      cases moving
    | list | note | again | ensure | «show» | register | wait | discard | send | survey =>
      cases phase
  · rw [Function.update_of_ne hk] at phase
    exact swept.marking phase y member

private theorem dropped_step (swept : Swept parties φ w) (books : Books parties φ w)
    (done : exec i o x w = some (w', r)) (change : Change parties i (φ i) o r s) {j c : ℕ}
    (opened : Event.opened j y c ∈ w'.journal) (dropped : w'.channels[c]? = some .dropped) :
    Cancelled y w' := by
  refine cancelled_mono done ?_
  obtain opened | ⟨-, rfl⟩ := opened_inv done opened
  swap
  · have inside : w.channels.length < w.channels.length := by
      obtain old | ⟨empty, -⟩ := dropped_inv done dropped
      · exact (List.getElem?_eq_some_iff.mp old).1
      · exact (List.getElem?_eq_some_iff.mp empty).1
    exact absurd inside (lt_irrefl _)
  obtain old | ⟨empty, z, stored, cause⟩ := dropped_inv done dropped
  · exact swept.dropped opened old
  · obtain ⟨⟨j', opened'⟩, -⟩ := books.gates.stored stored
    obtain ⟨-, rfl⟩ := books.gates.chan opened opened'
    have finished : Over parties φ w y := by
      generalize before : φ i = q at change
      obtain rfl | rfl | ⟨ids, rfl, outside⟩ := cause
      · cases change with
        | stay calm => cases calm
        | register offer =>
          rw [books.gates.unstored books.registered offer before] at stored
          cases stored
      · cases change with
        | stay calm => cases calm
        | discard role => exact swept.expired role before
      · cases change with
        | stay calm => cases calm
        | retain =>
          obtain member | ⟨finished, -⟩ := (swept.sweeping before).2.2 y c stored
          · exact absurd member outside
          · exact finished
    exact cancelled_of_over books finished stored empty

private theorem refused_mono (done : exec i o x w = some (w', r)) {j : ℕ} (h : Refused j y w) :
    Refused j y w' := by
  obtain ⟨c, a, opened, observed, other⟩ := h
  exact ⟨c, a, mem_journal_mono done opened, mem_journal_mono done observed, other⟩

private theorem refused_step (swept : Swept parties φ w) (books : Books parties φ w)
    (done : exec i o x w = some (w', r)) (change : Change parties i (φ i) o r s)
    {f : IncomingOffer} (offer : parties[i]? = some (.offer f)) (phase : s = .settled false) :
    Refused i f.id w' := by
  have earlier (h : φ i = .settled false) : Refused i f.id w' :=
    refused_mono done (swept.refused offer h)
  have none_of_role {y n} (h : Decides parties i y n) : False := by
    obtain h | h := h <;> cases offer.symm.trans h
  generalize before : φ i = q at change earlier
  cases change with
  | stay | enlist | mark | emit => exact earlier phase
  | @wait f' c a offer' =>
    obtain ⟨y, opened⟩ := books.gates.waits before
    obtain ⟨⟨g, there, rfl⟩, -⟩ := books.gates.opener opened
    cases offer.symm.trans there
    refine ⟨c, a, mem_journal_mono done opened, ?_, ?_⟩
    · exact (mem_journal_iff done).mpr (.inr (by simp [history, gateHistory]))
    · rintro rfl
      cases phase
  | update offer' moved =>
    have moving := isMoving_afterUpdate moved
    rw [phase] at moving
    cases moving
  | read role => exact (none_of_role role).elim
  | status role free => exact (none_of_role role).elim
  | contains role free => exact (none_of_role role).elim
  | @take z v taken q role free => cases taken <;> cases phase
  | list | note | again | ensure | «show» | register | discard | send | survey | retain =>
    cases phase

private theorem rejected_step (swept : Swept parties φ w)
    (done : exec i o x w = some (w', r)) (change : Change parties i (φ i) o r s) {j : ℕ}
    (moved : Event.moved j y .rejected ∈ w'.journal) : Refused j y w' := by
  refine refused_mono done ?_
  obtain old | ⟨rfl, reason, rfl⟩ := origin_of_new done moved
  · exact swept.rejected old
  · generalize before : φ j = q at change
    cases change with
    | stay calm => cases calm
    | update offer after =>
      obtain rfl := afterUpdate_rejected after
      exact swept.refused offer before

private theorem swept_step (swept : Swept parties φ w) (books : Books parties φ w)
    (apart : Apart parties) (allowed : Timely i o x w) (done : exec i o x w = some (w', r))
    (moved : moves parties i (φ i) o r = some s) : Swept parties (Function.update φ i s) w' := by
  have change := change_of_moves moved
  constructor
  · intro y t found
    obtain ⟨t, old⟩ | ⟨t, rfl, rfl⟩ := known_inv done found
    · obtain ⟨k, registered⟩ := swept.known old
      exact ⟨k, mem_journal_mono done registered⟩
    · exact ⟨i, (mem_journal_iff done).mpr (.inr (by simp [history, taskHistory]))⟩
  · exact waits_step swept books apart allowed.1 done moved
  · exact noted_step swept books done change
  · intro k y n role phase
    by_cases hk : k = i
    · subst hk
      rw [Function.update_self] at phase
      exact expired_step swept books done change role phase
    · rw [Function.update_of_ne hk] at phase
      exact over_step books done change (swept.expired role phase)
  · exact sweeping_step swept books allowed done change
  · exact fun phase y member => marking_step swept books done change phase member
  · exact dropped_step swept books done change
  · intro j f offer phase
    by_cases hj : j = i
    · subst hj
      rw [Function.update_self] at phase
      exact refused_step swept books done change offer phase
    · rw [Function.update_of_ne hj] at phase
      exact refused_mono done (swept.refused offer phase)
  · exact rejected_step swept done change

section Run

variable {debug : DashMessage → String} {t : Pool Op Op.Resp World (Except String Unit)}

private theorem tracked_swept (start : AtStart w) (apart : Apart parties)
    (run : Run exec Timely (pool debug w parties) t) :
    ∃ φ, Tracked (moves parties) (mayReturn parties) φ t.threads ∧
      Books parties φ t.world ∧ Swept parties φ t.world := by
  refine Run.tracked run (fun φ w => Books parties φ w ∧ Swept parties φ w)
    (pool_tracked debug w parties) ⟨books_start parties start, ?_⟩ ?_
  · constructor <;> simp [pool, start.journal, start.transfers, start.notifications]
  · rintro φ i o x w w' r s ⟨books, swept⟩ allowed done moved
    exact ⟨books_step books allowed.1 done (change_of_moves moved),
      swept_step swept books apart allowed done moved⟩

private theorem cause_of_observed (books : Books parties φ w) (swept : Swept parties φ w)
    {j c : ℕ} {a : Wait Bool} (opened : Event.opened j y c ∈ w.journal)
    (observed : Event.observed j c a ∈ w.journal) (other : a ≠ .value true) :
    Cause parties y c a w := by
  have agree := books.gates.agree c
  have seen := mem_results.mpr observed
  generalize state : w.channels[c]? = ch at agree
  match ch, agree with
  | none, ⟨_, rs⟩ => simp [rs] at seen
  | some .empty, ⟨_, rs⟩ => simp [rs] at seen
  | some (.sent v), ⟨_, rs⟩ => simp [rs] at seen
  | some (.received v), ⟨⟨k, ds⟩, j', rs⟩ =>
    obtain ⟨-, rfl⟩ : j = j' ∧ a = .value v := by simpa [rs] using seen
    obtain rfl : v = false := by
      cases v with
      | false => rfl
      | true => exact absurd rfl other
    have sent : (k, false) ∈ decisions c w.journal := by simp [ds]
    obtain ⟨y', v, took, role, same⟩ := books.gates.used (books.gates.sender sent)
    obtain ⟨⟨j'', opened'⟩, -⟩ := books.gates.taken took
    obtain ⟨-, rfl⟩ := books.gates.chan opened opened'
    refine .inr (.inr ⟨rfl, k, mem_decisions.mp sent, ?_⟩)
    rw [ds] at same
    cases same
    obtain ⟨party, here, plays⟩ := role
    cases party with
    | reject z n =>
      cases plays
      exact .inl ⟨n, here⟩
    | cancel z hasHost =>
      cases plays
      exact .inr ⟨hasHost, here⟩
    | _ => cases plays
  | some .dropped, _ => exact .inr (.inl (swept.dropped opened state))
  | some .closed, ⟨_, j', rs⟩ =>
    obtain ⟨-, rfl⟩ : j = j' ∧ a = .timedOut := by simpa [rs] using seen
    exact .inl rfl

private theorem notPending_of_pass (swept : Swept parties φ w) {ticks c : ℕ}
    (loop : parties[i]? = some (.maintenance ticks)) (done : exec i o x w = some (w', r))
    (moved : moves parties i (φ i) o r = some s) (stored : w.pendingAccepts.lookup y = some c)
    (gone : w'.pendingAccepts.lookup y ≠ some c) : NotPending w y := by
  rw [exec_lookup_gate done, stored] at gone
  simp only [moves, loop, Option.bind_some] at moved
  cases o with
  | gate g =>
    cases g with
    | retain ids =>
      generalize before : φ i = q at moved
      cases q with
      | sweeping pending inactive =>
        simp only [Party.next, maintenanceNext, Phase.afterRetain] at moved
        split_ifs at moved with same
        subst same
        obtain member | ⟨-, ended⟩ := (swept.sweeping before).2.2 y c stored
        · exact absurd (if_pos (by simpa using member)) gone
        · exact ended
      | _ => cases moved
    | _ => cases moved
  | _ => exact absurd rfl gone

/-- In every run in which no sender is stored behind an open maintenance pass, an offer is
rejected only after it learnt something else than an acceptance, that has a cause outside the
loop, and the loop drops no sender of a transfer in `PendingAccept`. -/
theorem no_spontaneous_rejection (debug : DashMessage → String) (parties : List Party) (w : World)
    (start : AtStart w) (apart : Apart parties) {t : Pool Op Op.Resp World (Except String Unit)}
    (run : Run exec Timely (pool debug w parties) t) :
    (∀ j y, Event.moved j y .rejected ∈ t.world.journal → Refused j y t.world) ∧
    (∀ j y c a, Event.opened j y c ∈ t.world.journal → Event.observed j c a ∈ t.world.journal →
      a ≠ .value true → Cause parties y c a t.world) ∧
    ∀ i ticks u y c, parties[i]? = some (.maintenance ticks) → Step exec free i t u →
      t.world.pendingAccepts.lookup y = some c → u.world.pendingAccepts.lookup y ≠ some c →
      ∀ task, t.world.transfers.lookup y = some task → task.status ≠ .pendingAccept := by
  obtain ⟨φ, tracked, books, swept⟩ := tracked_swept start apart run
  refine ⟨fun j y => swept.rejected, fun j y c a => cause_of_observed books swept, ?_⟩
  intro i ticks u y c loop step stored gone
  cases step with
  | mk here allowed done =>
    obtain ⟨s, moved, -⟩ := tracked.step here _
    exact notPending_of_pass swept loop done moved stored gone

end Run

private def isPass : Event → Bool
  | .surveyed _ _ => true
  | _ => false

private theorem openPass_none {k : ℕ} {l : List Event} (h : l.all (fun e => !isPass e) = true) :
    openPass k l = none := by
  induction l using List.reverseRecOn with
  | nil => rfl
  | append_singleton l e ih =>
    simp only [List.all_append, Bool.and_eq_true] at h
    rw [openPass, List.foldl_append, List.foldl_cons, List.foldl_nil]
    have before : l.foldl (passStep k) none = none := ih h.1
    rw [before]
    cases e with
    | surveyed j ids => simp [isPass] at h
    | retained j => exact ite_self _
    | _ => rfl

/-- The loop takes its snapshot before the offer is registered and drops its sender after:
the offer is rejected without any cause. -/
theorem pass_rejects_new_offer :
    ∃ t, Run exec free
        (pool (fun _ => "") (sampleWorld ["bob"])
          [.offer (sampleOffer "t1" 0), .maintenance 1]) t ∧
      Event.moved 0 "t1" .rejected ∈ t.world.journal ∧
      ∀ c a, Event.observed 0 c a ∈ t.world.journal →
        ¬ Cause [.offer (sampleOffer "t1" 0), .maintenance 1] "t1" c a t.world := by
  obtain ⟨t, run, found⟩ := exists_run_of_play exec unchecked_sound
    (pool (fun _ => "") (sampleWorld ["bob"]) [.offer (sampleOffer "t1" 0), .maintenance 1])
    (stepsOf 1 99 [.unit] ++ stepsOf 0 100 promptReplies ++ stepsOf 1 100 [.unit] ++
      stepsOf 0 101 [.unit, .unit, .unit])
    (fun t => t.world.journal.contains (.moved 0 "t1" .rejected) &&
      t.world.journal.all fun e => match e with
        | .observed _ _ a => a == .senderGone
        | .cancelled _ _ _ _ | .sent _ _ _ => false
        | _ => true) (by decide)
  simp only [Bool.and_eq_true, List.contains_iff_mem, List.all_eq_true] at found
  refine ⟨t, run, found.1, fun c a observed cause => ?_⟩
  obtain rfl : a = .senderGone := by simpa using found.2 _ observed
  obtain wrong | ⟨k, status, conn, cancelled⟩ | ⟨wrong, -⟩ := cause
  · cases wrong
  · cases found.2 _ cancelled
  · cases wrong

/-- A pass that saw the offer keeps its sender, and the rejection comes from the user. -/
theorem rejection_has_cause :
    ∃ t, Run exec Timely
        (pool (fun _ => "") (sampleWorld ["bob"])
          [.offer (sampleOffer "t1" 0), .maintenance 1, .reject "t1" 0]) t ∧
      Event.moved 0 "t1" .rejected ∈ t.world.journal ∧
      ∃ c a, Event.observed 0 c a ∈ t.world.journal ∧
        Cause [.offer (sampleOffer "t1" 0), .maintenance 1, .reject "t1" 0] "t1" c a t.world := by
  let check (i : ℕ) (o : Op) (_ : Ans) (w : World) : Bool :=
    freshCheck i o w && match o with
      | .gate (.register _) => w.journal.all fun e => !isPass e
      | _ => true
  have sound (i : ℕ) (o : Op) (x : Ans) (w : World) (h : check i o x w = true) :
      Timely i o x w := by
    obtain ⟨fresh, quiet⟩ := Bool.and_eq_true_iff.mp h
    refine ⟨fresh_of_freshCheck fresh, ?_⟩
    cases o with
    | gate g =>
      cases g with
      | register y =>
        intro k ids wrong
        rw [openPass_none quiet] at wrong
        cases wrong
      | _ => trivial
    | _ => trivial
  obtain ⟨t, run, found⟩ := exists_run_of_play exec sound
    (pool (fun _ => "") (sampleWorld ["bob"])
      [.offer (sampleOffer "t1" 0), .maintenance 1, .reject "t1" 0])
    (stepsOf 0 100 promptReplies ++ stepsOf 1 105 [.unit, .unit, .unit] ++
      stepsOf 2 110 [.unit, .unit, .unit, .unit, .unit] ++ stepsOf 0 111 [.unit, .unit, .unit])
    (fun t => t.world.journal.contains (.moved 0 "t1" .rejected)) (by decide)
  have moved := List.contains_iff_mem.mp found
  obtain ⟨refused, caused, -⟩ := no_spontaneous_rejection (fun _ => "") _ (sampleWorld ["bob"])
    ⟨rfl, rfl, rfl, rfl, rfl⟩ (by simp [Apart]) run
  obtain ⟨c, a, opened, observed, other⟩ := refused 0 "t1" moved
  exact ⟨t, run, moved, c, a, observed, caused 0 "t1" c a opened observed other⟩

end DashDrop.Receiving.Maintenance
