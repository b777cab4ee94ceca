/- GID: DashDrop/Sending/PeerBinding
   source: src-tauri/src/core_service.rs
   anchors: []
   digest: Offers and chunks reach only the selected peer, if the reconnect does. -/

import DashDrop.Runtime.Effects
import DashDrop.Runtime.Footprint

set_option autoImplicit false
set_option relaxedAutoImplicit false

namespace DashDrop.Sending.PeerBinding

open DashDrop.Foundation.Program DashDrop.Foundation.Interleaving
open DashDrop.Transport.Protocol DashDrop.Transport.Sender
open DashDrop.Runtime.State DashDrop.Runtime.Machine DashDrop.Runtime.Effects
open DashDrop.Runtime.Footprint DashDrop.Runtime.Supervisor DashDrop.CoreService

/-- The fingerprint of the certificate presented on a connection. -/
def certificate (w : World) (c : ℕ) : Option String := (w.conns[c]?).bind Connection.peerFp

/-- Thread `i` has written offers and chunks only to peers with this certificate. -/
def Bound (i : ℕ) (fp : String) (w : World) : Prop :=
  ∀ c id m, Event.wrote i c id m ∈ w.journal → m.isOfferOrChunk = true →
    certificate w c = some fp

/-- A dial of thread `i` after its first connection is answered by the selected peer. -/
def RetryMeetsPeer (i : ℕ) (fp : String) : Guard Op World Ans := fun j o x w =>
  ∀ addr answered, j = i → o = .net (.dial addr) → x.reply = .dialled answered →
    (∃ c, Event.connected i c ∈ w.journal) → answered = some fp

variable (i : ℕ) (fp : String)

def Keeps (w w' : World) : Prop :=
  (∀ c f, certificate w c = some f → certificate w' c = some f) ∧
  (∀ e ∈ w.journal, e ∈ w'.journal) ∧
  ∀ c id m, Event.wrote i c id m ∈ w'.journal → m.isOfferOrChunk = true →
    Event.wrote i c id m ∈ w.journal ∨ certificate w' c = some fp

variable {i fp}

private theorem certificate_kept {j : ℕ} {o : Op} {x : Ans} {w w' : World} {r : o.Resp}
    (done : exec j o x w = some (w', r)) {c : ℕ} {f : String}
    (h : certificate w c = some f) : certificate w' c = some f := by
  obtain ⟨k, found, shown⟩ := Option.bind_eq_some_iff.mp h
  obtain ⟨k', found', same, -⟩ := exec_conns done found
  exact Option.bind_eq_some_iff.mpr ⟨k', found', same.trans shown⟩

private theorem keeps_of_exec {j : ℕ} {o : Op} {x : Ans} {w w' : World} {r : o.Resp}
    (done : exec j o x w = some (w', r))
    (safe : j = i → ∀ c id m, o = .net (.write c id m) → m.isOfferOrChunk = true →
      certificate w c = some fp) : Keeps i fp w w' := by
  refine ⟨fun c f h => certificate_kept done h, fun e he => mem_journal_mono done he, ?_⟩
  intro c id m wrote carries
  obtain old | ⟨same, rfl⟩ := origin_of_new done wrote
  · exact .inl old
  · exact .inr (certificate_kept done (safe same.symm c id m rfl carries))

section Thread

variable {α : Type}

private def Lasting (i : ℕ) (fp : String) (P : World → Prop) : Prop :=
  ∀ w w', P w → Keeps i fp w w' → P w'

private theorem Lasting.stable {P : World → Prop} (h : Lasting i fp P) (k : ℕ) :
    Stable (fun _ => Keeps i fp) k P :=
  fun w w' hw ⟨_, _, kept⟩ => h w w' hw kept

private abbrev Ensures (i : ℕ) (fp : String) (P : World → Prop) (x : Code α)
    (Q : α → World → Prop) : Prop :=
  Triple exec (RetryMeetsPeer i fp) (fun _ => Keeps i fp) i P x Q

private theorem quiet_op {P : World → Prop} {Q : α → World → Prop} {o : Op}
    {k : o.Resp → Code α} (lasting : Lasting i fp P)
    (quiet : ∀ c id m, o = .net (.write c id m) → m.isOfferOrChunk = false)
    (rest : ∀ r, Ensures i fp P (k r) Q) : Ensures i fp P (.op o k) Q := by
  refine Triple.op (fun _ => P) (lasting.stable i) ?_ rest
  intro x w w' r hw _ done
  have kept : Keeps i fp w w' := keeps_of_exec done fun _ c id m written carries => by
    simp [quiet c id m written] at carries
  exact ⟨kept, lasting w w' hw kept⟩

/-- Thread `i` holds a connection to the selected peer and has dialled before. -/
private def Ready (i : ℕ) (fp : String) (c : ℕ) (w : World) : Prop :=
  certificate w c = some fp ∧ ∃ c', Event.connected i c' ∈ w.journal

private theorem ready_lasting (c : ℕ) : Lasting i fp (Ready i fp c) :=
  fun _ _ ⟨shown, c', dialled⟩ kept => ⟨kept.1 c fp shown, c', kept.2.1 _ dialled⟩

private theorem dialled_lasting : Lasting i fp fun w => ∃ c, Event.connected i c ∈ w.journal :=
  fun _ _ ⟨c, dialled⟩ kept => ⟨c, kept.2.1 _ dialled⟩

private theorem ready_within {c : ℕ} {x : Code α} {p : Op → Prop}
    (within : x.Within p anything)
    (own : ∀ c' id m, p (.net (.write c' id m)) → c' = c) :
    Ensures i fp (Ready i fp c) x fun _ => Ready i fp c := by
  refine (Triple.of_within ((ready_lasting c).stable i) within ?_).conseq (fun _ h => h)
    fun _ _ h => h.2
  intro o y w w' r ho hw _ done
  have kept : Keeps i fp w w' := keeps_of_exec done fun _ c' id m written _ => by
    subst written
    rw [own c' id m ho]
    exact hw.1
  exact ⟨kept, ready_lasting c w w' hw kept⟩

private theorem transportSendFiles_ensures (debug : DashMessage → String) (r : SendRequest)
    (c : ℕ) (steps : List StreamStep) :
    Ensures i fp (Ready i fp c) (transportSendFiles debug r c steps) fun _ => Ready i fp c := by
  refine quiet_op (ready_lasting c) (by simp) fun built => ?_
  simp only [ret_bind]
  split
  · exact Triple.pure ((ready_lasting c).stable i) fun _ h => h
  · exact Triple.pure ((ready_lasting c).stable i) fun _ h => h
  · refine quiet_op (ready_lasting c) (by simp) fun _ => ?_
    refine quiet_op (ready_lasting c) (by simp) fun _ => ?_
    refine quiet_op (ready_lasting c) (by simp) fun _ => ?_
    exact ready_within (offerFiles_within debug c r _ _ steps) fun _ _ _ h => conn_of_attemptOps h

private def Reached {ε : Type} (P : World → Prop) (Found : ℕ → World → Prop) :
    Except ε ℕ → World → Prop
  | .ok c => Found c
  | .error _ => P

private theorem connectFirst_ensures {P : World → Prop} {Found : ℕ → World → Prop}
    (lasting : Lasting i fp P) (foundLasting : ∀ c, Lasting i fp (Found c))
    (found : ∀ addr x w w' c, P w → RetryMeetsPeer i fp i (.net (.dial addr)) x w →
      exec i (.net (.dial addr)) x w = some (w', .ok c) → Found c w')
    (addrs errors : List String) :
    Ensures i fp P (connectFirst addrs errors) (Reached P Found) := by
  induction addrs generalizing errors with
  | nil => exact Triple.pure (lasting.stable i) fun w hw => hw
  | cons addr rest ih =>
    refine Triple.op (Reached P Found) (lasting.stable i) ?_ fun r => ?_
    · intro x w w' r hw allowed done
      have kept : Keeps i fp w w' := keeps_of_exec done (by simp)
      refine ⟨kept, ?_⟩
      cases r with
      | ok c => exact found addr x w w' c hw allowed done
      | error e => exact lasting w w' hw kept
    · cases r with
      | ok c => exact Triple.pure ((foundLasting c).stable i) fun w hw => hw
      | error e => exact ih _

private theorem dialled_inv {addr : String} {x : Ans} {w w' : World} {c : ℕ}
    (done : exec i (.net (.dial addr)) x w = some (w', .ok c)) :
    Event.connected i c ∈ w'.journal ∧
      ∃ answered, x.reply = .dialled answered ∧ certificate w' c = answered := by
  refine ⟨(mem_journal_iff done).mpr (.inr (List.mem_singleton_self _)), ?_⟩
  obtain ⟨w₁, ran, same⟩ := exec_inv done
  have kept : w'.conns = w₁.conns := by rw [same, log]
  simp only [certificate, kept]
  simp only [execOp, execNet] at ran
  split at ran
  · rename_i answered reply
    cases ran
    exact ⟨answered, reply, by simp⟩
  · cases ran
  · cases ran

private theorem reconnect_ensures (peerFp : String) (c : ℕ) :
    Ensures i fp (Ready i fp c) (reconnectToPeerByBestAddrs peerFp)
      (Reached (Ready i fp c) (Ready i fp)) := by
  refine quiet_op (ready_lasting c) (by simp) fun best => ?_
  simp only [ret_bind]
  split
  · exact Triple.pure ((ready_lasting c).stable i) fun _ h => h
  · exact Triple.pure ((ready_lasting c).stable i) fun _ h => h
  · rename_i addrs
    refine Triple.bind (connectFirst_ensures (ready_lasting c) ready_lasting ?_ addrs []) ?_
    · intro addr x w w' d hw allowed done
      obtain ⟨here, answered, reply, shown⟩ := dialled_inv done
      have peer := allowed addr answered rfl rfl reply hw.2
      exact ⟨shown.trans peer, d, here⟩
    · intro result
      cases result with
      | ok d => exact Triple.pure ((ready_lasting d).stable i) fun _ h => h
      | error errors =>
        cases errors <;> exact Triple.pure ((ready_lasting c).stable i) fun _ h => h

private theorem giveUp_ensures {P : World → Prop} (lasting : Lasting i fp P)
    (id detail : String) :
    Ensures i fp P (giveUp id detail) fun _ _ => True := by
  refine (Triple.of_within (lasting.stable i) (giveUp_within id detail) ?_).conseq
    (fun _ h => h) fun _ _ _ => trivial
  intro o y w w' r ho hw _ done
  have kept : Keeps i fp w w' := keeps_of_exec done fun _ c id m written _ => by
    subst written
    exact ho.elim
  exact ⟨kept, lasting w w' hw kept⟩

private theorem sendTask_ensures (debug : DashMessage → String) (r : SendRequest) (c : ℕ)
    (steps retrySteps : List StreamStep) :
    Ensures i fp (Ready i fp c) (sendTask debug r c steps retrySteps) fun _ _ => True := by
  refine Triple.bind (transportSendFiles_ensures debug r c steps) fun first => ?_
  cases first with
  | ok _ => exact Triple.pure ((ready_lasting c).stable i) fun _ _ => trivial
  | error detail =>
    simp only
    split_ifs
    · refine Triple.bind (reconnect_ensures r.peerFp c) fun again => ?_
      cases again with
      | error _ => exact giveUp_ensures (ready_lasting c) _ _
      | ok d =>
        refine Triple.bind (transportSendFiles_ensures debug r d retrySteps) fun second => ?_
        cases second with
        | ok _ => exact Triple.pure ((ready_lasting d).stable i) fun _ _ => trivial
        | error _ => exact giveUp_ensures (ready_lasting d) _ _
    · exact giveUp_ensures (ready_lasting c) _ _

private theorem verifyAndSend_ensures (debug : DashMessage → String) (r : SendRequest) (c : ℕ)
    (steps retrySteps : List StreamStep) :
    Ensures i r.peerFp (fun w => ∃ c, Event.connected i c ∈ w.journal)
      (verifyAndSend debug r c steps retrySteps) fun _ _ => True := by
  refine Triple.op (fun answer w => (∃ c, Event.connected i c ∈ w.journal) ∧
    ∀ f, answer = .ok f → certificate w c = some f) (dialled_lasting.stable i) ?_ ?_
  · intro x w w' answer hw _ done
    have kept : Keeps i r.peerFp w w' := keeps_of_exec done (by simp)
    refine ⟨kept, dialled_lasting w w' hw kept, ?_⟩
    rintro f rfl
    obtain ⟨w₁, ran, -⟩ := exec_inv done
    simp only [execOp, execNet] at ran
    split at ran
    · rename_i shown
      cases ran
      exact kept.1 c _ shown
    · cases ran
  · intro answer
    cases answer with
    | error cause =>
      exact (Triple.pure (dialled_lasting.stable i) fun _ _ => trivial).conseq
        (fun _ h => h.1) fun _ _ h => h
    | ok actualFp =>
      by_cases same : r.peerFp = actualFp
      · subst same
        refine Triple.conseq (P := Ready i r.peerFp c) ?_ (fun w h => ⟨h.2 _ rfl, h.1⟩)
          fun _ _ h => h
        simp only [ret_bind, ne_eq, not_true_eq_false, if_false]
        split_ifs
        · exact Triple.pure ((ready_lasting c).stable i) fun _ _ => trivial
        · refine Triple.bind (sendTask_ensures debug r c steps retrySteps) fun _ => ?_
          exact Triple.pure (fun _ _ _ _ => trivial) fun _ _ => trivial
      · refine Triple.conseq ?_ (fun w h => h.1) fun _ _ h => h
        simp only [ret_bind, ne_eq, same, not_false_eq_true, if_true]
        refine quiet_op dialled_lasting (by simp) fun _ => ?_
        simp only [ret_bind]
        split_ifs
        · refine quiet_op dialled_lasting (by simp) fun _ => ?_
          exact Triple.pure (dialled_lasting.stable i) fun _ _ => trivial
        · exact Triple.pure (dialled_lasting.stable i) fun _ _ => trivial

private theorem sendFiles_ensures (debug : DashMessage → String) (r : SendRequest)
    (steps retrySteps : List StreamStep) :
    Ensures i r.peerFp (fun _ => True) (sendFiles debug r steps retrySteps) fun _ _ => True := by
  have always : Lasting i r.peerFp fun _ => True := fun _ _ _ _ => trivial
  have done {e : Except String Unit} :
      Ensures i r.peerFp (fun _ => True) (.pure e) fun _ _ => True :=
    Triple.pure (always.stable i) fun _ _ => trivial
  refine quiet_op always (by simp) fun level => ?_
  simp only [ret_bind]
  split
  · exact quiet_op always (by simp) fun _ => done
  · refine quiet_op always (by simp) fun best => ?_
    simp only [ret_bind]
    split
    · exact done
    · exact done
    · rename_i addrs
      refine quiet_op always (by simp) fun missing => ?_
      simp only [ret_bind]
      split
      · exact done
      · refine Triple.bind (connectFirst_ensures always (fun _ => dialled_lasting) ?_ addrs [])
          fun found => ?_
        · intro addr x w w' c _ _ answered
          exact ⟨c, (dialled_inv answered).1⟩
        · cases found with
          | error errors => exact done
          | ok c => exact verifyAndSend_ensures debug r c steps retrySteps

end Thread

/-- In every run in which the reconnect is answered by the selected peer, a send writes its
offers and chunks only on connections with that peer's certificate. -/
theorem send_bound_to_peer (debug : DashMessage → String) (parties : List Party) (w : World)
    (fresh : w.journal = []) (r : SendRequest) (steps retrySteps : List StreamStep)
    (sender : parties[i]? = some (.send r steps retrySteps))
    {t : Pool Op Op.Resp World (Except String Unit)}
    (run : Run exec (RetryMeetsPeer i r.peerFp) (pool debug w parties) t) :
    Bound i r.peerFp t.world := by
  have start : ∀ j x, (pool debug w parties).threads[j]? = some x →
      Safe exec (RetryMeetsPeer i r.peerFp) (fun _ => Keeps i r.peerFp) j x
        (fun _ _ => True) w := by
    intro j x hx
    obtain ⟨party, hparty, rfl⟩ := pool_thread hx
    by_cases hj : j = i
    · subst hj
      obtain rfl := Option.some.inj (hparty.symm.trans sender)
      exact sendFiles_ensures debug r steps retrySteps w trivial
    · have anyStep : Triple exec (RetryMeetsPeer i r.peerFp) (fun _ => Keeps i r.peerFp) j
          (fun _ => True) (party.prog debug) fun _ _ => True ∧ True :=
        Triple.of_within (fun _ _ _ _ => trivial) (within_trivial (party.prog debug))
          fun o y w w' r _ _ _ done => ⟨keeps_of_exec done fun same => absurd same hj, trivial⟩
      exact (anyStep w trivial).conseq fun _ _ _ => trivial
  refine run.promised_invariant (Q := fun _ _ _ => True) start (Bound i r.peerFp) ?_ ?_
  · intro c id m wrote
    simp [pool, fresh] at wrote
  · intro _ w w' bound kept c id m wrote carries
    obtain old | here := kept.2.2 c id m wrote carries
    · exact kept.1 c _ (bound c id m old carries)
    · exact here

/-- The first connection breaks during the Hello; `answered` is at the other end of the
reconnect. -/
def retryReplies (answered : String) : List Reply :=
  [.unit, .addrs (some (some ["192.0.2.1:4000"])), .text none, .dialled (some "alice"), .unit,
    .items (.ok [(sampleItem, "/tmp/a.txt")]), .unit, .text none, .unit, .fail "connection lost",
    .addrs (some (some ["192.0.2.1:4000"])), .dialled (some answered),
    .items (.ok [(sampleItem, "/tmp/a.txt")]), .unit, .text none, .unit, .unit, .unit,
    .message (.hello ⟨0, [1]⟩), .unit, .unit]

/-- An offer or a chunk was written to a connection of someone else. -/
private def stray (w : World) : Bool := w.journal.any fun e =>
  match e with
  | .wrote 0 c _ m => m.isOfferOrChunk && certificate w c != some "alice"
  | _ => false

/-- The offer is written on a connection with another certificate. -/
theorem retry_offers_to_impostor :
    ∃ t, Run exec free (pool (fun _ => "") (.start .standard) [.send sampleRequest [] []]) t ∧
      ¬ Bound 0 "alice" t.world := by
  obtain ⟨t, run, found⟩ := exists_run_of_play exec unchecked_sound
    (pool (fun _ => "") (.start .standard) [.send sampleRequest [] []])
    (stepsOf 0 100 (retryReplies "mallory")) (fun t => stray t.world) (by decide)
  refine ⟨t, run, fun bound => ?_⟩
  obtain ⟨e, here, bad⟩ := List.any_eq_true.mp found
  split at bad
  · rename_i c id m
    simp only [Bool.and_eq_true, bne_iff_ne, ne_eq] at bad
    exact bad.2 (bound c id m here bad.1)
  · cases bad

/-- The reconnect reaches the selected peer, if it reaches anyone. -/
private def peerCheck (j : ℕ) (o : Op) (x : Ans) (_ : World) : Bool :=
  match j, o, x.reply with
  | 0, .net (.dial _), .dialled answered => answered == some "alice"
  | _, _, _ => true

private theorem retryMeetsPeer_of_check (j : ℕ) (o : Op) (x : Ans) (w : World)
    (h : peerCheck j o x w = true) : RetryMeetsPeer 0 "alice" j o x w := by
  rintro addr answered rfl rfl reply -
  simpa [peerCheck, reply] using h

private def offered (w : World) : Bool := w.journal.any fun e =>
  match e with
  | .wrote 0 1 _ m => m.isOfferOrChunk
  | _ => false

theorem retry_offers_to_peer :
    ∃ t, Run exec (RetryMeetsPeer 0 "alice")
        (pool (fun _ => "") (.start .standard) [.send sampleRequest [] []]) t ∧
      (∃ id m, Event.wrote 0 1 id m ∈ t.world.journal ∧ m.isOfferOrChunk = true) ∧
      Bound 0 "alice" t.world := by
  obtain ⟨t, run, found⟩ := exists_run_of_play exec retryMeetsPeer_of_check
    (pool (fun _ => "") (.start .standard) [.send sampleRequest [] []])
    (stepsOf 0 100 (retryReplies "alice")) (fun t => offered t.world) (by decide)
  refine ⟨t, run, ?_, send_bound_to_peer (fun _ => "") [.send sampleRequest [] []] _ rfl
    sampleRequest [] [] rfl run⟩
  obtain ⟨e, here, carries⟩ := List.any_eq_true.mp found
  split at carries
  · rename_i id m
    exact ⟨id, m, here, carries⟩
  · cases carries

end DashDrop.Sending.PeerBinding
