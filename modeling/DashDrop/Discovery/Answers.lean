/- GID: DashDrop/Discovery/Answers
   source: src-tauri/src/discovery/browser.rs, src-tauri/src/discovery/beacon.rs,
     src-tauri/src/core_service.rs
   anchors: []
   digest: The answer of the trust list that a discovery update carries to its write. -/

import DashDrop.Discovery.Sessions

set_option autoImplicit false
set_option relaxedAutoImplicit false

namespace DashDrop.Discovery.Answers

open DashDrop.Foundation.Program DashDrop.Foundation.Interleaving DashDrop.Foundation.Discipline
open DashDrop.Discovery.Devices DashDrop.Discovery.Jobs DashDrop.Discovery.Sessions

/-- What was asked of the trust list and answered, and is not yet written to the device. -/
abbrev Answer := Option (String × Bool)

def carrying : Automaton DiscoveryOp DiscoveryOp.Resp Answer := fun c o r =>
  match o, r with
  | .isTrusted fp, trusted => if c = none then some (some (fp, trusted)) else none
  | .now, _ => some c
  | .announce fp a, _ => if c = some (fp, a.trusted) then some none else none
  | .connectDevice fp _ trusted, _ => if c = some (fp, trusted) then some none else none
  | _, _ => if c = none then some none else none

def Carries (c : Answer) (x : Code Unit) : Prop := Obeys carrying c x fun c _ => c = none

/-- The answer that a task carries, read off what it does next; the clock may come before. -/
def carried : Code Unit → Answer
  | .op (.announce fp a) _ => some (fp, a.trusted)
  | .op (.connectDevice fp _ trusted) _ => some (fp, trusted)
  | .op .now k => carried (k (0 : ℕ))
  | _ => none

theorem Carries.carried_eq {c : Answer} {x : Code Unit} (h : Carries c x) : carried x = c := by
  induction x generalizing c with
  | pure a => exact Eq.symm h
  | op o k ih =>
    cases o with
    | now =>
      obtain ⟨c', moved, rest⟩ := h (0 : ℕ)
      cases moved
      exact ih (0 : ℕ) rest
    | announce fp a =>
      obtain ⟨c', moved, -⟩ := h (true, announcedDevice fp a)
      simp only [carrying] at moved
      split_ifs at moved with same
      exact same.symm
    | connectDevice fp addr trusted =>
      obtain ⟨c', moved, -⟩ := h (true, manualDevice fp addr trusted 0)
      simp only [carrying] at moved
      split_ifs at moved with same
      exact same.symm
    | _ =>
      obtain ⟨r⟩ := nonempty_resp _
      obtain ⟨c', moved, -⟩ := h r
      simp only [carrying] at moved
      split_ifs at moved with same
      exact same.symm

theorem carrying_single {o : DiscoveryOp} (h : single o = true) (r : o.Resp) :
    carrying none o r = some none := by
  cases o <;> simp_all [single, carrying]

theorem singles_carry {α : Type} {x : Code α} (h : Singles x) :
    Obeys carrying none x fun c _ => c = none :=
  (Obeys.stay h fun _ one r => carrying_single one r).mono fun _ _ ends => ends.1

theorem carries_op {c : Answer} {o : DiscoveryOp} {k : o.Resp → Code Unit}
    (rest : ∀ r, ∃ c', carrying c o r = some c' ∧ Carries c' (k r)) : Carries c (.op o k) := rest

theorem carries_plain {o : DiscoveryOp} {k : o.Resp → Code Unit}
    (plain : ∀ r, carrying none o r = some none) (rest : ∀ r, Carries none (k r)) :
    Carries none (.op o k) :=
  carries_op fun r => ⟨none, plain r, rest r⟩

theorem enterDevice_carries (fp : String) {announcement : Bool → ℕ → Announcement}
    (same : ∀ trusted nowUnix, (announcement trusted nowUnix).trusted = trusted)
    (fullname : Option String) : Carries none (enterDevice fp announcement fullname) := by
  apply carries_op
  intro trusted
  refine ⟨some (fp, trusted), rfl, carries_op fun nowUnix => ?_⟩
  refine ⟨some (fp, trusted), rfl, carries_op ?_⟩
  rintro ⟨isNew, device⟩
  refine ⟨none, by simp [carrying, same], ?_⟩
  apply carries_plain (fun _ => rfl)
  intro _
  exact singles_carry (singles_op rfl fun _ => singles_op rfl fun _ => singles_ask rfl)

theorem enterResolved_carries (info : ServiceInfo) (fp : String) (addrs : List SocketAddr) :
    Carries none (enterResolved info fp addrs) := by
  unfold enterResolved
  dsimp only
  split_ifs
  · exact carries_plain (fun _ => rfl) fun _ => enterDevice_carries fp (fun _ _ => rfl) _
  · exact enterDevice_carries fp (fun _ _ => rfl) _

theorem handleResolved_carries (ownFp : String) (info : ServiceInfo) :
    Carries none (handleResolved ownFp info) := by
  unfold handleResolved
  split
  · exact singles_carry (singles_ask rfl)
  · split_ifs
    · exact singles_carry (singles_ask rfl)
    · exact singles_carry (singles_ask rfl)
    · dsimp only
      split_ifs
      · refine (singles_carry (resolveAddrs_singles _ _)).bind ?_
        rintro c found rfl
        exact enterResolved_carries info _ found
      · exact enterResolved_carries info _ _

theorem receiveBeacon_carries (ownFp : String) (packet : BeaconPacket) (source : IpAddr) :
    Carries none (receiveBeacon ownFp packet source) := by
  unfold receiveBeacon
  dsimp only
  split_ifs
  · exact singles_carry (singles_pure _)
  · exact singles_carry (singles_ask rfl)
  · exact singles_carry (singles_ask rfl)
  · exact carries_plain (fun _ => rfl) fun _ => enterDevice_carries _ (fun _ _ => rfl) _

theorem enterConnected_carries (fp : String) (addr : SocketAddr) :
    Carries none ((enterConnected fp addr).bind fun _ => .pure ()) := by
  apply carries_op
  intro trusted
  refine ⟨some (fp, trusted), rfl, carries_op ?_⟩
  rintro ⟨isNew, device⟩
  refine ⟨none, by simp [carrying], ?_⟩
  exact singles_carry (singles_op rfl fun _ => singles_pure _)

theorem offlineTurn_carries : Carries none offlineTurn := by
  apply carries_plain (fun _ => rfl)
  intro nowUnix
  apply carries_plain (fun _ => rfl)
  intro pruned
  simp only [ret_bind]
  split_ifs
  · exact carries_plain (fun _ => rfl) fun _ => singles_carry (tellPruned_singles pruned)
  · exact singles_carry (tellPruned_singles pruned)

theorem pairDevice_carries (fp : String) : Carries none (Job.prog (.pair fp)) := by
  apply carries_plain (fun _ => rfl)
  intro name
  apply carries_plain (fun _ => rfl)
  intro _
  apply carries_plain (fun _ => rfl)
  intro saved
  cases saved with
  | error e => exact singles_carry (singles_pure _)
  | ok _ => exact singles_carry (singles_op rfl fun _ => singles_op rfl fun _ => singles_pure _)

theorem unpairDevice_carries (fp : String) : Carries none (Job.prog (.unpair fp)) := by
  apply carries_plain (fun _ => rfl)
  intro found
  cases found with
  | false => exact singles_carry (singles_pure _)
  | true =>
    apply carries_plain (fun _ => rfl)
    intro _
    apply carries_plain (fun _ => rfl)
    intro saved
    cases saved with
    | error e => exact singles_carry (singles_pure _)
    | ok _ => exact singles_carry (singles_op rfl fun _ => singles_pure _)

theorem job_carries (job : Job) : Carries none job.prog := by
  cases job with
  | resolved ownFp info => exact handleResolved_carries ownFp info
  | beacon ownFp packet source => exact receiveBeacon_carries ownFp packet source
  | removed fullname => exact singles_carry (handleRemoved_singles fullname)
  | offlinePass => exact offlineTurn_carries
  | connect address =>
    exact connectByAddress_obeys address singles_carry (fun _ => rfl) enterConnected_carries
  | pair fp => exact pairDevice_carries fp
  | unpair fp => exact unpairDevice_carries fp
  | probe fp addrs => exact singles_carry (spawnedProbe_singles fp addrs)
  | deferredRemoval fp sessionId observedLastSeen =>
    exact singles_carry (runDeferredRemoval_singles fp sessionId observedLastSeen)

/-- Every task carries at most one answer, and what it writes is that answer. -/
def Carrying (s : Session) : Prop := ∀ x ∈ s.threads, Carries (carried x) x

theorem carrying_boot (trustedPeers : Trust.Storage.PeerMap) : Carrying (boot trustedPeers) := by
  intro x inside
  cases inside

/-- The answers that the tasks carry after a step: those of before, but for the task that moved. -/
theorem carrying_advance {s t : Session} (h : Carrying s) {e : Event}
    (next : advance s e = some t) :
    Carrying t ∧
      ((t.world.trustedPeers = s.world.trustedPeers ∧
          ∀ x ∈ t.threads, x ∈ s.threads ∨ carried x = none) ∨
        ∃ i x o r c, e = .step i x ∧ operation s i = some o ∧ c ∈ s.threads.map carried ∧
          exec i o x s.world = some (t.world, r) ∧
          ∀ y ∈ t.threads, y ∈ s.threads ∨ carrying c o r = some (carried y)) := by
  obtain ⟨spawned, job, rfl⟩ | ⟨i, x, o, k, w, r, rfl, here, done, rfl⟩ := advance_cases next
  · have fresh := (job_carries job).carried_eq
    refine ⟨?_, .inl ⟨rfl, ?_⟩⟩
    · intro y inside
      obtain old | new := List.mem_append.mp inside
      · exact h y old
      · obtain rfl := List.mem_singleton.mp new
        rw [fresh]
        exact job_carries job
    · intro y inside
      obtain old | new := List.mem_append.mp inside
      · exact .inl old
      · obtain rfl := List.mem_singleton.mp new
        exact .inr fresh
  · have before := h _ (List.mem_of_getElem? here)
    obtain ⟨c, moved, rest⟩ := before r
    have after : carried (k r) = c := Carries.carried_eq rest
    refine ⟨?_, .inr ⟨i, x, o, r, carried (.op o k), rfl, by simp [operation, here, next?],
      List.mem_map.mpr ⟨_, List.mem_of_getElem? here, rfl⟩, done, ?_⟩⟩
    · intro y inside
      rcases List.mem_or_eq_of_mem_set inside with old | rfl
      · exact h y old
      · rw [after]
        exact rest
    · intro y inside
      rcases List.mem_or_eq_of_mem_set inside with old | rfl
      · exact .inl old
      · right
        rw [after]
        exact moved

end DashDrop.Discovery.Answers
