/- GID: DashDrop/Trust/Sessions
   source: src-tauri/src/core_service.rs, src-tauri/src/pairing.rs,
     src-tauri/src/runtime/bootstrap.rs
   anchors: []
   digest: Requests on trusted peers that come at any time, over any number of restarts. -/

import DashDrop.Foundation.Transitions
import DashDrop.Trust.Migration

set_option autoImplicit false
set_option relaxedAutoImplicit false

namespace DashDrop.Trust.Sessions

open DashDrop.Foundation.Program DashDrop.Foundation.Interleaving DashDrop.Foundation.Discipline
open DashDrop.Runtime.State (TrustLevel AppConfig)
open DashDrop.Trust.Peers DashDrop.Trust.Storage DashDrop.Trust.Persistence DashDrop.Trust.Migration

/-- The process with the operations that it has begun. -/
abbrev Session := Pool TrustOp TrustOp.Resp World (Except String Unit)

def Session.add (s : Session) (x : Code (Except String Unit)) : Session :=
  ⟨s.world, s.threads ++ [x]⟩

/-- A request or a migration comes in, an operation makes its next step, or the process is
started again. -/
inductive Event where
  | request (request : Request)
  | migrate (previousFingerprint : Option String) (fingerprint deviceName : String)
  | step (i : ℕ) (answer : Ans)
  | restart (deviceName : String) (legacy : LegacyState)

def advance (s : Session) : Event → Option Session
  | .request request => some (Session.add s request.prog)
  | .migrate previous fingerprint deviceName =>
      some (Session.add s (applyIdentityMigration previous fingerprint deviceName))
  | .step i answer => s.step exec i answer
  | .restart deviceName legacy => some ⟨restart deviceName legacy s.world, []⟩

/-- What operation `i` does next. -/
def operation (s : Session) (i : ℕ) : Option TrustOp :=
  match s.threads[i]? with
  | some (.op o _) => some o
  | _ => none

theorem step_cases {s t : Session} {i : ℕ} {answer : Ans} (h : s.step exec i answer = some t) :
    ∃ (o : TrustOp) (k : o.Resp → Code (Except String Unit)) (w : World) (r : o.Resp),
      s.threads[i]? = some (.op o k) ∧ operation s i = some o ∧
        exec i o answer s.world = some (w, r) ∧ t = ⟨w, s.threads.set i (k r)⟩ := by
  unfold Pool.step at h
  split at h
  · rename_i o k here
    obtain ⟨⟨w, r⟩, done, rfl⟩ := Option.map_eq_some_iff.mp h
    exact ⟨o, k, w, r, here, by simp [operation, here], done, rfl⟩
  · cases h

/-- An operation writes the clone that it took last, and only once. -/
def carrying : Automaton TrustOp TrustOp.Resp (Option PeerMap)
  | _, .clone, trusted => some (some trusted)
  | held, .persist _ given, _ | held, .replace given, _ =>
      if held = some given then some none else none
  | held, _, _ => some held

def held : Phase → Option PeerMap
  | .holding trusted => some trusted
  | .idle | .changed | .failed => none

theorem carrying_of_saving (s s' : Phase) (o : TrustOp) (r : o.Resp)
    (next : saving s o r = some s') : carrying (held s) o r = some (held s') := by
  cases o with
  | clone =>
    cases s <;> cases next <;> rfl
  | persist config given =>
    cases s with
    | holding mine =>
      simp only [saving] at next
      split_ifs at next with same ok
      · cases next
        simp [carrying, held, same]
      · cases next
        simp [carrying, held, same]
    | _ => cases next
  | replace given =>
    cases s with
    | holding mine =>
      simp only [saving] at next
      split_ifs at next with same
      cases next
      simp [carrying, held, same]
    | _ => cases next
  | remove | setAlias | confirm | freeze =>
    cases s with
    | idle =>
      cases r <;> cases next <;> rfl
    | _ => cases next
  | migrate => cases s <;> cases next
  | _ => cases s <;> cases next <;> rfl

theorem request_carries (request : Request) :
    Obeys carrying none request.prog fun _ _ => True :=
  (request_obeys request).simulated held carrying_of_saving fun _ _ _ => trivial

theorem migration_carries (previous : Option String) (fingerprint deviceName : String) :
    Obeys carrying none (applyIdentityMigration previous fingerprint deviceName)
      fun _ _ => True := by
  cases previous with
  | none => trivial
  | some old => exact fun _ => ⟨none, rfl, trivial⟩

def stepsAt (i steps : ℕ) : List Event := List.replicate steps (.step i ⟨7, .fine, .ok ()⟩)

/-- Another certificate comes under the fingerprint of a verified peer. -/
def frozenHistory : List Event :=
  [.request (.pair "a")] ++ stepsAt 0 5 ++
    [.request (.confirm "a" .signedPairingLink false)] ++ stepsAt 1 4 ++
    [.request (.freeze "1" "a" "b")] ++ stepsAt 2 7

end DashDrop.Trust.Sessions
