/- GID: DashDrop/Runtime/DeviceIdentity
   source: src-tauri/src/crypto/identity.rs, src-tauri/src/crypto/secret_store.rs
   anchors: []
   digest: The key and the certificate of a device through its starts, some of them cut off. -/

import DashDrop.Foundation.Triples
import DashDrop.Pairing.Link

set_option autoImplicit false
set_option relaxedAutoImplicit false

namespace DashDrop.Runtime.DeviceIdentity

open DashDrop.Foundation.FileTree DashDrop.Foundation.Program DashDrop.Foundation.Interleaving
open DashDrop.Pairing.Link (Identity)

/-- The steps of `Identity::generate` that can fail. -/
inductive GenerateStep where
  | encodeKey | keyToPem | keyPair | selfSign
  deriving DecidableEq

def GenerateStep.context : GenerateStep → String
  | .encodeKey => "encode key to PKCS#8"
  | .keyToPem => "signing key to PEM"
  | .keyPair => "rcgen KeyPair from PEM"
  | .selfSign => "self-sign cert"

/-- What `load_or_create` asks of the system. -/
inductive Op where
  | createDirAll
  | secureStoreAvailable
  | certExists
  | readCert
  | loadPrivateKey
  | keyExists
  | readKey
  | savePrivateKey (key : Bytes)
  | removeKey
  | writeKey (key : Bytes)
  | writeCert (cert : Bytes)
  | generate

/-- `none` is an error. -/
abbrev Op.Resp : Op → Type
  | .secureStoreAvailable | .certExists | .keyExists => Bool
  | .readCert | .readKey => Option Bytes
  | .loadPrivateKey => Option (Option Bytes)
  | .generate => Except GenerateStep Identity
  | _ => Option Unit

abbrev Code := Prog Op Op.Resp

abbrev ask (o : Op) : Code o.Resp := perform o

/-- The files `identity.cert` and `identity.key`, and the entry of the secure store. -/
structure Keep where
  cert : Option Bytes
  keyFile : Option Bytes
  entry : Option Bytes
  deriving DecidableEq

structure Answer where
  fails : Bool
  /-- How much of the new bytes a failed write leaves, if it touched the file; a failed save that
  touched its entry has deleted it. -/
  torn : Option ℕ
  failed : GenerateStep
  fresh : Identity

def Answer.done (x : Answer) : Option Unit := if x.fails then none else some ()

def Answer.write (x : Answer) (bytes : Bytes) (old : Option Bytes) : Option Bytes :=
  if x.fails then (x.torn.map bytes.take).or old else some bytes

def exec : Exec Op Op.Resp Keep Answer
  | _, .createDirAll, x, w => some (w, x.done)
  | _, .secureStoreAvailable, x, w => some (w, !x.fails)
  -- `exists` is false where the metadata cannot be read
  | _, .certExists, x, w => some (w, !x.fails && w.cert.isSome)
  | _, .readCert, x, w => some (w, if x.fails then none else w.cert)
  | _, .loadPrivateKey, x, w => some (w, if x.fails then none else some w.entry)
  | _, .keyExists, x, w => some (w, !x.fails && w.keyFile.isSome)
  | _, .readKey, x, w => some (w, if x.fails then none else w.keyFile)
  | _, .savePrivateKey key, x, w =>
      let entry := if x.fails then (if x.torn.isSome then none else w.entry) else some key
      some ({ w with entry := entry }, x.done)
  | _, .removeKey, x, w =>
      if x.fails then some (w, none)
      else some ({ w with keyFile := none }, w.keyFile.map fun _ => ())
  | _, .writeKey key, x, w => some ({ w with keyFile := x.write key w.keyFile }, x.done)
  | _, .writeCert cert, x, w => some ({ w with cert := x.write cert w.cert }, x.done)
  | _, .generate, x, w => some (w, if x.fails then .error x.failed else .ok x.fresh)

/-- `?` behind a context. -/
def attempt {α β : Type} (context : String) (k : α → Code (Except String β)) :
    Option α → Code (Except String β)
  | none => pure (.error context)
  | some a => k a

/-- `Identity::generate` and its `?` -/
def generate {β : Type} (k : Identity → Code (Except String β)) : Code (Except String β) := do
  match ← ask .generate with
  | .error step => pure (.error step.context)
  | .ok identity => k identity

/-- The key of the certificate and whether the secure store is still in use, or an identity made
anew, with which `load_or_create` returns at once. -/
inductive Found where
  | key (keyDer : Bytes) (secureStore : Bool)
  | anew (identity : Identity)

def writeAnew (identity : Identity) : Code (Except String Found) := do
  attempt "write regenerated identity cert" (fun () => pure (.ok (.anew identity)))
    (← ask (.writeCert identity.certDer))

def migrateKey (kd : Bytes) : Code (Except String Found) := do
  match ← ask (.savePrivateKey kd) with
  | none => pure (.ok (.key kd false))
  | some () =>
    let _ ← ask .removeKey
    pure (.ok (.key kd true))

def existingKey : Bool → Code (Except String Found)
  | true => do
    match ← ask .loadPrivateKey with
    | some (some kd) => pure (.ok (.key kd true))
    | some none =>
      match ← ask .keyExists with
      | true =>
        attempt "read legacy identity key" migrateKey (← ask .readKey)
      | false =>
        generate fun identity => do
          match ← ask (.savePrivateKey identity.keyDer) with
          | none =>
            attempt "write regenerated identity key fallback" (fun () => writeAnew identity)
              (← ask (.writeKey identity.keyDer))
          | some () => writeAnew identity
    | none =>
      match ← ask .keyExists with
      | true =>
        attempt "read identity key fallback" (fun kd => pure (.ok (.key kd false)))
          (← ask .readKey)
      | false =>
        generate fun identity => do
          attempt "write regenerated identity key fallback" (fun () => writeAnew identity)
            (← ask (.writeKey identity.keyDer))
  | false => do
    attempt "read identity key" (fun kd => pure (.ok (.key kd false))) (← ask .readKey)

def writeCreated (identity : Identity) (secureStore : Bool) :
    Code (Except String (Identity × Bool)) := do
  attempt "write identity cert" (fun () => pure (.ok (identity, secureStore)))
    (← ask (.writeCert identity.certDer))

def createIdentity (secureStore : Bool) : Code (Except String (Identity × Bool)) :=
  generate fun identity => do
    match secureStore with
    | true =>
      match ← ask (.savePrivateKey identity.keyDer) with
      | none =>
        attempt "write identity key fallback" (fun () => writeCreated identity false)
          (← ask (.writeKey identity.keyDer))
      | some () => writeCreated identity true
    | false =>
      attempt "write identity key" (fun () => writeCreated identity false)
        (← ask (.writeKey identity.keyDer))

def cleanUp (identity : Identity) : Bool → Code (Except String Identity)
  | true => do
    match ← ask .keyExists with
    | true =>
      let _ ← ask .removeKey
      pure (.ok identity)
    | false => pure (.ok identity)
  | false => pure (.ok identity)

def loadExisting (secureStore : Bool) (cd : Bytes) : Code (Except String Identity) := do
  match ← existingKey secureStore with
  | .error e => pure (.error e)
  | .ok (.anew identity) => pure (.ok identity)
  | .ok (.key kd secureStore) => cleanUp ⟨cd, kd⟩ secureStore

def createNew (secureStore : Bool) : Code (Except String Identity) := do
  match ← createIdentity secureStore with
  | .error e => pure (.error e)
  | .ok (identity, secureStore) => cleanUp identity secureStore

/-- `Identity::load_or_create` -/
def loadOrCreate : Code (Except String Identity) := do
  attempt "create config dir" (fun () => do
    let secureStore ← ask .secureStoreAvailable
    match ← ask .certExists with
    | true => attempt "read identity cert" (loadExisting secureStore) (← ask .readCert)
    | false => createNew secureStore) (← ask .createDirAll)

/-- Every copy on the device is of this identity, and there is one of its key. -/
structure Settled (identity : Identity) (w : Keep) : Prop where
  cert : w.cert = some identity.certDer
  entry : ∀ key, w.entry = some key → key = identity.keyDer
  keyFile : ∀ key, w.keyFile = some key → key = identity.keyDer
  held : w.entry = some identity.keyDer ∨ w.keyFile = some identity.keyDer

/-- No certificate yet, and keys only where a start will put its own. -/
def Unmade (secure : Bool) (w : Keep) : Prop :=
  w.cert = none ∧ if secure then w.keyFile = none else w.entry = none

section Starts

variable (belongs : Identity → Prop) (secure : Bool)

/-- What is there is found and read, except the certificate and the key file; a certificate is
written whole or not at all, and a save that fails leaves the entry alone. Until there is a
certificate, the secure store is either there and takes the key, or is not there. -/
def Careful : Guard Op Keep Answer := fun _ o x w =>
  match o with
  | .secureStoreAvailable => w.cert = none → x.fails = !secure
  | .certExists => x.fails = true → w.cert = none
  | .keyExists => x.fails = true → w.keyFile = none
  | .loadPrivateKey => x.fails = true → w.entry = none
  | .savePrivateKey _ => x.torn = none ∧ (w.cert = none → x.fails = false)
  | .writeCert _ => x.torn = none
  | .generate => belongs x.fresh
  | _ => True

/-- Lots of starts of a device, one lot after another, with what they returned. Each start may be
cut off anywhere; those of one lot overlap, and they may be several once the certificate and the key
in the secure store are there. -/
inductive Starts : Keep → List (Except String Identity) → Keep → Prop where
  | nil (w : Keep) : Starts w [] w
  | more {w s : Keep} {rs : List (Except String Identity)} {n : ℕ}
      {t : Pool Op Op.Resp Keep (Except String Identity)} (earlier : Starts w rs s)
      (alone : s.cert = none ∨ s.entry = none → n = 1)
      (run : Run exec (Careful belongs secure) ⟨s, List.replicate n loadOrCreate⟩ t) :
      Starts w (rs ++ (List.range n).filterMap t.result) t.world

end Starts

section Rules

variable {guard : Guard Op Keep Answer} {G : ℕ → Keep → Keep → Prop} {i : ℕ} {P : Keep → Prop}
variable {α β : Type} {R : β → Keep → Prop}

def Ok (R : β → Keep → Prop) (r : Except String β) (w : Keep) : Prop := ∀ a, r = .ok a → R a w

theorem triple_error (e : String) : Triple exec guard G i P (.pure (.error e)) (Ok R) :=
  Triple.always fun w a returned => by cases returned

theorem triple_attempt {context : String} {k : α → Code (Except String β)} {x : Option α}
    (h : ∀ a, x = some a → Triple exec guard G i P (k a) (Ok R)) :
    Triple exec guard G i P (attempt context k x) (Ok R) := by
  cases x with
  | none => exact triple_error context
  | some a => exact h a rfl

end Rules

section Loading

variable {belongs : Identity → Prop} {secure : Bool} {identity : Identity} {alone : Prop} {i : ℕ}

structure Usable (identity : Identity) (alone : Prop) (w : Keep) : Prop where
  settled : Settled identity w
  stored : ¬ alone → w.entry = some identity.keyDer

/-- No step takes the identity away, nor its key out of the secure store. -/
def Loads (identity : Identity) (alone : Prop) (i : ℕ) (w w' : Keep) : Prop :=
  (Usable identity alone w → Usable identity alone w') ∧
    (Settled identity w → w.entry = some identity.keyDer → w'.entry = some identity.keyDer) ∧
    (alone → i ≠ 0 → w' = w)

theorem Loads.refl (w : Keep) : Loads identity alone i w w := ⟨id, fun _ h => h, fun _ _ => rfl⟩

theorem stable_usable : Stable (Loads identity alone) i (Usable identity alone) := by
  rintro w w' usable ⟨j, -, kept, -⟩
  exact kept usable

theorem stable_stored : Stable (Loads identity alone) i fun w =>
    Usable identity alone w ∧ w.entry = some identity.keyDer := by
  rintro w w' ⟨usable, stored⟩ ⟨j, -, kept, entry, -⟩
  exact ⟨kept usable, entry usable.settled stored⟩

theorem stable_alone (P : Keep → Prop) (first : alone → i = 0) :
    Stable (Loads identity alone) i fun w => alone ∧ P w := by
  rintro w w' ⟨only, holds⟩ ⟨j, other, -, -, same⟩
  rw [same only fun zero => other (zero.trans (first only).symm)]
  exact ⟨only, holds⟩

theorem Usable.removed {w : Keep} (usable : Usable identity alone w)
    (stored : w.entry = some identity.keyDer) :
    Usable identity alone { w with keyFile := none } := by
  refine ⟨⟨usable.settled.cert, usable.settled.entry, ?_, .inl stored⟩, fun _ => stored⟩
  rintro key ⟨⟩

theorem Usable.saved {w : Keep} (usable : Usable identity alone w) :
    Usable identity alone { w with entry := some identity.keyDer } := by
  refine ⟨⟨usable.settled.cert, ?_, usable.settled.keyFile, .inl rfl⟩, fun _ => rfl⟩
  rintro key ⟨⟩
  rfl

def Loaded (identity : Identity) (alone : Prop) : Option (Option Bytes) → Keep → Prop
  | some (some kd), w => kd = identity.keyDer ∧ Usable identity alone w ∧
      w.entry = some identity.keyDer
  | _, w => alone ∧ Usable identity alone w ∧ w.keyFile = some identity.keyDer

theorem Usable.loaded {w : Keep} {x : Answer} (usable : Usable identity alone w)
    (there : x.fails = true → w.entry = none) :
    Loaded identity alone (if x.fails then none else some w.entry) w := by
  have empty (h : w.entry = none) : alone ∧ Usable identity alone w ∧
      w.keyFile = some identity.keyDer := by
    refine ⟨?_, usable, ?_⟩
    · by_contra others
      cases h.symm.trans (usable.stored others)
    · rcases usable.settled.held with stored | file
      · cases h.symm.trans stored
      · exact file
  split_ifs with fails
  · exact empty (there fails)
  · cases h : w.entry with
    | none => exact empty h
    | some kd =>
      obtain rfl := usable.settled.entry kd h
      exact ⟨rfl, usable, h⟩

/-- A change that keeps the identity and the key in the store, by the start that may make it. -/
theorem Loads.change {w w' : Keep} (first : alone → i = 0)
    (kept : Usable identity alone w → Usable identity alone w')
    (entry : w'.entry = some identity.keyDer) : Loads identity alone i w w' :=
  ⟨kept, fun _ _ => entry, fun only other => absurd (first only) other⟩

section Programs

variable (first : alone → i = 0)
include first

theorem removeKey_triple {β : Type} {r : β} {R : β → Keep → Prop}
    (done : ∀ w, Usable identity alone w → w.entry = some identity.keyDer → R r w) :
    Triple exec (Careful belongs secure) (Loads identity alone) i
      (fun w => Usable identity alone w ∧ w.entry = some identity.keyDer)
      (.op .removeKey fun _ => .pure r) R := by
  refine Triple.op (fun _ w => Usable identity alone w ∧ w.entry = some identity.keyDer)
    stable_stored ?_ fun _ => Triple.pure stable_stored fun w h => done w h.1 h.2
  rintro x w w' r ⟨usable, stored⟩ - removed
  simp only [exec] at removed
  split_ifs at removed
  · cases removed
    exact ⟨.refl w, usable, stored⟩
  · cases removed
    exact ⟨.change first (fun _ => usable.removed stored) stored, usable.removed stored, stored⟩

/-- What `existingKey` finds. -/
def FoundKey (identity : Identity) (alone : Prop) : Found → Keep → Prop
  | .key kd inUse, w => kd = identity.keyDer ∧ Usable identity alone w ∧
      (inUse = true → w.entry = some identity.keyDer)
  | .anew _, _ => False

omit first in
theorem readKey_triple {context : String} :
    Triple exec (Careful belongs secure) (Loads identity alone) i (Usable identity alone)
      (.op .readKey (attempt context fun kd => .pure (.ok (.key kd false))))
      (Ok (FoundKey identity alone)) := by
  refine Triple.look (fun kd w => (∀ key, kd = some key → key = identity.keyDer) ∧
    Usable identity alone w) stable_usable .refl ?_ fun kd => Triple.given fun same =>
      triple_attempt fun key found => Triple.pure stable_usable ?_
  · intro x w usable _
    refine ⟨_, rfl, fun key found => ?_, usable⟩
    split_ifs at found
    exact usable.settled.keyFile key found
  · rintro w usable a ⟨⟩
    exact ⟨same key found, usable, by rintro ⟨⟩⟩

theorem keyExists_triple {k : Bool → Code (Except String Found)}
    {Q : Except String Found → Keep → Prop}
    (rest : Triple exec (Careful belongs secure) (Loads identity alone) i
      (fun w => alone ∧ Usable identity alone w ∧ w.keyFile = some identity.keyDer) (k true) Q) :
    Triple exec (Careful belongs secure) (Loads identity alone) i
      (fun w => alone ∧ Usable identity alone w ∧ w.keyFile = some identity.keyDer)
      (.op .keyExists k) Q := by
  refine Triple.look (fun found w => found = true ∧ alone ∧ Usable identity alone w ∧
    w.keyFile = some identity.keyDer) (stable_alone _ first) .refl ?_ fun found =>
      Triple.given fun here => ?_
  · rintro x w ⟨only, usable, file⟩ (there : x.fails = true → w.keyFile = none)
    refine ⟨_, rfl, ?_, only, usable, file⟩
    rw [file] at there ⊢
    simpa using there
  · rw [here]
    exact rest

theorem migrateKey_triple :
    Triple exec (Careful belongs secure) (Loads identity alone) i
      (fun w => alone ∧ Usable identity alone w) (migrateKey identity.keyDer)
      (Ok (FoundKey identity alone)) := by
  refine Triple.op (fun saved w => Usable identity alone w ∧
    (saved = some () → w.entry = some identity.keyDer)) (stable_alone _ first) ?_ fun saved => ?_
  · rintro x w w' r ⟨only, usable⟩ ⟨whole, -⟩ done
    simp only [exec, Answer.done, whole] at done
    split_ifs at done with fails torn
    · cases torn
    · cases done
      exact ⟨.refl w, usable, by rintro ⟨⟩⟩
    · cases done
      exact ⟨.change first (fun _ => usable.saved) rfl, usable.saved, fun _ => rfl⟩
  · cases saved with
    | none =>
      refine Triple.conseq (Triple.pure stable_usable ?_) (fun _ h => h.1) fun _ _ h => h
      rintro w usable a ⟨⟩
      exact ⟨rfl, usable, by rintro ⟨⟩⟩
    | some u =>
      refine (removeKey_triple first ?_).conseq (fun w h => ⟨h.1, h.2 rfl⟩) fun _ _ h => h
      rintro w usable stored a ⟨⟩
      exact ⟨rfl, usable, fun _ => stored⟩

theorem existingKey_triple (secureStore : Bool) :
    Triple exec (Careful belongs secure) (Loads identity alone) i (Usable identity alone)
      (existingKey secureStore) (Ok (FoundKey identity alone)) := by
  cases secureStore with
  | false => exact readKey_triple
  | true =>
    refine Triple.look (Loaded identity alone) stable_usable .refl ?_ fun loaded => ?_
    · intro x w usable there
      exact ⟨_, rfl, usable.loaded there⟩
    · rcases loaded with _ | _ | kd
      · refine keyExists_triple first ?_
        exact readKey_triple.conseq (fun w h => h.2.1) fun _ _ h => h
      · refine keyExists_triple first ?_
        refine Triple.look (fun kd w => (∀ key, kd = some key → key = identity.keyDer) ∧
          alone ∧ Usable identity alone w) (stable_alone _ first) .refl ?_ fun kd =>
            Triple.given fun same => triple_attempt fun key found => ?_
        · rintro x w ⟨only, usable, file⟩ _
          refine ⟨_, rfl, fun key found => ?_, only, usable⟩
          split_ifs at found
          exact usable.settled.keyFile key found
        · obtain rfl := same key found
          exact migrateKey_triple first
      · refine Triple.given fun same => Triple.pure stable_stored ?_
        rintro w ⟨usable, stored⟩ a ⟨⟩
        exact ⟨same, usable, fun _ => stored⟩

theorem cleanUp_triple (inUse : Bool) :
    Triple exec (Careful belongs secure) (Loads identity alone) i
      (fun w => Usable identity alone w ∧ (inUse = true → w.entry = some identity.keyDer))
      (cleanUp identity inUse)
      (Ok fun found w => found = identity ∧ Usable identity alone w) := by
  have returns {P : Keep → Prop} (stable : Stable (Loads identity alone) i P)
      (h : ∀ w, P w → Usable identity alone w) :
      Triple exec (Careful belongs secure) (Loads identity alone) i P
        (.pure (.ok identity)) (Ok fun found w => found = identity ∧ Usable identity alone w) := by
    refine Triple.pure stable ?_
    rintro w hw a ⟨⟩
    exact ⟨rfl, h w hw⟩
  cases inUse with
  | false => exact (returns stable_usable fun _ h => h).conseq (fun _ h => h.1) fun _ _ h => h
  | true =>
    refine Triple.conseq (P := fun w => Usable identity alone w ∧ w.entry = some identity.keyDer)
      ?_ (fun w h => ⟨h.1, h.2 rfl⟩) fun _ _ h => h
    refine Triple.look (fun _ w => Usable identity alone w ∧ w.entry = some identity.keyDer)
      stable_stored .refl (fun x w h _ => ⟨_, rfl, h⟩) fun found => ?_
    cases found with
    | false => exact returns stable_stored fun _ h => h.1
    | true =>
      refine removeKey_triple first ?_
      rintro w usable - a ⟨⟩
      exact ⟨rfl, usable⟩

theorem loadOrCreate_triple :
    Triple exec (Careful belongs secure) (Loads identity alone) i (Usable identity alone)
      loadOrCreate (Ok fun found w => found = identity ∧ Usable identity alone w) := by
  refine Triple.look (fun _ => Usable identity alone) stable_usable .refl
    (fun x w usable _ => ⟨_, rfl, usable⟩) fun made => triple_attempt fun _ _ => ?_
  refine Triple.look (fun _ => Usable identity alone) stable_usable .refl
    (fun x w usable _ => ⟨_, rfl, usable⟩) fun secureStore => ?_
  refine Triple.look (fun there w => there = true ∧ Usable identity alone w) stable_usable .refl
    ?_ fun there => Triple.given fun here => ?_
  · intro x w usable (there : x.fails = true → w.cert = none)
    refine ⟨_, rfl, ?_, usable⟩
    rw [usable.settled.cert] at there ⊢
    simpa using there
  · rw [here]
    refine Triple.look (fun cd w => (∀ bytes, cd = some bytes → bytes = identity.certDer) ∧
      Usable identity alone w) stable_usable .refl ?_ fun cd => Triple.given fun same =>
        triple_attempt fun bytes found => ?_
    · intro x w usable _
      refine ⟨_, rfl, fun bytes found => ?_, usable⟩
      split_ifs at found
      exact Option.some.inj (found.symm.trans usable.settled.cert)
    · obtain rfl := same bytes found
      refine (existingKey_triple first secureStore).bind fun r => ?_
      cases r with
      | error e => exact triple_error e
      | ok found =>
        cases found with
        | anew other => exact fun w h => (h _ rfl).elim
        | key kd inUse =>
          refine fun w h => ?_
          obtain ⟨rfl, usable, stored⟩ := h _ rfl
          exact cleanUp_triple first inUse w ⟨usable, stored⟩

end Programs

end Loading

section Creating

variable {belongs : Identity → Prop} {secure : Bool} {identity : Identity}

/-- No identity yet, or all of one. -/
def Sound (belongs : Identity → Prop) (secure : Bool) (w : Keep) : Prop :=
  Unmade secure w ∨ ∃ identity, belongs identity ∧ Settled identity w

def Creates (belongs : Identity → Prop) (secure : Bool) (i : ℕ) (w w' : Keep) : Prop :=
  (Sound belongs secure w → Sound belongs secure w') ∧ (i ≠ 0 → w' = w)

theorem Creates.refl (w : Keep) : Creates belongs secure 0 w w := ⟨id, fun _ => rfl⟩

theorem Creates.change {w w' : Keep} (sound : Sound belongs secure w') :
    Creates belongs secure 0 w w' :=
  ⟨fun _ => sound, fun other => absurd rfl other⟩

theorem stable_only (P : Keep → Prop) : Stable (Creates belongs secure) 0 P := by
  rintro w w' holds ⟨j, other, -, same⟩
  rwa [same other]

def Ready (secure : Bool) (identity : Identity) (w : Keep) : Prop :=
  Unmade secure w ∧ Settled identity { w with cert := some identity.certDer }

def Made (secure : Bool) (identity : Identity) (r : Identity × Bool) (w : Keep) : Prop :=
  r.1 = identity ∧ Settled identity w ∧ (r.2 = true → secure = true ∧ w.keyFile = none)

theorem writeCreated_triple (belongs' : belongs identity) {inUse : Bool}
    (store : inUse = true → secure = true) :
    Triple exec (Careful belongs secure) (Creates belongs secure) 0 (Ready secure identity)
      (writeCreated identity inUse) (Ok (Made secure identity)) := by
  refine Triple.op (fun written w => written = some () → Made secure identity (identity, inUse) w)
    (stable_only _) ?_ fun written => triple_attempt fun _ done =>
      Triple.pure (stable_only _) ?_
  · rintro x w w' r ⟨unmade, ready⟩ (whole : x.torn = none) done
    simp only [exec, Answer.done, Answer.write, whole, Option.map_none, Option.none_or] at done
    split_ifs at done
    · cases done
      exact ⟨.refl w, by rintro ⟨⟩⟩
    · cases done
      refine ⟨.change (.inr ⟨identity, belongs', ready⟩), fun _ => ⟨rfl, ready, fun used => ?_⟩⟩
      have here := store used
      subst here
      exact ⟨rfl, unmade.2⟩
  · rintro w made a ⟨⟩
    exact made done

/-- Where the secure store is there it takes the key, and otherwise the key file has it. -/
theorem createIdentity_triple :
    Triple exec (Careful belongs secure) (Creates belongs secure) 0 (Unmade secure)
      (createIdentity secure)
      (Ok fun r w => ∃ identity, belongs identity ∧ Made secure identity r w) := by
  refine Triple.look (fun r w => (∀ identity, r = .ok identity → belongs identity) ∧
    Unmade secure w) (stable_only _) .refl ?_ fun r => Triple.given fun fresh => ?_
  · intro x w unmade (fresh : belongs x.fresh)
    refine ⟨_, rfl, fun identity made => ?_, unmade⟩
    split_ifs at made
    cases made
    exact fresh
  · cases r with
    | error step => exact triple_error _
    | ok identity =>
      have belongs' := fresh identity rfl
      have after : ∀ r w, Ok (Made secure identity) r w →
          Ok (fun r w => ∃ identity, belongs identity ∧ Made secure identity r w) r w :=
        fun r w made a returned => ⟨identity, belongs', made a returned⟩
      refine Triple.conseq ?_ (fun _ h => h) after
      cases secure with
      | true =>
        refine Triple.op (fun saved w => saved = some () ∧ Ready true identity w) (stable_only _) ?_
          fun saved => Triple.given fun here => ?_
        · rintro x w w' r ⟨missing, file⟩ ⟨-, takes⟩ done
          simp only [exec, Answer.done, takes missing, Bool.false_eq_true, if_false] at done
          cases done
          have unmade : Unmade true { w with entry := some identity.keyDer } := ⟨missing, file⟩
          refine ⟨.change (.inl unmade), rfl, unmade, rfl, ?_, ?_, .inl rfl⟩
          · rintro key ⟨⟩
            rfl
          · intro key there
            cases file.symm.trans there
        · subst here
          exact writeCreated_triple belongs' fun _ => rfl
      | false =>
        refine Triple.op (fun written w => written = some () → Ready false identity w)
          (stable_only _) ?_ fun written => triple_attempt fun u done => ?_
        · rintro x w w' r ⟨missing, entry⟩ - done
          have unmade (keyFile : Option Bytes) : Unmade false { w with keyFile := keyFile } :=
            ⟨missing, entry⟩
          simp only [exec, Answer.done, Answer.write] at done
          split_ifs at done
          · cases done
            exact ⟨.change (.inl (unmade _)), by rintro ⟨⟩⟩
          · cases done
            refine ⟨.change (.inl (unmade _)), fun _ => ⟨unmade _, rfl, ?_, ?_, .inr rfl⟩⟩
            · intro key there
              cases entry.symm.trans there
            · rintro key ⟨⟩
              rfl
        · exact (writeCreated_triple belongs' (by rintro ⟨⟩)).conseq (fun w h => h done)
            fun _ _ h => h

theorem loadOrCreate_creates :
    Triple exec (Careful belongs secure) (Creates belongs secure) 0 (Unmade secure) loadOrCreate
      (Ok fun identity w => belongs identity ∧ Settled identity w) := by
  refine Triple.look (fun _ => Unmade secure) (stable_only _) .refl
    (fun x w unmade _ => ⟨_, rfl, unmade⟩) fun made => triple_attempt fun _ _ => ?_
  refine Triple.look (fun available w => available = secure ∧ Unmade secure w) (stable_only _) .refl
    ?_ fun available => Triple.given fun here => ?_
  · intro x w unmade (there : w.cert = none → x.fails = !secure)
    exact ⟨_, rfl, by rw [there unmade.1, Bool.not_not], unmade⟩
  subst here
  refine Triple.look (fun there w => there = false ∧ Unmade available w) (stable_only _) .refl
    ?_ fun there => Triple.given fun here => ?_
  · intro x w unmade _
    exact ⟨_, rfl, by rw [unmade.1, Option.isSome_none, Bool.and_false], unmade⟩
  subst here
  refine createIdentity_triple.bind fun r => ?_
  cases r with
  | error e => exact triple_error e
  | ok created =>
    obtain ⟨identity, inUse⟩ := created
    intro w made
    obtain ⟨_, belongs', rfl, settled, cleared⟩ := made _ rfl
    have returns : Triple exec (Careful belongs available) (Creates belongs available) 0
        (Settled identity) (.pure (.ok identity))
        (Ok fun identity w => belongs identity ∧ Settled identity w) := by
      refine Triple.pure (stable_only _) ?_
      rintro w settled a ⟨⟩
      exact ⟨belongs', settled⟩
    cases inUse with
    | false => exact returns w settled
    | true =>
      refine Triple.look (P := fun w => w.keyFile = none ∧ Settled identity w)
        (fun found w => found = false ∧ Settled identity w) (stable_only _) .refl ?_
        (fun found => Triple.given fun here => ?_) w ⟨(cleared rfl).2, settled⟩
      · rintro x w ⟨gone, settled⟩ _
        exact ⟨_, rfl, by rw [gone, Option.isSome_none, Bool.and_false], settled⟩
      · subst here
        exact returns

end Creating

section Lots

variable {belongs : Identity → Prop} {secure : Bool} {identity : Identity} {s : Keep} {n : ℕ}
variable {t : Pool Op Op.Resp Keep (Except String Identity)}

theorem Settled.unique {other : Identity} (h : Settled identity s) (h' : Settled other s) :
    other = identity := by
  have cert : other.certDer = identity.certDer := Option.some.inj (h'.cert.symm.trans h.cert)
  have key : other.keyDer = identity.keyDer := by
    rcases h'.held with stored | file
    · exact h.entry _ stored
    · exact h.keyFile _ file
  cases other
  cases identity
  simp_all

theorem Settled.lot (settled : Settled identity s) (alone : s.cert = none ∨ s.entry = none → n = 1)
    (run : Run exec (Careful belongs secure) ⟨s, List.replicate n loadOrCreate⟩ t) :
    Settled identity t.world ∧ ∀ i a, t.result i = some (.ok a) → a = identity := by
  have usable : Usable identity (s.entry = none) s := by
    refine ⟨settled, fun some => ?_⟩
    obtain ⟨key, here⟩ := Option.ne_none_iff_exists'.mp some
    rw [here, settled.entry key here]
  have start : ∀ i x, (List.replicate n loadOrCreate)[i]? = some x →
      Safe exec (Careful belongs secure) (Loads identity (s.entry = none)) i x
        (Ok fun found w => found = identity ∧ Usable identity (s.entry = none) w) s := by
    intro i x here
    obtain ⟨hlt, rfl⟩ := List.getElem?_eq_some_iff.mp here
    rw [List.length_replicate] at hlt
    rw [List.getElem_replicate]
    refine loadOrCreate_triple (fun empty => ?_) s usable
    have only := alone (.inr empty)
    omega
  refine ⟨?_, fun i a returned => ?_⟩
  · have kept := run.promised_invariant start (Usable identity (s.entry = none)) usable
      fun i w w' h promise => promise.1 h
    exact kept.settled
  · exact (run.returned start (Pool.thread_of_result returned) a rfl).1

theorem Unmade.lot (unmade : Unmade secure s)
    (run : Run exec (Careful belongs secure) ⟨s, [loadOrCreate]⟩ t) :
    Sound belongs secure t.world ∧ ∀ i a, t.result i = some (.ok a) →
      belongs a ∧ Settled a t.world := by
  have start : ∀ i x, [loadOrCreate][i]? = some x →
      Safe exec (Careful belongs secure) (Creates belongs secure) i x
        (Ok fun identity w => belongs identity ∧ Settled identity w) s := by
    intro i x here
    cases i with
    | zero =>
      cases here
      exact loadOrCreate_creates s unmade
    | succ i => cases here
  exact ⟨run.promised_invariant start (Sound belongs secure) (.inl unmade)
      fun i w w' h promise => promise.1 h,
    fun i a returned => run.returned start (Pool.thread_of_result returned) a rfl⟩

/-- The identity a device had, or one that a start returned. -/
def Known (w : Keep) (rs : List (Except String Identity)) (a : Identity) : Prop :=
  Settled a w ∨ .ok a ∈ rs

private def device : Identity := ⟨[0x30], [0x04]⟩

private def well (_ : ℕ) (_ : Op) (x : Answer) (_ : Keep) : Bool :=
  !x.fails && x.torn.isNone && x.fresh == device

private theorem well_careful (i : ℕ) (o : Op) (x : Answer) (w : Keep) (h : well i o x w = true) :
    Careful (· = device) true i o x w := by
  simp only [well, Bool.and_eq_true, Bool.not_eq_true', Option.isNone_iff_eq_none, beq_iff_eq] at h
  obtain ⟨⟨works, whole⟩, fresh⟩ := h
  cases o <;> simp [Careful, works, whole, fresh]

private def empty : Keep := ⟨none, none, none⟩

private def stored : Keep := ⟨none, none, some device.keyDer⟩

private def complete : Keep := ⟨some device.certDer, none, some device.keyDer⟩

private def steps (n : ℕ) (i : ℕ) : List (ℕ × Answer) :=
  List.replicate n (i, ⟨false, none, .encodeKey, device⟩)

private theorem lot_of_play {s s' : Keep} {rs rs' : List (Except String Identity)} (n : ℕ)
    (schedule : List (ℕ × Answer)) (earlier : Starts (· = device) true empty rs s)
    (alone : s.cert = none ∨ s.entry = none → n = 1)
    (played : ((⟨s, List.replicate n loadOrCreate⟩ : Pool Op Op.Resp Keep _).play
      (restrict exec well) schedule).map (fun t =>
        (t.world, rs ++ (List.range n).filterMap t.result)) = some (s', rs')) :
    Starts (· = device) true empty rs' s' := by
  obtain ⟨t, found, same⟩ := Option.map_eq_some_iff.mp played
  cases same
  exact .more earlier alone (run_of_play well_careful found)

-- a secure store that has the key but cannot be read: the device becomes another one
example : ((⟨complete, [loadOrCreate]⟩ : Pool Op Op.Resp Keep _).play exec
    (steps 4 0 ++ [(0, ⟨true, none, .encodeKey, device⟩)] ++
      List.replicate 4 (0, ⟨false, none, .encodeKey, ⟨[0x31], [0x05]⟩⟩))).map Pool.world =
    some ⟨some [0x31], some [0x05], some device.keyDer⟩ := rfl

end Lots

end DashDrop.Runtime.DeviceIdentity
