/- GID: DashDrop/Ipc/TokenCache
   source: src-tauri/src/commands.rs, src-tauri/src/state.rs
   anchors: []
   digest: Proxied commands over one cached grant are carried out once and end authorized. -/

import DashDrop.Foundation.Moments
import DashDrop.Ipc.Authorization
import DashDrop.Ipc.Client

set_option autoImplicit false
set_option relaxedAutoImplicit false

namespace DashDrop.Ipc.TokenCache

open DashDrop.Foundation.Json DashDrop.Foundation.Program DashDrop.Foundation.Interleaving
open DashDrop.Foundation.Discipline DashDrop.Foundation.Moments DashDrop.Foundation.Leases
open DashDrop.Runtime.State (saturatingAdd)
open DashDrop.Ipc.Commands DashDrop.Ipc.Dispatch DashDrop.Ipc.Authorization DashDrop.Ipc.Client

variable {Config Capsule S : Type}

/-- What is read has the name it was sent under, and what cannot be read is an invalid request. -/
def ReadAs (name : String) : Except LocalIpcError (LocalIpcCommand Config Capsule) → Prop
  | .ok command => command.name = name
  | .error error => error.code ≠ "unauthorized"

/-- The reading of a part of the payload fails, if at all, as an invalid request. -/
def Fails {T : Type} : Except LocalIpcError T → Prop
  | .ok _ => True
  | .error error => error.code ≠ "unauthorized"

theorem fails_bind {T U : Type} {x : Except LocalIpcError T} {f : T → Except LocalIpcError U}
    (hx : Fails x) (hf : ∀ a, Fails (f a)) : Fails (x >>= f) := by
  cases x with
  | ok a => exact hf a
  | error error => exact hx

theorem readAs_bind {T : Type} {name : String} {x : Except LocalIpcError T}
    {f : T → Except LocalIpcError (LocalIpcCommand Config Capsule)} (hx : Fails x)
    (hf : ∀ a, ReadAs name (f a)) : ReadAs name (x >>= f) := by
  cases x with
  | ok a => exact hf a
  | error error => exact hx

theorem invalid_fails {T : Type} (message : String) :
    Fails (throw (.invalidRequest message) : Except LocalIpcError T) := by
  simp [Fails, LocalIpcError.invalidRequest, throw, throwThe, MonadExceptOf.throw]

section Fails

variable (payload : Option Value) (field : String)

theorem payloadObject_fails : Fails (payloadObject payload) := by
  unfold payloadObject
  split
  · trivial
  · exact invalid_fails _

theorem requiredString_fails : Fails (requiredString payload field) := by
  refine fails_bind (payloadObject_fails payload) fun fields => ?_
  split
  · trivial
  · exact invalid_fails _

theorem optionalString_fails : Fails (optionalString payload field) := by
  refine fails_bind (payloadObject_fails payload) fun fields => ?_
  split
  · trivial
  · trivial
  · trivial
  · exact invalid_fails _

theorem optionalBool_fails : Fails (optionalBool payload field) := by
  refine fails_bind (payloadObject_fails payload) fun fields => ?_
  split
  · trivial
  · trivial
  · trivial
  · exact invalid_fails _

theorem stringItems_fails (items : List Value) : Fails (stringItems field items) := by
  unfold stringItems
  induction items with
  | nil => trivial
  | cons item items ih =>
    rw [List.mapM_cons]
    refine fails_bind ?_ fun s => fails_bind ih fun rest => trivial
    split
    · trivial
    · exact invalid_fails _

theorem requiredStringVec_fails : Fails (requiredStringVec payload field) := by
  refine fails_bind (payloadObject_fails payload) fun fields => ?_
  split
  · exact invalid_fails _
  · split
    · exact stringItems_fails field _
    · exact invalid_fails _

theorem optionalStringVec_fails : Fails (optionalStringVec payload field) := by
  refine fails_bind (payloadObject_fails payload) fun fields => ?_
  split
  · exact stringItems_fails field _
  · trivial
  · trivial
  · exact invalid_fails _

theorem requiredValue_fails {T : Type} (fromValue : Value → Except String T) :
    Fails (requiredValue fromValue payload field) := by
  refine fails_bind (payloadObject_fails payload) fun fields => ?_
  split
  · exact invalid_fails _
  · split
    · trivial
    · exact invalid_fails _

end Fails

theorem readAs_fromNameAndPayload (serde : FromValue Config Capsule) (name : String)
    (payload : Option Value) :
    ReadAs name (LocalIpcCommand.fromNameAndPayload serde name payload) := by
  unfold LocalIpcCommand.fromNameAndPayload
  split
  all_goals
    -- The parts of the payload, one after the other, and then the command itself.
    repeat
      refine readAs_bind ?_ fun _ => ?_
      · first
        | exact requiredString_fails _ _
        | exact optionalString_fails _ _
        | exact optionalBool_fails _ _
        | exact requiredStringVec_fails _ _
        | exact optionalStringVec_fails _ _
        | exact requiredValue_fails _ _ _
    try rfl
  split <;> exact invalid_fails (T := LocalIpcCommand Config Capsule) _

section Serve

variable (json : ToValue Config Capsule) (serde : FromValue Config Capsule)
  (service : Service Config Capsule S) (currentUid : ℕ)
variable {command : LocalIpcCommand Config Capsule} {auth : Option LocalAuthContext} {x : Weather}
variable {now : ℕ} {d : Daemon S}

theorem issue_served : dispatchRequest serde service currentUid
      (callOf json currentUid .authIssue auth x now) d =
    ⟨{ d with tokens := (issueLocalIpcAccessGrant now x.bytes
        (auth.bind LocalAuthContext.accessToken) d.tokens).2 },
      .ok x.requestId localIpcProtoVersion
        (grantOf (callOf json currentUid .authIssue auth x now) d.tokens).payload, none⟩ := by
  have read : LocalIpcCommand.fromWireRequest serde
      (callOf json currentUid .authIssue auth x now).request = .ok .authIssue := rfl
  unfold dispatchRequest
  simp only [read]
  simp [callOf, toWireRequest, dispatchCommand, grantOf, LocalIpcCommand.acceptsOnEndpoint,
    LocalIpcCommand.endpointKind, LocalIpcCommand.commandClass, LocalIpcWireRequest.token]

theorem read_name {other : LocalIpcCommand Config Capsule}
    (read : LocalIpcCommand.fromWireRequest serde
      (callOf json currentUid command auth x now).request = .ok other) :
    other.name = command.name := by
  have named := readAs_fromNameAndPayload serde command.name (payload json command)
  simp only [LocalIpcCommand.fromWireRequest, callOf, toWireRequest, ne_eq, not_true_eq_false,
    if_false] at read
  rw [read] at named
  exact named

theorem eq_authIssue_of_name (h : command.name = "auth/issue") :
    command = .authIssue := by
  cases command <;> first | rfl | simp [LocalIpcCommand.name] at h

theorem eq_authRevoke_of_name (h : command.name = "auth/revoke") :
    command = .authRevoke := by
  cases command <;> first | rfl | simp [LocalIpcCommand.name] at h

theorem carryOut_authorized {call : Call} {id : String} {v : ℕ} {error : LocalIpcError}
    (response : (carryOut service call d command).response = .err id v error) :
    error.code ≠ "unauthorized" := by
  unfold carryOut at response
  split at response
  split at response
  · cases response
  · cases response
    simp [LocalIpcError.dispatchFailed]

/-- Whoever is told to be unauthorized was not served, and had no live token to show. -/
theorem unauthorized_of_command {call : Call} {id : String} {v : ℕ} {error : LocalIpcError}
    (response : (dispatchCommand service call d command).response = .err id v error)
    (code : error.code = "unauthorized") :
    (dispatchCommand service call d command).executed = none ∧
      (command = .authRevoke ∨ ¬ Admitted call d.tokens) := by
  unfold dispatchCommand at response ⊢
  simp only at response ⊢
  split at response
  · -- the wrong endpoint
    cases response
    simp [wrongEndpoint, LocalIpcError.invalidRequest] at code
  · rename_i accepted
    rw [if_neg accepted]
    split at response
    · cases response
    · split at response
      · cases response
      · exact ⟨by simp only, .inl rfl⟩
    · split at response
      · rename_i guarded
        simp only [guarded, if_true]
        have valid := validate_ok call d.tokens
        cases outcome : (validateLocalIpcAccessToken call.now call.request.token d.tokens).1 with
        | ok _ =>
          rw [outcome] at response
          exact absurd code (carryOut_authorized service response)
        | error reason =>
          refine ⟨rfl, .inr fun admitted => ?_⟩
          rw [valid.mpr admitted] at outcome
          cases outcome
      · exact absurd code (carryOut_authorized service response)

theorem unauthorized_of_dispatch {id : String} {v : ℕ} {error : LocalIpcError}
    (response : (dispatchRequest serde service currentUid
      (callOf json currentUid command auth x now) d).response = .err id v error)
    (code : error.code = "unauthorized") :
    (dispatchRequest serde service currentUid
        (callOf json currentUid command auth x now) d).executed = none ∧
      (command = .authRevoke ∨
        ¬ Admitted (callOf json currentUid command auth x now) d.tokens) := by
  have own : dispatchRequest serde service currentUid
      (callOf json currentUid command auth x now) d =
      match LocalIpcCommand.fromWireRequest serde
        (callOf json currentUid command auth x now).request with
      | .ok other => dispatchCommand service (callOf json currentUid command auth x now) d other
      | .error error => ⟨d, .err x.requestId localIpcProtoVersion error, none⟩ := by
    simp only [dispatchRequest, callOf, ne_eq, not_true_eq_false, if_false]
    rfl
  rw [own] at response ⊢
  have named := readAs_fromNameAndPayload serde command.name (payload json command)
  cases read : LocalIpcCommand.fromWireRequest serde
      (callOf json currentUid command auth x now).request with
  | ok other =>
    rw [read] at response
    obtain ⟨unserved, revoke | refused⟩ := unauthorized_of_command service response code
    · refine ⟨unserved, .inl (eq_authRevoke_of_name ?_)⟩
      rw [← read_name json serde currentUid read, revoke]
      rfl
    · exact ⟨unserved, .inr refused⟩
  | error other =>
    rw [read] at response
    obtain rfl : other = error := (LocalIpcWireResponse.err.inj response).2.2
    simp only [LocalIpcCommand.fromWireRequest, callOf, toWireRequest, ne_eq, not_true_eq_false,
      if_false] at read
    rw [read] at named
    exact absurd code named

/-- What a request that is neither `auth/issue` nor `auth/revoke` leaves of the tokens. -/
theorem tokens_of_dispatch (auth : Option LocalAuthContext) (x : Weather) (now : ℕ) (d : Daemon S)
    (issue : command ≠ .authIssue) (revoke : command ≠ .authRevoke) :
    (dispatchRequest serde service currentUid
        (callOf json currentUid command auth x now) d).daemon.tokens = d.tokens ∨
      (dispatchRequest serde service currentUid
        (callOf json currentUid command auth x now) d).daemon.tokens =
        retain (·.live now) d.tokens := by
  cases effect_of_dispatch serde service currentUid
      (callOf json currentUid command auth x now) d with
  | issues read tokens response =>
    exact absurd (eq_authIssue_of_name (read_name json serde currentUid read).symm) issue
  | revokes token given read tokens response =>
    exact absurd (eq_authRevoke_of_name (read_name json serde currentUid read).symm) revoke
  | keeps tokens quiet => exact tokens

end Serve

abbrev Sight (Config Capsule : Type) := Sigma (@Op.Resp Config Capsule)

abbrev Seen (Config Capsule : Type) := List (Sight Config Capsule)

def rejected : Except String LocalIpcWireResponse → Bool
  | .ok (.err _ _ error) => error.code = "unauthorized"
  | _ => false

def IsEnvelope : Op Config Capsule → Prop
  | .sendEnvelope _ _ => True
  | _ => False

def Silent (seen : Seen Config Capsule) : Prop := ∀ sight ∈ seen, ¬ IsEnvelope sight.1

/-- Whatever was sent, apart from `auth/issue`, was rejected. -/
def Unserved (seen : Seen Config Capsule) : Prop :=
  ∀ command auth (answer : Except String LocalIpcWireResponse),
    (⟨.sendEnvelope command auth, answer⟩ : Sight Config Capsule) ∈ seen →
      command = .authIssue ∨ rejected answer = true

/-- What an operation of the client follows from, for one that does its work once or for
another. -/
structure Lawful (once : Prop) (seen : Seen Config Capsule) (o : Op Config Capsule) : Prop where
  /-- A token is given back for a new one only when it is due. -/
  refresh : ∀ auth, o = .sendEnvelope .authIssue (some auth) →
    ∃ (n : ℕ) (grant : CachedDaemonAccessGrant),
      (⟨.nowUnixMillis, n⟩ : Sight Config Capsule) ∈ seen ∧
      (⟨.cachedDaemonAccessGrant, .ok (some grant)⟩ : Sight Config Capsule) ∈ seen ∧
      auth = authContext grant ∧ shouldRefreshAt grant n = true
  /-- Only grants of the daemon are cached. -/
  caches : ∀ grant, o = .setCachedDaemonAccessGrant (some grant) →
    ∃ auth id v payload, (⟨.sendEnvelope .authIssue auth, .ok (.ok id v payload)⟩ :
      Sight Config Capsule) ∈ seen ∧ readGrant payload = .ok grant
  /-- Work that is done once is sent again only after a rejection. -/
  resends : ∀ command auth, o = .sendEnvelope command auth → command ≠ .authIssue → once →
    Unserved seen

variable {once : Prop}

theorem lawful_of_calm {seen : Seen Config Capsule} {o : Op Config Capsule}
    (calm : ¬ IsEnvelope o) (uncached : ∀ grant, o ≠ .setCachedDaemonAccessGrant (some grant)) :
    Lawful once seen o := by
  constructor
  · intro auth same
    exact absurd (by rw [same]; trivial) calm
  · intro grant same
    exact absurd same (uncached grant)
  · intro command auth same
    exact absurd (by rw [same]; trivial) calm

theorem silent_nil : Silent ([] : Seen Config Capsule) := by simp [Silent]

theorem Silent.snoc {seen : Seen Config Capsule} {o : Op Config Capsule} (h : Silent seen)
    (calm : ¬ IsEnvelope o) (r : o.Resp) : Silent (seen ++ [⟨o, r⟩]) := by
  intro sight mem
  rcases List.mem_append.mp mem with old | new
  · exact h sight old
  · obtain rfl := List.mem_singleton.mp new
    exact calm

/-- Nothing but `auth/issue` was sent since. -/
def Onward (seen later : Seen Config Capsule) : Prop :=
  ∃ tail, later = seen ++ tail ∧ ∀ command auth (answer : Except String LocalIpcWireResponse),
    (⟨.sendEnvelope command auth, answer⟩ : Sight Config Capsule) ∈ tail → command = .authIssue

/-- A grant that was asked for since, without a token to give back. -/
def Reissued (seen later : Seen Config Capsule) (grant : CachedDaemonAccessGrant) : Prop :=
  ∃ before id v payload after, later = seen ++ (before ++
      (⟨.sendEnvelope .authIssue none, .ok (.ok id v payload)⟩ : Sight Config Capsule) :: after) ∧
    Silent before ∧ Silent after ∧ readGrant payload = .ok grant

/-- An `auth/issue` was answered with an error. -/
def Refused (seen : Seen Config Capsule) : Prop :=
  ∃ auth id v error,
    (⟨.sendEnvelope .authIssue auth, .ok (.err id v error)⟩ : Sight Config Capsule) ∈ seen

namespace Onward

variable {seen later last : Seen Config Capsule}

theorem refl (seen : Seen Config Capsule) : Onward seen seen := ⟨[], by simp, by simp⟩

theorem trans (h : Onward seen later) (h' : Onward later last) : Onward seen last := by
  obtain ⟨tail, rfl, issued⟩ := h
  obtain ⟨tail', rfl, issued'⟩ := h'
  refine ⟨tail ++ tail', by simp, fun command auth answer sent => ?_⟩
  rcases List.mem_append.mp sent with old | new
  · exact issued command auth answer old
  · exact issued' command auth answer new

theorem silent {tail : Seen Config Capsule} (quiet : Silent tail) : Onward seen (seen ++ tail) :=
  ⟨tail, rfl, fun _ _ _ sent => absurd trivial (quiet _ sent)⟩

theorem issue {auth : Option LocalAuthContext} (r : Except String LocalIpcWireResponse) :
    Onward seen (seen ++ [⟨.sendEnvelope .authIssue auth, r⟩]) := by
  refine ⟨[⟨.sendEnvelope .authIssue auth, r⟩], rfl, fun command auth answer sent => ?_⟩
  cases List.mem_singleton.mp sent
  rfl

theorem mem (h : Onward seen later) {sight : Sight Config Capsule} (old : sight ∈ seen) :
    sight ∈ later := by
  obtain ⟨tail, rfl, -⟩ := h
  exact List.mem_append_left _ old

theorem unserved (h : Onward seen later) (before : Unserved seen) : Unserved later := by
  obtain ⟨tail, rfl, issued⟩ := h
  intro command auth answer sent
  rcases List.mem_append.mp sent with old | new
  · exact before command auth answer old
  · exact .inl (issued command auth answer new)

end Onward

theorem readGrant_error {payload : Option Value} {failure : IssueFailure}
    (h : readGrant payload = .error failure) :
    (ProxyError.issue failure).isUnauthorized = false := by
  unfold readGrant at h
  split at h
  · cases h
    rfl
  · split at h
    · cases h
      rfl
    · split at h
      · cases h
      · cases h
        rfl

structure Grants (seen later : Seen Config Capsule) (forced : Prop)
    (result : Except ProxyError CachedDaemonAccessGrant) : Prop where
  onward : Onward seen later
  granted : ∀ grant, result = .ok grant → forced → Reissued seen later grant
  refused : ∀ error, result = .error error → error.isUnauthorized = true → Refused later

def Due (seen : Seen Config Capsule) (current : Option String) : Prop :=
  ∀ token, current = some token → ∃ (n : ℕ) (grant : CachedDaemonAccessGrant),
    (⟨.nowUnixMillis, n⟩ : Sight Config Capsule) ∈ seen ∧
    (⟨.cachedDaemonAccessGrant, .ok (some grant)⟩ : Sight Config Capsule) ∈ seen ∧
    token = grant.accessToken ∧ shouldRefreshAt grant n = true

def issueSight (current : Option String) (answer : Except String LocalIpcWireResponse) :
    Sight Config Capsule :=
  ⟨.sendEnvelope .authIssue (current.map fun token => ⟨some token⟩), answer⟩

theorem cacheGrant_obeys {seen first : Seen Config Capsule} (current : Option String)
    (answer : Except String LocalIpcWireResponse) (silent : Silent first) :
    Obeys (remembering (Lawful once)) (seen ++ first ++ [issueSight current answer])
      (cacheGrant (grantFromAnswer answer))
      fun later result => Grants seen later (current = none) result := by
  have asked : Onward seen (seen ++ first ++ [issueSight current answer]) :=
    (Onward.silent silent).trans (Onward.issue answer)
  rcases answer with detail | ⟨id, v, payload⟩ | ⟨id, v, error⟩
  · exact ⟨asked, by simp, by simp [ProxyError.isUnauthorized]⟩
  · simp only [grantFromAnswer]
    cases read : readGrant payload with
    | error failure =>
      refine ⟨asked, by simp, fun error same code => ?_⟩
      cases same
      rw [readGrant_error read] at code
      cases code
    | ok grant =>
      refine Obeys.act ⟨by simp, ?_, by simp⟩ fun stored => ?_
      · intro grant' same
        cases same
        exact ⟨_, id, v, payload, List.mem_append_right _ (List.mem_singleton_self _), read⟩
      · have stores : Silent [(⟨.setCachedDaemonAccessGrant (some grant), stored⟩ :
            Sight Config Capsule)] := silent_nil.snoc (by simp [IsEnvelope]) stored
        have kept := asked.trans (Onward.silent stores)
        cases stored with
        | error message => exact ⟨kept, by simp, by simp [ProxyError.isUnauthorized]⟩
        | ok _ =>
          refine ⟨kept, fun grant' same fresh => ?_, by simp⟩
          cases same
          subst fresh
          exact ⟨first, id, v, payload, _, by simp [issueSight], silent, stores, read⟩
  · have told : issueSight current (.ok (.err id v error)) ∈
        seen ++ first ++ [issueSight current (.ok (.err id v error))] := by simp
    exact ⟨asked, by simp, fun _ _ _ => ⟨_, id, v, error, told⟩⟩

theorem issueDaemonAccessGrant_obeys {seen first : Seen Config Capsule} {current : Option String}
    (silent : Silent first) (due : Due (seen ++ first) current) :
    Obeys (remembering (Lawful once)) (seen ++ first) (issueDaemonAccessGrant current)
      fun later result => Grants seen later (current = none) result := by
  refine Obeys.act (lawful_of_calm (by simp [IsEnvelope]) (by simp)) fun client => ?_
  have started : Silent (first ++ [⟨.daemonClientForApp, client⟩]) :=
    silent.snoc (by simp [IsEnvelope]) client
  rw [List.append_assoc]
  cases client with
  | error message =>
    exact ⟨Onward.silent started, by simp, by simp [ProxyError.isUnauthorized]⟩
  | ok _ =>
    refine Obeys.act ⟨?_, by simp, by simp⟩ fun answer =>
      cacheGrant_obeys current answer started
    intro auth same
    cases current with
    | none => simp at same
    | some token =>
      obtain ⟨n, grant, read, cached, rfl, old⟩ := due token rfl
      obtain rfl : auth = authContext grant := by simpa [authContext, eq_comm] using same
      rw [← List.append_assoc]
      exact ⟨n, grant, List.mem_append_left _ read, List.mem_append_left _ cached, rfl, old⟩

theorem daemonAccessGrantForCommand_obeys (seen : Seen Config Capsule) (force : Bool) :
    Obeys (remembering (Lawful once)) seen (daemonAccessGrantForCommand force)
      fun later result => Grants seen later (force = true) result := by
  refine Obeys.act (lawful_of_calm (by simp [IsEnvelope]) (by simp)) fun now => ?_
  refine Obeys.act (lawful_of_calm (by simp [IsEnvelope]) (by simp)) fun cached => ?_
  have looked : Silent ([⟨.nowUnixMillis, now⟩] ++ [⟨.cachedDaemonAccessGrant, cached⟩] :
      Seen Config Capsule) :=
    (silent_nil.snoc (by simp [IsEnvelope]) now).snoc (by simp [IsEnvelope]) cached
  rw [List.append_assoc]
  have anew : Obeys (remembering (Lawful once)) (seen ++ ([⟨.nowUnixMillis, now⟩] ++
      [⟨.cachedDaemonAccessGrant, cached⟩])) (issueDaemonAccessGrant none)
      fun later result => Grants seen later (force = true) result :=
    (issueDaemonAccessGrant_obeys looked (by simp [Due])).mono fun later result h =>
      ⟨h.onward, fun grant ok _ => h.granted grant ok rfl, h.refused⟩
  rcases cached with message | _ | grant
  · exact ⟨Onward.silent looked, by simp, by simp [ProxyError.isUnauthorized]⟩
  · exact anew
  · change Obeys (remembering (Lawful once)) _ (useCachedGrant force now grant) _
    unfold useCachedGrant
    split_ifs with usable due
    · refine ⟨Onward.silent looked, fun _ _ forced => ?_, by simp⟩
      simp [forced] at usable
    · have old : shouldRefreshAt grant now = true := by
        simp only [Bool.and_eq_true, Bool.not_eq_true'] at usable due
        cases stale : shouldRefreshAt grant now with
        | true => rfl
        | false => exact absurd ⟨due, stale⟩ usable
      have turn : Due (seen ++ ([⟨.nowUnixMillis, now⟩] ++
          [⟨.cachedDaemonAccessGrant, .ok (some grant)⟩])) (some grant.accessToken) := by
        intro token same
        cases same
        exact ⟨now, grant, by simp, by simp, rfl, old⟩
      refine (issueDaemonAccessGrant_obeys looked turn).bind fun later result h => ?_
      have unforced : ¬ force = true := by
        intro forced
        simp [forced] at due
      cases result with
      | ok fresh => exact ⟨h.onward, fun _ _ forced => absurd forced unforced, by simp⟩
      | error error => exact ⟨h.onward, fun _ _ forced => absurd forced unforced, by simp⟩
    · exact anew

theorem authorize_obeys {command : LocalIpcCommand Config Capsule}
    (guarded : command.requiresAuth = true) (seen : Seen Config Capsule) (retried : Bool) :
    Obeys (remembering (Lawful once)) seen (authorize command retried) fun later result =>
      Onward seen later ∧
      (∀ auth, result = .ok auth → ∃ grant, auth = some (authContext grant) ∧
        (retried = true → Reissued seen later grant)) ∧
      ∀ error, result = .error error → error.isUnauthorized = true → Refused later := by
  unfold authorize
  rw [if_pos guarded]
  refine (daemonAccessGrantForCommand_obeys seen retried).bind fun later result h => ?_
  cases result with
  | ok grant =>
    refine ⟨h.onward, fun auth same => ?_, by simp⟩
    cases same
    exact ⟨grant, rfl, h.granted grant rfl⟩
  | error error =>
    refine ⟨h.onward, by simp, fun error' same => ?_⟩
    cases same
    exact h.refused error rfl

/-- A request was rejected, and rejected again under a grant that was issued in between. -/
def Denied (seen : Seen Config Capsule) : Prop :=
  ∃ command auth first before id v payload after grant,
    ∃ answer answer' : Except String LocalIpcWireResponse,
    seen = first ++ ((⟨.sendEnvelope command auth, answer⟩ : Sight Config Capsule) :: (before ++
      (⟨.sendEnvelope .authIssue none, .ok (.ok id v payload)⟩ : Sight Config Capsule) :: (after ++
      [(⟨.sendEnvelope command (some (authContext grant)), answer'⟩ : Sight Config Capsule)]))) ∧
    command.requiresAuth = true ∧ rejected answer = true ∧ rejected answer' = true ∧
    Silent before ∧ Silent after ∧ readGrant payload = .ok grant

/-- Where an invocation has ended unauthorized, `auth/issue` was refused or the retry was. -/
def Blamed {α : Type} (seen : Seen Config Capsule) (outcome : Except ProxyError α) : Prop :=
  ∀ error, outcome = .error error → error.isUnauthorized = true → Refused seen ∨ Denied seen

def Ended (seen : Seen Config Capsule) : Round → Prop
  | .returned outcome => Blamed seen outcome
  | .broke _ => True

variable {command : LocalIpcCommand Config Capsule}

theorem lawful_request {seen : Seen Config Capsule} {auth : Option LocalAuthContext}
    (guarded : command.requiresAuth = true) (unserved : once → Unserved seen) :
    Lawful once seen (.sendEnvelope command auth) := by
  refine ⟨fun auth' same => ?_, by simp, fun other auth' same _ => unserved⟩
  cases same
  cases guarded

theorem Unserved.rejection {seen : Seen Config Capsule} {auth : Option LocalAuthContext}
    {answer : Except String LocalIpcWireResponse} (h : Unserved seen)
    (refusal : rejected answer = true) :
    Unserved (seen ++ [(⟨.sendEnvelope command auth, answer⟩ : Sight Config Capsule)]) := by
  intro other auth' answer' sent
  rcases List.mem_append.mp sent with old | new
  · exact h other auth' answer' old
  · cases List.mem_singleton.mp new
    exact .inr refusal

theorem retry_obeys (guarded : command.requiresAuth = true) {first : Seen Config Capsule}
    {auth : Option LocalAuthContext} {answer : Except String LocalIpcWireResponse}
    (refusal : rejected answer = true)
    (unserved : once → Unserved first)
    (again : ClientProg Config Capsule Round) :
    Obeys (remembering (Lawful once)) (first ++ [⟨.sendEnvelope command auth, answer⟩] ++
      [⟨.setCachedDaemonAccessGrant none, .ok ()⟩]) (round command true again) Ended := by
  have cleared : Silent [(⟨.setCachedDaemonAccessGrant none, .ok ()⟩ : Sight Config Capsule)] :=
    silent_nil.snoc (by simp [IsEnvelope]) _
  refine (authorize_obeys guarded _ true).bind fun later result h => ?_
  obtain ⟨onward, granted, failed⟩ := h
  cases result with
  | error error =>
    intro error' same code
    cases same
    exact .inl (failed error rfl code)
  | ok auth' =>
    obtain ⟨grant, rfl, reissued⟩ := granted auth' rfl
    obtain ⟨before, id, v, payload, after, rfl, quiet, quiet', read⟩ := reissued rfl
    have waiting (h : once) :=
      onward.unserved ((Onward.silent cleared).unserved ((unserved h).rejection refusal))
    refine Obeys.act (lawful_request guarded waiting) fun answer' => ?_
    rcases answer' with detail | ⟨id', v', payload'⟩ | ⟨id', v', error⟩
    · trivial
    · exact fun error same => by cases same
    · change Obeys _ _ (if _ then _ else _) _
      rw [if_neg (by simp)]
      intro error' same code
      cases same
      refine .inr ⟨command, auth, first, [⟨.setCachedDaemonAccessGrant none, .ok ()⟩] ++ before,
        id, v, payload, after, grant, answer, .ok (.err id' v' error), by simp, guarded, refusal,
        code, ?_, quiet', read⟩
      intro sight mem
      rcases List.mem_append.mp mem with old | new
      · exact cleared sight old
      · exact quiet sight new

theorem attempt_obeys (guarded : command.requiresAuth = true) {seen : Seen Config Capsule}
    (unserved : once → Unserved seen) :
    Obeys (remembering (Lawful once)) seen (attempt command) Ended := by
  refine (authorize_obeys guarded seen false).bind fun later result h => ?_
  obtain ⟨onward, -, failed⟩ := h
  cases result with
  | error error =>
    intro error' same code
    cases same
    exact .inl (failed error rfl code)
  | ok auth =>
    have still (h : once) := onward.unserved (unserved h)
    refine Obeys.act (lawful_request guarded still) fun answer => ?_
    rcases answer with detail | ⟨id, v, payload⟩ | ⟨id, v, error⟩
    · trivial
    · exact fun error same => by cases same
    · change Obeys _ _ (if _ then _ else _) _
      split_ifs with refused
      · refine Obeys.act (lawful_of_calm (by simp [IsEnvelope]) (by simp)) fun cleared => ?_
        cases cleared with
        | error message =>
          intro error' same code
          cases same
          cases code
        | ok _ =>
          have refusal : rejected (.ok (.err id v error)) = true := by
            simpa [guarded, rejected] using refused
          exact retry_obeys guarded refusal still _
      · intro error' same code
        cases same
        exact absurd (by simpa [guarded, ProxyError.isUnauthorized] using code) refused

theorem proxyLoop_obeys (guarded : command.requiresAuth = true) (attempts : ℕ) (delays : List ℕ)
    (last : Option String) {seen : Seen Config Capsule}
    (single : once → ∀ delay rest, delays = delay :: rest → Unserved seen ∧ rest = []) :
    Obeys (remembering (Lawful once)) seen (proxyLoop command attempts delays last) Blamed := by
  induction delays generalizing last seen with
  | nil =>
    intro error same code
    cases same
    cases code
  | cons delay rest ih =>
    have turn {seen' : Seen Config Capsule} (onward : Onward seen seen') :
        Obeys (remembering (Lawful once)) seen' ((attempt command).bind fun
          | .returned outcome => .pure outcome
          | .broke detail => proxyLoop command attempts rest (some detail)) Blamed := by
      have still (h : once) := onward.unserved (single h delay rest rfl).1
      refine (attempt_obeys guarded still).bind fun later result h => ?_
      cases result with
      | returned outcome => exact h
      | broke detail =>
        refine ih (some detail) fun h delay' rest' more => ?_
        rw [(single h delay rest rfl).2] at more
        cases more
    unfold proxyLoop
    by_cases pause : delay > 0
    · simp only [pause, if_true]
      refine Obeys.act (lawful_of_calm (by simp [IsEnvelope]) (by simp)) fun slept => ?_
      exact turn (Onward.silent (silent_nil.snoc (by simp [IsEnvelope]) slept))
    · simp only [pause, if_false]
      exact turn (Onward.refl seen)

theorem retryDelaysMs_write (side : command.commandClass = .writeSide) :
    retryDelaysMs command = [0] := by
  simp [retryDelaysMs, side, daemonProxyWriteRetryDelaysMs]

theorem proxyCommand_obeys (guarded : command.requiresAuth = true) :
    Obeys (remembering (Lawful (command.commandClass = .writeSide))) []
      (proxyCommandPayloadWithRetries command (retryDelaysMs command)) Blamed := by
  refine Obeys.act (lawful_of_calm (by simp [IsEnvelope]) (by simp)) fun proxying => ?_
  have asked : Silent ([] ++ [(⟨.shouldProxyViaDaemon, proxying⟩ : Sight Config Capsule)]) :=
    silent_nil.snoc (by simp [IsEnvelope]) proxying
  cases proxying with
  | false =>
    intro error same
    cases same
  | true =>
    refine Obeys.act (lawful_of_calm (by simp [IsEnvelope]) (by simp)) fun client => ?_
    have begun := asked.snoc (o := .daemonClientForApp) (by simp [IsEnvelope]) client
    cases client with
    | error message =>
      intro error same code
      cases same
      cases code
    | ok _ =>
      refine proxyLoop_obeys guarded _ _ none fun side delay rest same => ?_
      rw [retryDelaysMs_write side] at same
      cases same
      exact ⟨fun _ _ _ sent => absurd trivial (begun _ sent), rfl⟩

theorem revoke_obeys : Obeys (remembering (Lawful False)) ([] : Seen Config Capsule)
    revokeCachedDaemonAccessGrant fun _ _ => True := by
  have calm {seen : Seen Config Capsule} {o : Op Config Capsule} (quiet : ¬ IsEnvelope o)
      (uncached : ∀ grant, o ≠ .setCachedDaemonAccessGrant (some grant)) : Lawful False seen o :=
    lawful_of_calm quiet uncached
  refine Obeys.act (calm (by simp [IsEnvelope]) (by simp)) fun cached => ?_
  rcases cached with message | _ | grant
  · trivial
  · trivial
  refine Obeys.act (calm (by simp [IsEnvelope]) (by simp)) fun cleared => ?_
  rcases cleared with message | _
  · trivial
  refine Obeys.act (calm (by simp [IsEnvelope]) (by simp)) fun proxying => ?_
  cases proxying with
  | false => trivial
  | true =>
    refine Obeys.act (calm (by simp [IsEnvelope]) (by simp)) fun client => ?_
    rcases client with message | _
    · trivial
    refine Obeys.act ⟨by simp, by simp, by simp⟩ fun answer => ?_
    rcases answer with detail | _ | _
    · trivial
    · trivial
    · trivial

/-- The party is to have a command of the write side carried out. -/
def writes : Party Config Capsule → Prop
  | .invoke command _ => command.commandClass = .writeSide
  | _ => False

/-- Everything that takes part keeps to the law, and where an invocation has ended unauthorized
there is a refusal to blame. -/
theorem program_obeys (party : Party Config Capsule) :
    Obeys (remembering (Lawful (writes party))) [] party.program fun later outcome =>
      ∀ command guarded, party = .invoke command guarded → Blamed later outcome := by
  cases party with
  | invoke command guarded =>
    exact (proxyCommand_obeys guarded).mono fun later outcome h _ _ _ => h
  | revoke => exact revoke_obeys.mono fun _ _ _ => by simp
  | restart =>
    exact Obeys.act (lawful_of_calm (by simp [IsEnvelope]) (by simp)) fun _ => by simp [Obeys]
  | idle =>
    exact Obeys.act (lawful_of_calm (by simp [IsEnvelope]) (by simp)) fun _ => by simp [Obeys]
  | tick ms =>
    exact Obeys.act (lawful_of_calm (by simp [IsEnvelope]) (by simp)) fun _ => by simp [Obeys]

abbrev ClientMoment (Config Capsule S : Type) :=
  Moment (Op Config Capsule) Op.Resp (World Config Capsule S)

structure Later (w w' : World Config Capsule S) : Prop where
  clock : w.now < 2 ^ 64 → w.now ≤ w'.now ∧ w'.now < 2 ^ 64
  issued : w.issued ⊆ w'.issued

theorem Later.refl (w : World Config Capsule S) : Later w w :=
  ⟨fun bound => ⟨le_refl _, bound⟩, fun _ mem => mem⟩

theorem Later.trans {u v w : World Config Capsule S} (h : Later u v) (h' : Later v w) :
    Later u w := by
  refine ⟨fun bound => ?_, fun _ mem => h'.issued (h.issued mem)⟩
  obtain ⟨le, mid⟩ := h.clock bound
  obtain ⟨le', last⟩ := h'.clock mid
  exact ⟨le.trans le', last⟩

section Runs

variable {json : ToValue Config Capsule} {serde : FromValue Config Capsule}
  {service : Service Config Capsule S} {currentUid : ℕ} {reload : S → S}
variable {i : ℕ} {x : Weather} {w w' : World Config Capsule S}

/-- A round trip is lost on its way out, or is served and may be lost on its way back. -/
theorem exec_send {auth : Option LocalAuthContext} {answer : Except String LocalIpcWireResponse}
    (done : exec json serde service currentUid reload i (.sendEnvelope command auth) x w =
      some (w', answer)) :
    (w' = w ∧ ∃ detail, answer = .error detail) ∨
      (w' = (serveEnvelope json serde service currentUid i command auth x w).1 ∧
        ((∃ detail, answer = .error detail) ∨
          answer = .ok (serveEnvelope json serde service currentUid i command auth x w).2)) := by
  simp only [exec] at done
  split at done
  · cases done
    exact .inl ⟨rfl, _, rfl⟩
  · cases done
    exact .inr ⟨rfl, .inl ⟨_, rfl⟩⟩
  · cases done
    exact .inr ⟨rfl, .inr rfl⟩

theorem serveEnvelope_later (auth : Option LocalAuthContext) :
    Later w (serveEnvelope json serde service currentUid i command auth x w).1 :=
  ⟨fun bound => ⟨le_refl _, bound⟩, fun _ mem => List.mem_append_left _ mem⟩

theorem exec_later {o : Op Config Capsule} {r : o.Resp}
    (done : exec json serde service currentUid reload i o x w = some (w', r)) : Later w w' := by
  cases o with
  | setCachedDaemonAccessGrant grant =>
    simp only [exec] at done
    split at done
    · cases done
      exact .refl _
    · cases done
      exact ⟨fun bound => ⟨le_refl _, bound⟩, fun _ mem => mem⟩
  | sendEnvelope command auth =>
    rcases exec_send done with ⟨rfl, -⟩ | ⟨rfl, -⟩
    · exact .refl _
    · exact serveEnvelope_later auth
  | tick ms =>
    cases done
    refine ⟨fun bound => ?_, fun _ mem => mem⟩
    simp only [saturatingAdd]
    omega
  | restart | idle =>
    cases done
    exact ⟨fun bound => ⟨le_refl _, bound⟩, fun _ mem => mem⟩
  | shouldProxyViaDaemon | daemonClientForApp | sleep ms | nowUnixMillis
  | cachedDaemonAccessGrant =>
    cases done
    exact .refl _

variable {now : UInt64} {rest : S} {parties : List (Party Config Capsule)}
variable {ms pre post : List (ClientMoment Config Capsule S)} {m : ClientMoment Config Capsule S}
variable {t : Pool (Op Config Capsule) Op.Resp (World Config Capsule S)
  (Except ProxyError (Option Value))}

theorem lawful_at (run : Chronicle (exec json serde service currentUid reload) Distinct
    (begin now rest parties) (pre ++ m :: post) t) :
    ∃ party, parties[m.thread]? = some party ∧ Lawful (writes party) (own m.thread pre) m.op := by
  obtain ⟨ts, k, x, w', past, next, -, -⟩ := run.at_place
  have inside : m.thread < parties.length := by
    have bound := (List.getElem?_eq_some_iff.mp next).1
    have same := past.length_threads
    simp only [begin, List.length_map] at same
    omega
  have here : (begin now rest parties).threads[m.thread]? =
      some (parties[m.thread].program) := by
    simp [begin, inside]
  exact ⟨parties[m.thread], List.getElem?_eq_getElem inside,
    (run.remembers here (program_obeys parties[m.thread])).2 pre m post rfl rfl⟩

theorem clock_bounded (run : Chronicle (exec json serde service currentUid reload) Distinct
    (begin now rest parties) ms t) :
    t.world.now < 2 ^ 64 ∧ ∀ m ∈ ms, m.before.now < 2 ^ 64 :=
  run.before_invariant (fun w => w.now < 2 ^ 64) now.toNat_lt fun _ _ _ _ _ _ bound done =>
    ((exec_later done).clock bound).2

theorem later_of_mem (run : Chronicle (exec json serde service currentUid reload) Distinct
    (begin now rest parties) ms t) (mem : m ∈ ms) :
    Later m.before t.world ∧ ∃ x w', Distinct m.thread m.op x m.before ∧
      exec json serde service currentUid reload m.thread m.op x m.before = some (w', m.answer) ∧
      Later w' t.world :=
  run.since Later Later.refl (fun _ _ _ => Later.trans) (fun _ _ _ _ _ _ _ => exec_later) mem

theorem readGrant_payload {grant : LocalIpcAccessGrant} (expires : grant.expiresAtUnixMs < 2 ^ 64)
    (refresh : grant.refreshAfterUnixMs < 2 ^ 64) :
    readGrant (some grant.payload) = .ok grant := by
  have first : valueU64 (.nat grant.expiresAtUnixMs) = some grant.expiresAtUnixMs := if_pos expires
  have second : valueU64 (.nat grant.refreshAfterUnixMs) = some grant.refreshAfterUnixMs :=
    if_pos refresh
  have read : grantFromValue (.object [("access_token", .string grant.accessToken),
      ("expires_at_unix_ms", .nat grant.expiresAtUnixMs),
      ("refresh_after_unix_ms", .nat grant.refreshAfterUnixMs)]) =
      (valueU64 (.nat grant.expiresAtUnixMs)).bind fun expiresAtUnixMs =>
        (valueU64 (.nat grant.refreshAfterUnixMs)).bind fun refreshAfterUnixMs =>
          some ⟨grant.accessToken, expiresAtUnixMs, refreshAfterUnixMs⟩ := rfl
  rw [first, second] at read
  have field : grant.payload.asObject.bind (List.lookup "auth") =
      some (.object [("access_token", .string grant.accessToken),
        ("expires_at_unix_ms", .nat grant.expiresAtUnixMs),
        ("refresh_after_unix_ms", .nat grant.refreshAfterUnixMs)]) := rfl
  simp only [readGrant, field, read, Option.bind_some]

theorem readGrant_grantOf (call : Call) (tokens : TokenMap) :
    readGrant (some (grantOf call tokens).payload) = .ok (grantOf call tokens) := by
  have small (a b : ℕ) : saturatingAdd a b < 2 ^ 64 := by
    simp only [saturatingAdd]
    omega
  exact readGrant_payload (small _ _) (small _ _)

theorem issued_of_answer {auth : Option LocalAuthContext} {id : String} {v : ℕ}
    {payload : Option Value} {grant : LocalIpcAccessGrant}
    (done : exec json serde service currentUid reload i (.sendEnvelope .authIssue auth) x w =
      some (w', .ok (.ok id v payload))) (read : readGrant payload = .ok grant) :
    grant = grantOf (callOf json currentUid .authIssue auth x w.now) w.daemon.tokens ∧
      w'.now = w.now ∧ w'.issued = w.issued ++ [grant] ∧
      w'.daemon.tokens = (issueLocalIpcAccessGrant w.now x.bytes
        (auth.bind LocalAuthContext.accessToken) w.daemon.tokens).2 := by
  rcases exec_send done with ⟨-, _, lost⟩ | ⟨rfl, ⟨_, lost⟩ | answered⟩
  · cases lost
  · cases lost
  · simp only [serveEnvelope, issue_served] at answered
    cases answered
    rw [readGrant_grantOf] at read
    cases read
    exact ⟨rfl, rfl, rfl, by simp only [serveEnvelope, issue_served]⟩

theorem unissued_refusal {auth : Option LocalAuthContext} {id : String} {v : ℕ}
    {error : LocalIpcError} : exec json serde service currentUid reload i
      (.sendEnvelope .authIssue auth) x w ≠ some (w', .ok (.err id v error)) := by
  intro done
  rcases exec_send done with ⟨-, _, lost⟩ | ⟨-, ⟨_, lost⟩ | answered⟩
  · cases lost
  · cases lost
  · simp only [serveEnvelope, issue_served] at answered
    cases answered

theorem exec_cachedGrant {o : Op Config Capsule} {r : o.Resp} {grant : CachedDaemonAccessGrant}
    (done : exec json serde service currentUid reload i o x w = some (w', r))
    (cached : w'.cachedGrant = some grant) :
    w.cachedGrant = some grant ∨ o = .setCachedDaemonAccessGrant (some grant) := by
  cases o with
  | setCachedDaemonAccessGrant grant' =>
    simp only [exec] at done
    split at done
    · cases done
      exact .inl cached
    · cases done
      obtain rfl : grant' = some grant := cached
      exact .inr rfl
  | sendEnvelope command auth =>
    rcases exec_send done with ⟨rfl, -⟩ | ⟨rfl, -⟩
    · exact .inl cached
    · exact .inl cached
  | shouldProxyViaDaemon | daemonClientForApp | sleep ms | nowUnixMillis
  | cachedDaemonAccessGrant | restart | idle | tick ms =>
    cases done
    exact .inl cached

theorem cached_issued (run : Chronicle (exec json serde service currentUid reload) Distinct
    (begin now rest parties) ms t) {grant : CachedDaemonAccessGrant}
    (cached : t.world.cachedGrant = some grant) : grant ∈ t.world.issued := by
  induction run with
  | start => cases cached
  | step past next allowed done ih =>
    rcases exec_cachedGrant done cached with old | rfl
    · exact (exec_later done).issued (ih old)
    · obtain ⟨_, _, lawful⟩ := lawful_at (past.step next allowed done)
      obtain ⟨auth, id, v, payload, told, read⟩ := lawful.caches grant rfl
      obtain ⟨w₀, asked⟩ := moment_of_own told
      obtain ⟨-, x₀, w₁, -, served, later⟩ := later_of_mem past asked
      obtain ⟨-, -, listed, -⟩ := issued_of_answer served read
      have new : grant ∈ w₁.issued := by simp [listed]
      exact (exec_later done).issued (later.issued new)

theorem exec_issued {o : Op Config Capsule} {r : o.Resp}
    (done : exec json serde service currentUid reload i o x w = some (w', r)) :
    w'.issued = w.issued ∨ ∃ auth, o = .sendEnvelope .authIssue auth ∧ w'.issued = w.issued ++
      [grantOf (callOf json currentUid .authIssue auth x w.now) w.daemon.tokens] := by
  have served (command : LocalIpcCommand Config Capsule) (auth : Option LocalAuthContext) :
      (serveEnvelope json serde service currentUid i command auth x w).1.issued = w.issued ∨
      command = .authIssue ∧
      (serveEnvelope json serde service currentUid i command auth x w).1.issued = w.issued ++
        [grantOf (callOf json currentUid .authIssue auth x w.now) w.daemon.tokens] := by
    cases command with
    | authIssue => exact .inr ⟨rfl, rfl⟩
    | _ => exact .inl (List.append_nil _)
  cases o with
  | setCachedDaemonAccessGrant grant =>
    simp only [exec] at done
    split at done <;> cases done <;> exact .inl rfl
  | sendEnvelope command auth =>
    rcases exec_send done with ⟨rfl, -⟩ | ⟨rfl, -⟩
    · exact .inl rfl
    · rcases served command auth with same | ⟨rfl, grown⟩
      · exact .inl same
      · exact .inr ⟨auth, rfl, grown⟩
  | shouldProxyViaDaemon | daemonClientForApp | sleep ms | nowUnixMillis
  | cachedDaemonAccessGrant | restart | idle | tick ms =>
    cases done
    exact .inl rfl

theorem issued_nodup (run : Chronicle (exec json serde service currentUid reload) Distinct
    (begin now rest parties) ms t) :
    (t.world.issued.map LocalIpcAccessGrant.accessToken).Nodup := by
  induction run with
  | start => simp [begin]
  | step past next allowed done ih =>
    rcases exec_issued done with same | ⟨auth, rfl, grown⟩
    · rw [same]
      exact ih
    · have fresh := allowed auth rfl
      rw [grown, List.map_append, List.nodup_append]
      refine ⟨ih, by simp, fun token old token' new same => fresh ?_⟩
      rw [List.map_singleton, List.mem_singleton] at new
      rw [same, new] at old
      exact old

def Stands (grant : LocalIpcAccessGrant) (w : World Config Capsule S) : Prop :=
  w.daemon.tokens.lookup grant.accessToken =
    some ⟨grant.expiresAtUnixMs, grant.refreshAfterUnixMs⟩

theorem lookup_retain_live {grant : LocalIpcAccessGrant} {n : ℕ} {tokens : TokenMap}
    (stands : tokens.lookup grant.accessToken =
      some ⟨grant.expiresAtUnixMs, grant.refreshAfterUnixMs⟩) (live : n < grant.expiresAtUnixMs) :
    (retain (·.live n) tokens).lookup grant.accessToken =
      some ⟨grant.expiresAtUnixMs, grant.refreshAfterUnixMs⟩ := by
  simp [stands, LocalIpcAccessTokenRecord.live, live]

theorem lookup_issue {grant : LocalIpcAccessGrant} {n : ℕ} {tokens : TokenMap}
    {bytes : Vector UInt8 32} {previous : Option String}
    (stands : tokens.lookup grant.accessToken =
      some ⟨grant.expiresAtUnixMs, grant.refreshAfterUnixMs⟩) (live : n < grant.expiresAtUnixMs)
    (other : buildLocalIpcAccessToken bytes ≠ grant.accessToken)
    (kept : previous ≠ some grant.accessToken) :
    (issueLocalIpcAccessGrant n bytes previous tokens).2.lookup grant.accessToken =
      some ⟨grant.expiresAtUnixMs, grant.refreshAfterUnixMs⟩ := by
  simp only [issueLocalIpcAccessGrant, AList.lookup_insert_ne (Ne.symm other)]
  unfold removePrevious
  cases given : presented previous with
  | none => exact lookup_retain_live stands live
  | some token =>
    have different : grant.accessToken ≠ token := by
      rintro rfl
      exact kept (presented_eq_some given)
    simp only [AList.lookup_erase_ne different]
    exact lookup_retain_live stands live

/-- A grant stands on until it runs out, is given back or is revoked, or the daemon restarts. -/
theorem stands_step {o : Op Config Capsule} {r : o.Resp} {grant : LocalIpcAccessGrant}
    (done : exec json serde service currentUid reload i o x w = some (w', r))
    (fresh : Distinct i o x w) (stands : Stands grant w) (listed : grant ∈ w.issued)
    (live : w.now < grant.expiresAtUnixMs) (running : o ≠ .restart)
    (unrevoked : ∀ auth, o ≠ .sendEnvelope .authRevoke auth)
    (kept : o ≠ .sendEnvelope .authIssue (some (authContext grant))) : Stands grant w' := by
  have served (command : LocalIpcCommand Config Capsule) (auth : Option LocalAuthContext)
      (sent : o = .sendEnvelope command auth) :
      Stands grant (serveEnvelope json serde service currentUid i command auth x w).1 := by
    subst sent
    by_cases issue : command = .authIssue
    · subst issue
      simp only [Stands, serveEnvelope, issue_served]
      refine lookup_issue stands live (fun same => ?_) fun same => ?_
      · exact fresh auth rfl (List.mem_map.mpr ⟨grant, listed, same.symm⟩)
      · obtain ⟨⟨token⟩, rfl, rfl⟩ := Option.bind_eq_some_iff.mp same
        exact kept rfl
    · have revoke : command ≠ .authRevoke := by
        rintro rfl
        exact unrevoked auth rfl
      rcases tokens_of_dispatch json serde service currentUid auth x w.now w.daemon issue
        revoke with same | pruned
      · simp only [Stands, serveEnvelope, same]
        exact stands
      · simp only [Stands, serveEnvelope, pruned]
        exact lookup_retain_live stands live
  cases o with
  | setCachedDaemonAccessGrant grant' =>
    simp only [exec] at done
    split at done <;> cases done <;> exact stands
  | sendEnvelope command auth =>
    rcases exec_send done with ⟨rfl, -⟩ | ⟨rfl, -⟩
    · exact stands
    · exact served command auth rfl
  | restart => exact absurd rfl running
  | idle =>
    cases done
    exact lookup_retain_live stands live
  | shouldProxyViaDaemon | daemonClientForApp | sleep ms | nowUnixMillis
  | cachedDaemonAccessGrant | tick ms =>
    cases done
    exact stands

theorem shouldRefreshAt_mono {grant : CachedDaemonAccessGrant} {n n' : ℕ}
    (due : shouldRefreshAt grant n = true) (le : n ≤ n') : shouldRefreshAt grant n' = true := by
  simp only [shouldRefreshAt, saturatingAdd, ge_iff_le, decide_eq_true_eq] at due ⊢
  omega

/-- Who gives a grant back has found it due by a clock that had come no further than now. -/
theorem due_of_refresh (run : Chronicle (exec json serde service currentUid reload) Distinct
    (begin now rest parties) (pre ++ m :: post) t) {grant : LocalIpcAccessGrant}
    (listed : grant ∈ m.before.issued)
    (gives : m.op = .sendEnvelope .authIssue (some (authContext grant))) :
    shouldRefreshAt grant m.before.now = true := by
  obtain ⟨_, _, lawful⟩ := lawful_at run
  obtain ⟨n, cached, read, looked, same, due⟩ := lawful.refresh _ gives
  obtain ⟨ts, k, x, w', past, -, -, -⟩ := run.at_place
  -- The grant that was found in the cache is the one that is given back.
  obtain ⟨w₀, taken⟩ := moment_of_own looked
  obtain ⟨later, -⟩ := later_of_mem past taken
  have known : cached ∈ m.before.issued := by
    obtain ⟨first, last, split⟩ := List.append_of_mem taken
    rw [split] at past
    obtain ⟨ts₀, k₀, x₀, w₁, found, -, -, done⟩ := past.at_place
    have held : w₀.cachedGrant = some cached := by
      simp only [exec, unlessFault] at done
      split at done
      · cases done
      · exact Except.ok.inj (Prod.mk.inj (Option.some.inj done)).2
    exact later.issued (cached_issued found held)
  have alike : grant.accessToken = cached.accessToken := by simpa [authContext] using same
  obtain rfl : grant = cached :=
    List.inj_on_of_nodup_map (issued_nodup past) listed known alike
  -- The clock was read before.
  obtain ⟨w₂, timed⟩ := moment_of_own read
  obtain ⟨earlier, x₂, w₃, -, done, -⟩ := later_of_mem past timed
  obtain rfl : w₂.now = n := (Prod.mk.inj (Option.some.inj done)).2
  exact shouldRefreshAt_mono due (earlier.clock ((clock_bounded past).2 _ timed)).1

/-- The time that is left between an issue and the moment from which its token may be given
back. -/
def refreshMarginMs : ℕ := tokenRefreshAfterMs - daemonAccessGrantExpirySkewMs

def Calm (between : List (ClientMoment Config Capsule S)) : Prop :=
  ∀ m ∈ between, m.op ≠ .restart ∧ ∀ auth, m.op ≠ .sendEnvelope .authRevoke auth

structure Held (grant : LocalIpcAccessGrant) (w : World Config Capsule S) : Prop where
  stands : Stands grant w
  listed : grant ∈ w.issued
  live : w.now < grant.expiresAtUnixMs

theorem held_of_issue {auth : Option LocalAuthContext} {id : String} {v : ℕ}
    {payload : Option Value} {grant : LocalIpcAccessGrant}
    (done : exec json serde service currentUid reload i (.sendEnvelope .authIssue auth) x w =
      some (w', .ok (.ok id v payload))) (read : readGrant payload = .ok grant)
    (range : w.now + tokenRefreshAfterMs < 2 ^ 64) :
    Held grant w' ∧ presented (some grant.accessToken) = some grant.accessToken ∧
      grant.refreshAfterUnixMs = w.now + tokenRefreshAfterMs ∧
      grant.refreshAfterUnixMs ≤ grant.expiresAtUnixMs := by
  obtain ⟨rfl, clock, listed, tokens⟩ := issued_of_answer done read
  refine ⟨⟨?_, by simp [listed], ?_⟩, presented_built x.bytes, ?_, ?_⟩
  · simp [Stands, tokens, grantOf, issueLocalIpcAccessGrant, callOf]
  all_goals
    simp only [grantOf, issueLocalIpcAccessGrant, callOf, saturatingAdd, tokenTtlMs, clock,
      tokenRefreshAfterMs] at range ⊢
    omega

theorem held_until {reissue : ClientMoment Config Capsule S}
    {between : List (ClientMoment Config Capsule S)} {grant : LocalIpcAccessGrant}
    (run : Chronicle (exec json serde service currentUid reload) Distinct
      (begin now rest parties) (pre ++ reissue :: between) t)
    (begun : ∀ x w', exec json serde service currentUid reload reissue.thread reissue.op x
      reissue.before = some (w', reissue.answer) → Held grant w')
    (due : grant.refreshAfterUnixMs = reissue.before.now + tokenRefreshAfterMs)
    (soon : t.world.now < reissue.before.now + refreshMarginMs)
    (long : grant.refreshAfterUnixMs ≤ grant.expiresAtUnixMs) (calm : Calm between) :
    Held grant t.world := by
  induction between using List.reverseRecOn generalizing t with
  | nil =>
    obtain ⟨ts, x, -, -, done⟩ := run.last_step
    exact begun x t.world done
  | append_singleton between m ih =>
    have split : pre ++ reissue :: (between ++ [m]) = (pre ++ reissue :: between) ++ [m] := by simp
    rw [split] at run
    obtain ⟨ts, x, past, fresh, done⟩ := run.last_step
    obtain ⟨le, -⟩ := (exec_later done).clock (clock_bounded past).1
    have earlier : m.before.now < reissue.before.now + refreshMarginMs := by omega
    have held := ih past earlier fun m' mem => calm m' (by simp [mem])
    obtain ⟨running, unrevoked⟩ := calm m (by simp)
    have kept : m.op ≠ .sendEnvelope .authIssue (some (authContext grant)) := by
      intro gives
      have old := due_of_refresh run held.listed gives
      simp only [shouldRefreshAt, saturatingAdd, daemonAccessGrantExpirySkewMs, due,
        ge_iff_le, decide_eq_true_eq] at old
      simp only [refreshMarginMs, tokenRefreshAfterMs, daemonAccessGrantExpirySkewMs] at earlier old
      omega
    refine ⟨stands_step done fresh held.stands held.listed held.live running unrevoked kept,
      (exec_later done).issued held.listed, ?_⟩
    simp only [refreshMarginMs] at soon
    omega

theorem response_of_rejected {answer : Except String LocalIpcWireResponse}
    (h : rejected answer = true) :
    ∃ id v error, answer = .ok (.err id v error) ∧ error.code = "unauthorized" := by
  rcases answer with detail | ⟨id, v, payload⟩ | ⟨id, v, error⟩
  · cases h
  · cases h
  · exact ⟨id, v, error, rfl, by simpa [rejected] using h⟩

theorem held_accepted {answer : Except String LocalIpcWireResponse} {grant : LocalIpcAccessGrant}
    (guarded : command.requiresAuth = true)
    (done : exec json serde service currentUid reload i
      (.sendEnvelope command (some (authContext grant))) x w = some (w', answer))
    (held : Held grant w) (shown : presented (some grant.accessToken) = some grant.accessToken) :
    rejected answer ≠ true := by
  intro refusal
  obtain ⟨id, v, error, rfl, code⟩ := response_of_rejected refusal
  have admitted : Admitted (callOf json currentUid command (some (authContext grant)) x w.now)
      w.daemon.tokens := ⟨grant.accessToken, shown, _, held.stands, held.live⟩
  rcases exec_send done with ⟨-, _, lost⟩ | ⟨-, ⟨_, lost⟩ | answered⟩
  · cases lost
  · cases lost
  · have response := (Except.ok.inj answered).symm
    obtain ⟨-, rfl | inadmissible⟩ := unauthorized_of_dispatch json serde service currentUid
      response code
    · cases guarded
    · exact inadmissible admitted

/-- The thread sends nothing in these moments. -/
def Quiet (i : ℕ) (ms : List (ClientMoment Config Capsule S)) : Prop :=
  ∀ m ∈ ms, m.thread = i → ¬ IsEnvelope m.op

theorem quiet_of_silent {ms : List (ClientMoment Config Capsule S)} (h : Silent (own i ms)) :
    Quiet i ms := by
  intro m mem mine
  have sight : (⟨m.op, m.answer⟩ : Sight Config Capsule) ∈ own i ms :=
    List.mem_map.mpr ⟨m, by simp [mem, mine], rfl⟩
  exact h _ sight

/-- A request of the thread is answered as unauthorized, the thread has itself issued a new grant
next, and then sends the request again. -/
def Retry (i : ℕ) (ms : List (ClientMoment Config Capsule S))
    (reissue : ClientMoment Config Capsule S) (between : List (ClientMoment Config Capsule S))
    (request : ClientMoment Config Capsule S) : Prop :=
  ∃ earlier command auth answer w waiting later,
    ms = earlier ++ (⟨i, .sendEnvelope command auth, answer, w⟩ : ClientMoment Config Capsule S) ::
      (waiting ++ reissue :: (between ++ request :: later)) ∧
    rejected answer = true ∧ Quiet i waiting ∧
    reissue.thread = i ∧ reissue.op = .sendEnvelope .authIssue none ∧ Quiet i between ∧
    request.thread = i ∧ ∃ auth', request.op = .sendEnvelope command auth'

/-- Whenever the thread retries, the request is validated soon after the re-issue, and in between
the daemon is not restarted and nothing is revoked. -/
def Undisturbed (i : ℕ) (ms : List (ClientMoment Config Capsule S)) : Prop :=
  ∀ reissue between request, Retry i ms reissue between request →
    request.before.now < reissue.before.now + 115000 ∧ Calm between

/-- The clock can still count to the refresh mark of what is issued for a retry. -/
def WithinRange (i : ℕ) (ms : List (ClientMoment Config Capsule S)) : Prop :=
  ∀ reissue between request, Retry i ms reissue between request →
    reissue.before.now + tokenRefreshAfterMs < 2 ^ 64

theorem not_refused (run : Chronicle (exec json serde service currentUid reload) Distinct
    (begin now rest parties) ms t) : ¬ Refused (own i ms) := by
  intro ⟨auth, id, v, error, told⟩
  obtain ⟨w, taken⟩ := moment_of_own told
  obtain ⟨x, w', -, done⟩ := run.executed taken
  exact unissued_refusal done

theorem not_denied (run : Chronicle (exec json serde service currentUid reload) Distinct
    (begin now rest parties) ms t) (undisturbed : Undisturbed i ms) (range : WithinRange i ms) :
    ¬ Denied (own i ms) := by
  intro ⟨command, auth, first, before, id, v, payload, after, grant, answer, answer', seen, guarded,
    refusal, refusal', quiet, quiet', read⟩
  obtain ⟨earlier, w₀, rest₀, rfl, -, seen₀⟩ := place_of_own seen
  obtain ⟨waiting, w₁, rest₁, rfl, rfl, seen₁⟩ := place_of_own seen₀
  obtain ⟨between, w₂, later, rfl, rfl, -⟩ := place_of_own seen₁
  have retry : Retry i (earlier ++ (⟨i, .sendEnvelope command auth, answer, w₀⟩ :
      ClientMoment Config Capsule S) :: (waiting ++ ⟨i, .sendEnvelope .authIssue none,
        .ok (.ok id v payload), w₁⟩ :: (between ++ ⟨i, .sendEnvelope command
          (some (authContext grant)), answer', w₂⟩ :: later)))
      ⟨i, .sendEnvelope .authIssue none, .ok (.ok id v payload), w₁⟩ between
      ⟨i, .sendEnvelope command (some (authContext grant)), answer', w₂⟩ :=
    ⟨earlier, command, auth, answer, w₀, waiting, later, rfl, refusal, quiet_of_silent quiet, rfl,
      rfl, quiet_of_silent quiet', rfl, _, rfl⟩
  obtain ⟨soon, calm⟩ := undisturbed _ _ _ retry
  have counted := range _ _ _ retry
  -- The run up to the request.
  have split : earlier ++ (⟨i, .sendEnvelope command auth, answer, w₀⟩ :
      ClientMoment Config Capsule S) :: (waiting ++ ⟨i, .sendEnvelope .authIssue none,
        .ok (.ok id v payload), w₁⟩ :: (between ++ ⟨i, .sendEnvelope command
          (some (authContext grant)), answer', w₂⟩ :: later)) =
      ((earlier ++ ⟨i, .sendEnvelope command auth, answer, w₀⟩ :: waiting) ++
        ⟨i, .sendEnvelope .authIssue none, .ok (.ok id v payload), w₁⟩ :: between) ++
      ⟨i, .sendEnvelope command (some (authContext grant)), answer', w₂⟩ :: later := by simp
  rw [split] at run
  obtain ⟨ts, k, x, w', past, -, -, done⟩ := run.at_place
  obtain ⟨ts₁, k₁, x₁, w₃, -, -, -, issued⟩ := past.at_place
  obtain ⟨-, shown, due, long⟩ := held_of_issue issued read counted
  have held := held_until past (fun x' w'' again => (held_of_issue again read counted).1) due soon
    long calm
  exact held_accepted guarded done held shown refusal'

/-- How often the daemon has carried out a command for the invocation. -/
def executions (i : ℕ) (w : World Config Capsule S) : ℕ :=
  (w.executed.filter fun done => done.1 = i).length

theorem executions_serveEnvelope (auth : Option LocalAuthContext) (j : ℕ) :
    executions j (serveEnvelope json serde service currentUid i command auth x w).1 =
      executions j w + if j = i ∧ (dispatchRequest serde service currentUid
        (callOf json currentUid command auth x w.now) w.daemon).executed.isSome then 1 else 0 := by
  simp only [executions, serveEnvelope]
  cases (dispatchRequest serde service currentUid
    (callOf json currentUid command auth x w.now) w.daemon).executed with
  | none => simp
  | some served =>
    by_cases mine : j = i
    · simp [mine]
    · have other : ¬ i = j := fun same => mine same.symm
      simp [mine, other]

/-- A step adds at most one execution, to the thread that takes it, and only if it sends
something else than `auth/issue` that is not rejected. -/
theorem executions_step {o : Op Config Capsule} {r : o.Resp}
    (done : exec json serde service currentUid reload i o x w = some (w', r)) (j : ℕ) :
    executions j w' = executions j w ∨ j = i ∧ executions j w' ≤ executions j w + 1 ∧
      ∃ command auth answer, (⟨o, r⟩ : Sight Config Capsule) =
        ⟨.sendEnvelope command auth, answer⟩ ∧ command ≠ .authIssue ∧ rejected answer ≠ true := by
  cases o with
  | sendEnvelope command auth =>
    rcases exec_send done with ⟨rfl, -⟩ | ⟨rfl, answered⟩
    · exact .inl rfl
    · by_cases issue : command = .authIssue
      · subst issue
        left
        simp [executions, serveEnvelope, issue_served]
      · rw [executions_serveEnvelope]
        by_cases refusal : rejected r = true
        · obtain ⟨id, v, error, rfl, code⟩ := response_of_rejected refusal
          rcases answered with ⟨_, lost⟩ | answered
          · cases lost
          · have response := (Except.ok.inj answered).symm
            obtain ⟨unserved, -⟩ := unauthorized_of_dispatch json serde service currentUid
              response code
            left
            simp [unserved]
        · by_cases mine : j = i
          · refine .inr ⟨mine, ?_, command, auth, r, rfl, issue, refusal⟩
            split_ifs <;> omega
          · left
            simp [mine]
  | setCachedDaemonAccessGrant grant =>
    left
    simp only [exec] at done
    split at done <;> cases done <;> rfl
  | shouldProxyViaDaemon | daemonClientForApp | sleep ms | nowUnixMillis
  | cachedDaemonAccessGrant | restart | idle | tick ms =>
    cases done
    exact .inl rfl

/-- An invocation of the write side is carried out at most once, and not at all while all its
requests were rejected. -/
theorem executed_once (run : Chronicle (exec json serde service currentUid reload) Distinct
    (begin now rest parties) ms t) {party : Party Config Capsule}
    (here : parties[i]? = some party) (side : writes party) :
    executions i t.world ≤ 1 ∧ (Unserved (own i ms) → executions i t.world = 0) := by
  induction run with
  | start => simp [begin, executions]
  | @step ms j w w' ts o k x r past next allowed done ih =>
    have fewer (grown : Unserved (own i (ms ++ [⟨j, o, r, w⟩]))) : Unserved (own i ms) := by
      intro command auth answer sent
      refine grown command auth answer ?_
      simp only [own, List.filter_append, List.map_append, List.mem_append]
      exact .inl sent
    rcases executions_step done i with
      same | ⟨rfl, grows, command, auth, answer, sent, work, served⟩
    · change executions i w' ≤ 1 ∧ (_ → executions i w' = 0)
      rw [same]
      exact ⟨ih.1, fun grown => ih.2 (fewer grown)⟩
    · obtain ⟨rfl, answered⟩ := Sigma.mk.inj sent
      obtain rfl := eq_of_heq answered
      obtain ⟨party', there, lawful⟩ := lawful_at (past.step next allowed done)
      obtain rfl : party = party' := Option.some.inj (here.symm.trans there)
      have none_yet := ih.2 (lawful.resends command auth rfl work side)
      change executions i w' ≤ 1 ∧ (_ → executions i w' = 0)
      change executions i w = 0 at none_yet
      refine ⟨by omega, fun grown => ?_⟩
      rw [own_append_self] at grown
      rcases grown command auth r (by simp) with issue | refusal
      · exact absurd issue work
      · exact absurd refusal served

/-- Over any interleaving of proxied commands, revocations, restarts of the daemon and lost
messages, an invocation of the write side is carried out at most once; and no invocation ends
unauthorized whose retries are undisturbed, as long as the clock can count that far. -/
theorem proxied_once_and_authorized (run : Chronicle (exec json serde service currentUid reload)
    Distinct (begin now rest parties) ms t) {command : LocalIpcCommand Config Capsule}
    {guarded : command.requiresAuth = true}
    (invoked : parties[i]? = some (.invoke command guarded)) :
    (command.commandClass = .writeSide → executions i t.world ≤ 1) ∧
    (Undisturbed i ms → WithinRange i ms →
      ∀ error, t.result i = some (.error error) → error.isUnauthorized = false) := by
  refine ⟨fun side => (executed_once run invoked side).1, fun undisturbed range error ended => ?_⟩
  have here : (begin now rest parties).threads[i]? =
      some (Party.program (.invoke command guarded)) := by
    simp [begin, invoked]
  obtain ⟨⟨y, thread, obeys⟩, -⟩ := run.remembers here (program_obeys _)
  obtain rfl : y = .pure (.error error) :=
    Option.some.inj (thread.symm.trans (Pool.thread_of_result ended))
  by_contra code
  rcases obeys command guarded rfl error rfl (by simpa using code) with refused | denied
  · exact not_refused run refused
  · exact not_denied run undisturbed range denied

/-- No clock later than `hi`, nothing that disturbs, and no forced issue long before `hi`. -/
def calmBy (i hi : ℕ) (m : ClientMoment Config Capsule S) : Bool :=
  m.before.now ≤ hi && match m.op with
    | .restart => false
    | .sendEnvelope .authRevoke _ => false
    | .sendEnvelope .authIssue none => m.thread ≠ i || hi < m.before.now + 115000
    | _ => true

theorem undisturbed_of_calmBy {hi : ℕ} (h : ms.all (calmBy i hi) = true) : Undisturbed i ms := by
  have each : ∀ m ∈ ms, calmBy i hi m = true := List.all_eq_true.mp h
  intro reissue between request retry
  obtain ⟨earlier, command, auth, answer, w, waiting, later, split, -, -, mine, forced, -⟩ := retry
  have first := each reissue (by simp [split])
  have second := each request (by simp [split])
  simp only [calmBy, Bool.and_eq_true, decide_eq_true_eq] at first second
  constructor
  · have recent : hi < reissue.before.now + 115000 := by
      have issues := first.2
      rw [forced] at issues
      simpa [mine] using issues
    omega
  · intro m mem
    have calm := (Bool.and_eq_true_iff.mp (each m (by simp [split, mem]))).2
    constructor
    · intro restarts
      simp [restarts] at calm
    · intro auth' revokes
      simp [revokes] at calm

end Runs

def sampleJson : ToValue Unit Unit := ⟨fun _ => .null, fun _ => .null, fun _ => .null⟩

abbrev sampleExec := exec sampleJson sampleSerde sampleService 501 id

abbrev SamplePool := Pool (Op Unit Unit) Op.Resp (World Unit Unit Unit)
  (Except ProxyError (Option Value))

def distinctly (_ : ℕ) (o : Op Unit Unit) (x : Weather) (w : World Unit Unit Unit) : Bool :=
  match o with
  | .sendEnvelope .authIssue _ =>
      buildLocalIpcAccessToken x.bytes ∉ w.issued.map LocalIpcAccessGrant.accessToken
  | _ => true

theorem distinctly_sound (i : ℕ) (o : Op Unit Unit) (x : Weather) (w : World Unit Unit Unit)
    (h : distinctly i o x w = true) : Distinct i o x w := by
  intro auth same
  subst same
  simpa [distinctly] using h

def fair (byte : UInt8) : Weather :=
  ⟨true, none, .answered, "r", none, Vector.replicate 32 byte⟩

theorem exists_sample_run (s : SamplePool) (schedule : List (ℕ × Weather))
    (P : List (ClientMoment Unit Unit Unit) → SamplePool → Bool)
    (h : (recount (restrict sampleExec distinctly) s schedule).any (fun z => P z.1 z.2) = true) :
    ∃ ms t, Chronicle sampleExec Distinct s ms t ∧ P ms t = true := by
  cases played : recount (restrict sampleExec distinctly) s schedule with
  | none => simp [played] at h
  | some z =>
    obtain ⟨ms, t⟩ := z
    exact ⟨ms, t, (chronicle_of_recount played).of_restrict distinctly_sound,
      by simpa [played] using h⟩

def endedUnauthorized (i : ℕ) (t : SamplePool) : Bool :=
  match t.result i with
  | some (.error error) => error.isUnauthorized
  | _ => false

def threeCommands : List (Party Unit Unit) :=
  [.invoke .discoverList rfl, .invoke (.trustPair "bob") rfl, .invoke .trustList rfl, .tick 116000]

/-- The first command fills the cache and the second takes its token; two minutes on, the third
gives that token back, so that the second is rejected and has to retry. -/
def overtaken : List (ℕ × Weather) :=
  List.replicate 8 (0, fair 0) ++ List.replicate 4 (1, fair 0) ++ [(3, fair 0)] ++
    List.replicate 8 (2, fair 1) ++ List.replicate 8 (1, fair 2)

theorem overtaken_pairing_done_once : ∃ ms t,
    Chronicle sampleExec Distinct (begin 1000 () threeCommands) ms t ∧
    Undisturbed 1 ms ∧ WithinRange 1 ms ∧ t.world.issued.length = 3 ∧
    executions 1 t.world = 1 ∧ executions 1 t.world ≤ 1 ∧
    ∀ error, t.result 1 = some (.error error) → error.isUnauthorized = false := by
  obtain ⟨ms, t, run, checked⟩ := exists_sample_run (begin 1000 () threeCommands) overtaken
    (fun ms t => ms.all (calmBy 1 117000) && (t.world.issued.length = 3 &&
      executions 1 t.world = 1)) (by decide +kernel)
  simp only [Bool.and_eq_true, decide_eq_true_eq] at checked
  obtain ⟨calm, issued, once⟩ := checked
  have undisturbed : Undisturbed 1 ms := undisturbed_of_calmBy calm
  have range : WithinRange 1 ms := by
    intro reissue between request retry
    obtain ⟨earlier, command, auth, answer, w, waiting, later, split, -⟩ := retry
    have early := List.all_eq_true.mp calm reissue (by simp [split])
    simp only [calmBy, Bool.and_eq_true, decide_eq_true_eq] at early
    simp only [tokenRefreshAfterMs]
    omega
  have invoked : threeCommands[1]? = some (.invoke (.trustPair "bob") rfl) := rfl
  obtain ⟨most, authorized⟩ := proxied_once_and_authorized run invoked
  exact ⟨ms, t, run, undisturbed, range, issued, once, most rfl, authorized undisturbed range⟩

/-- At the last value of the clock a grant has run out when it is issued: a single command is
rejected, retries at once, and ends unauthorized. -/
theorem last_clock_value_unauthorized :
    ¬ ∀ (now : UInt64) (parties : List (Party Unit Unit)) (ms : List (ClientMoment Unit Unit Unit))
      (t : SamplePool) (i : ℕ) (command : LocalIpcCommand Unit Unit)
      (guarded : command.requiresAuth = true),
      Chronicle sampleExec Distinct (begin now () parties) ms t →
      parties[i]? = some (.invoke command guarded) →
      (command.commandClass = .writeSide → executions i t.world ≤ 1) ∧
      (Undisturbed i ms →
        ∀ error, t.result i = some (.error error) → error.isUnauthorized = false) := by
  intro claimed
  obtain ⟨ms, t, run, checked⟩ := exists_sample_run
    (begin (2 ^ 64 - 1) () [.invoke .discoverList rfl])
    (List.replicate 8 (0, fair 0) ++ List.replicate 7 (0, fair 1))
    (fun ms t => ms.all (calmBy 0 (2 ^ 64 - 1)) && endedUnauthorized 0 t) (by decide +kernel)
  obtain ⟨calm, ended⟩ := Bool.and_eq_true_iff.mp checked
  obtain ⟨-, authorized⟩ :=
    claimed (2 ^ 64 - 1) [.invoke .discoverList rfl] ms t 0 .discoverList rfl run rfl
  unfold endedUnauthorized at ended
  split at ended
  · rename_i error result
    rw [authorized (undisturbed_of_calmBy calm) error result] at ended
    cases ended
  · cases ended

end DashDrop.Ipc.TokenCache
