/- GID: DashDrop/Ipc/Authorization
   source: src-tauri/src/daemon/server.rs, src-tauri/src/state.rs
   anchors: []
   digest: A command is carried out exactly for a token that stands in the record of requests. -/

import DashDrop.Ipc.Dispatch

set_option autoImplicit false
set_option relaxedAutoImplicit false

namespace DashDrop.Ipc.Authorization

open DashDrop.Foundation.Json DashDrop.Foundation.Base64 DashDrop.Foundation.Text
open DashDrop.Foundation.Leases
open DashDrop.Runtime.State (saturatingAdd)
open DashDrop.Ipc.Commands DashDrop.Ipc.Dispatch

def Live (token : String) (now : ℕ) (tokens : TokenMap) : Prop :=
  ∃ record, tokens.lookup token = some record ∧ now < record.expiresAtUnixMs

section Live

variable {token k : String} {now now' : ℕ} {tokens : TokenMap}

theorem live_retain (later : now ≤ now') :
    Live token now' (retain (·.live now) tokens) ↔ Live token now' tokens := by
  simp only [Live, lookup_retain]
  constructor
  · intro ⟨record, found, fresh⟩
    exact ⟨record, (Option.filter_eq_some_iff.mp found).1, fresh⟩
  · intro ⟨record, found, fresh⟩
    refine ⟨record, Option.filter_eq_some_iff.mpr ⟨found, ?_⟩, fresh⟩
    have kept : now < record.expiresAtUnixMs := by omega
    simpa [LocalIpcAccessTokenRecord.live] using kept

theorem live_erase : Live token now (tokens.erase k) ↔ Live token now tokens ∧ token ≠ k := by
  by_cases same : token = k
  · subst same
    simp [Live]
  · simp [Live, AList.lookup_erase_ne same, same]

theorem live_insert {record : LocalIpcAccessTokenRecord} :
    Live token now (tokens.insert k record) ↔
      (token = k ∧ now < record.expiresAtUnixMs) ∨ (token ≠ k ∧ Live token now tokens) := by
  by_cases same : token = k
  · subst same
    simp [Live]
  · simp [Live, AList.lookup_insert_ne same, same]

theorem tokenStatus_ok : tokenStatus now token tokens = .ok () ↔ Live token now tokens := by
  unfold tokenStatus Live
  cases found : tokens.lookup token with
  | none => simp
  | some record => simp [LocalIpcAccessTokenRecord.live]

theorem presented_built (bytes : Vector UInt8 32) :
    presented (some (buildLocalIpcAccessToken bytes)) = some (buildLocalIpcAccessToken bytes) := by
  have solid : Solid (buildLocalIpcAccessToken bytes).toList := by
    rw [buildLocalIpcAccessToken, String.toList_ofList]
    exact urlSafeNoPad_solid bytes.toList
  have filled : urlSafeNoPad.encode bytes.toList ≠ [] := by
    intro empty
    have back := Variant.decode_encode urlSafeNoPad_lawful bytes.toList
    rw [empty] at back
    have none_left : bytes.toList = [] := by simpa [Variant.decode] using back.symm
    have long : bytes.toList.length = 32 := by simp
    rw [none_left] at long
    simp at long
  rw [presented, Option.filter_some, trimmed_of_solid solid]
  simpa [buildLocalIpcAccessToken, String.isEmpty_iff] using filled

end Live

/-- What holds of the tokens when the clock has come to `now`. -/
structure Sound (now : ℕ) (tokens : TokenMap) : Prop where
  /-- None outlives one that is issued now. -/
  bounded : ∀ token record, tokens.lookup token = some record →
    record.expiresAtUnixMs ≤ saturatingAdd now tokenTtlMs
  filled : ∀ token record, tokens.lookup token = some record → presented (some token) = some token

namespace Sound

variable {now now' : ℕ} {tokens : TokenMap}

theorem start (now : ℕ) : Sound now ∅ := ⟨by simp, by simp⟩

theorem later (h : Sound now tokens) (le : now ≤ now') : Sound now' tokens := by
  refine ⟨fun token record found => ?_, h.filled⟩
  have old := h.bounded token record found
  simp only [saturatingAdd] at old ⊢
  omega

theorem prune (h : Sound now tokens) (keep : LocalIpcAccessTokenRecord → Bool) :
    Sound now (retain keep tokens) := by
  constructor
  · intro token record found
    rw [lookup_retain] at found
    exact h.bounded token record (Option.filter_eq_some_iff.mp found).1
  · intro token record found
    rw [lookup_retain] at found
    exact h.filled token record (Option.filter_eq_some_iff.mp found).1

theorem erase (h : Sound now tokens) (k : String) : Sound now (tokens.erase k) := by
  have other {token : String} {record : LocalIpcAccessTokenRecord}
      (found : (tokens.erase k).lookup token = some record) :
      tokens.lookup token = some record := by
    by_cases same : token = k
    · subst same
      simp at found
    · rwa [AList.lookup_erase_ne same] at found
  exact ⟨fun token record found => h.bounded token record (other found),
    fun token record found => h.filled token record (other found)⟩

theorem issue (h : Sound now tokens) (bytes : Vector UInt8 32) (previous : Option String) :
    Sound now (issueLocalIpcAccessGrant now bytes previous tokens).2 := by
  have kept : Sound now (removePrevious previous (retain (·.live now) tokens)) := by
    unfold removePrevious
    cases presented previous with
    | none => exact h.prune _
    | some previous => exact (h.prune _).erase previous
  constructor
  · intro token record found
    by_cases same : token = buildLocalIpcAccessToken bytes
    · subst same
      simp only [issueLocalIpcAccessGrant, AList.lookup_insert, Option.some.injEq] at found
      rw [← found]
    · simp only [issueLocalIpcAccessGrant, AList.lookup_insert_ne same] at found
      exact kept.bounded token record found
  · intro token record found
    by_cases same : token = buildLocalIpcAccessToken bytes
    · subst same
      exact presented_built bytes
    · simp only [issueLocalIpcAccessGrant, AList.lookup_insert_ne same] at found
      exact kept.filled token record found

end Sound

section Dispatch

variable {Config Capsule S : Type} (serde : FromValue Config Capsule)
  (service : Service Config Capsule S) (currentUid : ℕ)

/-- A request issues a token, revokes one, or at most prunes; in the last case it is refused or
is neither of the two. -/
inductive Effect (call : Call) (d : Daemon S) (served : Served Config Capsule S) : Prop where
  | issues (read : LocalIpcCommand.fromWireRequest serde call.request = .ok .authIssue)
      (tokens : served.daemon.tokens =
        (issueLocalIpcAccessGrant call.now call.bytes call.request.token d.tokens).2)
      (response : served.response = .ok call.request.requestId call.request.protoVersion
        (issueLocalIpcAccessGrant call.now call.bytes call.request.token d.tokens).1.payload)
  | revokes (token : String) (given : presented call.request.token = some token)
      (read : LocalIpcCommand.fromWireRequest serde call.request = .ok .authRevoke)
      (tokens : served.daemon.tokens = (retain (·.live call.now) d.tokens).erase token)
      (response : served.response =
        .ok call.request.requestId call.request.protoVersion none)
  | keeps (tokens : served.daemon.tokens = d.tokens ∨
        served.daemon.tokens = retain (·.live call.now) d.tokens)
      (quiet : (∃ error, served.response =
          .err call.request.requestId call.request.protoVersion error) ∨
        LocalIpcCommand.fromWireRequest serde call.request ≠ .ok .authIssue ∧
          LocalIpcCommand.fromWireRequest serde call.request ≠ .ok .authRevoke)

theorem carryOut_tokens (call : Call) (d : Daemon S) (command : LocalIpcCommand Config Capsule) :
    (carryOut service call d command).daemon.tokens = d.tokens := by
  unfold carryOut
  split
  split <;> rfl

theorem validate_tokens (now : ℕ) (token : Option String) (tokens : TokenMap) :
    (validateLocalIpcAccessToken now token tokens).2 = tokens ∨
      (validateLocalIpcAccessToken now token tokens).2 = retain (·.live now) tokens := by
  unfold validateLocalIpcAccessToken
  split
  · exact .inl rfl
  · exact .inr rfl

theorem effect_of_command (call : Call) (d : Daemon S) (command : LocalIpcCommand Config Capsule)
    (read : LocalIpcCommand.fromWireRequest serde call.request = .ok command) :
    Effect serde call d (dispatchCommand service call d command) := by
  unfold dispatchCommand
  simp only
  split
  · exact .keeps (.inl rfl) (.inl ⟨_, rfl⟩)
  · split
    · exact .issues read rfl rfl
    · -- `auth/revoke`
      cases given : presented call.request.token with
      | none =>
        simp only [revokeLocalIpcAccessToken, given]
        exact .keeps (.inl rfl) (.inl ⟨_, rfl⟩)
      | some token =>
        simp only [revokeLocalIpcAccessToken, given]
        cases tokenStatus call.now token d.tokens with
        | ok _ => exact .revokes token given read rfl rfl
        | error reason => exact .keeps (.inr rfl) (.inl ⟨_, rfl⟩)
    · rename_i notIssue notRevoke
      have quiet : LocalIpcCommand.fromWireRequest serde call.request ≠ .ok .authIssue ∧
          LocalIpcCommand.fromWireRequest serde call.request ≠ .ok .authRevoke := by
        rw [read]
        exact ⟨fun same => notIssue (Except.ok.inj same), fun same => notRevoke (Except.ok.inj same)⟩
      have tokens := validate_tokens call.now call.request.token d.tokens
      split
      · cases (validateLocalIpcAccessToken call.now call.request.token d.tokens).1 with
        | ok _ => exact .keeps (by simpa only [carryOut_tokens] using tokens) (.inr quiet)
        | error reason => exact .keeps tokens (.inr quiet)
      · exact .keeps (.inl (carryOut_tokens service call d command)) (.inr quiet)

theorem effect_of_dispatch (call : Call) (d : Daemon S) :
    Effect serde call d (dispatchRequest serde service currentUid call d) := by
  have refused (error : LocalIpcError) : Effect serde call d
      (⟨d, .err call.request.requestId call.request.protoVersion error, none⟩ :
        Served Config Capsule S) :=
    .keeps (.inl rfl) (.inl ⟨_, rfl⟩)
  unfold dispatchRequest
  cases read : LocalIpcCommand.fromWireRequest serde call.request with
  | error error =>
    simp only
    split
    · split
      · exact refused _
      · exact refused error
    · exact refused error
  | ok command =>
    have admitted := effect_of_command serde service call d command read
    simp only
    split
    · split
      · exact refused _
      · exact admitted
    · exact admitted

theorem carryOut_executed (call : Call) (d : Daemon S) (command : LocalIpcCommand Config Capsule) :
    (carryOut service call d command).executed = some command := by
  unfold carryOut
  split
  split <;> rfl

/-- The token that the call presents is live. -/
def Admitted (call : Call) (tokens : TokenMap) : Prop :=
  ∃ token, presented call.request.token = some token ∧ Live token call.now tokens

theorem validate_ok (call : Call) (tokens : TokenMap) :
    (validateLocalIpcAccessToken call.now call.request.token tokens).1 = .ok () ↔
      Admitted call tokens := by
  unfold validateLocalIpcAccessToken Admitted
  cases given : presented call.request.token with
  | none => simp
  | some token => simp [tokenStatus_ok]

variable {command other : LocalIpcCommand Config Capsule}

theorem requiresAuth_endpoint (guarded : command.requiresAuth = true) :
    command.endpointKind = .service := by
  simp only [LocalIpcCommand.requiresAuth, List.mem_cons, List.not_mem_nil, or_false,
    decide_eq_true_eq] at guarded
  unfold LocalIpcCommand.endpointKind
  rcases guarded with h | h | h <;> rw [h]

theorem executed_of_command (call : Call) (d : Daemon S) (guarded : command.requiresAuth = true) :
    (dispatchCommand service call d other).executed = some command ↔
      other = command ∧ call.endpointKind = .service ∧ Admitted call d.tokens := by
  unfold dispatchCommand
  simp only
  split
  · rename_i refused
    constructor
    · intro h
      cases h
    · intro ⟨same, service, _⟩
      subst same
      simp [LocalIpcCommand.acceptsOnEndpoint, requiresAuth_endpoint guarded, service] at refused
  · rename_i accepted
    split
    · constructor
      · intro h
        cases h
      · intro ⟨same, _⟩
        subst same
        cases guarded
    · constructor
      · intro h
        split at h <;> cases h
      · intro ⟨same, _⟩
        subst same
        cases guarded
    · have endpoint : other = command → call.endpointKind = .service := by
        intro same
        subst same
        simp only [LocalIpcCommand.acceptsOnEndpoint, requiresAuth_endpoint guarded,
          Bool.not_eq_true, Bool.not_eq_false', decide_eq_true_eq] at accepted
        exact accepted.symm
      split
      · have valid := validate_ok call d.tokens
        cases outcome : (validateLocalIpcAccessToken call.now call.request.token d.tokens).1 with
        | ok _ =>
          simp only [carryOut_executed, Option.some.injEq]
          exact ⟨fun same => ⟨same, endpoint same, valid.mp outcome⟩, fun h => h.1⟩
        | error reason =>
          constructor
          · intro h
            cases h
          · intro ⟨_, _, admitted⟩
            rw [valid.mpr admitted] at outcome
            cases outcome
      · rename_i open_
        simp only [carryOut_executed, Option.some.injEq]
        constructor
        · intro same
          subst same
          exact absurd guarded open_
        · exact fun h => h.1

theorem executed_iff (call : Call) (d : Daemon S) (guarded : command.requiresAuth = true) :
    (dispatchRequest serde service currentUid call d).executed = some command ↔
      LocalIpcCommand.fromWireRequest serde call.request = .ok command ∧
      call.endpointKind = .service ∧
      (∀ identity, call.peerIdentity = some identity → identity.uid = currentUid) ∧
      Admitted call d.tokens := by
  unfold dispatchRequest
  cases read : LocalIpcCommand.fromWireRequest serde call.request with
  | error error =>
    simp only
    split
    · split <;> simp
    · simp
  | ok other =>
    have admitted : (dispatchCommand service call d other).executed = some command ↔
        other = command ∧ call.endpointKind = .service ∧ Admitted call d.tokens :=
      executed_of_command service call d guarded
    simp only [Except.ok.injEq]
    cases known : call.peerIdentity with
    | none =>
      simp only [reduceCtorEq, false_implies, implies_true, true_and]
      exact admitted
    | some identity =>
      simp only [Option.some.injEq, forall_eq']
      by_cases own : identity.uid = currentUid
      · simp only [own, ne_eq, not_true_eq_false, if_false, true_and]
        exact admitted
      · simp [own]

end Dispatch

section Record

variable {Config Capsule S : Type} (serde : FromValue Config Capsule)
  (service : Service Config Capsule S) (currentUid : ℕ)

/-- An `auth/issue` of the time `t0` that was answered with the token. -/
def Issues (token : String) (t0 : ℕ) (entry : Entry) : Prop :=
  ∃ (call : Call) (grant : LocalIpcAccessGrant),
    entry = ⟨.request call, some (.ok call.request.requestId call.request.protoVersion
      grant.payload)⟩ ∧
    LocalIpcCommand.fromWireRequest serde call.request = .ok .authIssue ∧
    grant.accessToken = token ∧ call.now = t0

/-- A successful `auth/revoke` or `auth/issue` that presents the token. -/
def Withdraws (token : String) (entry : Entry) : Prop :=
  ∃ (call : Call) (payload : Option Value),
    entry = ⟨.request call, some (.ok call.request.requestId call.request.protoVersion payload)⟩ ∧
    call.request.token = some token ∧
    (LocalIpcCommand.fromWireRequest serde call.request = .ok .authRevoke ∨
      LocalIpcCommand.fromWireRequest serde call.request = .ok .authIssue)

variable {token : String} {now t0 : ℕ} {d : Daemon S}

theorem payload_injective {grant grant' : LocalIpcAccessGrant}
    (h : (some grant.payload : Option Value) = some grant'.payload) :
    grant.accessToken = grant'.accessToken := by
  simp only [LocalIpcAccessGrant.payload, Option.some.injEq, Value.object.injEq, List.cons.injEq,
    Prod.mk.injEq, Value.string.injEq, true_and] at h
  exact h.1.1

theorem presented_eq_some {given : Option String} (h : presented given = some token) :
    given = some token :=
  (Option.filter_eq_some_iff.mp h).1

theorem live_issue {t : ℕ} {tokens : TokenMap} (bytes : Vector UInt8 32)
    (previous : Option String) (sound : Sound t tokens) (later : t ≤ now) :
    Live token now (issueLocalIpcAccessGrant t bytes previous tokens).2 ↔
      (token = buildLocalIpcAccessToken bytes ∧ now < saturatingAdd t tokenTtlMs) ∨
      (Live token now tokens ∧ previous ≠ some token) := by
  have kept : Live token now (removePrevious previous (retain (·.live t) tokens)) ↔
      Live token now tokens ∧ previous ≠ some token := by
    unfold removePrevious
    cases given : presented previous with
    | none =>
      rw [live_retain later]
      constructor
      · intro live
        refine ⟨live, fun same => ?_⟩
        obtain ⟨record, found, _⟩ := live
        rw [same, sound.filled token record found] at given
        cases given
      · exact fun h => h.1
    | some shown =>
      rw [live_erase, live_retain later, presented_eq_some given]
      simp [eq_comm]
  -- A token that comes up again runs out no earlier than before.
  have again (live : Live token now tokens) : now < saturatingAdd t tokenTtlMs := by
    obtain ⟨record, found, fresh⟩ := live
    exact lt_of_lt_of_le fresh (sound.bounded token record found)
  rw [issueLocalIpcAccessGrant, live_insert, kept]
  by_cases built : token = buildLocalIpcAccessToken bytes
  · simp only [built, true_and, ne_eq, not_true_eq_false, false_and, or_false]
    rw [← built]
    exact ⟨.inl, fun h => h.elim id fun live => again live.1⟩
  · simp [built]

/-- After a turn the live tokens are the one it issued and those it did not withdraw. -/
theorem live_serve (turn : Turn) (sound : Sound turn.now d.tokens) (later : turn.now ≤ now) :
    Live token now (serve serde service currentUid d turn).1.tokens ↔
      (Issues serde token turn.now (serve serde service currentUid d turn).2 ∧
        now < saturatingAdd turn.now tokenTtlMs) ∨
      (Live token now d.tokens ∧
        ¬ Withdraws serde token (serve serde service currentUid d turn).2) := by
  cases turn with
  | idle t =>
    have silent : ¬ Issues serde token t ⟨.idle t, none⟩ := by
      intro ⟨call, grant, same, _⟩
      simp at same
    have keeps : ¬ Withdraws serde token ⟨.idle t, none⟩ := by
      intro ⟨call, payload, same, _⟩
      simp at same
    simp only [serve, Turn.now, activeLocalIpcAccessGrantCount, silent, keeps, false_and, false_or,
      not_false_eq_true, and_true]
    exact live_retain later
  | request call =>
    simp only [serve, Turn.now] at sound later ⊢
    have effect := effect_of_dispatch serde service currentUid call d
    generalize dispatchRequest serde service currentUid call d = served at effect
    obtain ⟨daemon, response, executed⟩ := served
    cases effect with
    | issues read tokens response =>
      simp only at tokens response
      subst response
      rw [tokens]
      have withdraws : Withdraws serde token ⟨.request call, some (.ok call.request.requestId
          call.request.protoVersion (issueLocalIpcAccessGrant call.now call.bytes
            call.request.token d.tokens).1.payload)⟩ ↔ call.request.token = some token := by
        constructor
        · intro ⟨call', _, same, shown, _⟩
          cases same
          exact shown
        · intro shown
          exact ⟨call, _, rfl, shown, .inr read⟩
      have issues : Issues serde token call.now ⟨.request call, some (.ok call.request.requestId
          call.request.protoVersion (issueLocalIpcAccessGrant call.now call.bytes
            call.request.token d.tokens).1.payload)⟩ ↔
          token = buildLocalIpcAccessToken call.bytes := by
        constructor
        · intro ⟨call', grant, same, _, built, _⟩
          obtain ⟨turns, replies⟩ := Entry.mk.inj same
          cases turns
          have replies := (LocalIpcWireResponse.ok.inj (Option.some.inj replies)).2.2
          rw [← built, ← payload_injective replies]
          rfl
        · intro built
          exact ⟨call, _, rfl, read, built.symm, rfl⟩
      rw [withdraws, issues]
      exact live_issue call.bytes call.request.token sound later
    | revokes shown given read tokens response =>
      simp only at tokens response
      subst response
      rw [tokens, live_erase, live_retain later]
      have silent : ¬ Issues serde token call.now ⟨.request call,
          some (.ok call.request.requestId call.request.protoVersion none)⟩ := by
        intro ⟨call', grant, same, read', _⟩
        cases same
      have withdraws : Withdraws serde token ⟨.request call,
          some (.ok call.request.requestId call.request.protoVersion none)⟩ ↔ token = shown := by
        have exact_token := presented_eq_some given
        constructor
        · intro ⟨call', _, same, shown', _⟩
          cases same
          rw [exact_token] at shown'
          exact (Option.some.inj shown').symm
        · intro same
          exact ⟨call, _, rfl, by rw [exact_token, same], .inl read⟩
      simp only [silent, withdraws, false_and, false_or]
    | keeps tokens quiet =>
      have silent : ¬ Issues serde token call.now ⟨.request call, some response⟩ := by
        intro ⟨call', grant, same, read, _⟩
        cases same
        rcases quiet with ⟨error, refused⟩ | ⟨notIssue, _⟩
        · cases refused
        · exact notIssue read
      have keeps : ¬ Withdraws serde token ⟨.request call, some response⟩ := by
        intro ⟨call', payload, same, _, read⟩
        cases same
        rcases quiet with ⟨error, refused⟩ | ⟨notIssue, notRevoke⟩
        · cases refused
        · exact read.elim notRevoke notIssue
      simp only [silent, keeps, false_and, false_or, not_false_eq_true, and_true]
      rcases tokens with same | pruned
      · rw [same]
      · rw [pruned]
        exact live_retain later

end Record

section Histories

variable {Config Capsule S : Type} (serde : FromValue Config Capsule)
  (service : Service Config Capsule S) (currentUid : ℕ)

variable {d : Daemon S}

theorem sound_serve (turn : Turn) (sound : Sound turn.now d.tokens) :
    Sound turn.now (serve serde service currentUid d turn).1.tokens := by
  cases turn with
  | idle t => exact sound.prune _
  | request call =>
    simp only [serve, Turn.now] at sound ⊢
    cases effect_of_dispatch serde service currentUid call d with
    | issues read tokens response =>
      rw [tokens]
      exact sound.issue call.bytes call.request.token
    | revokes token given read tokens response =>
      rw [tokens]
      exact (sound.prune _).erase token
    | keeps tokens quiet =>
      rcases tokens with same | pruned
      · rwa [same]
      · rw [pruned]
        exact sound.prune _

theorem issues_now {token : String} {t0 : ℕ} {turn : Turn}
    (h : Issues serde token t0 (serve serde service currentUid d turn).2) : t0 = turn.now := by
  obtain ⟨call, grant, same, _, _, rfl⟩ := h
  cases turn with
  | idle t => cases same
  | request call' =>
    cases (Entry.mk.inj same).1
    rfl

theorem history_snoc (start : S) (turns : List Turn) (turn : Turn) :
    history serde service currentUid start (turns ++ [turn]) =
      attend serde service currentUid (history serde service currentUid start turns) turn := by
  simp [history]

theorem live_history (start : S) (turns : List Turn)
    (clock : (turns.map Turn.now).Pairwise (· ≤ ·)) (now : ℕ)
    (later : ∀ turn ∈ turns, turn.now ≤ now) :
    Sound now (history serde service currentUid start turns).1.tokens ∧
      ∀ token, Live token now (history serde service currentUid start turns).1.tokens ↔
        Since (fun entry => ∃ t0, Issues serde token t0 entry ∧ now < saturatingAdd t0 tokenTtlMs)
          (Withdraws serde token) (history serde service currentUid start turns).2 := by
  induction turns using List.reverseRecOn generalizing now with
  | nil =>
    refine ⟨Sound.start now, fun token => ?_⟩
    simp only [history, List.foldl_nil, not_since_nil, iff_false]
    intro ⟨record, found, _⟩
    simp at found
  | append_singleton turns turn ih =>
    rw [List.map_append, List.pairwise_append] at clock
    obtain ⟨earlier, _, before⟩ := clock
    have past : ∀ t ∈ turns, t.now ≤ turn.now := fun t mem =>
      before t.now (List.mem_map_of_mem mem) turn.now (by simp)
    have due : turn.now ≤ now := later turn (by simp)
    have sound := (ih earlier turn.now past).1
    rw [history_snoc]
    simp only [attend]
    constructor
    · exact (sound_serve serde service currentUid turn sound).later due
    · intro token
      have stood := (ih earlier now fun t mem => later t (by simp [mem])).2 token
      rw [live_serve serde service currentUid turn sound due, stood, since_snoc]
      apply or_congr_left
      constructor
      · intro ⟨issues, fresh⟩
        exact ⟨turn.now, issues, fresh⟩
      · intro ⟨t0, issues, fresh⟩
        obtain rfl := issues_now serde service currentUid issues
        exact ⟨issues, fresh⟩

theorem lt_saturatingAdd {now t0 : ℕ} :
    now < saturatingAdd t0 tokenTtlMs ↔ now < t0 + tokenTtlMs ∧ now < 2 ^ 64 - 1 := by
  simp only [saturatingAdd]
  omega

/-- In terms of the record: the token was issued at some time, with the saturated expiry still to
come, and nothing has withdrawn it since. -/
theorem admitted_iff (start : S) (turns : List Turn) (call : Call)
    (clock : ((turns ++ [Turn.request call]).map Turn.now).Pairwise (· ≤ ·)) :
    Admitted call (history serde service currentUid start turns).1.tokens ↔
      ∃ token t0, call.request.token = some token ∧
        Since (Issues serde token t0) (Withdraws serde token)
          (history serde service currentUid start turns).2 ∧
        call.now < t0 + tokenTtlMs ∧ call.now < 2 ^ 64 - 1 := by
  rw [List.map_append, List.pairwise_append] at clock
  obtain ⟨earlier, _, before⟩ := clock
  have later : ∀ turn ∈ turns, turn.now ≤ call.now := fun turn mem =>
    before turn.now (List.mem_map_of_mem mem) call.now (by simp [Turn.now])
  obtain ⟨sound, stands⟩ :=
    live_history serde service currentUid start turns earlier call.now later
  constructor
  · intro ⟨token, given, live⟩
    obtain ⟨first, entry, after, split, ⟨t0, issues, fresh⟩, kept⟩ := (stands token).mp live
    exact ⟨token, t0, presented_eq_some given, ⟨first, entry, after, split, issues, kept⟩,
      lt_saturatingAdd.mp fresh⟩
  · intro ⟨token, t0, shown, ⟨first, entry, after, split, issues, kept⟩, fresh⟩
    have live := (stands token).mpr
      ⟨first, entry, after, split, ⟨t0, issues, lt_saturatingAdd.mpr fresh⟩, kept⟩
    obtain ⟨record, found, _⟩ := id live
    refine ⟨token, ?_, live⟩
    rw [shown]
    exact sound.filled token record found

/-- `dispatch_request` carries out a command of the read side, of the write side or of the event
replay exactly on the service endpoint, for the daemon's own user where the peer is known, and
with a token that was issued less than its lifetime ago and not withdrawn since. -/
theorem command_executed_iff_authorized (start : S) (turns : List Turn) (call : Call)
    (clock : ((turns ++ [Turn.request call]).map Turn.now).Pairwise (· ≤ ·))
    (command : LocalIpcCommand Config Capsule)
    (kind : command.commandClass = .readSide ∨ command.commandClass = .writeSide ∨
      command.commandClass = .runtimeEventReplay) :
    (dispatchRequest serde service currentUid call
        (history serde service currentUid start turns).1).executed = some command ↔
      LocalIpcCommand.fromWireRequest serde call.request = .ok command ∧
      call.endpointKind = .service ∧
      (∀ identity, call.peerIdentity = some identity → identity.uid = currentUid) ∧
      ∃ token t0, call.request.token = some token ∧
        Since (Issues serde token t0) (Withdraws serde token)
          (history serde service currentUid start turns).2 ∧
        call.now < t0 + tokenTtlMs ∧ call.now < 2 ^ 64 - 1 := by
  have guarded : command.requiresAuth = true := by
    simpa [LocalIpcCommand.requiresAuth] using kind
  rw [executed_iff serde service currentUid call _ guarded,
    admitted_iff serde service currentUid start turns call clock]

end Histories

def sampleSerde : FromValue Unit Unit :=
  ⟨fun _ => .error "", fun _ => .error "", fun _ => .error "", fun _ => .error "",
    fun _ => .error ""⟩

def sampleService : Service Unit Unit Unit := fun state _ => (state, .ok none)

def sampleBytes : Vector UInt8 32 := Vector.replicate 32 0

/-- `auth/issue` without a previous token. -/
def issueAt (now : ℕ) : Call :=
  ⟨⟨1, "1", "auth/issue", none, none⟩, .service, some ⟨501, none⟩, now, sampleBytes⟩

/-- `discover/list` with the token that `issueAt` is answered with. -/
def listAt (now : ℕ) : Call :=
  ⟨⟨1, "2", "discover/list", none, some ⟨some (buildLocalIpcAccessToken sampleBytes)⟩⟩, .service,
    some ⟨501, none⟩, now, sampleBytes⟩

theorem since_issueAt (now : ℕ) :
    Since (Issues sampleSerde (buildLocalIpcAccessToken sampleBytes) now)
      (Withdraws sampleSerde (buildLocalIpcAccessToken sampleBytes))
      (history sampleSerde sampleService 501 () [.request (issueAt now)]).2 := by
  let grant : LocalIpcAccessGrant :=
    ⟨buildLocalIpcAccessToken sampleBytes, saturatingAdd now tokenTtlMs,
      saturatingAdd now tokenRefreshAfterMs⟩
  have issues : Issues sampleSerde (buildLocalIpcAccessToken sampleBytes) now
      ⟨.request (issueAt now), some (.ok "1" 1 grant.payload)⟩ :=
    ⟨issueAt now, grant, rfl, rfl, rfl, rfl⟩
  exact ⟨[], _, [], rfl, issues, by simp⟩

theorem listed_with_issued_token :
    (dispatchRequest sampleSerde sampleService 501 (listAt 2000)
      (history sampleSerde sampleService 501 () [.request (issueAt 1000)]).1).executed =
        some .discoverList := by
  apply (command_executed_iff_authorized sampleSerde sampleService 501 () [.request (issueAt 1000)]
    (listAt 2000) (by decide) .discoverList (.inl rfl)).mpr
  refine ⟨rfl, rfl, fun identity known => ?_, _, 1000, rfl, since_issueAt 1000, by decide, by decide⟩
  cases known
  rfl

/-- In the last five minutes that the clock can count, a token that is less than five minutes old
is refused at the last reading. -/
theorem saturated_expiry_refused :
    ¬ ∀ (turns : List Turn) (call : Call) (token : String) (t0 : ℕ),
      ((turns ++ [Turn.request call]).map Turn.now).Pairwise (· ≤ ·) → call.now < 2 ^ 64 →
      LocalIpcCommand.fromWireRequest sampleSerde call.request = .ok .discoverList →
      call.endpointKind = .service →
      (∀ identity, call.peerIdentity = some identity → identity.uid = 501) →
      call.request.token = some token →
      Since (Issues sampleSerde token t0) (Withdraws sampleSerde token)
        (history sampleSerde sampleService 501 () turns).2 →
      call.now < t0 + tokenTtlMs →
      (dispatchRequest sampleSerde sampleService 501 call
        (history sampleSerde sampleService 501 () turns).1).executed = some .discoverList := by
  intro accepted
  have clock : (([Turn.request (issueAt (2 ^ 64 - 1001))] ++
      [Turn.request (listAt (2 ^ 64 - 1))]).map Turn.now).Pairwise (· ≤ ·) := by
    simp [Turn.now, issueAt, listAt]
  have own : ∀ identity, (listAt (2 ^ 64 - 1)).peerIdentity = some identity →
      identity.uid = 501 := by
    intro identity known
    cases known
    rfl
  have carried := accepted [.request (issueAt (2 ^ 64 - 1001))] (listAt (2 ^ 64 - 1)) _
    (2 ^ 64 - 1001) clock (by simp [listAt]) rfl rfl own rfl (since_issueAt _)
    (by simp [listAt, tokenTtlMs])
  obtain ⟨_, _, _, admitted⟩ :=
    (executed_iff sampleSerde sampleService 501 _ _ (by decide)).mp carried
  obtain ⟨token, t0, _, _, _, bound⟩ :=
    (admitted_iff sampleSerde sampleService 501 () _ _ clock).mp admitted
  simp [listAt] at bound

end DashDrop.Ipc.Authorization
