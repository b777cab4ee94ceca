/- GID: DashDrop/Receiving/Ledger
   source: src-tauri/src/transport/receiver.rs, src-tauri/src/core_service.rs,
     src-tauri/src/runtime/supervisor.rs
   anchors: []
   digest: Who opened, took, sent and observed what, along every run. -/

import DashDrop.Receiving.Registry

set_option autoImplicit false
set_option relaxedAutoImplicit false

namespace DashDrop.Receiving.Ledger

open DashDrop.Foundation.Program DashDrop.Foundation.Interleaving
open DashDrop.Foundation.Discipline DashDrop.Foundation.Maps DashDrop.Foundation.Oneshot
open DashDrop.Transport.Protocol DashDrop.Transport.Receiver
open DashDrop.Runtime.State DashDrop.Runtime.Machine DashDrop.Runtime.Effects
open DashDrop.Runtime.Footprint DashDrop.Runtime.Supervisor
open DashDrop.Receiving.Phases DashDrop.Receiving.Registry

variable {parties : List Party} {φ : ℕ → Phase} {i : ℕ} {o : Op} {x : Ans} {w w' : World}
variable {r : o.Resp} {s : Phase}

def decisions (c : ℕ) (l : List Event) : List (ℕ × Bool) :=
  l.filterMap fun
    | .sent k d v => if d = c then some (k, v) else none
    | _ => none

def results (c : ℕ) (l : List Event) : List (ℕ × Wait Bool) :=
  l.filterMap fun
    | .observed j d r => if d = c then some (j, r) else none
    | _ => none

/-- The state of a channel tells its history. -/
def Agrees (ds : List (ℕ × Bool)) (rs : List (ℕ × Wait Bool)) : Option (Channel Bool) → Prop
  | none | some .empty => ds = [] ∧ rs = []
  | some (.sent v) => (∃ k, ds = [(k, v)]) ∧ rs = []
  | some (.received v) => (∃ k, ds = [(k, v)]) ∧ ∃ j, rs = [(j, .value v)]
  | some .dropped => ds = [] ∧ (rs = [] ∨ ∃ j, rs = [(j, .senderGone)])
  | some .closed => ds.length ≤ 1 ∧ ∃ j, rs = [(j, .timedOut)]

structure Gates (parties : List Party) (φ : ℕ → Phase) (w : World) : Prop where
  opener : ∀ {j y c}, Event.opened j y c ∈ w.journal →
    IsOffer parties j y ∧ c < w.channels.length ∧
      ((φ j = .waiting c ∧ results c w.journal = []) ∨
        ∃ a, results c w.journal = [(j, a)] ∧ verdict (φ j) = some (a == .value true))
  waits : ∀ {j c}, φ j = .waiting c → ∃ y, Event.opened j y c ∈ w.journal
  once : ∀ {j y y' c c'}, Event.opened j y c ∈ w.journal → Event.opened j y' c' ∈ w.journal →
    c = c'
  chan : ∀ {j j' y y' c}, Event.opened j y c ∈ w.journal → Event.opened j' y' c ∈ w.journal →
    j = j' ∧ y = y'
  stored : ∀ {y c}, w.pendingAccepts.lookup y = some c →
    (∃ j, Event.opened j y c ∈ w.journal) ∧ decisions c w.journal = [] ∧
      (w.channels[c]? = some .empty ∨ w.channels[c]? = some .closed)
  taken : ∀ {k y c}, Event.took k y c ∈ w.journal →
    (∃ j, Event.opened j y c ∈ w.journal) ∧ w.pendingAccepts.lookup y ≠ some c ∧
      w.channels[c]? ≠ some .dropped ∧ (φ k = .holding c ∨ φ k = .released c) ∧
      ∃ v, Acts parties k y v
  single : ∀ {k k' y y' c}, Event.took k y c ∈ w.journal → Event.took k' y' c ∈ w.journal →
    k = k'
  held : ∀ {k c}, φ k = .holding c →
    decisions c w.journal = [] ∧ ∃ y, Event.took k y c ∈ w.journal
  used : ∀ {k c}, φ k = .released c → ∃ y v, Event.took k y c ∈ w.journal ∧
    Acts parties k y v ∧ decisions c w.journal = [(k, v)]
  sender : ∀ {k v c}, (k, v) ∈ decisions c w.journal → φ k = .released c
  agree : ∀ c, Agrees (decisions c w.journal) (results c w.journal) w.channels[c]?

private theorem history_calm (calm : ∀ g, o ≠ .gate g) {e : Event} (h : e ∈ history i w o r) :
    (∀ j y c, e ≠ .opened j y c) ∧ (∀ k y c, e ≠ .took k y c) ∧ (∀ k c v, e ≠ .sent k c v) ∧
      ∀ j c a, e ≠ .observed j c a := by
  have origin := origin_of_mem_history h
  refine ⟨?_, ?_, ?_, ?_⟩ <;> rintro _ _ _ rfl <;> exact calm _ origin.2

private theorem calm_journal (done : exec i o x w = some (w', r)) (calm : ∀ g, o ≠ .gate g) :
    (∀ j y c, Event.opened j y c ∈ w'.journal ↔ Event.opened j y c ∈ w.journal) ∧
    (∀ k y c, Event.took k y c ∈ w'.journal ↔ Event.took k y c ∈ w.journal) ∧
    (∀ c, decisions c w'.journal = decisions c w.journal) ∧
    ∀ c, results c w'.journal = results c w.journal := by
  have quiet {e : Event} (h : e ∈ history i w' o r) := history_calm calm h
  have silentFor {β : Type} (f : Event → Option β)
      (h : ∀ e ∈ history i w' o r, f e = none) :
      w'.journal.filterMap f = w.journal.filterMap f := by
    rw [exec_journal done, List.filterMap_append, List.filterMap_eq_nil_iff.mpr h,
      List.append_nil]
  refine ⟨fun j y c => ?_, fun k y c => ?_, fun c => silentFor _ ?_, fun c => silentFor _ ?_⟩
  · rw [mem_journal_iff done, or_iff_left fun h => (quiet h).1 j y c rfl]
  · rw [mem_journal_iff done, or_iff_left fun h => (quiet h).2.1 k y c rfl]
  · intro e he
    cases e with
    | sent k d v => exact absurd rfl ((quiet he).2.2.1 k d v)
    | _ => rfl
  · intro e he
    cases e with
    | observed j d a => exact absurd rfl ((quiet he).2.2.2 j d a)
    | _ => rfl

private theorem drift_update (drift : Drift (φ i) s) (j : ℕ) :
    Drift (φ j) (Function.update φ i s j) := by
  by_cases h : j = i
  · subst h
    rwa [Function.update_self]
  · rw [Function.update_of_ne h]
    exact .refl _

private theorem Gates.drift (gates : Gates parties φ w) (drift : Drift (φ i) s) :
    Gates parties (Function.update φ i s) w := by
  have drift := drift_update (φ := φ) drift
  constructor
  · intro j y c h
    obtain ⟨offer, inside, ⟨waiting, unseen⟩ | ⟨a, seen, told⟩⟩ := gates.opener h
    · exact ⟨offer, inside, .inl ⟨((drift j).waiting c).mpr waiting, unseen⟩⟩
    · exact ⟨offer, inside, .inr ⟨a, seen, (drift j).verdict _ told⟩⟩
  · intro j c h
    exact gates.waits (((drift j).waiting c).mp h)
  · exact gates.once
  · exact gates.chan
  · exact gates.stored
  · intro k y c h
    obtain ⟨owner, gone, kept, hands, role⟩ := gates.taken h
    exact ⟨owner, gone, kept,
      hands.imp ((drift k).holding c).mpr ((drift k).released c).mpr, role⟩
  · exact gates.single
  · intro k c h
    exact gates.held (((drift k).holding c).mp h)
  · intro k c h
    exact gates.used (((drift k).released c).mp h)
  · intro k v c h
    exact ((drift k).released c).mpr (gates.sender h)
  · exact gates.agree

private theorem gates_calm (gates : Gates parties φ w) (done : exec i o x w = some (w', r))
    (calm : ∀ g, o ≠ .gate g) : Gates parties φ w' := by
  obtain ⟨w₁, ran, logged⟩ := exec_inv done
  have pending : w'.pendingAccepts = w.pendingAccepts := by
    rw [logged]
    exact (frame_execOp ran).pendingAccepts calm
  have channels : w'.channels = w.channels := by
    rw [logged]
    exact (frame_execOp ran).channels calm
  obtain ⟨opened, took, decided, learnt⟩ := calm_journal done calm
  constructor
  all_goals simp only [opened, took, decided, learnt, pending, channels]
  · exact gates.opener
  · exact gates.waits
  · exact gates.once
  · exact gates.chan
  · exact gates.stored
  · exact gates.taken
  · exact gates.single
  · exact gates.held
  · exact gates.used
  · exact gates.sender
  · exact gates.agree

theorem exec_gate {g : GateOp} {a : g.Resp} (done : exec i (.gate g) x w = some (w', a)) :
    ∃ w₁, execGate x w g = some (w₁, a) ∧ w' = log w₁ (gateHistory i g a) :=
  exec_inv done

theorem decisions_append (c : ℕ) (l l' : List Event) :
    decisions c (l ++ l') = decisions c l ++ decisions c l' := List.filterMap_append

theorem results_append (c : ℕ) (l l' : List Event) :
    results c (l ++ l') = results c l ++ results c l' := List.filterMap_append

theorem mem_decisions {k c : ℕ} {v : Bool} {l : List Event} :
    (k, v) ∈ decisions c l ↔ Event.sent k c v ∈ l := by
  simp only [decisions, List.mem_filterMap]
  constructor
  · rintro ⟨e, he, same⟩
    split at same
    · split_ifs at same with hc
      cases same
      rwa [hc] at he
    · cases same
  · intro h
    exact ⟨_, h, if_pos rfl⟩

theorem mem_results {j c : ℕ} {a : Wait Bool} {l : List Event} :
    (j, a) ∈ results c l ↔ Event.observed j c a ∈ l := by
  simp only [results, List.mem_filterMap]
  constructor
  · rintro ⟨e, he, same⟩
    split at same
    · split_ifs at same with hc
      cases same
      rwa [hc] at he
    · cases same
  · intro h
    exact ⟨_, h, if_pos rfl⟩

theorem decisions_sent (c d k : ℕ) (v : Bool) :
    decisions c [.sent k d v] = if d = c then [(k, v)] else [] := by
  by_cases h : d = c <;> simp [decisions, h]

theorem results_observed (c d j : ℕ) (a : Wait Bool) :
    results c [.observed j d a] = if d = c then [(j, a)] else [] := by
  by_cases h : d = c <;> simp [results, h]

private theorem not_opened (gates : Gates parties φ w) (early : verdict (φ i) = none)
    (moving : ∀ c, φ i ≠ .waiting c) {y : String} {c : ℕ} :
    Event.opened i y c ∉ w.journal := by
  intro h
  obtain ⟨-, -, ⟨here, -⟩ | ⟨a, -, told⟩⟩ := gates.opener h
  · exact moving c here
  · rw [early] at told
    cases told

theorem Gates.unstored (gates : Gates parties φ w) (known : Registered parties φ w)
    {q : IncomingOffer} {m : Uuid} (offer : parties[i]? = some (.offer q))
    (prompted : φ i = .prompted m) : w.pendingAccepts.lookup q.id = none := by
  refine Option.eq_none_iff_forall_ne_some.mpr fun c stored => ?_
  obtain ⟨⟨j, h⟩, -⟩ := gates.stored stored
  obtain ⟨⟨f, there, same⟩, -, later⟩ := gates.opener h
  have active : φ j ≠ .idle := by
    intro idle
    rw [idle] at later
    simp [verdict] at later
  have listed := known.listed there active
  rw [same] at listed
  obtain rfl := known.unique (known.listed offer (by simp [prompted])) listed
  exact not_opened gates (by rw [prompted]; rfl) (by simp [prompted]) h

private theorem gates_register (gates : Gates parties φ w) (known : Registered parties φ w)
    {q : IncomingOffer} {m : Uuid} {n : ℕ} (offer : parties[i]? = some (.offer q))
    (prompted : φ i = .prompted m)
    (done : exec i (.gate (.register q.id)) x w = some (w', n)) :
    Gates parties (Function.update φ i (.waiting n)) w' := by
  obtain ⟨w₁, ran, rfl⟩ := exec_gate done
  cases ran
  have first {y : String} {c : ℕ} : Event.opened i y c ∉ w.journal :=
    not_opened gates (by rw [prompted]; rfl) (by simp [prompted])
  have empty := gates.unstored known offer prompted
  have others {j : ℕ} {s : Phase} (h : j ≠ i) : Function.update φ i s j = φ j :=
    Function.update_of_ne h _ _
  have inside {j y c} (h : Event.opened j y c ∈ w.journal) : c < w.channels.length :=
    (gates.opener h).2.1
  have early {c : ℕ} (h : c < w.channels.length) :
      (w.channels ++ [Channel.empty])[c]? = w.channels[c]? := List.getElem?_append_left h
  have blank := gates.agree w.channels.length
  rw [List.getElem?_eq_none le_rfl] at blank
  have quiet (c : ℕ) : decisions c [.opened i q.id w.channels.length] = [] := rfl
  have still (c : ℕ) : results c [.opened i q.id w.channels.length] = [] := rfl
  constructor
  all_goals simp only [log, gateHistory, empty, Option.toList_none, dropSenders, List.foldl_nil,
    List.length_append, List.length_singleton, List.mem_append, List.mem_singleton,
    decisions_append, results_append, lookup_insert_ite, reduceCtorEq, or_false,
    Event.opened.injEq, quiet, still, List.append_nil]
  · rintro j y c (h | ⟨rfl, rfl, rfl⟩)
    · have apart : j ≠ i := by
        rintro rfl
        exact first h
      obtain ⟨owner, below, rest⟩ := gates.opener h
      rw [others apart]
      exact ⟨owner, by omega, rest⟩
    · exact ⟨⟨q, offer, rfl⟩, by omega, .inl ⟨Function.update_self .., blank.2⟩⟩
  · intro j c h
    by_cases hj : j = i
    · subst hj
      rw [Function.update_self] at h
      cases h
      exact ⟨q.id, .inr ⟨rfl, rfl, rfl⟩⟩
    · rw [others hj] at h
      obtain ⟨y, old⟩ := gates.waits h
      exact ⟨y, .inl old⟩
  · rintro j y y' c c' (h | ⟨rfl, rfl, rfl⟩) (h' | ⟨again, -, same⟩)
    · exact gates.once h h'
    · exact absurd (again ▸ h) first
    · exact absurd h' first
    · exact same.symm
  · rintro j j' y y' c (h | ⟨rfl, rfl, rfl⟩) (h' | ⟨rfl, rfl, same⟩)
    · exact gates.chan h h'
    · exact absurd (inside h) (by omega)
    · exact absurd (inside h') (by omega)
    · exact ⟨rfl, rfl⟩
  · intro y c stored
    split_ifs at stored with hy
    · cases stored
      exact ⟨⟨i, .inr ⟨rfl, hy, rfl⟩⟩, blank.1, .inl (by simp)⟩
    · obtain ⟨⟨j, h⟩, unsent, state⟩ := gates.stored stored
      rw [early (inside h)]
      exact ⟨⟨j, .inl h⟩, unsent, state⟩
  · intro k y c h
    obtain ⟨⟨j, opened⟩, gone, kept, hands, role⟩ := gates.taken h
    have apart : k ≠ i := by
      rintro rfl
      simp [prompted] at hands
    rw [early (inside opened), others apart]
    refine ⟨⟨j, .inl opened⟩, ?_, kept, hands, role⟩
    split_ifs
    · have := inside opened
      simp only [ne_eq, Option.some.injEq]
      omega
    · exact gone
  · exact gates.single
  · intro k c h
    have apart : k ≠ i := by
      rintro rfl
      simp at h
    rw [others apart] at h
    exact gates.held h
  · intro k c h
    have apart : k ≠ i := by
      rintro rfl
      simp at h
    rw [others apart] at h
    exact gates.used h
  · intro k v c h
    have released := gates.sender h
    have apart : k ≠ i := by
      rintro rfl
      simp [prompted] at released
    rwa [others apart]
  · intro c
    obtain below | rfl | above := lt_trichotomy c w.channels.length
    · rw [early below]
      exact gates.agree c
    · rw [List.getElem?_concat_length]
      exact blank
    · have before := gates.agree c
      rw [List.getElem?_eq_none (by omega)] at before
      rw [List.getElem?_eq_none (by simp; omega)]
      exact before

private theorem gates_take (gates : Gates parties φ w) {y : String} {c : ℕ} {v : Bool}
    (role : Acts parties i y v) (free : (φ i).undecided = true)
    (done : exec i (.gate (.take y)) x w = some (w', some c)) :
    Gates parties (Function.update φ i (.holding c)) w' := by
  obtain ⟨w₁, ran, rfl⟩ := exec_gate done
  obtain ⟨rfl, stored⟩ : { w with pendingAccepts := w.pendingAccepts.erase y } = w₁ ∧
      w.pendingAccepts.lookup y = some c := by simpa [execGate] using ran
  obtain ⟨⟨j₀, opened⟩, unsent, state⟩ := gates.stored stored
  have others {j : ℕ} {s : Phase} (h : j ≠ i) : Function.update φ i s j = φ j :=
    Function.update_of_ne h _ _
  have untaken {k : ℕ} {y' : String} : Event.took k y' c ∉ w.journal := by
    intro h
    obtain ⟨⟨j, opened'⟩, gone, -⟩ := gates.taken h
    obtain ⟨-, rfl⟩ := gates.chan opened opened'
    exact gone stored
  have apart_of_offer {j : ℕ} {y' : String} (h : IsOffer parties j y') : j ≠ i := by
    rintro rfl
    obtain ⟨q, offer, -⟩ := h
    obtain ⟨party, here, plays⟩ := role
    cases here.symm.trans offer
    cases plays
  have apart_of_phase {k d : ℕ} (h : φ k = .holding d ∨ φ k = .released d) : k ≠ i := by
    rintro rfl
    obtain h | h := h <;> rw [h] at free <;> cases free
  have quiet (d : ℕ) : decisions d [.took i y c] = [] := rfl
  have still (d : ℕ) : results d [.took i y c] = [] := rfl
  constructor
  all_goals simp only [log, gateHistory, List.mem_append, List.mem_singleton, decisions_append,
    results_append, lookup_erase_ite, reduceCtorEq, or_false, Event.took.injEq, quiet, still,
    List.append_nil]
  · intro j y' d h
    have before := gates.opener h
    rwa [others (apart_of_offer before.1)]
  · intro j d h
    by_cases hj : j = i
    · subst hj
      simp at h
    · rw [others hj] at h
      exact gates.waits h
  · exact gates.once
  · exact gates.chan
  · intro y' d h
    split_ifs at h
    exact gates.stored h
  · rintro k y' d (h | ⟨rfl, rfl, rfl⟩)
    · obtain ⟨owner, gone, kept, hands, acts⟩ := gates.taken h
      rw [others (apart_of_phase hands)]
      refine ⟨owner, ?_, kept, hands, acts⟩
      split_ifs
      · simp
      · exact gone
    · refine ⟨⟨j₀, opened⟩, by simp, ?_, .inl (Function.update_self ..), v, role⟩
      obtain state | state := state <;> simp [state]
  · rintro k k' y₁ y₂ d (h | ⟨rfl, rfl, rfl⟩) (h' | ⟨again, -, same⟩)
    · exact gates.single h h'
    · exact absurd (same ▸ h) untaken
    · exact absurd h' untaken
    · exact again.symm
  · intro k d h
    by_cases hk : k = i
    · subst hk
      rw [Function.update_self] at h
      cases h
      exact ⟨unsent, y, .inr ⟨rfl, rfl, rfl⟩⟩
    · rw [others hk] at h
      obtain ⟨none_yet, y', took⟩ := gates.held h
      exact ⟨none_yet, y', .inl took⟩
  · intro k d h
    have apart : k ≠ i := by
      rintro rfl
      simp at h
    rw [others apart] at h
    obtain ⟨y', u, took, rest⟩ := gates.used h
    exact ⟨y', u, .inl took, rest⟩
  · intro k u d h
    have released := gates.sender h
    rwa [others (apart_of_phase (.inr released))]
  · exact gates.agree

private theorem gates_drop (gates : Gates parties φ w) (gone : List ℕ)
    {pending : AList (fun _ : String => ℕ)} {es : List Event}
    (quiet : ∀ e ∈ es, ∃ j, e = .retained j)
    (kept : ∀ {y c}, pending.lookup y = some c → w.pendingAccepts.lookup y = some c ∧ c ∉ gone)
    (left : ∀ {c}, c ∈ gone → ∃ y, w.pendingAccepts.lookup y = some c) :
    Gates parties φ (log { w with
      channels := dropSenders w.channels gone
      pendingAccepts := pending } es) := by
  have journal {e : Event} (h : ∀ j, e ≠ .retained j) : e ∈ w.journal ++ es ↔ e ∈ w.journal := by
    rw [List.mem_append, or_iff_left]
    intro he
    obtain ⟨j, rfl⟩ := quiet e he
    exact h j rfl
  have unsent (c : ℕ) : decisions c es = [] := by
    refine List.filterMap_eq_nil_iff.mpr fun e he => ?_
    obtain ⟨j, rfl⟩ := quiet e he
    rfl
  have unseen (c : ℕ) : results c es = [] := by
    refine List.filterMap_eq_nil_iff.mpr fun e he => ?_
    obtain ⟨j, rfl⟩ := quiet e he
    rfl
  have untouched {c : ℕ} (h : c ∉ gone) : (dropSenders w.channels gone)[c]? = w.channels[c]? := by
    rw [getElem?_dropSenders, if_neg h]
  have openedOf {j y c} : Event.opened j y c ∈ w.journal ++ es ↔ Event.opened j y c ∈ w.journal :=
    journal (by simp)
  have tookOf {k y c} : Event.took k y c ∈ w.journal ++ es ↔ Event.took k y c ∈ w.journal :=
    journal (by simp)
  constructor
  all_goals simp only [log, openedOf, tookOf, decisions_append, results_append, unsent, unseen,
    List.append_nil, length_dropSenders]
  · exact gates.opener
  · exact gates.waits
  · exact gates.once
  · exact gates.chan
  · intro y c h
    obtain ⟨stored, stays⟩ := kept h
    rw [untouched stays]
    exact gates.stored stored
  · intro k y c h
    obtain ⟨⟨j, opened⟩, absent, alive, rest⟩ := gates.taken h
    have stays : c ∉ gone := by
      intro hc
      obtain ⟨y', stored⟩ := left hc
      obtain ⟨⟨j', opened'⟩, -⟩ := gates.stored stored
      obtain ⟨-, rfl⟩ := gates.chan opened opened'
      exact absent stored
    rw [untouched stays]
    exact ⟨⟨j, opened⟩, fun stored => absent (kept stored).1, alive, rest⟩
  · exact gates.single
  · exact gates.held
  · exact gates.used
  · exact gates.sender
  · intro c
    have before := gates.agree c
    by_cases hc : c ∈ gone
    · obtain ⟨y, stored⟩ := left hc
      rw [getElem?_dropSenders, if_pos hc]
      obtain state | state := (gates.stored stored).2.2
      · rw [state] at before ⊢
        exact ⟨before.1, .inl before.2⟩
      · rw [state] at before ⊢
        exact before
    · rwa [untouched hc]

private theorem gates_discard (gates : Gates parties φ w) {y : String}
    {a : (GateOp.discard y).Resp}
    (done : exec i (.gate (.discard y)) x w = some (w', a)) : Gates parties φ w' := by
  obtain ⟨w₁, ran, rfl⟩ := exec_gate done
  cases ran
  refine gates_drop gates _ (by simp [gateHistory]) ?_ ?_
  · intro y' c h
    rw [lookup_erase_ite] at h
    split_ifs at h with hy
    refine ⟨h, fun hc => ?_⟩
    have stored := Option.mem_toList.mp hc
    obtain ⟨⟨j, opened⟩, -⟩ := gates.stored h
    obtain ⟨⟨j', opened'⟩, -⟩ := gates.stored stored
    exact hy (gates.chan opened opened').2
  · intro c hc
    exact ⟨y, Option.mem_toList.mp hc⟩

private theorem gates_retain (gates : Gates parties φ w) {ids : List String}
    {a : (GateOp.retain ids).Resp}
    (done : exec i (.gate (.retain ids)) x w = some (w', a)) : Gates parties φ w' := by
  obtain ⟨w₁, ran, rfl⟩ := exec_gate done
  cases ran
  refine gates_drop gates _ (by simp [gateHistory]) ?_ ?_
  · intro y c h
    rw [lookup_retainEntries, Option.filter_eq_some_iff] at h
    obtain ⟨stored, inside⟩ := h
    refine ⟨stored, fun hc => ?_⟩
    obtain ⟨y', outside, stored'⟩ := mem_missingSenders.mp hc
    obtain ⟨⟨j, opened⟩, -⟩ := gates.stored stored
    obtain ⟨⟨j', opened'⟩, -⟩ := gates.stored stored'
    obtain ⟨-, rfl⟩ := gates.chan opened opened'
    exact outside (by simpa using inside)
  · intro c hc
    obtain ⟨y, -, stored⟩ := mem_missingSenders.mp hc
    exact ⟨y, stored⟩

theorem Gates.open_of_holding (gates : Gates parties φ w) {k c : ℕ} (holding : φ k = .holding c) :
    w.channels[c]? = some .empty ∨ w.channels[c]? = some .closed := by
  obtain ⟨unsent, y, took⟩ := gates.held holding
  obtain ⟨⟨j, opened⟩, -, alive, -⟩ := gates.taken took
  have inside := (gates.opener opened).2.1
  have before := gates.agree c
  obtain ⟨ch, found⟩ : ∃ ch, w.channels[c]? = some ch := ⟨_, List.getElem?_eq_getElem inside⟩
  rw [found] at before alive ⊢
  rw [unsent] at before
  cases ch with
  | empty => exact .inl rfl
  | closed => exact .inr rfl
  | dropped => exact absurd rfl alive
  | sent u =>
    obtain ⟨⟨k, wrong⟩, -⟩ := before
    cases wrong
  | received u =>
    obtain ⟨⟨k, wrong⟩, -⟩ := before
    cases wrong

private theorem gates_send (gates : Gates parties φ w) {y : String} {c : ℕ} {v : Bool}
    (role : Acts parties i y v) (holding : φ i = .holding c) {a : (GateOp.send c v).Resp}
    (done : exec i (.gate (.send c v)) x w = some (w', a)) :
    Gates parties (Function.update φ i (.released c)) w' := by
  obtain ⟨w₁, ran, rfl⟩ := exec_gate done
  cases ran
  obtain ⟨unsent, y₀, took⟩ := gates.held holding
  obtain ⟨⟨j₀, opened⟩, absent, -, -, v₀, role₀⟩ := gates.taken took
  obtain ⟨rfl, -⟩ := role₀.unique role
  have others {j : ℕ} {s : Phase} (h : j ≠ i) : Function.update φ i s j = φ j :=
    Function.update_of_ne h _ _
  have apart_of_offer {j : ℕ} {y' : String} (h : IsOffer parties j y') : j ≠ i := by
    rintro rfl
    obtain ⟨q, offer, -⟩ := h
    obtain ⟨party, here, plays⟩ := role
    cases here.symm.trans offer
    cases plays
  have sentAt (d : ℕ) : decisions d [.sent i c v] = if c = d then [(i, v)] else [] :=
    decisions_sent d c i v
  have still (d : ℕ) : results d [.sent i c v] = [] := rfl
  have state := gates.open_of_holding holding
  constructor
  all_goals simp only [log, gateHistory, List.mem_append, List.mem_singleton, decisions_append,
    results_append, reduceCtorEq, or_false, sentAt, still, List.append_nil, List.length_modify]
  · intro j y' d h
    have before := gates.opener h
    rwa [others (apart_of_offer before.1)]
  · intro j d h
    by_cases hj : j = i
    · subst hj
      simp at h
    · rw [others hj] at h
      exact gates.waits h
  · exact gates.once
  · exact gates.chan
  · intro y' d h
    obtain ⟨owner, none_yet, fine⟩ := gates.stored h
    have apart : c ≠ d := by
      rintro rfl
      obtain ⟨j', opened'⟩ := owner
      obtain ⟨-, rfl⟩ := gates.chan opened opened'
      exact absent h
    rw [if_neg apart, List.append_nil, List.getElem?_modify_ne _ _ apart]
    exact ⟨owner, none_yet, fine⟩
  · intro k y' d h
    obtain ⟨owner, gone, kept, hands, acts⟩ := gates.taken h
    refine ⟨owner, gone, ?_, ?_, acts⟩
    · rw [List.getElem?_modify]
      by_cases hd : c = d
      · subst hd
        obtain state | state := state <;> simp [state, Channel.send]
      · simpa [hd] using kept
    · by_cases hk : k = i
      · subst hk
        rw [holding] at hands
        rw [Function.update_self]
        obtain ⟨⟨⟩⟩ | ⟨⟨⟩⟩ := hands
        exact .inr rfl
      · rwa [others hk]
  · exact gates.single
  · intro k d h
    have apart : k ≠ i := by
      rintro rfl
      simp at h
    rw [others apart] at h
    obtain ⟨none_yet, y', took'⟩ := gates.held h
    have differ : c ≠ d := by
      rintro rfl
      exact apart (gates.single took' took)
    rw [if_neg differ, List.append_nil]
    exact ⟨none_yet, y', took'⟩
  · intro k d h
    by_cases hk : k = i
    · subst hk
      rw [Function.update_self] at h
      cases h
      exact ⟨y₀, v, took, role, by simp [unsent]⟩
    · rw [others hk] at h
      obtain ⟨y', u, took', acts, sent⟩ := gates.used h
      have differ : c ≠ d := by
        rintro rfl
        rw [unsent] at sent
        cases sent
      exact ⟨y', u, took', acts, by simpa [differ] using sent⟩
  · rintro k u d (h | h)
    · have released := gates.sender h
      have apart : k ≠ i := by
        rintro rfl
        simp [holding] at released
      rwa [others apart]
    · split_ifs at h with hd
      · cases List.mem_singleton.mp h
        rw [Function.update_self, hd]
      · cases h
  · intro d
    have before := gates.agree d
    by_cases hd : c = d
    · subst hd
      rw [List.getElem?_modify_eq, if_pos rfl, unsent]
      rw [unsent] at before
      obtain state | state := state
      · rw [state] at before ⊢
        exact ⟨⟨i, rfl⟩, before.2⟩
      · rw [state] at before ⊢
        exact ⟨le_rfl, before.2⟩
    · rw [if_neg hd, List.append_nil, List.getElem?_modify_ne _ _ hd]
      exact before

theorem exec_wait {c : ℕ} {a : Wait Bool} (done : exec i (.gate (.wait c)) x w = some (w', a)) :
    ∃ ch ch', w.channels[c]? = some ch ∧ ch.wait (isTimer x.reply) = some (ch', a) ∧
      w' = log { w with channels := w.channels.set c ch' } [.observed i c a] := by
  obtain ⟨w₁, ran, rfl⟩ := exec_gate done
  obtain ⟨ch, found, rest⟩ := Option.bind_eq_some_iff.mp ran
  obtain ⟨⟨ch', a'⟩, waited, same⟩ := Option.map_eq_some_iff.mp rest
  cases same
  exact ⟨ch, ch', found, waited, rfl⟩

private theorem gates_wait (gates : Gates parties φ w) {c : ℕ} {a : Wait Bool}
    (waiting : φ i = .waiting c) (done : exec i (.gate (.wait c)) x w = some (w', a)) :
    Gates parties (Function.update φ i (.settled (a == .value true))) w' := by
  obtain ⟨ch, ch', found, waited, rfl⟩ := exec_wait done
  obtain ⟨y₀, opened⟩ := gates.waits waiting
  obtain ⟨offer, inside, ⟨-, unseen⟩ | ⟨a', -, told⟩⟩ := gates.opener opened
  swap
  · rw [waiting] at told
    cases told
  have others {j : ℕ} {s : Phase} (h : j ≠ i) : Function.update φ i s j = φ j :=
    Function.update_of_ne h _ _
  have seenAt (d : ℕ) : results d [.observed i c a] = if c = d then [(i, a)] else [] :=
    results_observed d c i a
  have quiet (d : ℕ) : decisions d [.observed i c a] = [] := rfl
  have apart_of_phase {k d : ℕ} (h : φ k = .holding d ∨ φ k = .released d) : k ≠ i := by
    rintro rfl
    simp [waiting] at h
  constructor
  all_goals simp only [log, List.mem_append, List.mem_singleton, decisions_append,
    results_append, reduceCtorEq, or_false, seenAt, quiet, List.append_nil, List.length_set]
  · intro j y d h
    by_cases hj : j = i
    · subst hj
      obtain rfl := gates.once opened h
      obtain ⟨-, rfl⟩ := gates.chan opened h
      exact ⟨offer, inside, .inr ⟨a, by simp [unseen], by simp [verdict]⟩⟩
    · have differ : c ≠ d := by
        rintro rfl
        exact hj (gates.chan h opened).1
      rw [others hj, if_neg differ, List.append_nil]
      exact gates.opener h
  · intro j d h
    by_cases hj : j = i
    · subst hj
      simp at h
    · rw [others hj] at h
      exact gates.waits h
  · exact gates.once
  · exact gates.chan
  · intro y d h
    obtain ⟨owner, unsent, state⟩ := gates.stored h
    refine ⟨owner, unsent, ?_⟩
    by_cases hd : c = d
    · subst hd
      rw [found] at state
      obtain ⟨⟨⟩⟩ | ⟨⟨⟩⟩ := state
      · simp only [Channel.wait] at waited
        split_ifs at waited
        cases waited
        exact .inr (by simp [inside])
      · cases waited
    · rwa [List.getElem?_set_ne hd]
  · intro k y d h
    obtain ⟨owner, gone, kept, hands, acts⟩ := gates.taken h
    rw [others (apart_of_phase hands)]
    refine ⟨owner, gone, ?_, hands, acts⟩
    by_cases hd : c = d
    · subst hd
      rw [found] at kept
      simp only [List.getElem?_set_self inside]
      cases ch with
      | dropped => exact absurd rfl kept
      | sent v =>
        cases waited
        simp
      | empty =>
        simp only [Channel.wait] at waited
        split_ifs at waited
        cases waited
        simp
      | received v => cases waited
      | closed => cases waited
    · rwa [List.getElem?_set_ne hd]
  · exact gates.single
  · intro k d h
    by_cases hk : k = i
    · subst hk
      simp at h
    · rw [others hk] at h
      exact gates.held h
  · intro k d h
    by_cases hk : k = i
    · subst hk
      simp at h
    · rw [others hk] at h
      exact gates.used h
  · intro k v d h
    have released := gates.sender h
    rwa [others (apart_of_phase (.inr released))]
  · intro d
    have before := gates.agree d
    by_cases hd : c = d
    · subst hd
      rw [found, unseen] at before
      rw [List.getElem?_set_self inside, if_pos rfl, unseen]
      cases ch with
      | dropped =>
        cases waited
        exact ⟨before.1, .inr ⟨i, rfl⟩⟩
      | sent v =>
        cases waited
        exact ⟨before.1, i, rfl⟩
      | empty =>
        simp only [Channel.wait] at waited
        split_ifs at waited
        cases waited
        exact ⟨by simp [before.1], i, rfl⟩
      | received v => cases waited
      | closed => cases waited
    · rw [List.getElem?_set_ne hd, if_neg hd, List.append_nil]
      exact before

private theorem gates_quiet_take (gates : Gates parties φ w) {y : String}
    (done : exec i (.gate (.take y)) x w = some (w', none)) : Gates parties φ w' := by
  obtain ⟨w₁, ran, rfl⟩ := exec_gate done
  obtain ⟨rfl, -⟩ : { w with pendingAccepts := w.pendingAccepts.erase y } = w₁ ∧
      w.pendingAccepts.lookup y = none := by simpa [execGate] using ran
  refine gates_drop gates [] (by simp [gateHistory]) (fun h => ?_) (by simp)
  rw [lookup_erase_ite] at h
  split_ifs at h
  simpa using h

private theorem gates_contains (gates : Gates parties φ w) {y : String} {found : Bool}
    (done : exec i (.gate (.contains y)) x w = some (w', found)) : Gates parties φ w' := by
  obtain ⟨w₁, ran, rfl⟩ := exec_gate done
  cases ran
  exact gates_drop gates [] (by simp [gateHistory]) (by simp) (by simp)

theorem gates_step (gates : Gates parties φ w) (known : Registered parties φ w)
    (done : exec i o x w = some (w', r)) (change : Change parties i (φ i) o r s) :
    Gates parties (Function.update φ i s) w' := by
  cases o with
  | gate g =>
    generalize before : φ i = q at change
    cases change with
    | stay calm => cases calm
    | register offer => exact gates_register gates known offer before done
    | wait offer => exact gates_wait gates before done
    | send role => exact gates_send gates role before done
    | discard role =>
      rw [← before, Function.update_eq_self]
      exact gates_discard gates done
    | contains role free =>
      subst before
      refine (gates_contains gates done).drift (drift_undecided free ?_)
      split_ifs
      · rfl
      · exact free
    | @take y v taken q role free sure =>
      have undecided : q.undecided = true := by
        obtain rfl | rfl := free <;> rfl
      cases taken with
      | some c => exact gates_take gates role (before ▸ undecided) done
      | none => exact (gates_quiet_take gates done).drift (before ▸ drift_undecided undecided rfl)
    | retain =>
      refine (gates_retain gates done).drift ?_
      rw [before]
      constructor <;> simp [verdict]
  | task | note | net | env | fs =>
    exact (gates_calm gates done (by simp)).drift (change.drift (by simp))

structure Books (parties : List Party) (φ : ℕ → Phase) (w : World) : Prop where
  registered : Registered parties φ w
  gates : Gates parties φ w

theorem books_step (books : Books parties φ w) (allowed : Fresh i o x w)
    (done : exec i o x w = some (w', r)) (change : Change parties i (φ i) o r s) :
    Books parties (Function.update φ i s) w' :=
  ⟨registry_step books.registered allowed done change,
    gates_step books.gates books.registered done change⟩

/-- The state at start-up, with any configuration, peers and files. -/
structure AtStart (w : World) : Prop where
  transfers : w.transfers = ∅
  pendingAccepts : w.pendingAccepts = ∅
  notifications : w.notifications = ∅
  channels : w.channels = []
  journal : w.journal = []

theorem Books.registered_of_opened (books : Books parties φ w) {j c : ℕ} {y : String}
    (h : Event.opened j y c ∈ w.journal) : Event.registered j y ∈ w.journal := by
  obtain ⟨⟨f, offer, rfl⟩, -, later⟩ := books.gates.opener h
  refine books.registered.listed offer fun idle => ?_
  rw [idle] at later
  simp [verdict] at later

theorem books_start (parties : List Party) (start : AtStart w) :
    Books parties (fun _ => .idle) w := by
  constructor
  · constructor <;> simp [start.journal]
  · constructor <;> simp [start.journal, start.channels, start.pendingAccepts, decisions, results,
      Agrees]

end DashDrop.Receiving.Ledger
