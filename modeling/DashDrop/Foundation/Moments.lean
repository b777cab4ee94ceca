/- GID: DashDrop/Foundation/Moments
   generality: G
   anchors: []
   digest: Runs with their moments in order, and what a thread has seen before it acts. -/

import DashDrop.Foundation.Discipline

set_option autoImplicit false
set_option relaxedAutoImplicit false

namespace DashDrop.Foundation.Moments

open DashDrop.Foundation.Program DashDrop.Foundation.Interleaving DashDrop.Foundation.Discipline

variable {Op : Type} {Resp : Op → Type} {World Ans α β : Type}

/-- One step of a run: who took it, what was answered, and the world it was taken in. -/
structure Moment (Op : Type) (Resp : Op → Type) (World : Type) where
  thread : ℕ
  op : Op
  answer : Resp op
  before : World

abbrev Sightings (Op : Type) (Resp : Op → Type) := List (Sigma Resp)

/-- What thread `i` has done and been answered. -/
def own (i : ℕ) (ms : List (Moment Op Resp World)) : Sightings Op Resp :=
  (ms.filter fun m => m.thread = i).map fun m => ⟨m.op, m.answer⟩

@[simp] theorem own_nil (i : ℕ) : own i ([] : List (Moment Op Resp World)) = [] := rfl

theorem own_append_self (i : ℕ) (ms : List (Moment Op Resp World)) (o : Op) (r : Resp o)
    (w : World) : own i (ms ++ [⟨i, o, r, w⟩]) = own i ms ++ [⟨o, r⟩] := by
  simp [own]

theorem own_append_ne {i : ℕ} (ms : List (Moment Op Resp World)) {m : Moment Op Resp World}
    (h : m.thread ≠ i) : own i (ms ++ [m]) = own i ms := by
  simp [own, h]

theorem moment_of_own {i : ℕ} {ms : List (Moment Op Resp World)} {o : Op} {r : Resp o}
    (h : ⟨o, r⟩ ∈ own i ms) : ∃ w, (⟨i, o, r, w⟩ : Moment Op Resp World) ∈ ms := by
  obtain ⟨⟨j, o', r', w⟩, hm, same⟩ := List.mem_map.mp h
  obtain ⟨mine, rfl⟩ : (⟨j, o', r', w⟩ : Moment Op Resp World) ∈ ms ∧ j = i := by simpa using hm
  obtain ⟨rfl, answered⟩ := Sigma.mk.inj same
  obtain rfl := eq_of_heq answered
  exact ⟨w, mine⟩

/-- Each sighting of a thread is that of a moment, at the same place among the thread's own. -/
theorem place_of_own {i : ℕ} {ms : List (Moment Op Resp World)} {o : Op} {r : Resp o}
    {first last : Sightings Op Resp} (h : own i ms = first ++ ⟨o, r⟩ :: last) :
    ∃ pre w post, ms = pre ++ ⟨i, o, r, w⟩ :: post ∧ own i pre = first ∧ own i post = last := by
  induction ms generalizing first with
  | nil => simp at h
  | cons m ms ih =>
    by_cases mine : m.thread = i
    · obtain ⟨j, o', r', w⟩ := m
      obtain rfl : j = i := mine
      have grown : own j (⟨j, o', r', w⟩ :: ms) = ⟨o', r'⟩ :: own j ms := by simp [own]
      rw [grown] at h
      cases first with
      | nil =>
        obtain ⟨same, rest⟩ := List.cons.inj h
        obtain ⟨rfl, answered⟩ := Sigma.mk.inj same
        obtain rfl := eq_of_heq answered
        exact ⟨[], w, ms, rfl, rfl, rest⟩
      | cons x first =>
        obtain ⟨same, rest⟩ := List.cons.inj h
        obtain ⟨pre, w', post, rfl, before, after⟩ := ih rest
        refine ⟨⟨j, o', r', w⟩ :: pre, w', post, rfl, ?_, after⟩
        rw [← same, ← before]
        simp [own]
    · have skipped : own i (m :: ms) = own i ms := by simp [own, mine]
      rw [skipped] at h
      obtain ⟨pre, w, post, rfl, before, after⟩ := ih h
      refine ⟨m :: pre, w, post, rfl, ?_, after⟩
      rw [← before]
      simp [own, mine]

section Runs

variable (exec : Exec Op Resp World Ans) (guard : Guard Op World Ans)

/-- A guarded run from `s` with its moments. -/
inductive Chronicle (s : Pool Op Resp World α) :
    List (Moment Op Resp World) → Pool Op Resp World α → Prop where
  | start : Chronicle s [] s
  | step {ms : List (Moment Op Resp World)} {i : ℕ} {w w' : World} {ts : List (Prog Op Resp α)}
      {o : Op} {k : Resp o → Prog Op Resp α} {x : Ans} {r : Resp o}
      (past : Chronicle s ms ⟨w, ts⟩) (next : ts[i]? = some (.op o k)) (allowed : guard i o x w)
      (done : exec i o x w = some (w', r)) :
      Chronicle s (ms ++ [⟨i, o, r, w⟩]) ⟨w', ts.set i (k r)⟩

def recount (s : Pool Op Resp World α) :
    List (ℕ × Ans) → Option (List (Moment Op Resp World) × Pool Op Resp World α)
  | [] => some ([], s)
  | (i, x) :: rest =>
      match s.threads[i]? with
      | some (.op o k) => (exec i o x s.world).bind fun y =>
          (recount ⟨y.1, s.threads.set i (k y.2)⟩ rest).map fun z =>
            (⟨i, o, y.2, s.world⟩ :: z.1, z.2)
      | _ => none

end Runs

variable {exec : Exec Op Resp World Ans} {guard : Guard Op World Ans}

theorem Chronicle.executed {s t : Pool Op Resp World α} {ms : List (Moment Op Resp World)}
    (h : Chronicle exec guard s ms t) {m : Moment Op Resp World} (hm : m ∈ ms) :
    ∃ x w', guard m.thread m.op x m.before ∧
      exec m.thread m.op x m.before = some (w', m.answer) := by
  induction h with
  | start => simp at hm
  | step past next allowed done ih =>
    rcases List.mem_append.mp hm with hm | hm
    · exact ih hm
    · obtain rfl := List.mem_singleton.mp hm
      exact ⟨_, _, allowed, done⟩

theorem Chronicle.before_invariant {s t : Pool Op Resp World α} {ms : List (Moment Op Resp World)}
    (h : Chronicle exec guard s ms t) (I : World → Prop) (base : I s.world)
    (keep : ∀ i o x w w' r, I w → exec i o x w = some (w', r) → I w') :
    I t.world ∧ ∀ m ∈ ms, I m.before := by
  induction h with
  | start => exact ⟨base, by simp⟩
  | step past next allowed done ih =>
    obtain ⟨now, earlier⟩ := ih
    refine ⟨keep _ _ _ _ _ _ now done, fun m hm => ?_⟩
    rcases List.mem_append.mp hm with hm | hm
    · exact earlier m hm
    · obtain rfl := List.mem_singleton.mp hm
      exact now

private theorem place_of_grown {γ : Type} {xs pre post : List γ} {x y : γ}
    (h : xs ++ [x] = pre ++ y :: post) :
    (pre = xs ∧ y = x) ∨ ∃ rest, xs = pre ++ y :: rest := by
  rcases List.eq_nil_or_concat post with rfl | ⟨rest, z, rfl⟩
  · obtain ⟨old, new⟩ := List.append_inj' h rfl
    exact .inl ⟨old.symm, (List.singleton_inj.mp new).symm⟩
  · rw [List.concat_eq_append, ← List.cons_append, ← List.append_assoc] at h
    exact .inr ⟨rest, (List.append_inj' h rfl).1⟩

theorem Chronicle.at_place {s t : Pool Op Resp World α} {pre post : List (Moment Op Resp World)}
    {m : Moment Op Resp World} (h : Chronicle exec guard s (pre ++ m :: post) t) :
    ∃ ts k x w', Chronicle exec guard s pre ⟨m.before, ts⟩ ∧
      ts[m.thread]? = some (.op m.op k) ∧ guard m.thread m.op x m.before ∧
      exec m.thread m.op x m.before = some (w', m.answer) := by
  generalize grown : pre ++ m :: post = ms at h
  induction h generalizing post with
  | start => simp at grown
  | @step ms i w w' ts o k x r past next allowed done ih =>
    rcases place_of_grown grown.symm with ⟨rfl, rfl⟩ | ⟨rest, old⟩
    · exact ⟨ts, k, x, w', past, next, allowed, done⟩
    · exact ih old.symm

theorem Chronicle.last_step {s t : Pool Op Resp World α} {ms : List (Moment Op Resp World)}
    {m : Moment Op Resp World} (h : Chronicle exec guard s (ms ++ [m]) t) :
    ∃ ts x, Chronicle exec guard s ms ⟨m.before, ts⟩ ∧ guard m.thread m.op x m.before ∧
      exec m.thread m.op x m.before = some (t.world, m.answer) := by
  generalize grown : ms ++ [m] = all at h
  cases h with
  | start => simp at grown
  | @step ms' i w w' ts o k x r past next allowed done =>
    obtain ⟨rfl, last⟩ := List.append_inj' grown rfl
    obtain rfl := List.singleton_inj.mp last
    exact ⟨ts, x, past, allowed, done⟩

theorem Chronicle.length_threads {s t : Pool Op Resp World α} {ms : List (Moment Op Resp World)}
    (h : Chronicle exec guard s ms t) : t.threads.length = s.threads.length := by
  induction h with
  | start => rfl
  | step past next allowed done ih => simpa using ih

/-- What each step relates, in a transitive way, relates the world right after a moment to the
last one. -/
theorem Chronicle.since {s t : Pool Op Resp World α} {ms : List (Moment Op Resp World)}
    (h : Chronicle exec guard s ms t) (R : World → World → Prop) (same : ∀ w, R w w)
    (along : ∀ u v w, R u v → R v w → R u w)
    (keep : ∀ i o x w w' r, guard i o x w → exec i o x w = some (w', r) → R w w')
    {m : Moment Op Resp World} (hm : m ∈ ms) :
    R m.before t.world ∧ ∃ x w', guard m.thread m.op x m.before ∧
      exec m.thread m.op x m.before = some (w', m.answer) ∧ R w' t.world := by
  induction h with
  | start => simp at hm
  | step past next allowed done ih =>
    have onward := keep _ _ _ _ _ _ allowed done
    rcases List.mem_append.mp hm with hm | hm
    · obtain ⟨before, x, w', guarded, acted, after⟩ := ih hm
      exact ⟨along _ _ _ before onward, x, w', guarded, acted, along _ _ _ after onward⟩
    · obtain rfl := List.mem_singleton.mp hm
      exact ⟨onward, _, _, allowed, done, same _⟩

theorem chronicle_of_recount_from {s t u : Pool Op Resp World α}
    {ms ns : List (Moment Op Resp World)} {schedule : List (ℕ × Ans)}
    (past : Chronicle exec free s ms t) (h : recount exec t schedule = some (ns, u)) :
    Chronicle exec free s (ms ++ ns) u := by
  induction schedule generalizing t ms ns with
  | nil =>
    cases h
    simpa using past
  | cons a rest ih =>
    obtain ⟨i, x⟩ := a
    obtain ⟨w, ts⟩ := t
    simp only [recount] at h
    split at h
    · rename_i o k next
      obtain ⟨⟨w', r⟩, done, later⟩ := Option.bind_eq_some_iff.mp h
      obtain ⟨⟨ns', u'⟩, played, same⟩ := Option.map_eq_some_iff.mp later
      obtain ⟨rfl, rfl⟩ := Prod.mk.inj same
      have onward := ih (past.step next trivial done) played
      simpa using onward
    · cases h

theorem chronicle_of_recount {s t : Pool Op Resp World α} {ms : List (Moment Op Resp World)}
    {schedule : List (ℕ × Ans)} (h : recount exec s schedule = some (ms, t)) :
    Chronicle exec free s ms t :=
  chronicle_of_recount_from .start h

/-- A run in which only checked steps are possible keeps to the guard that the check stands
for. -/
theorem Chronicle.of_restrict {check : ℕ → Op → Ans → World → Bool}
    (sound : ∀ i o x w, check i o x w = true → guard i o x w) {s t : Pool Op Resp World α}
    {ms : List (Moment Op Resp World)} (h : Chronicle (restrict exec check) free s ms t) :
    Chronicle exec guard s ms t := by
  induction h with
  | start => exact .start
  | step past next allowed done ih =>
    simp only [restrict] at done
    split_ifs at done with checked
    exact ih.step next (sound _ _ _ _ checked) done

section Seen

variable (P : Sightings Op Resp → Op → Prop)

open Classical in
/-- The automaton that remembers everything and allows an operation only where `P` holds of
what was seen before it. -/
noncomputable def remembering : Automaton Op Resp (Sightings Op Resp) := fun seen o r =>
  if P seen o then some (seen ++ [⟨o, r⟩]) else none

end Seen

variable {P : Sightings Op Resp → Op → Prop} {seen : Sightings Op Resp}

theorem remembering_eq_some {o : Op} {r : Resp o} {later : Sightings Op Resp} :
    remembering P seen o r = some later ↔ P seen o ∧ later = seen ++ [⟨o, r⟩] := by
  unfold remembering
  split_ifs with h
  · simp [h, eq_comm]
  · simp [h]

theorem Obeys.act {o : Op} {k : Resp o → Prog Op Resp α} {fin : Sightings Op Resp → α → Prop}
    (h : P seen o) (rest : ∀ r, Obeys (remembering P) (seen ++ [⟨o, r⟩]) (k r) fin) :
    Obeys (remembering P) seen (.op o k) fin :=
  fun r => ⟨_, remembering_eq_some.mpr ⟨h, rfl⟩, rest r⟩

theorem Obeys.roam {x : Prog Op Resp α} {p : Op → Prop} {q : α → Prop} (within : x.Within p q)
    (calm : ∀ later o, seen <+: later → p o → P later o) :
    Obeys (remembering P) seen x fun later a => seen <+: later ∧ q a := by
  induction x generalizing seen with
  | pure a => exact ⟨List.prefix_rfl, within⟩
  | op o k ih =>
    refine Obeys.act (calm seen o List.prefix_rfl within.1) fun r => ?_
    have onward : seen <+: seen ++ [⟨o, r⟩] := List.prefix_append _ _
    refine (ih r (within.2 r) fun later o' h => calm later o' (onward.trans h)).mono ?_
    exact fun later a h => ⟨onward.trans h.1, h.2⟩

theorem Chronicle.remembers {s t : Pool Op Resp World α} {ms : List (Moment Op Resp World)} {i : ℕ}
    {x : Prog Op Resp α} (h : Chronicle exec guard s ms t) (here : s.threads[i]? = some x)
    {fin : Sightings Op Resp → α → Prop} (start : Obeys (remembering P) [] x fin) :
    (∃ y, t.threads[i]? = some y ∧ Obeys (remembering P) (own i ms) y fin) ∧
    ∀ pre m post, ms = pre ++ m :: post → m.thread = i → P (own i pre) m.op := by
  induction h with
  | start => exact ⟨⟨x, here, start⟩, by simp⟩
  | @step ms j w w' ts o k a r past next allowed done ih =>
    obtain ⟨⟨y, found, obeys⟩, earlier⟩ := ih
    by_cases hij : j = i
    · subst hij
      obtain rfl : y = .op o k := Option.some.inj (found.symm.trans next)
      obtain ⟨later, moved, rest⟩ := obeys r
      obtain ⟨holds, rfl⟩ := remembering_eq_some.mp moved
      have hlt := (List.getElem?_eq_some_iff.mp next).1
      refine ⟨⟨k r, by simp [hlt], ?_⟩, ?_⟩
      · rw [own_append_self]
        exact rest
      · intro pre m post place mine
        rcases place_of_grown place with ⟨rfl, rfl⟩ | ⟨post', old⟩
        · exact holds
        · exact earlier pre m post' old mine
    · refine ⟨⟨y, by rwa [List.getElem?_set_ne hij], ?_⟩, ?_⟩
      · rw [own_append_ne ms hij]
        exact obeys
      · intro pre m post place mine
        rcases place_of_grown place with ⟨rfl, rfl⟩ | ⟨post', old⟩
        · exact absurd mine hij
        · exact earlier pre m post' old mine

end DashDrop.Foundation.Moments
