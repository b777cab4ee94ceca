/- GID: DashDrop/Exchange/Routing
   source: src-tauri/src/transport/receiver.rs
   anchors: []
   digest: Which incoming streams the dispatcher hands to the task of their item. -/

import DashDrop.Exchange.Receivers
import DashDrop.Foundation.Transitions

set_option autoImplicit false
set_option relaxedAutoImplicit false

namespace DashDrop.Exchange.Routing

open DashDrop.Foundation.Oneshot DashDrop.Foundation.Slots DashDrop.Foundation.UnixPath
open DashDrop.Foundation.Transitions
open DashDrop.Transport.Protocol DashDrop.Transport.PathValidation
open DashDrop.Runtime.Machine (ReadFault)
open DashDrop.Exchange.Senders (routedFileId)
open DashDrop.Exchange.Receivers

/-- Item `i` has a valid path that no earlier item has. -/
def Routable (saveRoot : PathBuf) (items : List FileItem) (i : ℕ) (item : FileItem) : Prop :=
  items[i]? = some item ∧ ∃ path, validateRelPath item.relPath.toList saveRoot = .ok path ∧
    ∀ j < i, ∀ other, items[j]? = some other →
      validateRelPath other.relPath.toList saveRoot ≠ .ok path

/-- The receiver alone, against a peer that may open any stream at any time. -/
def receiverStep (s : ReceiveSide) (l : ReceiveLabel) : Option ReceiveSide := (s.step l).map Prod.fst

/-- The dispatched streams that carry the id of a routable item, each handed to the task of that
item and to no other. -/
def RoutesAll (saveRoot : PathBuf) (items : List FileItem) (s : ReceiveSide) : Prop :=
  ∀ firstMsg target, (firstMsg, target) ∈ s.handed → ∀ i item, Routable saveRoot items i item →
    routedFileId firstMsg = some item.fileId →
      target = some i ∧
      ∀ j task, s.tasks[j]? = some task → (task.stream.value? = some firstMsg ↔ j = i)

/-- A stream for a routable item is dispatched after the route of the item was inserted and
before any other stream with its id; no wait for a stream runs out, and the sender does not
cancel. -/
def InTime (saveRoot : PathBuf) (items : List FileItem) (s : ReceiveSide) : ReceiveLabel → Prop
  | .stream (.ok firstMsg) =>
      (∀ payload, firstMsg ≠ .cancel payload) ∧
      ∀ i item, Routable saveRoot items i item → routedFileId firstMsg = some item.fileId →
        i < s.registered ∧ ∀ e ∈ s.handed, routedFileId e.1 ≠ some item.fileId
  | .task _ (.take timer) => timer = false
  | _ => True

section Steps

variable {saveRoot : PathBuf} {items : List FileItem} {s s' : ReceiveSide}

/-- Where the stream of a routable item is, once its route was inserted. -/
inductive Lane (s : ReceiveSide) (i : ℕ) (item : FileItem) (task : ReceiveTask) : Prop where
  | awaited (hroute : s.streamRoutes.lookup item.fileId = some i) (hempty : task.stream = .empty)
      (hnone : ∀ e ∈ s.handed, routedFileId e.1 ≠ some item.fileId)
  | arrived (firstMsg : DashMessage) (hvalue : task.stream.value? = some firstMsg)
      (hmem : (firstMsg, some i) ∈ s.handed)
      (hall : ∀ e ∈ s.handed, routedFileId e.1 = some item.fileId → e = (firstMsg, some i))

structure Routed (saveRoot : PathBuf) (items : List FileItem) (s : ReceiveSide) : Prop where
  root : s.saveRoot = saveRoot
  listed : s.tasks.map ReceiveTask.item = items
  seen : ∀ path, path ∈ s.seenPaths ↔ ∃ j < s.registered, ∃ other, items[j]? = some other ∧
    validateRelPath other.relPath.toList saveRoot = .ok path
  owners : ∀ f i, s.streamRoutes.lookup f = some i → i < s.registered ∧
    ∃ task, s.tasks[i]? = some task ∧ task.item.fileId = f
  own : Each (fun _ task => ∀ m, task.stream.value? = some m →
    routedFileId m = some task.item.fileId) s.tasks
  early : ∀ i item, Routable saveRoot items i item → s.registered ≤ i →
    ∀ e ∈ s.handed, routedFileId e.1 ≠ some item.fileId
  lanes : ∀ i item task, Routable saveRoot items i item → i < s.registered →
    s.tasks[i]? = some task → Lane s i item task

theorem Routed.item (h : Routed saveRoot items s) {i : ℕ} {task : ReceiveTask}
    (hi : s.tasks[i]? = some task) : items[i]? = some task.item := by
  rw [← h.listed, List.getElem?_map, hi]
  rfl

theorem Routed.keys (h : Routed saveRoot items s) (hids : (items.map FileItem.fileId).Nodup) :
    (s.tasks.map fun task => task.item.fileId).Nodup := by
  rw [← h.listed, List.map_map] at hids
  exact hids

theorem routed_start (saveRoot : PathBuf) (configured : ℕ) (items : List FileItem) :
    Routed saveRoot items (.start saveRoot configured items) where
  root := rfl
  listed := by simp [ReceiveSide.start, ReceiveTask.new, Function.comp_def]
  seen path := by simp [ReceiveSide.start]
  owners f i h := by simp [ReceiveSide.start] at h
  own i task h m hm := by
    simp only [ReceiveSide.start, List.getElem?_map, Option.map_eq_some_iff] at h
    obtain ⟨item, -, rfl⟩ := h
    cases hm
  early i item _ _ e he := by simp [ReceiveSide.start] at he
  lanes i item task _ h := by simp [ReceiveSide.start] at h

theorem Routed.seen_iff (h : Routed saveRoot items s) {task : ReceiveTask} {path : PathBuf}
    (hi : s.tasks[s.registered]? = some task)
    (hpath : validateRelPath task.item.relPath.toList saveRoot = .ok path) :
    path ∉ s.seenPaths ↔ Routable saveRoot items s.registered task.item := by
  rw [h.seen]
  constructor
  · intro hnew
    refine ⟨h.item hi, path, hpath, ?_⟩
    intro j hj other hother heq
    exact hnew ⟨j, hj, other, hother, heq⟩
  · rintro ⟨-, path', hpath', hfirst⟩ ⟨j, hj, other, hother, heq⟩
    rw [hpath] at hpath'
    cases hpath'
    exact hfirst j hj other hother heq

theorem Lane.congr {i : ℕ} {item : FileItem} {task task' : ReceiveTask}
    (h : Lane s i item task) (hroute : s'.streamRoutes.lookup item.fileId =
      s.streamRoutes.lookup item.fileId) (hhanded : s'.handed = s.handed)
    (hempty : task.stream = .empty → task'.stream = .empty)
    (hvalue : task'.stream.value? = task.stream.value?) : Lane s' i item task' := by
  cases h with
  | awaited hown hnothing hnone =>
    exact .awaited (hroute.trans hown) (hempty hnothing) (by rwa [hhanded])
  | arrived m hm hmem hall =>
    exact .arrived m (hvalue.trans hm) (by rwa [hhanded]) (by rwa [hhanded])

theorem routed_task {i : ℕ} {task : ReceiveTask} {move : ReceiveMove} {acks : List AckPayload}
    (h : Routed saveRoot items s) (hi : s.tasks[i]? = some task)
    (htimer : ∀ timer, move = .take timer → timer = false)
    (hstep : s.advance i task move = some (s', acks)) : Routed saveRoot items s' := by
  obtain ⟨task', permits, hadv, rfl⟩ := advance_cases hstep
  have hvalue : task'.stream.value? = task.stream.value? := by
    obtain hsame | ⟨timer, heard, -, hwait⟩ := hadv.stream
    · rw [hsame]
    · exact value?_wait hwait
  have hempty : task.stream = .empty → task'.stream = .empty := by
    intro hnothing
    obtain hsame | ⟨timer, heard, rfl, hwait⟩ := hadv.stream
    · rw [hsame, hnothing]
    · rw [htimer timer rfl, hnothing] at hwait
      cases hwait
  constructor
  · exact h.root
  · rw [← h.listed]
    exact map_set_of_eq hi hadv.item
  · exact h.seen
  · intro f j hf
    obtain ⟨hj, t, ht, hid⟩ := h.owners f j hf
    refine ⟨hj, ?_⟩
    by_cases hij : i = j
    · subst hij
      obtain rfl : task = t := by rw [hi] at ht; exact Option.some.inj ht
      have hlt : i < s.tasks.length := (List.getElem?_eq_some_iff.mp hi).1
      exact ⟨task', by simp [hlt], by rw [hadv.item, hid]⟩
    · exact ⟨t, by rw [← ht]; exact List.getElem?_set_ne hij, hid⟩
  · refine h.own.set ?_ (fun _ _ _ _ hold => hold)
    intro m hm
    rw [hadv.item]
    exact h.own i task hi m (hvalue ▸ hm)
  · exact h.early
  · intro j item t hroutable hj ht
    obtain ⟨rfl, rfl⟩ | ⟨-, hold⟩ := getElem?_set_cases ht
    · exact (h.lanes i item task hroutable hj hi).congr rfl rfl hempty hvalue
    · exact (h.lanes j item t hroutable hj hold).congr rfl rfl id rfl

theorem routed_refuse {task : ReceiveTask} (phase : ReceivePhase) (h : Routed saveRoot items s)
    (hi : s.tasks[s.registered]? = some task)
    (hpaths : ∀ path, validateRelPath task.item.relPath.toList saveRoot = .ok path →
      path ∈ s.seenPaths) :
    Routed saveRoot items { s.put s.registered { task with phase := phase } with
      registered := s.registered + 1 } := by
  have hitem := h.item hi
  have hnot : ¬ Routable saveRoot items s.registered task.item := by
    intro hroutable
    obtain ⟨-, path, hpath, -⟩ := id hroutable
    exact (h.seen_iff hi hpath).mpr hroutable (hpaths path hpath)
  constructor
  · exact h.root
  · rw [← h.listed]
    exact map_set_of_eq hi rfl
  · intro path
    constructor
    · intro hseen
      obtain ⟨j, hj, hrest⟩ := (h.seen path).mp hseen
      exact ⟨j, Nat.lt_succ_of_lt hj, hrest⟩
    · rintro ⟨j, hj, other, hother, hvalid⟩
      obtain hlt | rfl := Nat.lt_succ_iff_lt_or_eq.mp hj
      · exact (h.seen path).mpr ⟨j, hlt, other, hother, hvalid⟩
      · rw [hitem] at hother
        cases hother
        exact hpaths path hvalid
  · intro f j hf
    obtain ⟨hj, t, ht, hid⟩ := h.owners f j hf
    refine ⟨Nat.lt_succ_of_lt hj, t, ?_, hid⟩
    rw [← ht]
    exact List.getElem?_set_ne (by omega)
  · exact h.own.set (h.own _ task hi) (fun _ _ _ _ hold => hold)
  · intro i item hroutable hle
    exact h.early i item hroutable (Nat.le_of_succ_le hle)
  · intro i item t hroutable hlt ht
    obtain ⟨rfl, rfl⟩ | ⟨hne, hold⟩ := getElem?_set_cases ht
    · have heq : item = task.item := by
        have := hroutable.1
        rw [hitem] at this
        exact (Option.some.inj this).symm
      exact absurd (heq ▸ hroutable) hnot
    · have hbefore : i < s.registered := by
        have : i < s.registered + 1 := hlt
        omega
      exact (h.lanes i item t hroutable hbefore hold).congr rfl rfl id rfl

theorem Routed.no_route (h : Routed saveRoot items s)
    (hids : (items.map FileItem.fileId).Nodup) {task : ReceiveTask}
    (hi : s.tasks[s.registered]? = some task) : s.streamRoutes.lookup task.item.fileId = none := by
  cases hfound : s.streamRoutes.lookup task.item.fileId with
  | none => rfl
  | some j =>
    obtain ⟨hj, t, ht, hid⟩ := h.owners _ j hfound
    have := place_unique (h.keys hids) ht hi hid
    omega

theorem routed_insertRoute {task : ReceiveTask} {path : PathBuf} (h : Routed saveRoot items s)
    (hids : (items.map FileItem.fileId).Nodup) (hi : s.tasks[s.registered]? = some task)
    (hpath : validateRelPath task.item.relPath.toList saveRoot = .ok path)
    (hnew : path ∉ s.seenPaths) :
    Routed saveRoot items { s.insertRoute s.registered task with
      seenPaths := path :: s.seenPaths, registered := s.registered + 1 } := by
  have hitem := h.item hi
  have hroutable := (h.seen_iff hi hpath).mp hnew
  have hlt : s.registered < s.tasks.length := (List.getElem?_eq_some_iff.mp hi).1
  have hkeep : adjust (fun j => s.streamRoutes.lookup task.item.fileId = some j)
      ReceiveTask.unhook s.tasks = s.tasks := by
    apply List.ext_getElem?
    intro j
    simp [getElem?_adjust, h.no_route hids hi]
  have htasks : (s.insertRoute s.registered task).tasks =
      s.tasks.set s.registered { task with phase := .queued, stream := .empty } := by
    simp only [ReceiveSide.insertRoute, ReceiveSide.dropRoute, hkeep]
  have hroutes : (s.insertRoute s.registered task).streamRoutes =
      s.streamRoutes.insert task.item.fileId s.registered := rfl
  constructor
  · exact h.root
  · simp only [htasks, ← h.listed]
    exact map_set_of_eq hi rfl
  · intro path'
    simp only [List.mem_cons]
    constructor
    · rintro (rfl | hseen)
      · exact ⟨s.registered, by omega, task.item, hitem, hpath⟩
      · obtain ⟨j, hj, hrest⟩ := (h.seen path').mp hseen
        exact ⟨j, Nat.lt_succ_of_lt hj, hrest⟩
    · rintro ⟨j, hj, other, hother, hvalid⟩
      obtain hbefore | rfl := Nat.lt_succ_iff_lt_or_eq.mp hj
      · exact .inr ((h.seen path').mpr ⟨j, hbefore, other, hother, hvalid⟩)
      · rw [hitem] at hother
        cases hother
        rw [hpath] at hvalid
        cases hvalid
        exact .inl rfl
  · intro f j hf
    simp only [hroutes, htasks] at hf ⊢
    obtain ⟨rfl, rfl⟩ | ⟨-, hold⟩ := lookup_insert_cases hf
    · exact ⟨by omega, { task with phase := .queued, stream := .empty }, by simp [hlt], rfl⟩
    · obtain ⟨hj, t, ht, hid⟩ := h.owners f j hold
      refine ⟨Nat.lt_succ_of_lt hj, t, ?_, hid⟩
      rw [← ht]
      exact List.getElem?_set_ne (by omega)
  · simp only [htasks]
    refine h.own.set ?_ (fun _ _ _ _ hold => hold)
    intro m hm
    cases hm
  · intro i item hother hle
    exact h.early i item hother (Nat.le_of_succ_le hle)
  · intro i item t hother hbound ht
    simp only [htasks] at ht
    obtain ⟨rfl, rfl⟩ | ⟨hne, hold⟩ := getElem?_set_cases ht
    · have heq : item = task.item := by
        have := hother.1
        rw [hitem] at this
        exact (Option.some.inj this).symm
      subst heq
      exact .awaited (AList.lookup_insert _) rfl (h.early _ _ hroutable le_rfl)
    · have hbefore : i < s.registered := by
        have : i < s.registered + 1 := hbound
        omega
      have hkey : item.fileId ≠ task.item.fileId := by
        intro hkey
        have hitem' : item = t.item := by
          have := hother.1
          rw [h.item hold] at this
          exact (Option.some.inj this).symm
        exact hne (place_unique (h.keys hids) hi hold (by rw [← hitem', hkey]))
      refine (h.lanes i item t hother hbefore hold).congr ?_ rfl id rfl
      exact AList.lookup_insert_ne hkey

theorem routed_register {task : ReceiveTask} (h : Routed saveRoot items s)
    (hids : (items.map FileItem.fileId).Nodup) (hi : s.tasks[s.registered]? = some task) :
    Routed saveRoot items (s.registerItem task) := by
  simp only [ReceiveSide.registerItem]
  split
  · rename_i e hinvalid
    apply routed_refuse _ h hi
    intro path hvalid
    rw [h.root, hvalid] at hinvalid
    cases hinvalid
  · rename_i path hvalid
    rw [h.root] at hvalid
    split_ifs with hseen
    · apply routed_refuse _ h hi
      intro path' hvalid'
      rw [hvalid] at hvalid'
      cases hvalid'
      exact hseen
    · exact routed_insertRoute h hids hi hvalid hseen

theorem value?_hear {task : ReceiveTask} {firstMsg : DashMessage} (hempty : task.stream = .empty) :
    (task.hear firstMsg).stream.value? = some firstMsg := by
  simp [ReceiveTask.hear, hempty, Channel.send, Channel.value?]

theorem hear_cases (task : ReceiveTask) (firstMsg : DashMessage) :
    task.stream = .empty ∨ task.hear firstMsg = task := by
  obtain ⟨item, phase, stream⟩ := task
  cases stream with
  | empty => exact .inl rfl
  | _ => exact .inr rfl

theorem Lane.append {i f : ℕ} {item : FileItem} {task : ReceiveTask} {firstMsg : DashMessage}
    {target : Option ℕ} (h : Lane s i item task) (hf : routedFileId firstMsg = some f)
    (hne : item.fileId ≠ f)
    (hroute : s'.streamRoutes.lookup item.fileId = s.streamRoutes.lookup item.fileId)
    (hhanded : s'.handed = s.handed ++ [(firstMsg, target)]) : Lane s' i item task := by
  have hother : ∀ e ∈ s'.handed, routedFileId e.1 = some item.fileId → e ∈ s.handed := by
    intro e he heq
    rw [hhanded] at he
    obtain hold | hnew := List.mem_append.mp he
    · exact hold
    · simp only [List.mem_singleton] at hnew
      subst hnew
      rw [hf] at heq
      exact absurd (Option.some.inj heq).symm hne
  cases h with
  | awaited hown hempty hnone =>
    exact .awaited (hroute.trans hown) hempty fun e he heq => hnone e (hother e he heq) heq
  | arrived m hm hmem hall =>
    refine .arrived m hm ?_ fun e he heq => hall e (hother e he heq) heq
    rw [hhanded]
    exact List.mem_append_left _ hmem

theorem Routed.early_append {f : ℕ} {firstMsg : DashMessage} (target : Option ℕ)
    (h : Routed saveRoot items s) (hf : routedFileId firstMsg = some f)
    (hintime : ∀ i item, Routable saveRoot items i item → item.fileId = f → i < s.registered) :
    ∀ i item, Routable saveRoot items i item → s.registered ≤ i →
      ∀ e ∈ s.handed ++ [(firstMsg, target)], routedFileId e.1 ≠ some item.fileId := by
  intro i item hroutable hle e he heq
  obtain hold | hnew := List.mem_append.mp he
  · exact h.early i item hroutable hle e hold heq
  · simp only [List.mem_singleton] at hnew
    subst hnew
    rw [hf] at heq
    have := hintime i item hroutable (Option.some.inj heq).symm
    omega

theorem Routed.awaited {f i : ℕ} {item : FileItem} {task : ReceiveTask}
    (h : Routed saveRoot items s) (hroutable : Routable saveRoot items i item)
    (hid : item.fileId = f) (hi : s.tasks[i]? = some task) (hlt : i < s.registered)
    (hfirst : ∀ e ∈ s.handed, routedFileId e.1 ≠ some item.fileId) :
    s.streamRoutes.lookup f = some i ∧ task.stream = .empty := by
  cases h.lanes i item task hroutable hlt hi with
  | awaited hroute hempty _ => exact ⟨hid ▸ hroute, hempty⟩
  | arrived m hm hmem hall =>
    have hitem := h.item hi
    rw [hroutable.1] at hitem
    cases hitem
    exact absurd (h.own i task hi m hm) (hfirst _ hmem)

theorem routed_route {firstMsg : DashMessage} {f : ℕ} (h : Routed saveRoot items s)
    (hf : routedFileId firstMsg = some f)
    (hintime : ∀ i item, Routable saveRoot items i item → item.fileId = f →
      i < s.registered ∧ ∀ e ∈ s.handed, routedFileId e.1 ≠ some item.fileId) :
    Routed saveRoot items (s.route firstMsg f) := by
  have hearly := fun target => h.early_append target hf
    fun i item hroutable hid => (hintime i item hroutable hid).1
  unfold ReceiveSide.route
  split
  · rename_i k hroute
    obtain ⟨hk, owner, howner, hkey⟩ := h.owners f k hroute
    constructor
    · exact h.root
    · rw [← h.listed]
      exact map_adjust (f := ReceiveTask.hear firstMsg) (fun _ => rfl) _ _
    · exact h.seen
    · intro f' j hf'
      obtain ⟨-, hold⟩ := lookup_erase_cases hf'
      obtain ⟨hj, t, ht, hid⟩ := h.owners f' j hold
      refine ⟨hj, if j = k then t.hear firstMsg else t, ?_, ?_⟩
      · simp [getElem?_adjust, ht]
      · split_ifs <;> exact hid
    · refine h.own.adjust ?_ (fun _ _ _ _ hold => hold)
      intro j t hj ht hold m hm
      obtain rfl : j = k := by simpa using hj
      obtain hempty | hsame := hear_cases t firstMsg
      · rw [value?_hear hempty] at hm
        cases hm
        rw [ht] at howner
        cases howner
        rw [hf, ← hkey]
        rfl
      · rw [hsame] at hm ⊢
        exact hold m hm
    · exact hearly _
    · intro i item t hroutable hlt ht
      rw [getElem?_adjust] at ht
      obtain ⟨t', ht', rfl⟩ := Option.map_eq_some_iff.mp ht
      by_cases hid : item.fileId = f
      · obtain ⟨-, hfirst⟩ := hintime i item hroutable hid
        obtain ⟨hown, hempty⟩ := h.awaited hroutable hid ht' hlt hfirst
        obtain rfl : k = i := by
          rw [hroute] at hown
          exact Option.some.inj hown
        have hmap : s.tasks[k]?.map ReceiveTask.stream = some .empty := by rw [ht']; simp [hempty]
        refine .arrived firstMsg (by simpa using value?_hear hempty) (by simp [hmap]) ?_
        intro e he heq
        obtain hold | hnew := List.mem_append.mp he
        · exact absurd heq (hfirst e hold)
        · simpa [hmap] using hnew
      · have hne : i ≠ k := by
          rintro rfl
          rw [ht'] at howner
          cases howner
          have hitem := h.item ht'
          rw [hroutable.1] at hitem
          cases hitem
          exact hid hkey
        simp only [hne, decide_false, Bool.false_eq_true, if_false]
        exact (h.lanes i item t' hroutable hlt ht').append hf hid (AList.lookup_erase_ne hid) rfl
  · rename_i hroute
    refine ⟨h.root, h.listed, h.seen, h.owners, h.own, hearly none, ?_⟩
    intro i item t hroutable hlt ht
    by_cases hid : item.fileId = f
    · obtain ⟨-, hfirst⟩ := hintime i item hroutable hid
      have hown := (h.awaited hroutable hid ht hlt hfirst).1
      rw [hroute] at hown
      cases hown
    · exact (h.lanes i item t hroutable hlt ht).append hf hid rfl rfl

theorem routed_stream {firstMsg : DashMessage} (h : Routed saveRoot items s)
    (hintime : InTime saveRoot items s (.stream (.ok firstMsg))) :
    Routed saveRoot items (s.dispatch (.ok firstMsg)) := by
  obtain ⟨hkind, hfirst⟩ := hintime
  unfold ReceiveSide.dispatch
  split
  · exact h
  · rename_i payload heq
    exact absurd (Except.ok.inj heq) (hkind payload)
  · rename_i m _ heq
    cases heq
    split
    · rename_i f hf
      apply routed_route h hf
      intro i item hroutable hid
      exact hfirst i item hroutable (by rw [hf, hid])
    · exact h

theorem routed_step {l : ReceiveLabel} (hids : (items.map FileItem.fileId).Nodup)
    (h : Routed saveRoot items s) (hintime : InTime saveRoot items s l)
    (hmove : receiverStep s l = some s') : Routed saveRoot items s' := by
  obtain ⟨⟨t, acks⟩, hstep, rfl⟩ := Option.map_eq_some_iff.mp hmove
  cases l with
  | register =>
    obtain ⟨task, hi, heq⟩ := Option.map_eq_some_iff.mp hstep
    cases heq
    exact routed_register h hids hi
  | task i move =>
    obtain ⟨task, hi, hadv⟩ := Option.bind_eq_some_iff.mp hstep
    apply routed_task h hi ?_ hadv
    rintro timer rfl
    exact hintime
  | stream first =>
    simp only [ReceiveSide.step] at hstep
    split_ifs at hstep
    cases hstep
    cases first with
    | error fault => exact h
    | ok firstMsg => exact routed_stream h hintime
  | join =>
    simp only [ReceiveSide.step] at hstep
    split_ifs at hstep
    cases hstep
    exact ⟨h.root, h.listed, h.seen, h.owners, h.own, h.early, fun i item t hr hlt ht =>
      (h.lanes i item t hr hlt ht).congr rfl rfl id rfl⟩

theorem Routed.routesAll (hids : (items.map FileItem.fileId).Nodup) (h : Routed saveRoot items s) :
    RoutesAll saveRoot items s := by
  intro firstMsg target hmem i item hroutable hid
  have hlt : i < s.registered := by
    by_contra hle
    exact h.early i item hroutable (Nat.le_of_not_lt hle) _ hmem hid
  have hsome : ∃ task, s.tasks[i]? = some task ∧ task.item = item := by
    have := hroutable.1
    rwa [← h.listed, List.getElem?_map, Option.map_eq_some_iff] at this
  obtain ⟨task, hi, rfl⟩ := hsome
  cases h.lanes i _ task hroutable hlt hi with
  | awaited _ _ hnone => exact absurd hid (hnone _ hmem)
  | arrived m hm _ hall =>
    cases hall _ hmem hid
    refine ⟨rfl, ?_⟩
    intro j t hj
    constructor
    · intro hvalue
      have hown := h.own j t hj _ hvalue
      rw [hid] at hown
      exact place_unique (h.keys hids) hj hi (Option.some.inj hown).symm
    · rintro rfl
      rw [hi] at hj
      cases hj
      exact hm

end Steps

/-- On a connection that only brings streams: no Cancel, no broken stream, and no wait for a
stream that runs out. -/
def Undisturbed : ReceiveLabel → Prop
  | .stream (.ok (.cancel _)) | .stream (.error _) => False
  | .task _ (.take timer) => timer = false
  | _ => True

instance : DecidablePred Undisturbed
  | .stream (.ok (.cancel _)) | .stream (.error _) => isFalse id
  | .stream (.ok (.hello _)) | .stream (.ok (.offer _)) | .stream (.ok (.accept _))
  | .stream (.ok (.reject _)) | .stream (.ok (.chunk _)) | .stream (.ok (.complete _))
  | .stream (.ok (.ack _)) | .stream (.ok (.p2pRequest _)) | .stream (.ok (.p2pResponse _)) =>
      isTrue trivial
  | .task _ (.take timer) => inferInstanceAs (Decidable (timer = false))
  | .task _ .acquire | .task _ (.finish _) | .task _ .answer => isTrue trivial
  | .register | .join => isTrue trivial

/-- A stream that comes after the route of its item reaches the task of the item. -/
theorem timely_streams_reach_their_tasks (saveRoot : PathBuf) (configured : ℕ)
    (items : List FileItem) (hids : (items.map FileItem.fileId).Nodup) (s : ReceiveSide)
    (hrun : Reaches receiverStep (InTime saveRoot items) (.start saveRoot configured items) s) :
    RoutesAll saveRoot items s := by
  have hrouted : Routed saveRoot items s :=
    hrun.keeps (routed_start saveRoot configured items) fun h hintime hstep =>
      routed_step hids h hintime hstep
  exact hrouted.routesAll hids

def sampleRoot : PathBuf := .ofText "/d".toList

def sampleItem : FileItem := ⟨0, "x", "x", 0, .regularFile, 0, none, none⟩

def sampleComplete : DashMessage := .complete ⟨0, ⟨Vector.replicate 32 0⟩⟩

def sampleReceiver : ReceiveSide := .start sampleRoot 4 [sampleItem]

/-- The receiver after the loop has registered its item, and after the stream of the item. -/
def registeredReceiver : ReceiveSide := (receiverStep sampleReceiver .register).getD sampleReceiver

def routedReceiver : ReceiveSide :=
  (receiverStep registeredReceiver (.stream (.ok sampleComplete))).getD registeredReceiver

theorem sample_routable : Routable sampleRoot [sampleItem] 0 sampleItem :=
  ⟨rfl, .ofText "/d/x".toList, by decide +kernel, fun _ h => absurd h (Nat.not_lt_zero _)⟩

theorem registered_stream_reaches_task :
    routedReceiver.handed = [(sampleComplete, some 0)] ∧
      RoutesAll sampleRoot [sampleItem] routedReceiver := by
  have hintime : InTime sampleRoot [sampleItem] registeredReceiver (.stream (.ok sampleComplete)) := by
    refine ⟨fun _ h => (by cases h), ?_⟩
    intro i item hroutable _
    have hi : i < 1 := (List.getElem?_eq_some_iff.mp hroutable.1).1
    have hregistered : registeredReceiver.registered = 1 := by decide +kernel
    have hnone : registeredReceiver.handed = [] := by decide +kernel
    exact ⟨hregistered ▸ hi, by simp [hnone]⟩
  refine ⟨by decide +kernel, timely_streams_reach_their_tasks sampleRoot 4 [sampleItem]
    (by decide) routedReceiver ?_⟩
  exact (Relation.ReflTransGen.single ⟨.register, trivial, rfl⟩).tail ⟨_, hintime, rfl⟩

/-- The same stream, dispatched before the loop has come to its item. -/
def earlySteps : List ReceiveLabel := [.stream (.ok sampleComplete), .register]

def missedReceiver : ReceiveSide :=
  (play receiverStep (fun _ => Undisturbed) sampleReceiver earlySteps).getD sampleReceiver

theorem early_stream_dropped :
    Reaches receiverStep (fun _ => Undisturbed) sampleReceiver missedReceiver ∧
      (sampleComplete, none) ∈ missedReceiver.handed ∧
      ¬ RoutesAll sampleRoot [sampleItem] missedReceiver := by
  have hdropped : (sampleComplete, none) ∈ missedReceiver.handed := by decide +kernel
  refine ⟨reaches_of_play (by rfl : play _ _ _ earlySteps = some missedReceiver), hdropped, ?_⟩
  intro hall
  obtain ⟨htarget, -⟩ := hall _ _ hdropped 0 sampleItem sample_routable rfl
  cases htarget

end DashDrop.Exchange.Routing
