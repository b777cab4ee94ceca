/- GID: DashDrop/Sending/SourceChanges
   source: src-tauri/src/transport/sender.rs, src-tauri/src/db.rs
   anchors: []
   digest: Attempts to send one transfer while its sources change, and what they resume. -/

import DashDrop.Foundation.Transitions
import DashDrop.Transport.Protocol
import Mathlib.Data.List.AList

set_option autoImplicit false
set_option relaxedAutoImplicit false

namespace DashDrop.Sending.SourceChanges

open DashDrop.Foundation.Transitions
open DashDrop.Transport.Protocol

inductive ResumeSourcePolicy where
  | reuseExistingProgress
  | restartFull (reason : String)
  deriving DecidableEq

abbrev Snapshots := AList (fun _ : ℕ => SourceSnapshot)

abbrev NamedSnapshots := AList (fun _ : ℕ => String × SourceSnapshot)

def addSnapshot (m : Snapshots) (item : FileItem) : Snapshots :=
  match item.sourceSnapshot with
  | some snapshot => m.insert item.fileId snapshot
  | none => m

/-- `current_source_snapshots`, by file id. -/
def sourceSnapshots (items : List FileItem) : Snapshots := items.foldl addSnapshot ∅

def addNamed (m : NamedSnapshots) (item : FileItem) : NamedSnapshots :=
  match item.sourceSnapshot with
  | some snapshot => m.insert item.fileId (item.relPath, snapshot)
  | none => m

def namedSnapshots (items : List FileItem) : NamedSnapshots := items.foldl addNamed ∅

def changedFields (previous current : SourceSnapshot) : List String :=
  (if previous.size ≠ current.size then ["size"] else []) ++
    (if previous.mtimeUnixMs ≠ current.mtimeUnixMs then ["mtime"] else []) ++
    (if previous.headHash ≠ current.headHash then ["head_hash"] else [])

def sorted (ids : List ℕ) : List ℕ := ids.mergeSort (· ≤ ·)

def changedEntry (current : NamedSnapshots) (fileId : ℕ)
    (previous : SourceSnapshot) : Option String :=
  match current.lookup fileId with
  | some (relPath, snapshot) =>
      let fields := changedFields previous snapshot
      if fields.isEmpty then none
      else some (relPath ++ "(file_id=" ++ toString fileId ++ "):" ++ ",".intercalate fields)
  | none => some ("file_id=" ++ toString fileId ++ ":missing")

def changedEntries (previous : Snapshots)
    (current : NamedSnapshots) : List String :=
  ((sorted previous.keys).filterMap fun fileId =>
      (previous.lookup fileId).bind (changedEntry current fileId)) ++
    (sorted (current.keys.filter fun fileId => (previous.lookup fileId).isNone)).filterMap
      fun fileId => (current.lookup fileId).map fun entry =>
        entry.1 ++ "(file_id=" ++ toString fileId ++ "):added"

def validateResumeSourceSnapshots (previous : Option Snapshots) (items : List FileItem) :
    ResumeSourcePolicy :=
  match previous with
  | none => .reuseExistingProgress
  | some previous =>
      let changed := changedEntries previous (namedSnapshots items)
      if changed.isEmpty then .reuseExistingProgress
      else .restartFull ("source snapshot mismatch: " ++ "; ".intercalate changed)

theorem changedFields_eq_nil_iff (previous current : SourceSnapshot) :
    changedFields previous current = [] ↔ previous = current := by
  obtain ⟨size, mtime, head⟩ := previous
  obtain ⟨size', mtime', head'⟩ := current
  simp only [changedFields, List.append_eq_nil_iff, SourceSnapshot.mk.injEq]
  split_ifs <;> simp_all

theorem lookup_sourceSnapshots (items : List FileItem) (fileId : ℕ) :
    (sourceSnapshots items).lookup fileId = ((namedSnapshots items).lookup fileId).map Prod.snd := by
  have collected (rest : List FileItem) : ∀ (m : Snapshots) (named : NamedSnapshots),
      (∀ f, m.lookup f = (named.lookup f).map Prod.snd) → ∀ f,
        (rest.foldl addSnapshot m).lookup f =
          ((rest.foldl addNamed named).lookup f).map Prod.snd := by
    induction rest with
    | nil => exact fun m named same f => same f
    | cons item rest ih =>
      intro m named same f
      apply ih
      intro g
      unfold addSnapshot addNamed
      split
      · by_cases here : g = item.fileId
        · subst here
          simp
        · rw [AList.lookup_insert_ne here, AList.lookup_insert_ne here]
          exact same g
      · exact same g
  exact collected items ∅ ∅ (fun _ => rfl) fileId

/-- A file that was there before is left out of the message if and only if it is the same. -/
theorem changedEntry_eq_none_iff (current : NamedSnapshots) (fileId : ℕ)
    (previous : SourceSnapshot) : changedEntry current fileId previous = none ↔
      (current.lookup fileId).map Prod.snd = some previous := by
  unfold changedEntry
  cases found : current.lookup fileId with
  | none => simp
  | some entry =>
    obtain ⟨relPath, snapshot⟩ := entry
    have same := changedFields_eq_nil_iff previous snapshot
    simp only [List.isEmpty_iff, same, Option.map_some, Option.some.injEq]
    split_ifs with equal
    · simp [equal]
    · simpa using fun back => equal back.symm

theorem mem_keys_iff {β : Type} {m : AList fun _ : ℕ => β} {fileId : ℕ} :
    fileId ∈ m.keys ↔ ∃ entry, m.lookup fileId = some entry := by
  rw [← Option.isSome_iff_exists, AList.lookup_isSome]
  rfl

theorem changedEntries_eq_nil_iff (previous : Snapshots) (current : NamedSnapshots) :
    changedEntries previous current = [] ↔
      ∀ fileId, previous.lookup fileId = (current.lookup fileId).map Prod.snd := by
  simp only [changedEntries, List.append_eq_nil_iff, List.filterMap_eq_nil_iff, sorted,
    List.mem_mergeSort]
  constructor
  · rintro ⟨kept, fresh⟩ fileId
    cases before : previous.lookup fileId with
    | some snapshot =>
      have entry := kept fileId (mem_keys_iff.mpr ⟨snapshot, before⟩)
      simp only [before, Option.bind_some, changedEntry_eq_none_iff] at entry
      exact entry.symm
    | none =>
      cases now : current.lookup fileId with
      | none => rfl
      | some entry =>
        have added := fresh fileId (List.mem_filter.mpr
          ⟨mem_keys_iff.mpr ⟨entry, now⟩, by simp [before]⟩)
        simp [now] at added
  · intro same
    constructor
    · intro fileId _
      cases before : previous.lookup fileId with
      | none => rfl
      | some snapshot =>
        apply (changedEntry_eq_none_iff current fileId snapshot).mpr
        rw [← same fileId, before]
    · intro fileId listed
      have before : previous.lookup fileId = none := by simpa using (List.mem_filter.mp listed).2
      rw [same fileId] at before
      simpa using before

/-- The progress is reused if nothing was stored, or if just the current snapshots were. -/
theorem reuse_iff (previous : Option Snapshots) (items : List FileItem) :
    validateResumeSourceSnapshots previous items = .reuseExistingProgress ↔
      ∀ m, previous = some m → ∀ fileId, m.lookup fileId = (sourceSnapshots items).lookup fileId := by
  cases previous with
  | none => simp [validateResumeSourceSnapshots]
  | some m =>
    have same := changedEntries_eq_nil_iff m (namedSnapshots items)
    simp only [← lookup_sourceSnapshots] at same
    simp only [validateResumeSourceSnapshots, List.isEmpty_iff, Option.some.injEq, forall_eq',
      ← same]
    split_ifs with equal
    · simp [equal]
    · simp [equal]

theorem lookup_addSnapshot (m : Snapshots) (item : FileItem) (fileId : ℕ) :
    (addSnapshot m item).lookup fileId =
      if fileId = item.fileId ∧ item.sourceSnapshot.isSome then item.sourceSnapshot
      else m.lookup fileId := by
  unfold addSnapshot
  cases carried : item.sourceSnapshot with
  | none => simp
  | some snapshot =>
    by_cases here : fileId = item.fileId
    · subst here
      simp
    · simp [here, AList.lookup_insert_ne here]

theorem lookup_foldl_addSnapshot {items : List FileItem}
    (distinct : (items.map FileItem.fileId).Nodup) (m : Snapshots)
    (fresh : ∀ item ∈ items, m.lookup item.fileId = none) (fileId : ℕ)
    (snapshot : SourceSnapshot) : (items.foldl addSnapshot m).lookup fileId = some snapshot ↔
      m.lookup fileId = some snapshot ∨
        ∃ item ∈ items, item.fileId = fileId ∧ item.sourceSnapshot = some snapshot := by
  induction items generalizing m with
  | nil => simp
  | cons item rest ih =>
    rw [List.map_cons, List.nodup_cons] at distinct
    have other : ∀ later ∈ rest, later.fileId ≠ item.fileId := fun later mem same =>
      distinct.1 (same ▸ List.mem_map_of_mem mem)
    have unseen : ∀ later ∈ rest, (addSnapshot m item).lookup later.fileId = none := by
      intro later mem
      rw [lookup_addSnapshot, if_neg fun h => other later mem h.1]
      exact fresh later (List.mem_cons_of_mem item mem)
    have before := fresh item List.mem_cons_self
    rw [List.foldl_cons, ih distinct.2 _ unseen, lookup_addSnapshot, List.exists_mem_cons_iff,
      ← or_assoc]
    apply or_congr_left
    by_cases here : fileId = item.fileId
    · subst here
      rw [before]
      cases item.sourceSnapshot with
      | none => simp
      | some carried => simp
    · rw [if_neg fun h => here h.1]
      constructor
      · exact Or.inl
      · rintro (h | ⟨h, -⟩)
        · exact h
        · exact absurd h.symm here

theorem lookup_sourceSnapshots_iff {items : List FileItem}
    (distinct : (items.map FileItem.fileId).Nodup) (fileId : ℕ) (snapshot : SourceSnapshot) :
    (sourceSnapshots items).lookup fileId = some snapshot ↔
      ∃ item ∈ items, item.fileId = fileId ∧ item.sourceSnapshot = some snapshot := by
  have collected := lookup_foldl_addSnapshot distinct ∅ (fun _ _ => rfl) fileId snapshot
  have empty : (∅ : Snapshots).lookup fileId = none := rfl
  rwa [empty, or_iff_right (by simp)] at collected

/-- With distinct ids the progress is reused if and only if nothing was stored, or just what the
items carry. -/
theorem reuse_iff_as_carried (previous : Option Snapshots) (items : List FileItem)
    (distinct : (items.map FileItem.fileId).Nodup) :
    validateResumeSourceSnapshots previous items = .reuseExistingProgress ↔
      previous = none ∨ ∃ m, previous = some m ∧ ∀ fileId snapshot,
        m.lookup fileId = some snapshot ↔
          ∃ item ∈ items, item.fileId = fileId ∧ item.sourceSnapshot = some snapshot := by
  rw [reuse_iff]
  cases previous with
  | none => simp
  | some m =>
    simp only [Option.some.injEq, forall_eq', reduceCtorEq, false_or, exists_eq_left']
    apply forall_congr'
    intro fileId
    constructor
    · intro same snapshot
      rw [same]
      exact lookup_sourceSnapshots_iff distinct fileId snapshot
    · intro same
      ext snapshot
      exact (same snapshot).trans (lookup_sourceSnapshots_iff distinct fileId snapshot).symm

def snapshotAt (mtimeUnixMs : ℕ) : SourceSnapshot := ⟨20, mtimeUnixMs, ⟨Vector.replicate 32 0⟩⟩

def fileAt (mtimeUnixMs : ℕ) : FileItem :=
  ⟨0, "a", "a", 20, .regularFile, 0, none, some (snapshotAt mtimeUnixMs)⟩

def nextAt (mtimeUnixMs : ℕ) : FileItem := { fileAt mtimeUnixMs with fileId := 1, name := "b", relPath := "b" }

theorem later_file_not_reused :
    validateResumeSourceSnapshots (some (sourceSnapshots [fileAt 1, nextAt 1])) [fileAt 1, nextAt 2] ≠
      .reuseExistingProgress := by
  rw [Ne, reuse_iff_as_carried _ _ (by decide : ([fileAt 1, nextAt 2].map FileItem.fileId).Nodup)]
  rintro (h | ⟨m, stored, same⟩)
  · cases h
  · cases stored
    have carried := (same 1 (snapshotAt 2)).mpr ⟨nextAt 2, by simp, rfl, rfl⟩
    rw [(by rfl : (sourceSnapshots [fileAt 1, nextAt 1]).lookup 1 = some (snapshotAt 1))] at carried
    exact absurd carried (by decide)

/-- One call of `send_files` for the transfer, with all that the database, the network and the
receiver make of it. -/
structure Attempt where
  /-- `None` where the sources cannot be gathered. -/
  items : Option (List FileItem)
  loads : Bool
  saves : Bool
  /-- What the receiver has accepted, if the attempt comes so far. -/
  accept : Option AcceptPayload
  /-- Bytes of the file arrive, and are kept. -/
  sends : ℕ → Bool
  /-- The receiver gives up the bytes that it had of the file. -/
  discards : ℕ → Bool

/-- The stored snapshots, and the snapshots under which the bytes that the receiver has of a file
were sent. -/
structure Progress where
  stored : Option Snapshots
  partials : ℕ → List SourceSnapshot

def Progress.start : Progress := ⟨none, fun _ => []⟩

/-- The policy of an attempt; a failed load counts as no stored snapshot. -/
def policy (s : Progress) (a : Attempt) (items : List FileItem) : ResumeSourcePolicy :=
  validateResumeSourceSnapshots (if a.loads then s.stored else none) items

def resumeOffset (s : Progress) (a : Attempt) (items : List FileItem) (item : FileItem) : ℕ :=
  match a.accept, item.fileType, policy s a items with
  | some accept, .regularFile, .reuseExistingProgress =>
      ((accept.resumeOffsets.getD []).lookup item.fileId).getD 0
  | _, _, _ => 0

def Attempt.leaves (a : Attempt) (items : List FileItem) (partials : ℕ → List SourceSnapshot)
    (fileId : ℕ) : List SourceSnapshot :=
  (if a.sends fileId ∧ a.accept.isSome then ((sourceSnapshots items).lookup fileId).toList else []) ++
    if a.discards fileId then [] else partials fileId

def Attempt.sendable (a : Attempt) : Option (List FileItem) :=
  a.items.filter fun items => !items.isEmpty

def attemptStep (s : Progress) (a : Attempt) : Option Progress :=
  match a.sendable with
  | none => some s
  | some items => some
      { stored := if a.saves then some (sourceSnapshots items) else s.stored
        partials := a.leaves items s.partials }

/-- The snapshots can be read and stored, and where a source has changed the receiver gives up what
it has of it before the attempt ends. -/
def Careful (s : Progress) (a : Attempt) : Prop :=
  match a.sendable with
  | none => True
  | some items => a.loads = true ∧ a.saves = true ∧
      ∀ fileId p, p ∈ s.partials fileId → (sourceSnapshots items).lookup fileId ≠ some p →
        a.discards fileId = true

section Runs

variable {s t : Progress} {a : Attempt}

/-- What is stored are the snapshots of the bytes that the receiver has. -/
def Matches (s : Progress) : Prop :=
  ∀ fileId p, p ∈ s.partials fileId → ∃ m, s.stored = some m ∧ m.lookup fileId = some p

theorem matches_start : Matches .start := by
  intro fileId p mem
  cases mem

theorem matches_step (h : Matches s) (careful : Careful s a) (step : attemptStep s a = some t) :
    Matches t := by
  unfold attemptStep at step
  unfold Careful at careful
  cases gathered : a.sendable with
  | none =>
    simp only [gathered] at step
    obtain rfl := Option.some.inj step
    exact h
  | some items =>
    simp only [gathered] at step careful
    obtain ⟨-, saved, discarded⟩ := careful
    obtain rfl := Option.some.inj step
    intro fileId p mem
    refine ⟨sourceSnapshots items, by simp [saved], ?_⟩
    obtain sent | kept := List.mem_append.mp mem
    · split_ifs at sent
      · simpa using sent
      · cases sent
    · split_ifs at kept with dropped
      · cases kept
      · by_contra changed
        exact dropped (discarded fileId p kept changed)

/-- A file that is not sent from its beginning is the one whose bytes the receiver has. -/
theorem offset_of_matches {items : List FileItem} {item : FileItem} (h : Matches s)
    (careful : Careful s a) (gathered : a.sendable = some items)
    (used : resumeOffset s a items item ≠ 0) {p : SourceSnapshot}
    (mem : p ∈ s.partials item.fileId) : (sourceSnapshots items).lookup item.fileId = some p := by
  simp only [Careful, gathered] at careful
  have reused : policy s a items = .reuseExistingProgress := by
    unfold resumeOffset at used
    split at used
    · assumption
    · exact absurd rfl used
  rw [policy, careful.1, if_pos rfl, reuse_iff] at reused
  obtain ⟨m, stored, found⟩ := h item.fileId p mem
  rw [← reused m stored]
  exact found

/-- In every run of attempts that meet the condition, a resume offset is used for a file only under
the snapshot of the bytes that the receiver has. -/
theorem resumed_only_unchanged {items : List FileItem} {item : FileItem}
    (run : Reaches attemptStep Careful .start s) (careful : Careful s a)
    (gathered : a.sendable = some items) (used : resumeOffset s a items item ≠ 0)
    (p : SourceSnapshot) (mem : p ∈ s.partials item.fileId) :
    (sourceSnapshots items).lookup item.fileId = some p := by
  have kept : Matches s := run.keeps matches_start fun h allowed step => matches_step h allowed step
  exact offset_of_matches kept careful gathered used mem

end Runs

def attemptAt (mtimeUnixMs : ℕ) (accept : Option AcceptPayload) (sends : Bool) : Attempt :=
  ⟨some [fileAt mtimeUnixMs], true, true, accept, fun _ => sends, fun _ => false⟩

def halfAccepted : AcceptPayload := ⟨1, some [(0, 10)]⟩

def afterFirst : Progress := (attemptStep .start (attemptAt 1 (some ⟨1, none⟩) true)).getD .start

theorem unchanged_file_resumed :
    resumeOffset afterFirst (attemptAt 1 (some halfAccepted) true) [fileAt 1] (fileAt 1) = 10 ∧
      (sourceSnapshots [fileAt 1]).lookup 0 = some (snapshotAt 1) := by
  have first : Careful .start (attemptAt 1 (some ⟨1, none⟩) true) :=
    ⟨rfl, rfl, fun _ _ mem => by cases mem⟩
  have second : Careful afterFirst (attemptAt 1 (some halfAccepted) true) := by
    refine ⟨rfl, rfl, fun fileId p mem changed => ?_⟩
    have sent : p ∈ ((sourceSnapshots [fileAt 1]).lookup fileId).toList ++ [] := mem
    exact absurd (by simpa using sent) changed
  have run : Reaches attemptStep Careful .start afterFirst := .single ⟨_, first, rfl⟩
  have used : resumeOffset afterFirst (attemptAt 1 (some halfAccepted) true) [fileAt 1] (fileAt 1) =
    10 := by decide +kernel
  have sent : snapshotAt 1 ∈ afterFirst.partials 0 := by decide +kernel
  have resumed : resumeOffset afterFirst (attemptAt 1 (some halfAccepted) true) [fileAt 1]
      (fileAt 1) ≠ 0 := by
    rw [used]
    decide
  exact ⟨used, resumed_only_unchanged run second rfl resumed _ sent⟩

/-- The file changes, and the next attempt fails before anything is sent. -/
def changedAttempts : List Attempt := [attemptAt 1 (some ⟨1, none⟩) true, attemptAt 2 none false]

def afterChange : Progress := (play attemptStep anyStep .start changedAttempts).getD .start

/-- The third attempt finds its own snapshot stored, and continues the bytes of the first. -/
theorem changed_file_resumed :
    Reaches attemptStep anyStep .start afterChange ∧
      resumeOffset afterChange (attemptAt 2 (some halfAccepted) true) [fileAt 2] (fileAt 2) = 10 ∧
      afterChange.partials 0 = [snapshotAt 1] ∧
      (sourceSnapshots [fileAt 2]).lookup 0 = some (snapshotAt 2) ∧ snapshotAt 2 ≠ snapshotAt 1 := by
  have run : Reaches attemptStep anyStep .start afterChange := reaches_of_play (by rfl :
    play attemptStep anyStep .start changedAttempts = some afterChange)
  exact ⟨run, by decide +kernel, by decide +kernel, by decide +kernel, by decide⟩

end DashDrop.Sending.SourceChanges
