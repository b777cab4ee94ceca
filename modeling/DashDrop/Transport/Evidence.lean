/- GID: DashDrop/Transport/Evidence
   source: src-tauri/src/transport/sender.rs, src-tauri/src/transport/receiver.rs
   anchors: []
   digest: When a reported outcome is backed by an acknowledgement for every file. -/

import DashDrop.Transport.Outcome

set_option autoImplicit false
set_option relaxedAutoImplicit false

namespace DashDrop.Transport.Evidence

open DashDrop.Transport.Protocol DashDrop.Transport.Outcome

def FileEnd.ok : FileEnd → Bool
  | .acked ok _ => ok
  | .errored _ | .panicked => false

/-- Success needs a positive result for every item; a partial success names exactly the
items without one. -/
def Evident (files : List (FileItem × FileEnd)) (outcome : TransferOutcome) : Prop :=
  (outcome = .success → ∀ e ∈ files, FileEnd.ok e.2 = true) ∧
  ∀ failed, outcome = .partialSuccess failed →
    failed.map FailedFile.fileId = (files.filter fun e => !FileEnd.ok e.2).map fun e => e.1.fileId

section Shape

-- How a task's end becomes a collected result differs between the two sides.
variable (result : FileItem → FileEnd → TaskResult)

def collected (files : List (FileItem × FileEnd)) : List AckResult :=
  (files.map fun e => result e.1 e.2).filterMap TaskResult.ack?

def positive (e : FileItem × FileEnd) : Bool := (result e.1 e.2).ack?.any AckResult.ok

def negative (e : FileItem × FileEnd) : Bool := (result e.1 e.2).ack?.any fun a => !a.ok

def lost (e : FileItem × FileEnd) : Bool := (result e.1 e.2).ack?.isNone

variable {result}
variable (own : ∀ item fin a, (result item fin).ack? = some a → a.fileId = item.fileId)
variable (faithful : ∀ e, positive result e = FileEnd.ok e.2)
include own

private theorem failed_ids (files : List (FileItem × FileEnd)) :
    ((collected result files).filter fun a => !a.ok).map AckResult.fileId =
      (files.filter (negative result)).map fun e => e.1.fileId := by
  induction files with
  | nil => rfl
  | cons e files ih =>
    simp only [collected, List.map_cons, List.filterMap_cons, List.filter_cons, negative] at ih ⊢
    obtain h | ⟨a, h⟩ := Option.eq_none_or_eq_some (result e.1 e.2).ack?
    · simpa [h] using ih
    · have same := own _ _ _ h
      cases ha : a.ok <;> simpa [h, ha, same] using ih

omit own in
private theorem positives (files : List (FileItem × FileEnd)) :
    ((collected result files).filter AckResult.ok).length =
      (files.filter (positive result)).length := by
  induction files with
  | nil => rfl
  | cons e files ih =>
    simp only [collected, List.map_cons, List.filterMap_cons, List.filter_cons, positive] at ih ⊢
    obtain h | ⟨a, h⟩ := Option.eq_none_or_eq_some (result e.1 e.2).ack?
    · simpa [h] using ih
    · cases ha : a.ok <;> simpa [h, ha] using ih

omit own in
private theorem negative_eq (e : FileItem × FileEnd) :
    negative result e = (!positive result e && !lost result e) := by
  simp only [negative, positive, lost]
  cases (result e.1 e.2).ack? <;> simp

omit own in
include faithful in
/-- The negative results are all the items without a positive one iff nothing was lost. -/
private theorem negatives_complete_iff (files : List (FileItem × FileEnd)) :
    ((files.filter (negative result)).map fun e => e.1.fileId) =
        ((files.filter fun e => !FileEnd.ok e.2).map fun e => e.1.fileId) ↔
      ∀ e ∈ files, lost result e = false := by
  constructor
  · intro same e he
    have shorter : (files.filter (negative result)).Sublist
        (files.filter fun e => !FileEnd.ok e.2) := by
      refine List.monotone_filter_right files fun f neg => ?_
      rw [negative_eq, faithful] at neg
      exact (Bool.and_eq_true_iff.mp neg).1
    have equal := shorter.eq_of_length (by simpa using congrArg List.length same)
    by_contra gone
    have absent : FileEnd.ok e.2 = false := by
      rw [← faithful, positive]
      simp only [lost, Bool.not_eq_false, Option.isNone_iff_eq_none] at gone
      simp [gone]
    have listed : e ∈ files.filter (negative result) := by
      rw [equal]
      simp [he, absent]
    have := (List.mem_filter.mp listed).2
    rw [negative_eq] at this
    simp_all
  · intro complete
    congr 1
    refine List.filter_congr fun e he => ?_
    rw [negative_eq, faithful, complete e he]
    simp

def settled (items : List FileItem) (acks : List AckResult) : TransferOutcome :=
  let (successes, failed) := tally items acks
  if failed.isEmpty then .success
  else if successes > 0 then .partialSuccess failed
  else .failed (.protocol "all files failed")

include faithful in
/-- The outcome is backed exactly when no result was lost or nothing at all succeeded. -/
private theorem evident_settled_iff (files : List (FileItem × FileEnd)) :
    Evident files (settled (files.map Prod.fst) (collected result files)) ↔
      (∀ e ∈ files, lost result e = false) ∨
      ((∃ e ∈ files, negative result e = true) ∧ ∀ e ∈ files, FileEnd.ok e.2 = false) := by
  have ids := failed_ids own files
  have none_failed : ((collected result files).filter fun a => !a.ok) = [] ↔
      ∀ e ∈ files, negative result e = false := by
    rw [← List.map_eq_nil_iff (f := AckResult.fileId), ids, List.map_eq_nil_iff,
      List.filter_eq_nil_iff]
    simp
  have some_passed : 0 < ((collected result files).filter AckResult.ok).length ↔
      ∃ e ∈ files, FileEnd.ok e.2 = true := by
    rw [positives, List.length_filter_pos_iff]
    simp [faithful]
  simp only [settled, tally_eq, List.isEmpty_map, List.isEmpty_iff]
  by_cases clean : ((collected result files).filter fun a => !a.ok) = []
  · have quiet := none_failed.mp clean
    rw [if_pos clean]
    constructor
    · intro h
      refine .inl fun e he => ?_
      have good := h.1 rfl e he
      rw [← faithful, positive, Option.any_eq_true] at good
      obtain ⟨a, found, -⟩ := good
      simp [lost, found]
    · rintro (complete | ⟨⟨e, he, neg⟩, -⟩)
      · refine ⟨fun _ e he => ?_, fun _ h => by cases h⟩
        have := quiet e he
        rw [negative_eq, complete e he, faithful] at this
        simpa using this
      · simp [quiet e he] at neg
  · rw [if_neg clean]
    have nack : ∃ e ∈ files, negative result e = true := by
      by_contra h
      push Not at h
      exact clean (none_failed.mpr fun e he => by simpa using h e he)
    by_cases passed : 0 < ((collected result files).filter AckResult.ok).length
    · rw [if_pos passed]
      obtain ⟨e, he, good⟩ := some_passed.mp passed
      have reported : Evident files (.partialSuccess
          (((collected result files).filter fun a => !a.ok).map
            (failedFile (files.map Prod.fst)))) ↔ ∀ e ∈ files, lost result e = false := by
        rw [← negatives_complete_iff faithful, ← ids]
        simp [Evident, failedFile, Function.comp_def]
      rw [reported, or_iff_left]
      rintro ⟨-, bad⟩
      simp [bad e he] at good
    · rw [if_neg passed]
      have trivially : Evident files (.failed (.protocol "all files failed")) := by
        simp [Evident]
      refine iff_of_true trivially (.inr ⟨nack, fun e he => ?_⟩)
      by_contra good
      exact passed (some_passed.mpr ⟨e, he, by simpa using good⟩)

end Shape

private theorem evident_of_other {files : List (FileItem × FileEnd)} {outcome : TransferOutcome}
    (h : outcome ≠ .success ∧ ∀ failed, outcome ≠ .partialSuccess failed) :
    Evident files outcome :=
  ⟨fun e => absurd e h.1, fun failed e => absurd e (h.2 failed)⟩

private def sent (item : FileItem) (fin : FileEnd) : TaskResult := fin.sent item

private theorem sent_own (item : FileItem) (fin : FileEnd) (a : AckResult)
    (h : (sent item fin).ack? = some a) : a.fileId = item.fileId := by
  cases fin <;> cases h
  rfl

private theorem sent_faithful (e : FileItem × FileEnd) : positive sent e = FileEnd.ok e.2 := by
  obtain ⟨item, fin⟩ := e
  cases fin <;> rfl

private theorem sent_lost_iff (e : FileItem × FileEnd) :
    lost sent e = false ↔ ∃ ok reason, e.2 = .acked ok reason := by
  obtain ⟨item, fin⟩ := e
  cases fin <;> simp [lost, sent, FileEnd.sent, TaskResult.ack?]

private theorem sent_negative_iff (e : FileItem × FileEnd) :
    negative sent e = true ↔ ∃ reason, e.2 = .acked false reason := by
  obtain ⟨item, fin⟩ := e
  cases fin <;> simp [negative, sent, FileEnd.sent, TaskResult.ack?]

private theorem send_evident_iff (cancelledByPeer : Bool) (dispatchError : Option ErrorCode)
    (files : List (FileItem × FileEnd)) :
    Evident files (sendFilesOutcome cancelledByPeer dispatchError files) ↔
      dispatchError.isSome = true ∨ cancelledByPeer = true ∨
      (∀ e ∈ files, ∃ ok reason, e.2 = .acked ok reason) ∨
      ((∃ e ∈ files, ∃ reason, e.2 = .acked false reason) ∧
        ∀ e ∈ files, FileEnd.ok e.2 = false) := by
  cases dispatchError with
  | some code =>
    refine iff_of_true (evident_of_other ?_) (.inl rfl)
    simp [sendFilesOutcome, sendOutcome, determineOutcome]
  | none =>
    cases cancelledByPeer with
    | true =>
      refine iff_of_true (evident_of_other ?_) (.inr (.inl rfl))
      simp [sendFilesOutcome, sendOutcome, determineOutcome]
    | false =>
      have key := evident_settled_iff sent_own sent_faithful files
      simp only [sent_lost_iff, sent_negative_iff] at key
      have same : sendFilesOutcome false none files =
          settled (files.map Prod.fst) (collected sent files) := rfl
      rw [same, key]
      simp

private def received (item : FileItem) (fin : FileEnd) : TaskResult := fin.received item

private theorem received_own (item : FileItem) (fin : FileEnd) (a : AckResult)
    (h : (received item fin).ack? = some a) : a.fileId = item.fileId := by
  cases fin <;> cases h <;> rfl

private theorem received_faithful (e : FileItem × FileEnd) :
    positive received e = FileEnd.ok e.2 := by
  obtain ⟨item, fin⟩ := e
  cases fin <;> rfl

private theorem received_lost_iff (e : FileItem × FileEnd) :
    lost received e = false ↔ e.2 ≠ .panicked := by
  obtain ⟨item, fin⟩ := e
  cases fin <;> simp [lost, received, FileEnd.received, TaskResult.ack?]

private theorem received_negative_iff (e : FileItem × FileEnd) :
    negative received e = true ↔ FileEnd.ok e.2 = false ∧ e.2 ≠ .panicked := by
  obtain ⟨item, fin⟩ := e
  cases fin <;> simp [negative, received, FileEnd.received, TaskResult.ack?, FileEnd.ok]

private theorem receive_evident_iff (cancelledByPeer : Bool)
    (files : List (FileItem × FileEnd)) :
    Evident files (receiveFilesOutcome cancelledByPeer files) ↔
      cancelledByPeer = true ∨ (∀ e ∈ files, e.2 ≠ .panicked) ∨
      ((∃ e ∈ files, e.2 ≠ .panicked) ∧ ∀ e ∈ files, FileEnd.ok e.2 = false) := by
  cases cancelledByPeer with
  | true =>
    refine iff_of_true (evident_of_other ?_) (.inl rfl)
    simp [receiveFilesOutcome, receiveOutcome]
  | false =>
    have key := evident_settled_iff received_own received_faithful files
    simp only [received_lost_iff, received_negative_iff] at key
    have same : receiveFilesOutcome false files =
        settled (files.map Prod.fst) (collected received files) := rfl
    rw [same, key]
    simp only [Bool.false_eq_true, false_or]
    refine or_congr_right (and_congr_left fun bad => ?_)
    exact exists_congr fun e => and_congr_right fun he => and_iff_right (bad e he)

/-- The report is backed by evidence exactly when the transfer failed or was cancelled as a
whole, no task result was lost, or there was a negative result and no positive one. The
sender loses errors and panics, the receiver only panics. -/
theorem outcome_evident_iff (cancelledByPeer : Bool) (dispatchError : Option ErrorCode)
    (files : List (FileItem × FileEnd)) :
    (Evident files (sendFilesOutcome cancelledByPeer dispatchError files) ↔
      dispatchError.isSome = true ∨ cancelledByPeer = true ∨
      (∀ e ∈ files, ∃ ok reason, e.2 = .acked ok reason) ∨
      ((∃ e ∈ files, ∃ reason, e.2 = .acked false reason) ∧
        ∀ e ∈ files, FileEnd.ok e.2 = false)) ∧
    (Evident files (receiveFilesOutcome cancelledByPeer files) ↔
      cancelledByPeer = true ∨ (∀ e ∈ files, e.2 ≠ .panicked) ∨
      ((∃ e ∈ files, e.2 ≠ .panicked) ∧ ∀ e ∈ files, FileEnd.ok e.2 = false)) :=
  ⟨send_evident_iff _ _ _, receive_evident_iff _ _⟩

/-- A single offered file that vanished before its task opened it. -/
def vanished : List (FileItem × FileEnd) :=
  [(⟨1, "a.txt", "a.txt", 3, .regularFile, 0, none, none⟩, .errored "open source file")]

theorem vanished_reported_complete :
    sendFilesOutcome false none vanished = .success ∧
      ¬ Evident vanished (sendFilesOutcome false none vanished) := by
  refine ⟨by decide, fun h => ?_⟩
  have := h.1 (by decide) _ (List.mem_singleton_self _)
  simp [FileEnd.ok] at this

end DashDrop.Transport.Evidence
