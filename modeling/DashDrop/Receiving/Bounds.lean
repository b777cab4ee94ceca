/- GID: DashDrop/Receiving/Bounds
   source: src-tauri/src/transport/receiver.rs
   anchors: []
   digest: How much a transfer writes, against what its streams bring. -/

import DashDrop.Foundation.Cost
import DashDrop.Receiving.Integrity

set_option autoImplicit false
set_option relaxedAutoImplicit false

namespace DashDrop.Receiving.Bounds

open DashDrop.Foundation.UnixPath DashDrop.Foundation.FileTree
open DashDrop.Foundation.Program DashDrop.Foundation.Interleaving DashDrop.Foundation.Cost
open DashDrop.Transport.Protocol DashDrop.Transport.Outcome DashDrop.Transport.PathValidation
open DashDrop.Transport.Receiver DashDrop.Transport.DiskNames
open DashDrop.Runtime.State DashDrop.Runtime.Machine DashDrop.Runtime.Footprint
open DashDrop.Runtime.Solo DashDrop.Receiving.Integrity

def written : (o : Op) → o.Resp → ℕ
  | .fs (.writeAll _ data), .ok () => data.length
  | _, _ => 0

/-- An item and what its stream brings. -/
structure Receipt where
  item : FileItem
  firstMsg : DashMessage
  rest : Stream

def Receipt.messages (r : Receipt) : Stream := .ok r.firstMsg :: r.rest

def Receipt.prog (blake3 : Bytes → Digest) (saveRoot : PathBuf) (id : String) (r : Receipt) :
    Code TaskResult :=
  receiveOneFile blake3 r.item r.firstMsg r.rest saveRoot id

private theorem abandon_budget (item : FileItem) (temp : PathBuf) (reason : ErrorCode) (b : ℕ) :
    Budget written (abandon item temp reason) b :=
  Budget.op (fun _ => rfl) fun _ => trivial

private theorem placeFile_budget (item : FileItem) (strategy : FileConflictStrategy)
    (final temp : PathBuf) (b : ℕ) : Budget written (placeFile item strategy final temp) b := by
  have renames : Budget written (moveIntoPlace item final temp) b := by
    refine Budget.op (fun _ => rfl) fun r => ?_
    cases r with
    | error e => exact abandon_budget item temp _ b
    | ok _ => trivial
  by_cases hover : strategy = .overwrite
  · subst hover
    refine Budget.op (fun _ => rfl) fun occupied => ?_
    cases occupied with
    | none => exact renames
    | some _ =>
      refine Budget.op (fun _ => rfl) fun r => ?_
      cases r with
      | error e => exact abandon_budget item temp _ b
      | ok _ => exact renames
  · unfold placeFile
    rw [if_neg hover]
    exact renames

private theorem receiveLoop_budget (blake3 : Bytes → Digest) (item : FileItem) (id : String)
    (strategy : FileConflictStrategy) (final temp : PathBuf) (hashed : Bytes) (messages : Stream) :
    Budget written (receiveLoop blake3 item id strategy final temp hashed messages)
      (payload messages).length := by
  induction messages generalizing hashed with
  | nil => exact abandon_budget item temp _ _
  | cons m rest ih =>
    cases m with
    | error f => exact abandon_budget item temp _ _
    | ok message =>
      cases message with
      | chunk chunk =>
        simp only [receiveLoop]
        split_ifs
        · trivial
        · intro r
          refine ⟨(payload rest).length, ?_, ?_⟩
          · rw [payload, List.length_append]
            cases r <;> simp [written]
          · cases r with
            | error e => exact abandon_budget item temp _ _
            | ok _ =>
              have counted : Budget written (addProgress id chunk.data.length) 0 :=
                Budget.of_within (addProgress_quiet id _) fun o ho _ => by
                  cases o with
                  | fs g => exact ho.elim
                  | _ => rfl
              have hrest := counted.bind fun _ => ih (hashed ++ chunk.data)
              rwa [Nat.zero_add] at hrest
      | complete complete =>
        simp only [receiveLoop]
        split_ifs
        · trivial
        · refine Budget.op (fun _ => rfl) fun r => ?_
          cases r <;> exact abandon_budget item temp _ _
        · refine Budget.op (fun _ => rfl) fun r => ?_
          cases r with
          | error e => exact abandon_budget item temp _ _
          | ok _ => exact placeFile_budget item strategy final temp _
      | _ => exact abandon_budget item temp _ _

private theorem leftoverLength_budget (item : FileItem) (temp : PathBuf) :
    Budget written (leftoverLength item temp) 0 := by
  refine Budget.op (fun _ => rfl) fun r => ?_
  cases r with
  | none => trivial
  | some found =>
    simp only [ret_bind]
    split_ifs
    · exact Budget.op (fun _ => rfl) fun _ => trivial
    · trivial

private theorem openTemp_budget (temp : PathBuf) (offset : ℕ) :
    Budget written (openTemp temp offset) 0 := by
  unfold openTemp
  split_ifs
  · refine Budget.op (fun _ => rfl) fun r => ?_
    cases r with
    | ok _ => trivial
    | error e =>
      refine Budget.op (fun _ => rfl) fun _ => Budget.op (fun _ => rfl) fun r => ?_
      cases r <;> trivial
  · exact Budget.op (fun _ => rfl) fun _ => trivial

private theorem receiveRegular_budget (blake3 : Bytes → Digest) (item : FileItem) (id : String)
    (strategy : FileConflictStrategy) (final : PathBuf) (messages : Stream) :
    Budget written (receiveRegular blake3 item id strategy final messages)
      (payload messages).length := by
  have filled : Budget written (fillPart item id strategy final blake3 messages)
      (payload messages).length := by
    refine Budget.op (fun _ => rfl) fun _ => ?_
    have opened_budget (opened : Option (Except IoError Unit)) :
        Budget written (fillOpened item id strategy final blake3 messages opened)
          (payload messages).length := by
      rcases opened with _ | (e | _)
      · trivial
      · trivial
      · exact receiveLoop_budget blake3 item id strategy final _ [] messages
    have hopen := (leftoverLength_budget item (tempPathFor final)).bind fun offset =>
      (openTemp_budget (tempPathFor final) offset).bind opened_budget
    rw [Nat.zero_add, Nat.zero_add] at hopen
    exact hopen
  unfold receiveRegular
  cases final.parent with
  | none => exact filled
  | some parent =>
    refine Budget.op (fun _ => rfl) fun made => ?_
    cases made with
    | error e => trivial
    | ok _ => exact filled

private theorem receiveDirectory_budget (blake3 : Bytes → Digest) (item : FileItem)
    (path : PathBuf) (message : DashMessage) (b : ℕ) :
    Budget written (receiveDirectory blake3 item path message) b := by
  cases message with
  | complete complete =>
    simp only [receiveDirectory]
    split_ifs
    · trivial
    · trivial
    · refine Budget.op (fun _ => rfl) fun made => ?_
      cases made <;> trivial
  | _ => trivial

private theorem receipt_budget (blake3 : Bytes → Digest) (saveRoot : PathBuf) (id : String)
    (r : Receipt) : Budget written (r.prog blake3 saveRoot id) (payload r.messages).length := by
  unfold Receipt.prog receiveOneFile
  split
  · trivial
  · rename_i path _
    refine Budget.op (fun _ => rfl) fun config => ?_
    simp only [ret_bind]
    split
    · exact receiveDirectory_budget blake3 r.item path r.firstMsg _
    · have looked : Budget written (resolveConflictPath path config.fileConflictStrategy) 0 :=
        Budget.of_within (resolveConflictPath_within path _) fun o ho _ => by
          obtain ⟨p, rfl⟩ := looks_metadata o ho
          rfl
      rw [← Nat.zero_add (payload r.messages).length]
      refine looked.bind fun found => ?_
      rcases found with e | (_ | final)
      · trivial
      · trivial
      · exact receiveRegular_budget blake3 r.item id _ final _

/-- In every interleaving of the file tasks of a transfer, at every point, the bytes written are
at most those that the streams bring. -/
theorem written_le (blake3 : Bytes → Digest) (saveRoot : PathBuf) (id : String)
    {w : World} {receipts : List Receipt} {t : Pool Op Op.Resp World TaskResult} {n : ℕ}
    (tally : Tally exec free written ⟨w, receipts.map (Receipt.prog blake3 saveRoot id)⟩ t n) :
    n ≤ (receipts.map fun r => (payload r.messages).length).sum := by
  refine tally.le_sum ?_
  rw [List.forall₂_map_left_iff, List.forall₂_map_right_iff, List.forall₂_same]
  intro r _
  exact receipt_budget blake3 saveRoot id r

end DashDrop.Receiving.Bounds
