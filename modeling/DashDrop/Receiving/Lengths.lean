/- GID: DashDrop/Receiving/Lengths
   source: src-tauri/src/transport/receiver.rs
   anchors: []
   digest: How long the acknowledged files of a transfer are, against the offer. -/

import DashDrop.Receiving.SideBySide

set_option autoImplicit false
set_option relaxedAutoImplicit false

namespace DashDrop.Receiving.Lengths

open DashDrop.Foundation.UnixPath DashDrop.Foundation.FileTree
open DashDrop.Foundation.Program DashDrop.Foundation.Interleaving DashDrop.Foundation.Cost
open DashDrop.Transport.Protocol DashDrop.Transport.Outcome DashDrop.Transport.PathValidation
open DashDrop.Transport.Receiver DashDrop.Transport.DiskNames
open DashDrop.Runtime.State DashDrop.Runtime.Machine DashDrop.Runtime.Footprint
open DashDrop.Receiving.Integrity DashDrop.Receiving.Bounds DashDrop.Receiving.Separation
open DashDrop.Receiving.SideBySide

/-- Whatever fails on the way and however the tasks take turns, every acknowledged file of the
transfer has the length of its item. -/
def RightLengths (blake3 : Bytes → Digest) (w : World) (saveRoot : PathBuf) (id : String)
    (receipts : List Receipt) : Prop :=
  ∀ t, Run exec free ⟨w, receipts.map (Receipt.prog blake3 saveRoot id)⟩ t →
    ∀ (i : ℕ) (r : Receipt), receipts[i]? = some r → r.item.fileType = .regularFile →
      t.result i = some (ackOf r.item true none) →
      ∃ final c, Chosen w.fs w.config.fileConflictStrategy r.item saveRoot final ∧
        content t.world.fs final.resolve = some c ∧ c.length = r.item.size

/-- Where the file can be placed and its stream is accepted, no leftover is appended to and the
stream brings as many bytes as the item announced. -/
def Exact (blake3 : Bytes → Digest) (w : World) (saveRoot : PathBuf) (r : Receipt) : Prop :=
  Whole blake3 r → ∀ final, Chosen w.fs w.config.fileConflictStrategy r.item saveRoot final →
    Placeable w.fs final → kept w.fs r.item final = [] ∧ (payload r.messages).length = r.item.size

/-- No place of a regular file is a place of another item, or lies on the way to one. -/
def Unobstructed (strategy : FileConflictStrategy) (tasks : List (FileItem × PathBuf)) : Prop :=
  ∀ (i j : ℕ) (a b : FileItem × PathBuf), i ≠ j → tasks[i]? = some a → tasks[j]? = some b →
    a.1.fileType = .regularFile →
    ∀ q ∈ places strategy a, ∀ q' ∈ places strategy b, ¬ q.resolve <+: q'.resolve

section Transfer

variable {blake3 : Bytes → Digest} {saveRoot : PathBuf} {id : String} {w : World}
variable {items : List FileItem} {receipts : List Receipt}

theorem Unobstructed.clear {strategy : FileConflictStrategy}
    (h : Unobstructed strategy (dispatch saveRoot [] items))
    (offered : receipts.map Receipt.item = (dispatch saveRoot [] items).map Prod.fst) :
    Clear saveRoot strategy receipts := by
  intro i j r s other hr hs
  exact h i j _ _ other (task_of_receipt offered hr).1 (task_of_receipt offered hs).1

/-- A task that has the pool to itself shows what its leftover and its stream come to. -/
private theorem RightLengths.exact (right : RightLengths blake3 w saveRoot id receipts)
    {r : Receipt} (mem : r ∈ receipts) (regular : r.item.fileType = .regularFile) :
    Exact blake3 w saveRoot r := by
  rintro ⟨addressed, complete, ended, hash⟩ final chosen placeable
  obtain ⟨i, here⟩ := List.mem_iff_getElem?.mp mem
  have matched (complete' : CompletePayload) (h : closing r.messages = some complete') :
      blake3 (payload r.messages) = complete'.fileHash := by
    obtain rfl := Option.some.inj (ended.symm.trans h)
    exact hash
  have thread : (receipts.map (Receipt.prog blake3 saveRoot id))[i]? =
      some (r.prog blake3 saveRoot id) := by
    rw [List.getElem?_map, here, Option.map_some]
  -- the leftover is appended to, or thrown away when it cannot be opened
  have length (front : Bytes) (hfront : front = [] ∨ front = kept w.fs r.item final) :
      front.length + (payload r.messages).length = r.item.size := by
    obtain ⟨t, run, returned, holds⟩ := exists_placed thread
      (receiveOneFile_reaches blake3 id regular chosen placeable addressed matched
        (hfront.symm.imp_right fun h => ⟨h, fun _ _ _ => trivial⟩))
    obtain ⟨final', c, chosen', found, hlen⟩ := right t run i r here regular returned
    obtain rfl := chosen.unique chosen'
    obtain rfl := Option.some.inj (found.symm.trans holds)
    rw [List.length_append] at hlen
    exact hlen
  have hplain := length [] (.inl rfl)
  have hkept := length _ (.inr rfl)
  rw [List.length_nil, Nat.zero_add] at hplain
  refine ⟨List.length_eq_zero_iff.mp ?_, hplain⟩
  omega

private theorem rightLengths_of_exact
    (clear : Clear saveRoot w.config.fileConflictStrategy receipts)
    (offered : receipts.map Receipt.item = (dispatch saveRoot [] items).map Prod.fst)
    (all : ∀ r ∈ receipts, r.item.fileType = .regularFile → Exact blake3 w saveRoot r) :
    RightLengths blake3 w saveRoot id receipts := by
  intro t run i r here regular returned
  obtain ⟨final, -, whole, placed, c, ⟨front, hfront, rfl⟩, holds⟩ :=
    run.returned (receipts_safe clear.disjoint offered) (Pool.thread_of_result returned) r here regular rfl
  obtain ⟨chosen, placeable⟩ := placed clear
  obtain ⟨hkept, hlen⟩ := all r (List.mem_of_getElem? here) regular whole final chosen placeable
  have hempty : front = [] := by
    rcases hfront with h | h
    · exact h
    · exact h.trans hkept
  refine ⟨final, _, chosen, holds, ?_⟩
  rw [hempty]
  exact hlen

/-- Every acknowledged file of a transfer has the length that was offered only if no leftover is
appended to and every stream brings as many bytes as its item announced; where the items are not in
each other's way, exactly then. A transfer whose streams bring no more than was offered never
writes more. -/
theorem received_bytes_bounded (blake3 : Bytes → Digest) (saveRoot : PathBuf) (id : String)
    (w : World) (items : List FileItem) (receipts : List Receipt)
    (offered : receipts.map Receipt.item = (dispatch saveRoot [] items).map Prod.fst) :
    (RightLengths blake3 w saveRoot id receipts →
      ∀ r ∈ receipts, r.item.fileType = .regularFile → Exact blake3 w saveRoot r) ∧
    (Unobstructed w.config.fileConflictStrategy (dispatch saveRoot [] items) →
      (∀ r ∈ receipts, r.item.fileType = .regularFile → Exact blake3 w saveRoot r) →
      RightLengths blake3 w saveRoot id receipts) ∧
    ((receipts.map fun r => (payload r.messages).length).sum ≤ (items.map FileItem.size).sum →
      ∀ t n, Tally exec free written ⟨w, receipts.map (Receipt.prog blake3 saveRoot id)⟩ t n →
        n ≤ (items.map FileItem.size).sum) := by
  refine ⟨fun right r mem regular => right.exact mem regular, fun clear all => ?_,
    fun announced t n tally => (written_le blake3 saveRoot id tally).trans announced⟩
  exact rightLengths_of_exact (clear.clear offered) offered all

end Transfer

private def honestItems : List FileItem :=
  [sampleItem, { sampleItem with fileId := 8, name := "b", relPath := "b" }]

private def honest : List Receipt :=
  honestItems.map fun item =>
    ⟨item, .chunk ⟨item.fileId, 0, 0, [0]⟩, [.ok (.complete ⟨item.fileId, sampleHash [0]⟩)]⟩

private def emptyDisk : World :=
  World.start { AppConfig.standard with fileConflictStrategy := .overwrite }

private theorem honest_unobstructed :
    Unobstructed .overwrite (dispatch sampleRoot [] honestItems) := by
  intro i j a b other ha hb _
  have started : dispatch sampleRoot [] honestItems =
      [(sampleItem, sampleRoot.join (.ofText ['a'])),
        ({ sampleItem with fileId := 8, name := "b", relPath := "b" },
          sampleRoot.join (.ofText ['b']))] := by decide
  rw [started] at ha hb
  have hi := (List.getElem?_eq_some_iff.mp ha).1
  have hj := (List.getElem?_eq_some_iff.mp hb).1
  simp only [List.length_cons, List.length_nil] at hi hj
  obtain ⟨rfl, rfl⟩ | ⟨rfl, rfl⟩ : (i = 0 ∧ j = 1) ∨ (i = 1 ∧ j = 0) := by omega
  · cases ha
    cases hb
    decide
  · cases ha
    cases hb
    decide

theorem received_bytes_bounded_honest :
    RightLengths sampleHash emptyDisk sampleRoot "t1" honest ∧
      ∀ t n, Tally exec free written
        ⟨emptyDisk, honest.map (Receipt.prog sampleHash sampleRoot "t1")⟩ t n → n ≤ 2 := by
  obtain ⟨-, lengths, total⟩ := received_bytes_bounded sampleHash sampleRoot "t1" emptyDisk
    honestItems honest (by decide)
  refine ⟨lengths honest_unobstructed fun r mem _ _ final _ _ => ?_, total (by decide)⟩
  obtain ⟨item, hitem, rfl⟩ := List.mem_map.mp mem
  have missing : content emptyDisk.fs (tempPathFor final).resolve = none := by
    unfold content look
    split_ifs <;> rfl
  refine ⟨by rw [kept, missing], ?_⟩
  rcases List.mem_pair.mp hitem with rfl | rfl <;> rfl

private def excessive : Receipt where
  item := ⟨7, "a", "a", 0, .regularFile, 0, none, none⟩
  firstMsg := .chunk ⟨7, 0, 0, [0]⟩
  rest := [.ok (.complete ⟨7, sampleHash [0]⟩)]

/-- The file is acknowledged with a byte that was never offered. -/
theorem excess_bytes_acknowledged :
    ∃ t n, Tally exec free written ⟨World.start AppConfig.standard,
        [excessive].map (Receipt.prog sampleHash sampleRoot "t1")⟩ t n ∧
      t.result 0 = some (ackOf excessive.item true none) ∧
      content t.world.fs (sampleRoot.join (.ofText ['a'])).resolve = some [0] ∧
      excessive.item.size < n ∧
      ¬ RightLengths sampleHash (World.start AppConfig.standard) sampleRoot "t1" [excessive] := by
  have chosen : Chosen (World.start AppConfig.standard).fs
      (World.start AppConfig.standard).config.fileConflictStrategy excessive.item sampleRoot
      (sampleRoot.join (.ofText ['a'])) := ⟨sampleRoot.join (.ofText ['a']), by decide, by decide⟩
  obtain ⟨t, n, tally, found⟩ := exists_tally_of_bill exec written
    (⟨World.start AppConfig.standard, [excessive].map (Receipt.prog sampleHash sampleRoot "t1")⟩ :
      Pool Op Op.Resp World TaskResult)
    (List.replicate 10 (0, ⟨0, .unit⟩))
    (fun t n => decide (t.result 0 = some (ackOf excessive.item true none) ∧
      content t.world.fs (sampleRoot.join (.ofText ['a'])).resolve = some [0] ∧ 0 < n))
    (by decide)
  obtain ⟨returned, holds, much⟩ := of_decide_eq_true found
  refine ⟨t, n, tally, returned, holds, much, fun right => ?_⟩
  obtain ⟨final, c, chosen', held, hlen⟩ := right t tally.run 0 excessive rfl rfl returned
  obtain rfl := chosen.unique chosen'
  obtain rfl := Option.some.inj (held.symm.trans holds)
  cases hlen

end DashDrop.Receiving.Lengths
