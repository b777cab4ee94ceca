/- GID: DashDrop/Events/Compaction
   source: src-tauri/src/db.rs
   anchors: []
   digest: What appending keeps of the journal: whole segments, a contiguous range, two bounds. -/

import DashDrop.Events.Journal
import DashDrop.Foundation.Numbering
import DashDrop.Foundation.Transitions

set_option autoImplicit false
set_option relaxedAutoImplicit false

namespace DashDrop.Events.Compaction

open DashDrop.Foundation.Tables DashDrop.Foundation.Numbering DashDrop.Foundation.Transitions
open DashDrop.Events.Journal

variable {Value : Type} {db : EventDb Value} {g : String} {n lo : ℕ}

theorem segmentOf_eq (seq : ℕ) : segmentOf seq = (seq - 1) / 1000 + 1 := rfl

def segmentStart (segment : ℕ) : ℕ := (segment - 1) * runtimeEventPersistedSegmentSize + 1

theorem segmentStart_eq (segment : ℕ) : segmentStart segment = (segment - 1) * 1000 + 1 := rfl

/-- The rows of the generation carry the numbers from `lo` to `n`. -/
structure JournalShape (g : String) (n lo : ℕ) (db : EventDb Value) : Prop where
  seqs : Consecutive JournalRow.seq lo (n + 1) (db.rowsOf g)
  segmentIds : ∀ row ∈ db.rowsOf g, row.segmentId = segmentOf row.seq
  envelopes : ∀ row ∈ db.rowsOf g, row.envelope.seq = row.seq

/-- What the row of one segment says when the numbers up to `n` are appended and those below
`lo` are deleted. -/
structure SegmentRowShape (n lo : ℕ) (row : SegmentRow) : Prop where
  positive : 1 ≤ row.segmentId
  begun : (row.segmentId - 1) * 1000 < n
  lastSeq : row.lastSeq = min n (row.segmentId * 1000)
  compacted : row.compactedAtUnixMs ≠ none ↔ row.segmentId * 1000 < lo

/-- The generation has one such row for each segment that has begun. -/
structure SegmentShape (g : String) (n lo : ℕ) (segments : Table SegmentRow SegmentRow.key) :
    Prop where
  each : ∀ row ∈ segments.rows, row.generation = g → SegmentRowShape n lo row
  every : ∀ k, 1 ≤ k → (k - 1) * 1000 < n →
    ∃ row ∈ segments.rows, row.generation = g ∧ row.segmentId = k

/-- The tables after the append of `n`: everything from `lo` on is there, and `lo` starts a
segment. -/
structure Shape (g : String) (n lo : ℕ) (db : EventDb Value) : Prop where
  journal : JournalShape g n lo db
  segments : SegmentShape g n lo db.segments
  boundary : ∃ k, lo = k * 1000 + 1
  nonempty : lo ≤ max n 1
  watermark : 0 < n → db.metaRow.compactionWatermarkSeq + 1 = lo

/-- The generation has left no trace. -/
def Untouched (g : String) (db : EventDb Value) : Prop :=
  (∀ row ∈ db.journal.rows, row.generation ≠ g) ∧ ∀ row ∈ db.segments.rows, row.generation ≠ g

theorem mem_rowsOf {row : JournalRow Value} :
    row ∈ db.rowsOf g ↔ row ∈ db.journal.rows ∧ row.generation = g := by
  simp [EventDb.rowsOf]

theorem Untouched.shape (h : Untouched g db) : Shape g 0 1 db := by
  obtain ⟨hjournal, hsegments⟩ := h
  have hrows : db.rowsOf g = [] := by
    refine List.eq_nil_iff_forall_not_mem.mpr fun row hrow => ?_
    exact hjournal row (mem_rowsOf.mp hrow).1 (mem_rowsOf.mp hrow).2
  refine ⟨⟨?_, by simp [hrows], by simp [hrows]⟩, ⟨?_, ?_⟩, ⟨0, rfl⟩, le_rfl, by omega⟩
  · rw [hrows]
    exact .nil le_rfl
  · intro row hrow hg
    exact absurd hg (hsegments row hrow)
  · intro k _ hk
    omega

theorem Shape.oldestSeq (h : Shape g n lo db) (hn : 0 < n) : db.oldestSeq g = some lo := by
  have hlo := h.nonempty
  exact h.journal.seqs.min? (by omega)

theorem rowsOf_fillSegmentIds (h : ∀ row ∈ db.rowsOf g, row.segmentId = segmentOf row.seq) :
    (fillSegmentIds db).rowsOf g = db.rowsOf g := by
  unfold EventDb.rowsOf fillSegmentIds Table.select Table.updateWhere
  rw [List.filter_map]
  have hsame : db.journal.rows.filter ((fun row => decide (row.generation = g)) ∘ fun row =>
      if decide (row.seq > 0 ∧ row.segmentId = 0) then
        { row with segmentId := segmentOf row.seq } else row) = db.rowsOf g := by
    refine List.filter_congr fun row _ => ?_
    simp only [Function.comp_apply]
    split_ifs <;> rfl
  rw [hsame]
  refine (List.map_congr_left fun row hrow => ?_).trans (List.map_id _)
  have hfilled : row.segmentId ≠ 0 := by
    rw [h row hrow, segmentOf_eq]
    omega
  simp [hfilled]

theorem JournalShape.fill (h : JournalShape g n lo db) : JournalShape g n lo (fillSegmentIds db) := by
  have hrows := rowsOf_fillSegmentIds h.segmentIds
  exact ⟨hrows ▸ h.seqs, hrows ▸ h.segmentIds, hrows ▸ h.envelopes⟩

theorem SegmentRow.key_eq {a b : SegmentRow} :
    a.key = b.key ↔ a.generation = b.generation ∧ a.segmentId = b.segmentId := by
  simp [SegmentRow.key]

section Segments

variable {segments : Table SegmentRow SegmentRow.key} {m lo' : ℕ}

theorem SegmentShape.upsert (h : SegmentShape g n lo segments) {new : SegmentRow}
    {merge : SegmentRow → SegmentRow}
    (hkey : ∀ b, b.key = new.key → (merge b).key = new.key)
    (hsteady : ∀ row, SegmentRowShape n lo row →
      (new.generation = g → row.segmentId ≠ new.segmentId) → SegmentRowShape m lo row)
    (hmerged : ∀ row, new.generation = g → row.segmentId = new.segmentId →
      SegmentRowShape n lo row → SegmentRowShape m lo (merge row))
    (hnew : new.generation = g → (∀ row ∈ segments.rows, row.key ≠ new.key) →
      SegmentRowShape m lo new)
    (hevery : ∀ k, 1 ≤ k → (k - 1) * 1000 < m →
      (k - 1) * 1000 < n ∨ new.generation = g ∧ k = new.segmentId) :
    SegmentShape g m lo (segments.upsert new merge hkey) := by
  constructor
  · intro row hrow hg
    rcases Table.mem_upsert.mp hrow with ⟨hold, hother⟩ | ⟨b, hb, hsame, rfl⟩ | ⟨hfree, rfl⟩
    · refine hsteady row (h.each row hold hg) fun hnewg hid => hother ?_
      exact SegmentRow.key_eq.mpr ⟨hg.trans hnewg.symm, hid⟩
    · obtain ⟨hgen, -⟩ := SegmentRow.key_eq.mp (hkey b hsame)
      obtain ⟨hbgen, hid⟩ := SegmentRow.key_eq.mp hsame
      have hnewg : new.generation = g := hgen ▸ hg
      exact hmerged b hnewg hid (h.each b hb (hbgen.trans hnewg))
    · exact hnew hg hfree
  · intro k hk hbegun
    have hput : new.generation = g → k = new.segmentId →
        ∃ row ∈ (segments.upsert new merge hkey).rows, row.generation = g ∧ row.segmentId = k := by
      rintro hnewg rfl
      by_cases hfree : ∀ b ∈ segments.rows, b.key ≠ new.key
      · exact ⟨new, Table.mem_upsert.mpr (.inr (.inr ⟨hfree, rfl⟩)), hnewg, rfl⟩
      · obtain ⟨b, hb, hsame⟩ := by simpa using hfree
        obtain ⟨hgen, hid⟩ := SegmentRow.key_eq.mp (hkey b hsame)
        exact ⟨merge b, Table.mem_upsert.mpr (.inr (.inl ⟨b, hb, hsame, rfl⟩)),
          hgen.trans hnewg, hid⟩
    rcases hevery k hk hbegun with hold | ⟨hnewg, hid⟩
    · obtain ⟨row, hrow, hg, rfl⟩ := h.every k hk hold
      by_cases hsame : row.key = new.key
      · obtain ⟨hgen, hid⟩ := SegmentRow.key_eq.mp hsame
        exact hput (hgen ▸ hg) hid
      · exact ⟨row, Table.mem_upsert.mpr (.inl ⟨hrow, hsame⟩), hg, rfl⟩
    · exact hput hnewg hid

theorem SegmentShape.update (h : SegmentShape g n lo segments) {p : SegmentRow → Bool}
    {set : SegmentRow → SegmentRow} (hkey : ∀ row, (set row).key = row.key)
    (hkept : ∀ row, row.generation = g → SegmentRowShape n lo row →
      (p row = false → SegmentRowShape n lo' row) ∧
      (p row = true → SegmentRowShape n lo' (set row))) :
    SegmentShape g n lo' (segments.updateWhere p set hkey) := by
  constructor
  · intro row hrow hg
    rcases (Table.mem_updateWhere hkey).mp hrow with ⟨hold, hp⟩ | ⟨b, hb, hp, rfl⟩
    · exact (hkept row hg (h.each row hold hg)).1 hp
    · have hbg : b.generation = g := (SegmentRow.key_eq.mp (hkey b)).1 ▸ hg
      exact (hkept b hbg (h.each b hb hbg)).2 hp
  · intro k hk hbegun
    obtain ⟨row, hrow, hg, hid⟩ := h.every k hk hbegun
    cases hp : p row with
    | false => exact ⟨row, (Table.mem_updateWhere hkey).mpr (.inl ⟨hrow, hp⟩), hg, hid⟩
    | true =>
      obtain ⟨hgen, hsame⟩ := SegmentRow.key_eq.mp (hkey row)
      exact ⟨set row, (Table.mem_updateWhere hkey).mpr (.inr ⟨row, hrow, hp, rfl⟩), hgen.trans hg,
        hsame.trans hid⟩

theorem SegmentShape.absorb (h : SegmentShape g n lo segments) {group : SegmentRow}
    (hgroup : group.generation = g → 1 ≤ group.segmentId ∧ (group.segmentId - 1) * 1000 < n ∧
      group.lastSeq ≤ min n (group.segmentId * 1000)) :
    SegmentShape g n lo (absorbGroup segments group) := by
  refine h.upsert (by exact fun _ h => h) (fun row hrow _ => hrow) (fun row hg hid hrow => ?_)
    (fun hg hfree => ?_)
    fun k _ hk => .inl hk
  · obtain ⟨-, -, hlast⟩ := hgroup hg
    have hsame : max row.lastSeq group.lastSeq = row.lastSeq := by
      rw [hrow.lastSeq, hid]
      exact max_eq_left hlast
    exact ⟨hrow.positive, hrow.begun, hsame.trans hrow.lastSeq, hrow.compacted⟩
  · obtain ⟨hpositive, hbegun, -⟩ := hgroup hg
    obtain ⟨row, hrow, hrg, hid⟩ := h.every _ hpositive hbegun
    exact absurd (SegmentRow.key_eq.mpr ⟨hrg.trans hg.symm, hid⟩) (hfree row hrow)

theorem SegmentShape.absorbAll (h : SegmentShape g n lo segments) {groups : List SegmentRow}
    (hgroups : ∀ group ∈ groups, group.generation = g →
      1 ≤ group.segmentId ∧ (group.segmentId - 1) * 1000 < n ∧
        group.lastSeq ≤ min n (group.segmentId * 1000)) :
    SegmentShape g n lo (groups.foldl absorbGroup segments) := by
  induction groups generalizing segments with
  | nil => exact h
  | cons group rest ih =>
    refine ih (h.absorb (hgroups group List.mem_cons_self)) fun other hother => ?_
    exact hgroups other (List.mem_cons_of_mem group hother)

end Segments

theorem JournalShape.groups (h : JournalShape g n lo db) (hlo : 1 ≤ lo) {group : SegmentRow}
    (hgroup : group ∈ segmentGroups db.journal.rows) (hg : group.generation = g) :
    1 ≤ group.segmentId ∧ (group.segmentId - 1) * 1000 < n ∧
      group.lastSeq ≤ min n (group.segmentId * 1000) := by
  obtain ⟨⟨generation, segment⟩, hkey, rfl⟩ := List.mem_map.mp hgroup
  obtain rfl : generation = g := hg
  obtain ⟨row, hrow, hsame⟩ := List.mem_map.mp (List.mem_dedup.mp hkey)
  obtain ⟨hrg, rfl⟩ := Prod.mk.inj hsame
  have hin : ∀ other ∈ db.journal.rows, other.generation = generation →
      lo ≤ other.seq ∧ other.seq < n + 1 ∧ other.segmentId = (other.seq - 1) / 1000 + 1 := by
    intro other hother hog
    have hmem := mem_rowsOf.mpr ⟨hother, hog⟩
    have hb := h.seqs.bounds hmem
    exact ⟨hb.1, hb.2, h.segmentIds other hmem⟩
  obtain ⟨hlow, hhigh, hid⟩ := hin row hrow hrg
  refine ⟨by show 1 ≤ row.segmentId; omega, by show (row.segmentId - 1) * 1000 < n; omega, ?_⟩
  show (List.max? _).getD 0 ≤ _
  cases hmax : List.max? (((db.journal.rows.filter fun other =>
      (other.generation, other.segmentId) = (generation, row.segmentId))).map JournalRow.seq) with
  | none => exact Nat.zero_le _
  | some last =>
    obtain ⟨other, hother, rfl⟩ := List.mem_map.mp (List.max?_mem hmax)
    obtain ⟨hmem, hsame'⟩ := List.mem_filter.mp hother
    obtain ⟨hog, hoid⟩ := Prod.mk.inj (of_decide_eq_true hsame')
    obtain ⟨-, hohigh, hos⟩ := hin other hmem hog
    show other.seq ≤ min n (row.segmentId * 1000)
    omega

theorem Shape.ensure (h : Shape g n lo db) : Shape g n lo (ensureRuntimeEventTables db) := by
  obtain ⟨k, hk⟩ := h.boundary
  have hfilled : JournalShape g n lo (fillSegmentIds db) := h.journal.fill
  refine ⟨⟨hfilled.seqs, hfilled.segmentIds, hfilled.envelopes⟩, ?_, h.boundary, h.nonempty,
    h.watermark⟩
  exact h.segments.absorbAll fun group hgroup hg => hfilled.groups (by omega) hgroup hg

section Append

variable {event : RuntimeEventEnvelope Value} {limits : Retention}

theorem JournalShape.insert (h : JournalShape g n lo db) (hlo : lo ≤ n + 1)
    (hseq : event.seq = n + 1) : JournalShape g (n + 1) lo (insertJournalRow g event db) := by
  have hrows : (insertJournalRow g event db).rowsOf g =
      db.rowsOf g ++ [⟨event.seq, g, event, segmentOf event.seq⟩] := by
    refine Table.select_insertOrReplace (by simp) fun row hrow => ?_
    have hb := (h.seqs.bounds hrow).2
    show row.seq < event.seq
    omega
  refine ⟨hrows ▸ h.seqs.push hlo hseq, ?_, ?_⟩
  · intro row hrow
    rcases List.mem_append.mp (hrows ▸ hrow) with hold | hnew
    · exact h.segmentIds row hold
    · rw [List.mem_singleton.mp hnew]
  · intro row hrow
    rcases List.mem_append.mp (hrows ▸ hrow) with hold | hnew
    · exact h.envelopes row hold
    · rw [List.mem_singleton.mp hnew]

theorem SegmentShape.extend (h : SegmentShape g n lo db.segments) (hlo : lo ≤ n + 1)
    (hseq : event.seq = n + 1) : SegmentShape g (n + 1) lo (upsertSegment g event db).segments := by
  have hid : segmentOf event.seq = n / 1000 + 1 := by
    rw [segmentOf_eq, hseq, Nat.add_sub_cancel]
  refine h.upsert (by exact fun _ h => h) (fun row hrow hother => ?_) (fun row _ hsame hrow => ?_)
    (fun _ _ => ?_)
    fun k hk hbegun => ?_
  · have hne : row.segmentId ≠ n / 1000 + 1 := hid ▸ hother rfl
    obtain ⟨hpositive, hbegun, hlast, hcompacted⟩ := hrow
    exact ⟨hpositive, by omega, by omega, hcompacted⟩
  · have hsame' : row.segmentId = n / 1000 + 1 := hsame.trans hid
    obtain ⟨hpositive, hbegun, hlast, hcompacted⟩ := hrow
    refine ⟨hpositive, ?_, ?_, hcompacted⟩
    · show (row.segmentId - 1) * 1000 < n + 1
      omega
    · show max row.lastSeq event.seq = min (n + 1) (row.segmentId * 1000)
      omega
  · refine ⟨?_, ?_, ?_, ?_⟩
    · show 1 ≤ segmentOf event.seq
      omega
    · show (segmentOf event.seq - 1) * 1000 < n + 1
      omega
    · show event.seq = min (n + 1) (segmentOf event.seq * 1000)
      omega
    · refine ⟨fun hnone => absurd rfl hnone, fun hbelow => ?_⟩
      have hbelow' : segmentOf event.seq * 1000 < lo := hbelow
      omega
  · by_cases hold : (k - 1) * 1000 < n
    · exact .inl hold
    · refine .inr ⟨rfl, ?_⟩
      show k = segmentOf event.seq
      omega

theorem SegmentShape.seal (h : SegmentShape g n lo db.segments) :
    SegmentShape g n lo (sealSegments g event db).segments := by
  refine h.update (by exact fun _ => rfl) fun row _ hrow => ⟨fun _ => hrow, fun _ => ?_⟩
  exact ⟨hrow.positive, hrow.begun, hrow.lastSeq, hrow.compacted⟩

/-- The first number that the append keeps: nothing comes back that was deleted before. -/
def nextOldest (g : String) (limits : Retention) (seq lo : ℕ) (db : EventDb Value) : ℕ :=
  max lo (segmentStart (segmentOf (retainedFromSeq db g limits seq)))

/-- A segment ends before the next oldest number if it was gone or is given up now. -/
theorem ends_before_max {segment retained : ℕ} (hretained : 1 ≤ retained) :
    segment * 1000 < max lo ((retained - 1) * 1000 + 1) ↔
      segment * 1000 < lo ∨ segment < retained := by
  rw [lt_max_iff]
  refine or_congr_right ?_
  omega

theorem SegmentShape.compact (h : SegmentShape g n lo db.segments)
    (event : RuntimeEventEnvelope Value) (limits : Retention) :
    SegmentShape g n (nextOldest g limits event.seq lo db)
      (compactSegments g event limits db).segments := by
  have hone : 1 ≤ segmentOf (retainedFromSeq db g limits event.seq) := by
    rw [segmentOf_eq]
    omega
  unfold compactSegments nextOldest
  rw [segmentStart_eq]
  generalize segmentOf (retainedFromSeq db g limits event.seq) = retained at hone
  refine h.update (by exact fun _ => rfl) fun row hg hrow => ?_
  obtain ⟨hpositive, hbegun, hlast, hcompacted⟩ := hrow
  constructor
  · intro hp
    refine ⟨hpositive, hbegun, hlast, ?_⟩
    rw [ends_before_max hone]
    constructor
    · intro hsome
      exact .inl (hcompacted.mp hsome)
    · rintro (hgone | hbelow) hnone
      · exact hcompacted.mpr hgone hnone
      · simp [hg, hbelow, hnone] at hp
  · intro hp
    have hbelow : row.segmentId < retained := (of_decide_eq_true hp).2.1
    refine ⟨hpositive, hbegun, hlast, ?_⟩
    rw [ends_before_max hone]
    constructor
    · intro _
      exact .inr hbelow
    · intro _
      simp [SegmentRow.compact]

theorem JournalShape.delete (h : JournalShape g n lo db) (hlo : 1 ≤ lo)
    (event : RuntimeEventEnvelope Value) (limits : Retention) :
    JournalShape g n (nextOldest g limits event.seq lo db) (deleteCompacted g event limits db) := by
  have hnext : nextOldest g limits event.seq lo db =
      max lo ((segmentOf (retainedFromSeq db g limits event.seq) - 1) * 1000 + 1) := rfl
  have hone : 1 ≤ segmentOf (retainedFromSeq db g limits event.seq) := by
    rw [segmentOf_eq]
    omega
  have hrows : (deleteCompacted g event limits db).rowsOf g = (db.rowsOf g).filter fun row =>
      !decide (row.generation = g ∧
        row.segmentId < segmentOf (retainedFromSeq db g limits event.seq)) :=
    Table.select_deleteWhere _ _
  generalize nextOldest g limits event.seq lo db = lo' at hnext
  generalize segmentOf (retainedFromSeq db g limits event.seq) = retained at hnext hrows hone
  have hkept : ∀ row ∈ (deleteCompacted g event limits db).rowsOf g, row ∈ db.rowsOf g := by
    intro row hrow
    exact (List.mem_filter.mp (hrows ▸ hrow)).1
  refine ⟨?_, fun row hrow => h.segmentIds row (hkept row hrow),
    fun row hrow => h.envelopes row (hkept row hrow)⟩
  rw [hrows, hnext]
  refine h.seqs.since _ fun row hrow => ?_
  have hid := h.segmentIds row hrow
  rw [segmentOf_eq] at hid
  have hb := h.seqs.bounds hrow
  have hg := (mem_rowsOf.mp hrow).2
  simp only [hg, true_and, ← decide_not, decide_eq_decide, not_lt]
  omega

theorem SegmentShape.watermark (h : SegmentShape g n lo db.segments)
    (hboundary : ∃ k, lo = k * 1000 + 1) (hlo : lo ≤ n) :
    (setWatermark g db).metaRow.compactionWatermarkSeq + 1 = lo := by
  obtain ⟨k, hk⟩ := hboundary
  have hgone : ∀ row ∈ db.segments.select fun row =>
      row.generation = g ∧ row.compactedAtUnixMs ≠ none,
      row.lastSeq = row.segmentId * 1000 ∧ row.segmentId ≤ k := by
    intro row hrow
    obtain ⟨hmem, hp⟩ := Table.mem_select.mp hrow
    obtain ⟨hg, hsome⟩ := of_decide_eq_true hp
    obtain ⟨-, -, hlast, hcompacted⟩ := h.each row hmem hg
    have hlow := hcompacted.mp hsome
    omega
  show (List.max? _).getD 0 + 1 = lo
  rcases Nat.eq_zero_or_pos k with hzero | hpos
  · cases hmax : List.max? ((db.segments.select fun row =>
        row.generation = g ∧ row.compactedAtUnixMs ≠ none).map SegmentRow.lastSeq) with
    | none =>
      show 0 + 1 = lo
      omega
    | some last =>
      obtain ⟨row, hrow, rfl⟩ := List.mem_map.mp (List.max?_mem hmax)
      obtain ⟨hlast, hle⟩ := hgone row hrow
      show row.lastSeq + 1 = lo
      omega
  · have hmax : List.max? ((db.segments.select fun row =>
        row.generation = g ∧ row.compactedAtUnixMs ≠ none).map SegmentRow.lastSeq) =
        some (k * 1000) := by
      rw [List.max?_eq_some_iff]
      constructor
      · obtain ⟨row, hrow, hg, hid⟩ := h.every k hpos (by omega)
        obtain ⟨-, -, hlast, hcompacted⟩ := h.each row hrow hg
        have hsome := hcompacted.mpr (by omega)
        refine List.mem_map.mpr ⟨row, Table.mem_select.mpr ⟨hrow, ?_⟩, by omega⟩
        exact decide_eq_true ⟨hg, hsome⟩
      · intro last hlast
        obtain ⟨row, hrow, rfl⟩ := List.mem_map.mp hlast
        obtain ⟨hlast, hle⟩ := hgone row hrow
        omega
    rw [hmax]
    show k * 1000 + 1 = lo
    omega

end Append

section Limits

variable {event : RuntimeEventEnvelope Value} {limits : Retention}

theorem retainedFromSeq_bounds (db : EventDb Value) (g : String) (hkeep : 1 ≤ limits.keepLatest)
    (hmax : limits.keepLatest ≤ limits.maxKeepLatest) (seq : ℕ) :
    max (seq - (limits.maxKeepLatest - 1)) 1 ≤ retainedFromSeq db g limits seq ∧
      retainedFromSeq db g limits seq ≤ max (seq - (limits.keepLatest - 1)) 1 := by
  have hbaseline : baselineRetainedFromSeq limits seq = max (seq - (limits.keepLatest - 1)) 1 :=
    if_neg (by omega)
  have hcap : maxRetainedFromSeq limits seq ≤ baselineRetainedFromSeq limits seq := by
    rw [hbaseline, maxRetainedFromSeq]
    omega
  refine ⟨le_max_left _ _, hbaseline ▸ max_le hcap (min_le_left _ _)⟩

/-- The lower end of the kept range: never above the baseline, never a segment below the cap. -/
structure Bounded (keep cap n lo : ℕ) : Prop where
  keeps : lo ≤ max (n - (keep - 1)) 1
  caps : n + 1 ≤ lo + cap + 999

theorem Bounded.next (db : EventDb Value) (g : String) (limits : Retention)
    (h : Bounded limits.keepLatest limits.maxKeepLatest n lo) (hkeep : 1 ≤ limits.keepLatest)
    (hmax : limits.keepLatest ≤ limits.maxKeepLatest) :
    Bounded limits.keepLatest limits.maxKeepLatest (n + 1)
      (nextOldest g limits (n + 1) lo db) := by
  obtain ⟨hlow, hhigh⟩ := retainedFromSeq_bounds db g hkeep hmax (n + 1)
  obtain ⟨hkeeps, hcaps⟩ := h
  unfold nextOldest
  generalize retainedFromSeq db g limits (n + 1) = retained at hlow hhigh
  have hstart : segmentStart (segmentOf retained) ≤ retained ∧
      retained ≤ segmentStart (segmentOf retained) + 999 := by
    have hone : 1 ≤ retained := (le_max_right _ _).trans hlow
    rw [segmentStart_eq, segmentOf_eq]
    omega
  constructor
  · refine max_le ?_ (hstart.1.trans hhigh)
    omega
  · have hcapped : n + 1 + 1 ≤ retained + limits.maxKeepLatest := by omega
    have hstart' := le_max_right lo (segmentStart (segmentOf retained))
    omega

/-- A checkpoint that pins the journal and that the cap does not pass keeps its successor. -/
theorem nextOldest_le_of_pin {seq c : ℕ} (hlo : lo ≤ c + 1) {row : RuntimeEventCheckpoint}
    (hrow : row ∈ db.checkpoints.rows) (hc : row.seq = c)
    (hpins : row.pins g limits.checkpointActiveAfterUnixMs (maxRetainedFromSeq limits seq - 1)) :
    nextOldest g limits seq lo db ≤ c + 1 := by
  have hcap : maxRetainedFromSeq limits seq - 1 ≤ c := by
    have hparts : row.generation = g ∧ row.updatedAtUnixMs > limits.checkpointActiveAfterUnixMs ∧
        row.seq ≥ maxRetainedFromSeq limits seq - 1 ∧ _ := of_decide_eq_true hpins
    exact hc ▸ hparts.2.2.1
  have hprotected : protectedRetainedFromSeq db g limits seq ≤ c + 1 := by
    have hmem : c ∈ (db.checkpoints.select fun checkpoint =>
        checkpoint.pins g limits.checkpointActiveAfterUnixMs
          (maxRetainedFromSeq limits seq - 1)).map RuntimeEventCheckpoint.seq :=
      List.mem_map.mpr ⟨row, Table.mem_select.mpr ⟨hrow, hpins⟩, hc⟩
    unfold protectedRetainedFromSeq oldestPinnedCheckpointSeq
    cases hmin : List.min? ((db.checkpoints.select fun checkpoint =>
        checkpoint.pins g limits.checkpointActiveAfterUnixMs
          (maxRetainedFromSeq limits seq - 1)).map RuntimeEventCheckpoint.seq) with
    | none =>
      rw [List.min?_eq_none_iff] at hmin
      rw [hmin] at hmem
      simp at hmem
    | some pinned =>
      have hle : pinned ≤ c := (List.min?_eq_some_iff.mp hmin).2 c hmem
      show max (pinned + 1) 1 ≤ c + 1
      omega
  have hretained : retainedFromSeq db g limits seq ≤ c + 1 := by
    refine max_le (by omega) ((min_le_right _ _).trans hprotected)
  have hpositive : 1 ≤ retainedFromSeq db g limits seq := by
    refine le_trans ?_ (le_max_left _ _)
    exact le_max_right _ _
  refine max_le hlo ?_
  rw [segmentStart_eq, segmentOf_eq]
  omega

theorem appendRuntimeEvent_eq (hmax : limits.maxKeepLatest ≠ 0) :
    (appendRuntimeEvent g event limits db).1 =
      setWatermark g (deleteCompacted g event limits (compactSegments g event limits
        (sealSegments g event (upsertSegment g event (setLastSeq g event
          (insertJournalRow g event (ensureRuntimeEventTables db))))))) := by
  simp only [appendRuntimeEvent, appendStatements, compactionStatements, if_neg hmax]
  rfl

/-- One append of the next number: the range grows by it and starts at the next oldest. -/
theorem Shape.append (event : RuntimeEventEnvelope Value) (limits : Retention)
    (h : Shape g n lo db) (hseq : event.seq = n + 1) (hmax : limits.maxKeepLatest ≠ 0)
    (hnext : nextOldest g limits event.seq lo db ≤ n + 1) :
    Shape g (n + 1) (nextOldest g limits event.seq lo db)
      (appendRuntimeEvent g event limits db).1 := by
  obtain ⟨k, hk⟩ := h.boundary
  have hlo := h.nonempty
  have hready := h.ensure
  have hboundary : ∃ k, nextOldest g limits event.seq lo db = k * 1000 + 1 := by
    rcases max_choice lo (segmentStart (segmentOf (retainedFromSeq db g limits event.seq)))
      with hold | hnew
    · exact ⟨k, hold.trans hk⟩
    · exact ⟨_, hnew.trans (segmentStart_eq _)⟩
  -- The first four statements: the new row, and the row of its segment.
  let mid := sealSegments g event (upsertSegment g event (setLastSeq g event
    (insertJournalRow g event (ensureRuntimeEventTables db))))
  have hrows : JournalShape g (n + 1) lo mid := by
    have hinsert := hready.journal.insert (by omega) hseq
    exact ⟨hinsert.seqs, hinsert.segmentIds, hinsert.envelopes⟩
  have hsegments : SegmentShape g (n + 1) lo mid.segments := by
    have hextend : SegmentShape g (n + 1) lo (upsertSegment g event (setLastSeq g event
        (insertJournalRow g event (ensureRuntimeEventTables db)))).segments :=
      SegmentShape.extend hready.segments (by omega) hseq
    exact hextend.seal
  have hsame : nextOldest g limits event.seq lo mid = nextOldest g limits event.seq lo db := rfl
  have hcompact := hsegments.compact event limits
  have hmarked : JournalShape g (n + 1) lo (compactSegments g event limits mid) :=
    ⟨hrows.seqs, hrows.segmentIds, hrows.envelopes⟩
  have hdelete := hmarked.delete (by omega) event limits
  rw [hsame] at hcompact
  rw [appendRuntimeEvent_eq hmax]
  refine ⟨⟨hdelete.seqs, hdelete.segmentIds, hdelete.envelopes⟩, hcompact, hboundary, by omega,
    fun _ => ?_⟩
  have hgone : SegmentShape g (n + 1) (nextOldest g limits event.seq lo db)
      (deleteCompacted g event limits (compactSegments g event limits mid)).segments := hcompact
  exact hgone.watermark hboundary hnext

end Limits

/-- What the query for the events after `c` finds where the journal still has its successor. -/
theorem JournalShape.loadAfter (h : JournalShape g n lo db) (hg : db.metaRow.generation = g)
    {c : ℕ} (hlo : lo ≤ c + 1) (limit : ℕ) :
    Consecutive RuntimeEventEnvelope.seq (c + 1) (min (c + 1 + limit) (n + 1))
      (loadRuntimeEventsAfter db c limit) := by
  have hselect : (db.journal.select fun row =>
      row.seq > c ∧ row.generation = db.metaRow.generation) =
        (db.rowsOf g).filter fun row => decide (c + 1 ≤ row.seq) := by
    simp only [EventDb.rowsOf, Table.select, List.filter_filter, hg]
    exact List.filter_congr fun row _ => Bool.decide_and _ _
  have hafter := h.seqs.since (p := fun row => decide (c + 1 ≤ row.seq)) (c + 1)
    fun row _ => rfl
  rw [max_eq_right hlo] at hafter
  unfold loadRuntimeEventsAfter
  rw [hselect]
  refine (hafter.take limit).map fun row hrow => ?_
  exact h.envelopes row (List.mem_filter.mp (List.mem_of_mem_take hrow)).1

theorem mem_loadRuntimeEventsAfter {c limit : ℕ} {event : RuntimeEventEnvelope Value}
    (h : event ∈ loadRuntimeEventsAfter db c limit) :
    ∃ row ∈ db.rowsOf db.metaRow.generation, row.envelope = event := by
  obtain ⟨row, hrow, rfl⟩ := List.mem_map.mp h
  obtain ⟨hmem, hp⟩ := Table.mem_select.mp (List.mem_of_mem_take hrow)
  exact ⟨row, mem_rowsOf.mpr ⟨hmem, (of_decide_eq_true hp).2⟩, rfl⟩

inductive JournalCall (Value : Type) where
  | append (event : RuntimeEventEnvelope Value) (checkpointActiveAfterUnixMs : ℕ)
  | save (checkpoint : RuntimeEventCheckpoint)
  | delete (consumerId : String)
  | prune (staleBeforeUnixMs : ℕ)

/-- The tables, the number of the last append and what it returned. -/
structure JournalRun (Value : Type) where
  db : EventDb Value
  appended : ℕ
  returned : Option ℕ

/-- The appends of a run carry the numbers 1, 2, 3, ..; the checkpoints come and go as they
like. -/
def journalStep (g : String) (keep cap : ℕ) (s : JournalRun Value) :
    JournalCall Value → Option (JournalRun Value)
  | .append event activeAfter =>
      if event.seq = s.appended + 1 then
        let (db, oldest) := appendRuntimeEvent g event ⟨keep, cap, activeAfter⟩ s.db
        some ⟨db, event.seq, oldest⟩
      else none
  | .save checkpoint => some { s with db := saveRuntimeEventCheckpoint checkpoint s.db }
  | .delete consumerId => some { s with db := deleteRuntimeEventCheckpoint consumerId s.db }
  | .prune staleBefore => some { s with db := pruneRuntimeEventCheckpoints staleBefore s.db }

def journalStart (db : EventDb Value) : JournalRun Value := ⟨db, 0, none⟩

structure Kept (g : String) (keep cap lo : ℕ) (s : JournalRun Value) : Prop where
  shape : Shape g s.appended lo s.db
  bounded : Bounded keep cap s.appended lo
  returned : 0 < s.appended → s.returned = some lo

section Runs

variable {keep cap : ℕ} {s t : JournalRun Value}

/-- Every operation on the checkpoints leaves the journal and the segments as they are. -/
theorem Shape.checkpoints (h : Shape g n lo db)
    (f : Table RuntimeEventCheckpoint RuntimeEventCheckpoint.consumerId) :
    Shape g n lo { ensureRuntimeEventTables db with checkpoints := f } := by
  have hready := h.ensure
  exact ⟨⟨hready.journal.seqs, hready.journal.segmentIds, hready.journal.envelopes⟩,
    hready.segments, hready.boundary, hready.nonempty, hready.watermark⟩

theorem Kept.step (hkeep : 1 ≤ keep) (hcap : keep ≤ cap) {call : JournalCall Value}
    (h : Kept g keep cap lo s) (hstep : journalStep g keep cap s call = some t) :
    ∃ later, lo ≤ later ∧ s.appended ≤ t.appended ∧ Kept g keep cap later t := by
  cases call with
  | append event activeAfter =>
    simp only [journalStep] at hstep
    split_ifs at hstep with hseq
    obtain rfl := Option.some.inj hstep
    let limits : Retention := ⟨keep, cap, activeAfter⟩
    have hbounded : Bounded keep cap (s.appended + 1)
        (nextOldest g limits (s.appended + 1) lo s.db) :=
      Bounded.next s.db g limits h.bounded hkeep hcap
    have hkeeps := hbounded.keeps
    rw [← hseq] at hbounded hkeeps
    have hshape := h.shape.append event limits hseq (by show cap ≠ 0; omega) (by omega)
    rw [← hseq] at hshape
    refine ⟨_, le_max_left _ _, by show s.appended ≤ event.seq; omega, hshape, hbounded,
      fun hn => hshape.oldestSeq hn⟩
  | save checkpoint =>
    obtain rfl := Option.some.inj hstep
    exact ⟨lo, le_rfl, le_rfl, h.shape.checkpoints _, h.bounded, h.returned⟩
  | delete consumerId =>
    obtain rfl := Option.some.inj hstep
    exact ⟨lo, le_rfl, le_rfl, h.shape.checkpoints _, h.bounded, h.returned⟩
  | prune staleBefore =>
    obtain rfl := Option.some.inj hstep
    exact ⟨lo, le_rfl, le_rfl, h.shape.checkpoints _, h.bounded, h.returned⟩

theorem Kept.reaches (hkeep : 1 ≤ keep) (hcap : keep ≤ cap) (h : Kept g keep cap lo s)
    (hrun : Reaches (journalStep g keep cap) anyStep s t) :
    ∃ later, lo ≤ later ∧ s.appended ≤ t.appended ∧ Kept g keep cap later t := by
  refine hrun.keeps (I := fun u => ∃ later, lo ≤ later ∧ s.appended ≤ u.appended ∧
    Kept g keep cap later u) ⟨lo, le_rfl, le_rfl, h⟩ ?_
  rintro a b call ⟨later, hle, happended, hkept⟩ - hstep
  obtain ⟨latest, hle', happended', hkept'⟩ := hkept.step hkeep hcap hstep
  exact ⟨latest, hle.trans hle', happended.trans happended', hkept'⟩

/-- After every append of a run the journal of the generation is a contiguous range that ends at
the appended number, of at least `keep` rows as far as there were so many and at most `cap` and
the rest of a segment; the watermark stands just before what the append returned, and what a
later append returns is no lower. -/
theorem compaction_shape (hkeep : 1 ≤ keep) (hcap : keep ≤ cap) (hdb : Untouched g db)
    (hs : Reaches (journalStep g keep cap) anyStep (journalStart db) s)
    (ht : Reaches (journalStep g keep cap) anyStep s t) (hn : 1 ≤ s.appended) :
    ∃ oldest, s.returned = some oldest ∧ oldest ≤ s.appended ∧
      (s.db.rowsOf g).map JournalRow.seq = List.Ico oldest (s.appended + 1) ∧
      min s.appended keep ≤ (s.db.rowsOf g).length ∧
      (s.db.rowsOf g).length ≤ cap + runtimeEventPersistedSegmentSize - 1 ∧
      s.db.metaRow.compactionWatermarkSeq + 1 = oldest ∧
      ∃ later, t.returned = some later ∧ oldest ≤ later := by
  have hstart : Kept g keep cap 1 (journalStart db) :=
    ⟨hdb.shape, ⟨le_max_right _ _, by show 0 + 1 ≤ _; omega⟩, fun h => absurd h (Nat.lt_irrefl 0)⟩
  obtain ⟨lo, -, -, hkept⟩ := hstart.reaches hkeep hcap hs
  obtain ⟨later, hle, hgrown, hlater⟩ := hkept.reaches hkeep hcap ht
  have hlen := hkept.shape.journal.seqs.length
  have hnonempty := hkept.shape.nonempty
  obtain ⟨hkeeps, hcaps⟩ := hkept.bounded
  refine ⟨lo, hkept.returned hn, by omega, hkept.shape.journal.seqs, by omega, ?_,
    hkept.shape.watermark hn, later, hlater.returned (by omega), hle⟩
  show _ ≤ cap + 1000 - 1
  omega

end Runs
private theorem exists_appends (n : ℕ) : ∃ s : JournalRun Unit,
    Reaches (journalStep "g1" 1 2) anyStep (journalStart (.fresh "g1")) s ∧ s.appended = n := by
  induction n with
  | zero => exact ⟨_, .refl, rfl⟩
  | succ n ih =>
    obtain ⟨s, reached, rfl⟩ := ih
    let event : RuntimeEventEnvelope Unit := ⟨s.appended + 1, "device_updated", (), 5⟩
    let appended := appendRuntimeEvent "g1" event ⟨1, 2, 0⟩ s.db
    exact ⟨⟨appended.1, s.appended + 1, appended.2⟩,
      reached.tail ⟨.append event 0, trivial, if_pos rfl⟩, rfl⟩

theorem long_journal_shape :
    ∃ s : JournalRun Unit, Reaches (journalStep "g1" 1 2) anyStep (journalStart (.fresh "g1")) s ∧
      s.appended = 2000 ∧ ∃ oldest, s.returned = some oldest ∧ 1000 ≤ oldest ∧
        (s.db.rowsOf "g1").map JournalRow.seq = List.Ico oldest 2001 ∧
        s.db.metaRow.compactionWatermarkSeq + 1 = oldest := by
  obtain ⟨s, reached, length⟩ := exists_appends 2000
  have hfresh : Untouched "g1" (EventDb.fresh "g1" : EventDb Unit) := by
    constructor <;> simp [EventDb.fresh]
  obtain ⟨oldest, returned, -, seqs, -, most, watermark, -⟩ :=
    compaction_shape le_rfl (by decide) hfresh reached .refl (by omega)
  have count := congrArg List.length seqs
  rw [List.length_map, List.Ico.length] at count
  have segment : runtimeEventPersistedSegmentSize = 1000 := rfl
  refine ⟨s, reached, length, oldest, returned, by omega, ?_, watermark⟩
  rw [seqs, length]

end DashDrop.Events.Compaction
