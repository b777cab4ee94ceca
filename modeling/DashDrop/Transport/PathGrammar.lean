/- GID: DashDrop/Transport/PathGrammar
   source: src-tauri/src/transport/path_validation.rs
   anchors: []
   digest: The relative paths that are accepted, as a grammar, and where each of them leads. -/

import DashDrop.Transport.PathValidation

set_option autoImplicit false
set_option relaxedAutoImplicit false

namespace DashDrop.Transport.PathGrammar

open DashDrop.Foundation.Text DashDrop.Foundation.UnixPath DashDrop.Transport.PathValidation

def IsSeparator (c : Char) : Prop := c = '/' ∨ c = '\\'

def slashed (s : List Char) : List Char := s.map fun c => if c = '\\' then '/' else c

def Reserved (segment : List Char) : Prop :=
  toAsciiUppercase (segment.takeWhile (· ≠ '.')) ∈ windowsReserved

/-- What a relative path has to look like. -/
structure Grammatical (s : List Char) : Prop where
  nonempty : s ≠ []
  start : ∀ c, s.head? = some c → ¬ IsSeparator c
  finish : ∀ c, s.getLast? = some c → ¬ IsSeparator c
  apart : ∀ a b, [a, b] <:+: s → IsSeparator a → ¬ IsSeparator b
  /-- The second byte is no colon before a separator. -/
  drive : (utf8Bytes s)[1]? = some 58 → (utf8Bytes s)[2]? ≠ some 47 ∧ (utf8Bytes s)[2]? ≠ some 92
  named : ∀ segment ∈ segments (slashed s), segment ≠ ['.', '.'] ∧ ¬ Reserved segment

/-- The path below the root that the segments other than `.` spell out. -/
def Spells (s : List Char) (names : List Name) : Prop :=
  names.map Name.text = (segments (slashed s)).filter (· ≠ ['.'])

theorem utf8Bytes_head {s : List Char} {b : UInt8} {d : Char} (one : d.utf8Size = 1)
    (same : d.val.toUInt8 = b) (small : b.toNat < 128) :
    (utf8Bytes s)[0]? = some b ↔ s.head? = some d := by
  cases s with
  | nil => simp [utf8Bytes]
  | cons c s =>
    by_cases hc : c.utf8Size = 1
    · simp only [utf8Bytes, List.flatMap_cons, String.utf8EncodeChar_eq_singleton hc,
        List.singleton_append, List.getElem?_cons_zero, List.head?_cons, Option.some.injEq]
      rw [← same]
      exact ⟨fun h => eq_of_toUInt8_eq hc one h, fun h => by rw [h]⟩
    · obtain ⟨a, b', rest, bytes, high, -⟩ := utf8EncodeChar_high hc
      simp only [utf8Bytes, List.flatMap_cons, bytes, List.cons_append, List.getElem?_cons_zero,
        List.head?_cons, Option.some.injEq]
      constructor
      · rintro rfl
        omega
      · rintro rfl
        exact absurd one hc

theorem utf8Bytes_cons {c : Char} (one : c.utf8Size = 1) (s : List Char) :
    utf8Bytes (c :: s) = c.val.toUInt8 :: utf8Bytes s := by
  simp [utf8Bytes, String.utf8EncodeChar_eq_singleton one]

theorem driveAbsolute_iff (s : List Char) : driveAbsolute s = true ↔
    (utf8Bytes s)[1]? = some 58 ∧ ((utf8Bytes s)[2]? = some 47 ∨ (utf8Bytes s)[2]? = some 92) := by
  have colon (t : List Char) : (utf8Bytes t)[0]? = some 58 ↔ t.head? = some ':' :=
    utf8Bytes_head (by decide) (by decide) (by decide)
  have slash (t : List Char) : (utf8Bytes t)[0]? = some 47 ↔ t.head? = some '/' :=
    utf8Bytes_head (by decide) (by decide) (by decide)
  have backslash (t : List Char) : (utf8Bytes t)[0]? = some 92 ↔ t.head? = some '\\' :=
    utf8Bytes_head (by decide) (by decide) (by decide)
  cases s with
  | nil => simp [driveAbsolute, utf8Bytes]
  | cons c s =>
    by_cases one : c.utf8Size = 1
    · rw [utf8Bytes_cons one, List.getElem?_cons_succ, List.getElem?_cons_succ, colon]
      cases s with
      | nil => simp [driveAbsolute]
      | cons e t =>
        by_cases he : e = ':'
        · subst he
          rw [utf8Bytes_cons (by decide), List.getElem?_cons_succ, slash, backslash]
          cases t with
          | nil => simp [driveAbsolute]
          | cons d t => simp [driveAbsolute, one, or_comm]
        · simp [driveAbsolute, he]
    · obtain ⟨a, b, rest, bytes, -, high⟩ := utf8EncodeChar_high one
      have second : (utf8Bytes (c :: s))[1]? = some b := by
        simp [utf8Bytes, bytes]
      have miss : b ≠ 58 := by
        rintro rfl
        exact absurd high (by decide)
      rw [second]
      simp only [Option.some.injEq, miss, false_and, iff_false, Bool.not_eq_true]
      unfold driveAbsolute
      split
      · rename_i same
        cases same
        simp [one]
      · rfl

theorem adjacent_iff (s : List Char) :
    (containsText ['/', '/'] s ∨ containsText ['\\', '\\'] s ∨ containsText ['/', '\\'] s ∨
      containsText ['\\', '/'] s) ↔ ∃ a b, [a, b] <:+: s ∧ IsSeparator a ∧ IsSeparator b := by
  have two (a b : Char) : containsText [a, b] s = true ↔ [a, b] <:+: s :=
    containsText_iff (by simp)
  rw [two, two, two, two]
  constructor
  · rintro (h | h | h | h)
    · exact ⟨_, _, h, .inl rfl, .inl rfl⟩
    · exact ⟨_, _, h, .inr rfl, .inr rfl⟩
    · exact ⟨_, _, h, .inl rfl, .inr rfl⟩
    · exact ⟨_, _, h, .inr rfl, .inl rfl⟩
  · rintro ⟨a, b, h, rfl | rfl, rfl | rfl⟩
    · exact .inl h
    · exact .inr (.inr (.inl h))
    · exact .inr (.inr (.inr h))
    · exact .inr (.inl h)

private theorem slashed_eq_slash {c : Char} :
    (if c = '\\' then '/' else c) = '/' ↔ IsSeparator c := by
  unfold IsSeparator
  split_ifs with h
  · simp [h]
  · simp [h]

theorem head_slashed (s : List Char) :
    (slashed s).head? = some '/' ↔ ∃ c, s.head? = some c ∧ IsSeparator c := by
  cases s with
  | nil => simp [slashed]
  | cons c s => simp only [slashed, List.map_cons, List.head?_cons, Option.some.injEq,
      slashed_eq_slash, exists_eq_left']

theorem getLast_slashed (s : List Char) :
    (slashed s).getLast? = some '/' ↔ ∃ c, s.getLast? = some c ∧ IsSeparator c := by
  rw [slashed, List.getLast?_map]
  cases s.getLast? with
  | none => simp
  | some c => simp only [Option.map_some, Option.some.injEq, slashed_eq_slash, exists_eq_left']

theorem pair_slashed (s : List Char) :
    ['/', '/'] <:+: slashed s ↔ ∃ a b, [a, b] <:+: s ∧ IsSeparator a ∧ IsSeparator b := by
  rw [slashed, List.infix_map_iff]
  constructor
  · rintro ⟨l, h, same⟩
    obtain ⟨a, _, rfl, ha, tail⟩ := List.map_eq_cons_iff.mp same.symm
    obtain ⟨b, _, rfl, hb, tail⟩ := List.map_eq_cons_iff.mp tail
    obtain rfl := List.map_eq_nil_iff.mp tail
    exact ⟨a, b, h, slashed_eq_slash.mp ha, slashed_eq_slash.mp hb⟩
  · rintro ⟨a, b, h, ha, hb⟩
    exact ⟨[a, b], h, by
      rw [List.map_cons, List.map_singleton, slashed_eq_slash.mpr ha, slashed_eq_slash.mpr hb]⟩

theorem nil_mem_segments_slashed (s : List Char) : [] ∈ segments (slashed s) ↔
    s = [] ∨ (∃ c, s.head? = some c ∧ IsSeparator c) ∨ (∃ c, s.getLast? = some c ∧ IsSeparator c) ∨
      ∃ a b, [a, b] <:+: s ∧ IsSeparator a ∧ IsSeparator b := by
  have empty : slashed s = [] ↔ s = [] := List.map_eq_nil_iff
  rw [nil_mem_segments, empty, head_slashed, getLast_slashed, pair_slashed, or_assoc]

theorem takeWhile_toAsciiUppercase (s : List Char) :
    (toAsciiUppercase s).takeWhile (· ≠ '.') = toAsciiUppercase (s.takeWhile (· ≠ '.')) := by
  have dot (c : Char) : c.toUpper = '.' ↔ c = '.' := by
    have code := toNat_toUpper c
    have dotcode : '.'.toNat = 46 := by decide
    rw [← Char.toNat_inj, ← Char.toNat_inj, code, dotcode]
    split <;> omega
  simp only [toAsciiUppercase, List.takeWhile_map, Function.comp_def, ne_eq, dot]

/-- An upper-casing of whole texts: ASCII letters as in ASCII, and no other character becomes a
dot or a string over the letters of the table. -/
structure UpperCasing (upper : Char → List Char) : Prop where
  ascii : ∀ c, c.toNat < 128 → upper c = [c.toUpper]
  undotted : ∀ c, 128 ≤ c.toNat → '.' ∉ upper c
  foreign : ∀ c, 128 ≤ c.toNat → ∃ d ∈ upper c, ∀ name ∈ windowsReserved, d ∉ name

theorem UpperCasing.takeWhile_flatMap {upper : Char → List Char} (h : UpperCasing upper)
    (s : List Char) :
    (s.flatMap upper).takeWhile (· ≠ '.') = (s.takeWhile (· ≠ '.')).flatMap upper := by
  induction s with
  | nil => rfl
  | cons c s ih =>
    by_cases dot : c = '.'
    · subst dot
      simp [h.ascii '.' (by decide), show '.'.toUpper = '.' by decide]
    · have undotted : '.' ∉ upper c := by
        rcases lt_or_ge c.toNat 128 with small | large
        · have := toNat_toUpper c
          have code : c.toNat ≠ 46 := fun e => dot (Char.toNat_inj.mp e)
          rw [h.ascii c small, List.mem_singleton, ← Char.toNat_inj, this,
            show '.'.toNat = 46 by decide]
          split <;> omega
        · exact h.undotted c large
      have all : ∀ d ∈ upper c, decide (d ≠ '.') = true := by
        intro d hd
        exact decide_eq_true fun e => undotted (e ▸ hd)
      have front : (c :: s).takeWhile (· ≠ '.') = c :: s.takeWhile (· ≠ '.') :=
        List.takeWhile_cons_of_pos (decide_eq_true dot)
      rw [List.flatMap_cons, List.takeWhile_append_of_pos all, ih, front, List.flatMap_cons]

theorem reserved_iff_upper {upper : Char → List Char} (h : UpperCasing upper)
    (segment : List Char) :
    (segment.flatMap upper).takeWhile (· ≠ '.') ∈ windowsReserved ↔ Reserved segment := by
  rw [h.takeWhile_flatMap, Reserved]
  generalize segment.takeWhile (· ≠ '.') = base
  by_cases ascii : ∀ c ∈ base, c.toNat < 128
  · have same : base.flatMap upper = toAsciiUppercase base := by
      rw [toAsciiUppercase, List.map_eq_flatMap]
      exact List.flatMap_congr fun c hc => h.ascii c (ascii c hc)
    rw [same]
  · push Not at ascii
    obtain ⟨c, hc, large⟩ := ascii
    refine iff_of_false (fun listed => ?_) fun listed => ?_
    · obtain ⟨d, hd, never⟩ := h.foreign c large
      exact never _ listed (List.mem_flatMap.mpr ⟨c, hc, hd⟩)
    · have small : windowsReserved.all (fun name => name.all fun d => d.toNat < 128) = true := by
        decide
      have code := of_decide_eq_true (List.all_eq_true.mp (List.all_eq_true.mp small _ listed)
        c.toUpper (List.mem_map_of_mem hc))
      rw [toNat_toUpper] at code
      split at code <;> omega

theorem validateSegment_ok (segment : List Char) : validateSegment segment = .ok () ↔
    segment ≠ ['.', '.'] ∧ segment ≠ [] ∧ ¬ Reserved segment := by
  simp only [validateSegment, Reserved, takeWhile_toAsciiUppercase, List.contains_iff_mem]
  split_ifs with h₁ h₂ h₃
  · simp [h₁]
  · simp [h₂]
  · exact iff_of_false (by simp) fun h => h.2.2 h₃
  · exact iff_of_true rfl ⟨h₁, h₂, h₃⟩

theorem validateSegments_ok (ss : List (List Char)) :
    validateSegments ss = .ok () ↔ ∀ segment ∈ ss, validateSegment segment = .ok () := by
  induction ss with
  | nil => simp [validateSegments]
  | cons s ss ih =>
    rw [validateSegments, List.forall_mem_cons]
    split
    · rename_i e h
      simp [h]
    · rename_i h
      rw [ih]
      simp [h]

theorem destination_eq {s : List Char} {saveRoot : PathBuf} (abs : saveRoot.isAbsolute = true)
    (passed : validateSegments (segments (slashed s)) = .ok ()) : ∃ names, Spells s names ∧
      destination (slashed s) saveRoot = .ok ⟨(normalizePath saveRoot).comps ++ names.map .normal⟩ := by
  rw [validateSegments_ok] at passed
  have plain : ∀ segment ∈ segments (slashed s), segment ≠ [] ∧ segment ≠ ['.', '.'] := by
    intro segment h
    obtain ⟨up, nonempty, -⟩ := (validateSegment_ok segment).mp (passed segment h)
    exact ⟨nonempty, up⟩
  obtain ⟨names, texts, rel, walk⟩ := walk_components plain
  have below : (saveRoot.join (.ofText (slashed s))).resolve = saveRoot.resolve ++ names := by
    rw [resolve_join rel]
    exact walk _
  have hdest := destination_of_prefix (slashed s) abs (by rw [below]; exact List.prefix_append _ _)
  refine ⟨names, texts, ?_⟩
  rw [hdest, below, normalizePath_of_isAbsolute abs]
  simp [PathBuf.absolute]

structure Checked (s : List Char) : Prop where
  start : ¬ (s.head? = some '/' ∨ s.head? = some '\\')
  drive : ¬ driveAbsolute s = true
  apart : ¬ (s.head? = some '/' ∨ s.head? = some '\\' ∨ s.getLast? = some '/'
    ∨ s.getLast? = some '\\' ∨ containsText ['/', '/'] s ∨ containsText ['\\', '\\'] s
    ∨ containsText ['/', '\\'] s ∨ containsText ['\\', '/'] s)
  passed : validateSegments (segments (slashed s)) = .ok ()

theorem validateRelPath_ok_iff {s : List Char} {saveRoot p : PathBuf} :
    validateRelPath s saveRoot = .ok p ↔ Checked s ∧ destination (slashed s) saveRoot = .ok p := by
  constructor
  · intro h
    unfold validateRelPath at h
    split_ifs at h with start drive apart
    simp only at h
    split at h
    · cases h
    · rename_i passed
      exact ⟨⟨start, drive, apart, passed⟩, h⟩
  · rintro ⟨⟨start, drive, apart, passed⟩, h⟩
    rw [slashed] at passed
    unfold validateRelPath
    rw [if_neg start, if_neg drive, if_neg apart]
    simp only [passed]
    exact h

theorem Checked.grammatical {s : List Char} (h : Checked s) : Grammatical s := by
  have passed := (validateSegments_ok _).mp h.passed
  have full : [] ∉ segments (slashed s) := fun hm =>
    ((validateSegment_ok []).mp (passed [] hm)).2.1 rfl
  rw [nil_mem_segments_slashed] at full
  push Not at full
  obtain ⟨nonempty, start, finish, apart⟩ := full
  refine ⟨nonempty, start, finish, apart, fun colon => ?_, fun segment hs => ?_⟩
  · have drive := h.drive
    rw [driveAbsolute_iff] at drive
    push Not at drive
    exact drive colon
  · obtain ⟨up, -, free⟩ := (validateSegment_ok segment).mp (passed segment hs)
    exact ⟨up, free⟩

theorem Grammatical.checked {s : List Char} (h : Grammatical s) : Checked s where
  start := by
    rintro (hc | hc)
    · exact h.start _ hc (.inl rfl)
    · exact h.start _ hc (.inr rfl)
  drive := by
    intro hd
    obtain ⟨colon, slash | backslash⟩ := (driveAbsolute_iff s).mp hd
    · exact (h.drive colon).1 slash
    · exact (h.drive colon).2 backslash
  apart := by
    rintro (hc | hc | hc | hc | hc)
    · exact h.start _ hc (.inl rfl)
    · exact h.start _ hc (.inr rfl)
    · exact h.finish _ hc (.inl rfl)
    · exact h.finish _ hc (.inr rfl)
    · obtain ⟨a, b, near, ha, hb⟩ := (adjacent_iff s).mp hc
      exact h.apart a b near ha hb
  passed := by
    rw [validateSegments_ok]
    intro segment hs
    obtain ⟨up, free⟩ := h.named segment hs
    refine (validateSegment_ok segment).mpr ⟨up, ?_, free⟩
    rintro rfl
    rcases (nil_mem_segments_slashed s).mp hs with hc | ⟨c, hc, sep⟩ | ⟨c, hc, sep⟩ | ⟨a, b, hc⟩
    · exact h.nonempty hc
    · exact h.start c hc sep
    · exact h.finish c hc sep
    · exact h.apart a b hc.1 hc.2.1 hc.2.2

/-- Validation accepts exactly the grammar, on the path that the segments spell below the root,
and its last check never rejects. -/
theorem accepts_exactly {saveRoot : PathBuf} (abs : saveRoot.isAbsolute = true) (s : List Char) :
    ((∃ p, validateRelPath s saveRoot = .ok p) ↔ Grammatical s) ∧
      (∀ p, validateRelPath s saveRoot = .ok p → ∃ names, Spells s names ∧
        p = ⟨(normalizePath saveRoot).comps ++ names.map .normal⟩) ∧
      (validateSegments (segments (slashed s)) = .ok () →
        ∃ p, destination (slashed s) saveRoot = .ok p) := by
  refine ⟨⟨fun ⟨p, h⟩ => (validateRelPath_ok_iff.mp h).1.grammatical, fun h => ?_⟩,
    fun p h => ?_, fun passed => ?_⟩
  · obtain ⟨names, -, there⟩ := destination_eq abs h.checked.passed
    exact ⟨_, validateRelPath_ok_iff.mpr ⟨h.checked, there⟩⟩
  · obtain ⟨checked, here⟩ := validateRelPath_ok_iff.mp h
    obtain ⟨names, spelled, there⟩ := destination_eq abs checked.passed
    rw [here, Except.ok.injEq] at there
    exact ⟨names, spelled, there⟩
  · obtain ⟨names, -, there⟩ := destination_eq abs passed
    exact ⟨_, there⟩

theorem accepts_mixed_separators :
    (PathBuf.ofText "/save".toList).isAbsolute = true ∧
      Grammatical "docs\\./a.txt".toList ∧
      ∃ names, Spells "docs\\./a.txt".toList names ∧
        validateRelPath "docs\\./a.txt".toList (.ofText "/save".toList) =
          .ok ⟨(normalizePath (.ofText "/save".toList)).comps ++ names.map .normal⟩ := by
  have abs : (PathBuf.ofText "/save".toList).isAbsolute = true := by decide
  obtain ⟨grammar, path, -⟩ := accepts_exactly abs "docs\\./a.txt".toList
  have accepted : validateRelPath "docs\\./a.txt".toList (.ofText "/save".toList) =
      .ok (.ofText "/save/docs/a.txt".toList) := by decide
  obtain ⟨names, spelled, there⟩ := path _ accepted
  exact ⟨abs, grammar.mp ⟨_, accepted⟩, names, spelled, by rw [accepted, there]⟩

end DashDrop.Transport.PathGrammar
