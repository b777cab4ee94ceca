/- GID: DashDrop/Transport/DiskNames
   source: src-tauri/src/transport/receiver.rs
   anchors: []
   digest: The names that the receiver derives from an accepted path, and where they lie. -/

import DashDrop.Transport.Receiver

set_option autoImplicit false
set_option relaxedAutoImplicit false

namespace DashDrop.Transport.DiskNames

open DashDrop.Foundation.UnixPath DashDrop.Foundation.FileTree DashDrop.Foundation.Text
open DashDrop.Foundation.Program DashDrop.Transport.PathValidation DashDrop.Transport.Receiver
open DashDrop.Runtime.State DashDrop.Runtime.Machine

private theorem plain_of_mem {s : List Char} {c : Char} (hslash : '/' ∉ s) (hc : c ∈ s)
    (hdot : c ≠ '.') : Plain s := by
  refine ⟨hslash, ?_, ?_, ?_⟩
  · rintro rfl
    exact List.not_mem_nil hc
  · rintro rfl
    exact hdot (List.mem_singleton.mp hc)
  · rintro rfl
    simp only [List.mem_cons, List.not_mem_nil, or_false, or_self] at hc
    exact hdot hc

def tempName (n : Name) : Name :=
  ⟨n.text ++ ".dashdrop.part".toList,
    plain_of_mem (c := 'd') (by
      rw [List.mem_append, not_or]
      exact ⟨n.plain.1, by decide⟩) (List.mem_append_right _ (by decide)) (by decide)⟩

theorem tempPathFor_child (p : PathBuf) (n : Name) :
    tempPathFor (p.child n) = p.child (tempName n) := by
  simp only [tempPathFor, fileName_child, Option.map_some, Option.getD_some]
  exact withFileName_child p n (tempName n).plain

theorem tempPathFor_absolute (front : List Name) (n : Name) :
    tempPathFor (.absolute (front ++ [n])) = .absolute (front ++ [tempName n]) := by
  rw [absolute_append, tempPathFor_child, absolute_append]

theorem tempName_length (n : Name) : (tempName n).text.length = n.text.length + 14 := by
  simp only [tempName, List.length_append]
  rfl

theorem tempName_ne (n : Name) : tempName n ≠ n := by
  intro same
  have hlen := tempName_length n
  rw [same] at hlen
  omega

theorem tempName_injective : Function.Injective tempName := by
  rintro ⟨s, hs⟩ ⟨t, ht⟩ h
  have htext : s ++ ".dashdrop.part".toList = t ++ ".dashdrop.part".toList :=
    congrArg Name.text h
  have hst : s = t := List.append_cancel_right htext
  subst hst
  rfl

private theorem not_mem_part {n : Name} {part : List Char}
    (h : (rsplitFileAtDot n.text).1 = some part ∨ (rsplitFileAtDot n.text).2 = some part) :
    '/' ∉ part :=
  fun hc => n.plain.1 (rsplitFileAtDot_subset h hc)

def stemOf (n : Name) : List Char :=
  (((rsplitFileAtDot n.text).1.or (rsplitFileAtDot n.text).2)).getD "file".toList

def extOf (n : Name) : List Char :=
  (((rsplitFileAtDot n.text).1.bind fun _ => (rsplitFileAtDot n.text).2).map
    fun e => '.' :: e).getD []

private theorem stem_slash (n : Name) : '/' ∉ stemOf n := by
  unfold stemOf
  cases h1 : (rsplitFileAtDot n.text).1 with
  | some part => exact not_mem_part (.inl h1)
  | none =>
    cases h2 : (rsplitFileAtDot n.text).2 with
    | some part => exact not_mem_part (.inr h2)
    | none => decide

private theorem ext_slash (n : Name) : '/' ∉ extOf n := by
  unfold extOf
  cases h1 : (rsplitFileAtDot n.text).1 with
  | none => simp
  | some part =>
    cases h2 : (rsplitFileAtDot n.text).2 with
    | none => simp
    | some ext =>
      have h := not_mem_part (.inr h2)
      simpa using h

private theorem digits_slash (idx : ℕ) : '/' ∉ (toString idx).toList := by
  intro h
  have hdigit := isDigit_of_mem_toString h
  cases hdigit

/-- The name tried in the `idx`-th place when a name is taken. -/
def renamed (n : Name) (idx : ℕ) : Name :=
  ⟨renamedName (stemOf n) (extOf n) idx,
    plain_of_mem (c := '(') (by
      simp only [renamedName, List.mem_append, not_or]
      exact ⟨⟨⟨⟨stem_slash n, by decide⟩, digits_slash idx⟩, by decide⟩, ext_slash n⟩)
      (by simp [renamedName]) (by decide)⟩

private theorem splitFileName_child (p : PathBuf) (n : Name) :
    splitFileName (p.child n) = (stemOf n, extOf n) := by
  simp [splitFileName, PathBuf.fileStem, PathBuf.extension, stemOf, extOf]

private theorem stem_ext (n : Name) :
    n.text = stemOf n ++ extOf n ∧
      ((extOf n = [] ∧ ('.' ∉ stemOf n ∨ ∃ rest, stemOf n = '.' :: rest ∧ '.' ∉ rest)) ∨
        ∃ e, extOf n = '.' :: e ∧ '.' ∉ e ∧ stemOf n ≠ []) := by
  cases split : splitLastDot n.text with
  | none =>
    have hparts : rsplitFileAtDot n.text = (none, some n.text) := by simp [rsplitFileAtDot, split]
    have hstem : stemOf n = n.text := by simp [stemOf, hparts]
    have hext : extOf n = [] := by simp [extOf, hparts]
    refine ⟨by rw [hstem, hext, List.append_nil], .inl ⟨hext, .inl ?_⟩⟩
    rw [hstem]
    exact not_mem_of_splitLastDot split
  | some parts =>
    obtain ⟨before, after⟩ := parts
    have htext := splitLastDot_eq split
    have hafter := splitLastDot_after split
    cases before with
    | nil =>
      have hparts : rsplitFileAtDot n.text = (some n.text, none) := by
        simp [rsplitFileAtDot, split]
      have hstem : stemOf n = n.text := by simp [stemOf, hparts]
      have hext : extOf n = [] := by simp [extOf, hparts]
      refine ⟨by rw [hstem, hext, List.append_nil], .inl ⟨hext, .inr ⟨after, ?_, hafter⟩⟩⟩
      rw [hstem]
      exact htext
    | cons c before =>
      have hparts : rsplitFileAtDot n.text = (some (c :: before), some after) := by
        simp [rsplitFileAtDot, split]
      have hstem : stemOf n = c :: before := by simp [stemOf, hparts]
      have hext : extOf n = '.' :: after := by simp [extOf, hparts]
      refine ⟨by rw [hstem, hext]; exact htext, .inr ⟨after, hext, hafter, ?_⟩⟩
      rw [hstem]
      simp

private theorem renamed_text (n : Name) (idx : ℕ) :
    (renamed n idx).text =
      stemOf n ++ " (".toList ++ (toString idx).toList ++ ")".toList ++ extOf n := rfl

theorem renamed_length (n : Name) (idx : ℕ) : n.text.length < (renamed n idx).text.length := by
  have htext := congrArg List.length (stem_ext n).1
  rw [renamed_text]
  simp only [List.length_append] at htext ⊢
  have hopen : " (".toList.length = 2 := rfl
  omega

private theorem not_mem_number {c : Char} (idx : ℕ) (hc : c.isDigit = false) :
    c ∉ (toString idx).toList := by
  intro h
  rw [isDigit_of_mem_toString h] at hc
  cases hc

private def numbered (n : Name) (idx : ℕ) : List Char :=
  (stemOf n ++ [' ']) ++ '(' :: ((toString idx).toList ++ [')'])

private theorem renamed_eq (n : Name) (idx : ℕ) :
    (renamed n idx).text = numbered n idx ++ extOf n := by
  rw [renamed_text, numbered]
  simp

private theorem numbered_injective {n m : Name} {x y : ℕ} (h : numbered n x = numbered m y) :
    stemOf n = stemOf m ∧ x = y := by
  have closed (idx : ℕ) : '(' ∉ (toString idx).toList ++ [')'] := by
    rw [List.mem_append, not_or]
    exact ⟨not_mem_number idx rfl, by decide⟩
  obtain ⟨hstem, hdigits⟩ := append_cons_unique (closed x) (closed y) h
  exact ⟨List.append_cancel_right hstem, toString_injective (List.append_cancel_right hdigits)⟩

private theorem getLast_numbered (n : Name) (idx : ℕ) : (numbered n idx).getLast? = some ')' := by
  have hshape : numbered n idx = (stemOf n ++ [' '] ++ '(' :: (toString idx).toList) ++ [')'] := by
    simp [numbered]
  rw [hshape, List.getLast?_append, List.getLast?_singleton, Option.some_or]

/-- Without an extension a numbered name has no dot, or only its first character is one. -/
private theorem numbered_no_ext {n m : Name} {x y : ℕ} {e : List Char} (hext : extOf n = [])
    (he : '.' ∉ e) (h : numbered n x = numbered m y ++ '.' :: e) : False := by
  have tail : '.' ∉ [' '] ++ '(' :: ((toString x).toList ++ [')']) := by
    simp only [List.mem_append, List.mem_cons, List.not_mem_nil, or_false, not_or]
    exact ⟨by decide, by decide, not_mem_number x rfl, by decide⟩
  have hsplit : numbered n x = stemOf n ++ ([' '] ++ '(' :: ((toString x).toList ++ [')'])) := by
    simp [numbered]
  obtain ⟨-, ⟨-, dotless⟩ | ⟨e', hext', -⟩⟩ := stem_ext n
  · rcases dotless with dotless | ⟨rest, hstem, dotless⟩
    · have hdot : '.' ∈ numbered n x := by
        rw [h]
        simp
      rw [hsplit, List.mem_append] at hdot
      exact hdot.elim dotless tail
    · have hrest : '.' ∉ rest ++ ([' '] ++ '(' :: ((toString x).toList ++ [')'])) := by
        rw [List.mem_append, not_or]
        exact ⟨dotless, tail⟩
      have hwhole : [] ++ '.' :: (rest ++ ([' '] ++ '(' :: ((toString x).toList ++ [')']))) =
          numbered m y ++ '.' :: e := by
        rw [← h, hsplit, hstem]
        rfl
      obtain ⟨hnil, -⟩ := append_cons_unique hrest he hwhole
      have hlast := getLast_numbered m y
      rw [← hnil] at hlast
      cases hlast
  · rw [hext] at hext'
    cases hext'

theorem renamed_injective {n m : Name} {x y : ℕ} (h : renamed n x = renamed m y) :
    n = m ∧ x = y := by
  have htext := congrArg Name.text h
  rw [renamed_eq, renamed_eq] at htext
  have parts : numbered n x = numbered m y ∧ extOf n = extOf m := by
    obtain ⟨-, ⟨hn, -⟩ | ⟨e, hn, he, -⟩⟩ := stem_ext n
    · obtain ⟨-, ⟨hm, -⟩ | ⟨e', hm, he', -⟩⟩ := stem_ext m
      · rw [hn, hm, List.append_nil, List.append_nil] at htext
        exact ⟨htext, hn.trans hm.symm⟩
      · rw [hn, hm, List.append_nil] at htext
        exact (numbered_no_ext hn he' htext).elim
    · obtain ⟨-, ⟨hm, -⟩ | ⟨e', hm, he', -⟩⟩ := stem_ext m
      · rw [hn, hm, List.append_nil] at htext
        exact (numbered_no_ext hm he htext.symm).elim
      · rw [hn, hm] at htext
        obtain ⟨hnumbered, rfl⟩ := append_cons_unique he he' htext
        exact ⟨hnumbered, hn.trans hm.symm⟩
  obtain ⟨hstem, hidx⟩ := numbered_injective parts.1
  have hsame : n.text = m.text := by rw [(stem_ext n).1, (stem_ext m).1, hstem, parts.2]
  exact ⟨by cases n; cases m; cases hsame; rfl, hidx⟩

theorem renamed_ne_tempName (n m : Name) (idx : ℕ) : renamed n idx ≠ tempName m := by
  intro h
  have htext : numbered n idx ++ extOf n =
      (m.text ++ ".dashdrop".toList) ++ '.' :: "part".toList := by
    rw [← renamed_eq, h, tempName, List.append_assoc]
    rfl
  obtain ⟨-, ⟨hn, -⟩ | ⟨e, hn, he, -⟩⟩ := stem_ext n
  · have hlast := congrArg List.getLast? htext
    have hpart : ('.' :: "part".toList).getLast? = some 't' := by decide
    rw [hn, List.append_nil, getLast_numbered, List.getLast?_append, hpart, Option.some_or] at hlast
    exact absurd hlast (by decide)
  · rw [hn] at htext
    obtain ⟨hfront, -⟩ := append_cons_unique he (by decide) htext
    have hlast := congrArg List.getLast? hfront
    have hpart : ".dashdrop".toList.getLast? = some 'p' := by decide
    rw [getLast_numbered, List.getLast?_append, hpart, Option.some_or] at hlast
    exact absurd hlast (by decide)

def looksOnly : Op → Prop
  | .fs (.metadata _) => True
  | _ => False

theorem looks_metadata (o : Op) (h : looksOnly o) : ∃ path, o = .fs (.metadata path) := by
  cases o with
  | fs g =>
    cases g with
    | metadata path => exact ⟨path, rfl⟩
    | _ => exact h.elim
  | _ => exact h.elim

/-- The path tried in the `idx`-th place when a path is taken. -/
def candidate (desired : PathBuf) (idx : ℕ) : PathBuf :=
  (desired.parent.getD (.ofText ['.'])).join
    (.ofText (renamedName (splitFileName desired).1 (splitFileName desired).2 idx))

def finals (strategy : FileConflictStrategy) (desired : PathBuf) : List PathBuf :=
  match strategy with
  | .overwrite | .skip => [desired]
  | .rename => desired :: (List.range 9999).map fun i => candidate desired (i + 1)

theorem mem_finals_self (strategy : FileConflictStrategy) (desired : PathBuf) :
    desired ∈ finals strategy desired := by
  cases strategy <;> simp [finals]

theorem mem_finals {strategy : FileConflictStrategy} {desired q : PathBuf} :
    q ∈ finals strategy desired ↔ q = desired ∨
      strategy = .rename ∧ ∃ idx, 1 ≤ idx ∧ idx ≤ 9999 ∧ q = candidate desired idx := by
  cases strategy with
  | overwrite | skip => simp [finals]
  | rename =>
    simp only [finals, List.mem_cons, List.mem_map, List.mem_range, true_and]
    refine or_congr_right ⟨?_, ?_⟩
    · rintro ⟨i, hi, rfl⟩
      exact ⟨i + 1, by omega, by omega, rfl⟩
    · rintro ⟨idx, hpos, hle, rfl⟩
      exact ⟨idx - 1, by omega, by rw [Nat.sub_add_cancel hpos]⟩

def looksAt (ps : List PathBuf) : Op → Prop
  | .fs (.metadata p) => p ∈ ps
  | _ => False

theorem looksAt_only {ps : List PathBuf} (o : Op) (h : looksAt ps o) : looksOnly o := by
  cases o with
  | fs g =>
    cases g with
    | metadata p => trivial
    | _ => exact h
  | _ => exact h

private theorem allocateRenamed_looks (desired : PathBuf) (left idx : ℕ) (hpos : 1 ≤ idx)
    (hle : idx + left ≤ 10000) :
    (allocateRenamed desired (desired.parent.getD (.ofText ['.'])) (splitFileName desired).1
      (splitFileName desired).2 left idx).Within (looksAt (finals .rename desired)) fun r =>
        ∀ q, r = .ok (some q) → q ∈ finals .rename desired := by
  induction left generalizing idx with
  | zero =>
    intro q hq
    cases hq
  | succ left ih =>
    have here : candidate desired idx ∈ finals .rename desired :=
      mem_finals.mpr (.inr ⟨rfl, idx, hpos, by omega, rfl⟩)
    refine ⟨here, fun r => ?_⟩
    cases r with
    | none =>
      intro q hq
      cases hq
      exact here
    | some _ => exact ih (idx + 1) (by omega) (by omega)

/-- `resolve_conflict_path` looks at the paths of its strategy and returns one of them. -/
theorem resolveConflictPath_looks (desired : PathBuf) (strategy : FileConflictStrategy) :
    (resolveConflictPath desired strategy).Within (looksAt (finals strategy desired)) fun r =>
      ∀ q, r = .ok (some q) → q ∈ finals strategy desired := by
  refine ⟨mem_finals_self strategy desired, fun r => ?_⟩
  cases r with
  | none =>
    intro q hq
    cases hq
    exact mem_finals_self strategy desired
  | some _ =>
    cases strategy with
    | overwrite =>
      intro q hq
      cases hq
      exact mem_finals_self .overwrite desired
    | skip =>
      intro q hq
      cases hq
    | rename => exact allocateRenamed_looks desired 9999 1 le_rfl le_rfl

/-- `resolve_conflict_path` looks at the disk and returns one of the paths of its strategy. -/
theorem resolveConflictPath_spec (desired : PathBuf) (strategy : FileConflictStrategy) :
    (resolveConflictPath desired strategy).Within looksOnly fun r =>
      ∀ q, r = .ok (some q) → q ∈ finals strategy desired :=
  (resolveConflictPath_looks desired strategy).mono looksAt_only fun _ h => h

theorem candidate_child (p : PathBuf) (n : Name) (idx : ℕ) :
    candidate (p.child n) idx = p.child (renamed n idx) := by
  unfold candidate
  rw [splitFileName_child, parent_child]
  exact join_plain p (renamed n idx).plain

def standIn : Name := ⟨"file".toList, by decide⟩

theorem candidate_nameless {path : PathBuf} (hname : path.fileName = none)
    (hparent : path.parent = none) (idx : ℕ) :
    candidate path idx = (PathBuf.ofText ['.']).child (renamed standIn idx) := by
  have split : splitFileName path = (stemOf standIn, extOf standIn) := by
    have hwords : (stemOf standIn, extOf standIn) = ("file".toList, []) := by decide
    rw [hwords]
    simp [splitFileName, PathBuf.fileStem, PathBuf.extension, hname]
  unfold candidate
  rw [split, hparent]
  exact join_plain (.ofText ['.']) (renamed standIn idx).plain

structure Nameless (path : PathBuf) : Prop where
  fileName : path.fileName = none
  parent : path.parent = none
  top : path.resolve = []
  temp : (tempPathFor path).resolve = [tempName standIn]

theorem accepted_shape {saveRoot path : PathBuf} {relPath : List Char}
    (valid : validateRelPath relPath saveRoot = .ok path) :
    Nameless path ∨ ∃ (p : PathBuf) (n : Name), path = p.child n ∧ p.Onward := by
  obtain ⟨names, shape⟩ := validateRelPath_settled valid
  rcases List.eq_nil_or_concat names with rfl | ⟨front, n, rfl⟩
  · left
    rcases shape with rfl | rfl <;> exact ⟨rfl, rfl, rfl, by decide⟩
  · right
    rcases shape with rfl | rfl
    · refine ⟨.absolute front, n, ?_, onward_absolute front⟩
      rw [List.concat_eq_append, absolute_append]
    · refine ⟨⟨front.map .normal⟩, n, ?_, onward_relative front⟩
      simp [PathBuf.child]

theorem accepted_onward {saveRoot path : PathBuf} {relPath : List Char}
    (valid : validateRelPath relPath saveRoot = .ok path) : path.Onward := by
  obtain ⟨names, rfl | rfl⟩ := validateRelPath_settled valid
  · exact onward_absolute names
  · exact onward_relative names

theorem final_shape {saveRoot path final : PathBuf} {relPath : List Char}
    (valid : validateRelPath relPath saveRoot = .ok path) {strategy : FileConflictStrategy}
    (found : final ∈ finals strategy path) :
    Nameless final ∨ ∃ (p : PathBuf) (n : Name), final = p.child n ∧ p.Onward := by
  rcases mem_finals.mp found with rfl | ⟨-, idx, -, -, rfl⟩
  · exact accepted_shape valid
  · right
    rcases accepted_shape valid with nameless | ⟨p, n, rfl, onward⟩
    · refine ⟨_, _, candidate_nameless nameless.fileName nameless.parent idx, fun q hq => ?_⟩
      have hq : q = .ofText ['.'] := by simpa [PathBuf.ancestors, PathBuf.ofText, components,
        segments] using hq
      rw [hq]
    · exact ⟨_, _, candidate_child p n idx, onward⟩

theorem temp_ne_final {saveRoot path f q : PathBuf} {relPath : List Char}
    (valid : validateRelPath relPath saveRoot = .ok path) {strategy : FileConflictStrategy}
    (hf : f ∈ finals strategy path) (hq : q ∈ finals strategy path) :
    (tempPathFor f).resolve ≠ q.resolve := by
  have below (p : PathBuf) {n m : Name} (h : tempName n ≠ m) :
      (tempPathFor (p.child n)).resolve ≠ (p.child m).resolve := by
    rw [tempPathFor_child, resolve_child, resolve_child]
    intro same
    exact h (by simpa using same)
  rcases accepted_shape valid with nameless | ⟨p, n, rfl, -⟩
  · have numbered := candidate_nameless nameless.fileName nameless.parent
    rcases mem_finals.mp hf with rfl | ⟨-, x, -, -, rfl⟩ <;>
      rcases mem_finals.mp hq with rfl | ⟨-, y, -, -, rfl⟩
    · rw [nameless.temp, nameless.top]
      simp
    · rw [nameless.temp, numbered, resolve_child]
      intro same
      exact renamed_ne_tempName standIn standIn y (by simpa using (congrArg List.getLast? same).symm)
    · rw [nameless.top, numbered, tempPathFor_child, resolve_child]
      simp
    · rw [numbered, numbered]
      exact below _ (Ne.symm (renamed_ne_tempName standIn _ y))
  · rcases mem_finals.mp hf with rfl | ⟨-, x, -, -, rfl⟩ <;>
      rcases mem_finals.mp hq with rfl | ⟨-, y, -, -, rfl⟩
    · exact below p (tempName_ne n)
    · rw [candidate_child]
      exact below p (Ne.symm (renamed_ne_tempName n n y))
    · rw [candidate_child]
      refine below p fun same => ?_
      have long := tempName_length (renamed n x)
      have longer := renamed_length n x
      rw [same] at long
      omega
    · rw [candidate_child, candidate_child]
      exact below p (Ne.symm (renamed_ne_tempName n _ y))

end DashDrop.Transport.DiskNames
