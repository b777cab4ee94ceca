/- GID: DashDrop/Discovery/HostLabel
   source: src-tauri/src/discovery/service.rs
   anchors: []
   digest: The host label under which a device is announced. -/

import DashDrop.Foundation.Base64

set_option autoImplicit false
set_option relaxedAutoImplicit false

namespace DashDrop.Discovery.HostLabel

open DashDrop.Foundation.Text DashDrop.Foundation.Base64

def isDash (c : Char) : Bool := c = '-'

def hostChar (c : Char) : Char := if c.isAlphanum then c.toLower else '-'

def fallback : List Char := "dashdrop".toList

def hostBase (deviceName : List Char) : List Char :=
  let base := trimMatches isDash (deviceName.map hostChar)
  if base = [] then fallback else base

def shortFp (fingerprint : List Char) : List Char := toAsciiLowercase (fingerprint.take 8)

/-- `truncate` panics inside a character; there is no label then. -/
def sanitizeMdnsHostLabel (deviceName fingerprint : List Char) : Option (List Char) := do
  let label := hostBase deviceName ++ '-' :: shortFp fingerprint
  let label ←
    if byteLen label > 63 then
      (splitBytes 63 label).map fun parts => trimMatches isDash parts.1
    else some label
  some (if label = [] then fallback else label)

def LabelChar (c : Char) : Prop := ('a' ≤ c ∧ c ≤ 'z') ∨ ('0' ≤ c ∧ c ≤ '9') ∨ c = '-'

instance (c : Char) : Decidable (LabelChar c) := inferInstanceAs (Decidable (_ ∨ _ ∨ _))

/-- A label of a host name in the DNS. -/
def IsDnsLabel (label : List Char) : Prop :=
  1 ≤ label.length ∧ label.length ≤ 63 ∧ (∀ c ∈ label, LabelChar c) ∧
    label.head? ≠ some '-' ∧ label.getLast? ≠ some '-'

/-- The length of the device name without what surrounds its letters and digits. -/
def nameLength (deviceName : List Char) : ℕ :=
  let core := trimMatches (fun c => !c.isAlphanum) deviceName
  if core = [] then fallback.length else core.length

/-- As much of a fingerprint as a label of 63 characters holds behind the name and a dash. -/
def shown (deviceName fingerprint : List Char) : List Char :=
  fingerprint.take (min 8 (62 - nameLength deviceName))

theorem hostChar_cases : ∀ code : Fin 128, (Char.ofNat code.val).isAlphanum = true →
    LabelChar (Char.ofNat code.val).toLower ∧ (Char.ofNat code.val).toLower ≠ '-' := by
  decide

theorem lower_of_isAlphanum {c : Char} (h : c.isAlphanum = true) :
    LabelChar c.toLower ∧ c.toLower ≠ '-' := by
  have small : c.toNat < 128 := by
    have code := (isAlphanum_iff c).mp h
    omega
  have lowered := hostChar_cases ⟨c.toNat, small⟩
  simp only [Char.ofNat_toNat] at lowered
  exact lowered h

theorem LabelChar.ascii {c : Char} (h : LabelChar c) : c.utf8Size = 1 := by
  rw [Char.utf8Size_eq_one_iff, UInt32.le_iff_toNat_le]
  have limit : (0x7f : UInt32).toNat = 127 := rfl
  rcases h with ⟨-, h⟩ | ⟨-, h⟩ | rfl
  · have h : c.val.toNat ≤ 122 := h
    omega
  · have h : c.val.toNat ≤ 57 := h
    omega
  · decide

theorem labelChar_hostChar (c : Char) : LabelChar (hostChar c) := by
  unfold hostChar
  split_ifs with h
  · exact (lower_of_isAlphanum h).1
  · decide

theorem isDash_hostChar (c : Char) : isDash (hostChar c) = !c.isAlphanum := by
  unfold hostChar isDash
  split_ifs with h
  · simp [h, (lower_of_isAlphanum h).2]
  · simp [h]

theorem trimMatches_map (p : Char → Bool) (f : Char → Char) (s : List Char) :
    trimMatches p (s.map f) = (trimMatches (p ∘ f) s).map f := by
  unfold trimMatches
  rw [List.dropWhile_map, List.rdropWhile, ← List.map_reverse, List.dropWhile_map, ← List.map_reverse]
  rfl

theorem trimMatches_front (p : Char → Bool) (s : List Char) :
    trimMatches p s <+: s.dropWhile p := List.rdropWhile_prefix _ _

theorem head_trimMatches {p : Char → Bool} {s : List Char} {c : Char}
    (h : (trimMatches p s).head? = some c) : p c = false := by
  obtain ⟨rest, same⟩ := trimMatches_front p s
  have first : (s.dropWhile p).head? = some c := by
    rw [← same, List.head?_append, h]
    rfl
  have stopped := List.head?_dropWhile_not p s
  rw [first] at stopped
  exact stopped

theorem length_hostBase (deviceName : List Char) :
    (hostBase deviceName).length = nameLength deviceName := by
  have same : isDash ∘ hostChar = fun c => !c.isAlphanum := funext isDash_hostChar
  unfold hostBase nameLength
  rw [trimMatches_map, same]
  simp only [List.map_eq_nil_iff]
  split_ifs
  · rfl
  · exact List.length_map ..

theorem hostBase_cases (deviceName : List Char) : hostBase deviceName = fallback ∨
    hostBase deviceName = trimMatches isDash (deviceName.map hostChar) ∧
      trimMatches isDash (deviceName.map hostChar) ≠ [] := by
  by_cases blank : trimMatches isDash (deviceName.map hostChar) = []
  · exact Or.inl (if_pos blank)
  · exact Or.inr ⟨if_neg blank, blank⟩

theorem labelChar_of_mem_hostBase (deviceName : List Char) :
    ∀ c ∈ hostBase deviceName, LabelChar c := by
  rcases hostBase_cases deviceName with same | ⟨same, -⟩
  · rw [same]
    have all : fallback.all (fun c => decide (LabelChar c)) = true := by decide
    intro c hc
    exact of_decide_eq_true (List.all_eq_true.mp all c hc)
  · rw [same]
    intro c hc
    have inside : c ∈ deviceName.map hostChar :=
      (List.dropWhile_sublist _).subset ((trimMatches_front _ _).subset hc)
    obtain ⟨d, -, rfl⟩ := List.mem_map.mp inside
    exact labelChar_hostChar d

theorem exists_hostBase_cons (deviceName : List Char) :
    ∃ c rest, hostBase deviceName = c :: rest ∧ c ≠ '-' := by
  rcases hostBase_cases deviceName with same | ⟨same, some_left⟩
  · exact ⟨'d', "ashdrop".toList, same, by decide⟩
  · cases found : trimMatches isDash (deviceName.map hostChar) with
    | nil => exact absurd found some_left
    | cons c rest =>
      refine ⟨c, rest, by rw [same, found], ?_⟩
      have first := @head_trimMatches isDash (deviceName.map hostChar) c (by rw [found]; rfl)
      simpa [isDash] using first

theorem symbol_lower : ∀ n < 64, let c := standard.symbol n
    c.toLower.utf8Size = 1 ∧ c.toLower ≠ '-' ∧
      (LabelChar c.toLower ↔ c ≠ '+' ∧ c ≠ '/' ∧ c ≠ '=') := by
  decide

theorem lower_of_mem_encode {bytes : List UInt8} {c : Char} (h : c ∈ standard.encode bytes) :
    c.toLower.utf8Size = 1 ∧ c.toLower ≠ '-' ∧
      (LabelChar c.toLower ↔ c ≠ '+' ∧ c ≠ '/' ∧ c ≠ '=') := by
  rcases Variant.mem_encode bytes h with rfl | ⟨n, small, rfl⟩
  · decide
  · exact symbol_lower n small

/-- What follows the name and the dash, cut to what a label holds. -/
def suffix (deviceName fingerprint : List Char) : List Char :=
  (shortFp fingerprint).take (62 - nameLength deviceName)

theorem suffix_eq (deviceName fingerprint : List Char) :
    suffix deviceName fingerprint = toAsciiLowercase (shown deviceName fingerprint) := by
  unfold suffix shortFp shown toAsciiLowercase
  rw [← List.map_take, List.take_take, Nat.min_comm]

theorem rdropWhile_of_last {label : List Char} {c : Char} (letter : c ≠ '-') :
    (label ++ [c]).rdropWhile isDash = label ++ [c] :=
  List.rdropWhile_concat_neg _ _ _ (by simpa [isDash] using letter)

section Labels

variable {deviceName fingerprint : List Char} (some_fp : fingerprint ≠ [])
  (plain : ∀ c ∈ fingerprint, c.toLower.utf8Size = 1 ∧ c.toLower ≠ '-')

include some_fp plain

theorem shortFp_eq_append : ∃ front c, shortFp fingerprint = front ++ [c] ∧ c ≠ '-' := by
  have some_left : fingerprint.take 8 ≠ [] := by simpa using some_fp
  refine ⟨toAsciiLowercase (fingerprint.take 8).dropLast,
    ((fingerprint.take 8).getLast some_left).toLower, ?_, ?_⟩
  · rw [shortFp, toAsciiLowercase, toAsciiLowercase, ← List.map_singleton, ← List.map_append,
      List.dropLast_append_getLast]
  · exact (plain _ (List.mem_of_mem_take (List.getLast_mem some_left))).2

theorem sanitize_eq : sanitizeMdnsHostLabel deviceName fingerprint =
    some (((hostBase deviceName ++ '-' :: shortFp fingerprint).take 63).rdropWhile isDash) := by
  have ascii : Ascii (hostBase deviceName ++ '-' :: shortFp fingerprint) := by
    apply Ascii.append.mpr
    refine ⟨fun c hc => (labelChar_of_mem_hostBase deviceName c hc).ascii,
      Ascii.cons.mpr ⟨by decide, fun c hc => ?_⟩⟩
    obtain ⟨d, hd, rfl⟩ := List.mem_map.mp hc
    exact (plain d (List.mem_of_mem_take hd)).1
  obtain ⟨first, more, same, letter⟩ := exists_hostBase_cons deviceName
  unfold sanitizeMdnsHostLabel
  simp only [byteLen_of_ascii ascii, gt_iff_lt]
  by_cases long : 63 < (hostBase deviceName ++ '-' :: shortFp fingerprint).length
  · have front : (hostBase deviceName ++ '-' :: shortFp fingerprint).take 63 =
        first :: (more ++ '-' :: shortFp fingerprint).take 62 := by
      rw [same, List.cons_append, List.take_succ_cons]
    have kept : trimMatches isDash ((hostBase deviceName ++ '-' :: shortFp fingerprint).take 63) =
        ((hostBase deviceName ++ '-' :: shortFp fingerprint).take 63).rdropWhile isDash := by
      rw [trimMatches, front, List.dropWhile_cons_of_neg (by simpa [isDash] using letter)]
    have some_left : ((hostBase deviceName ++ '-' :: shortFp fingerprint).take 63).rdropWhile
        isDash ≠ [] := by
      rw [Ne, List.rdropWhile_eq_nil_iff, front]
      intro dashes
      exact letter (by simpa [isDash] using dashes first List.mem_cons_self)
    rw [if_pos long, splitBytes_of_ascii ascii long.le, Option.map_some, kept]
    simp [some_left]
  · obtain ⟨init, c, last, other⟩ := shortFp_eq_append some_fp plain
    have whole : (hostBase deviceName ++ '-' :: shortFp fingerprint).take 63 =
        (hostBase deviceName ++ '-' :: init) ++ [c] := by
      rw [List.take_of_length_le (by omega), last]
      simp
    rw [if_neg long, whole, rdropWhile_of_last other]
    simp [last]

omit some_fp in
theorem no_dash_of_mem_suffix : ∀ c ∈ suffix deviceName fingerprint, c ≠ '-' := by
  intro c hc
  obtain ⟨d, hd, rfl⟩ := List.mem_map.mp (List.mem_of_mem_take hc)
  exact (plain d (List.mem_of_mem_take hd)).2

omit plain in
theorem suffix_ne_nil (room : nameLength deviceName < 62) :
    suffix deviceName fingerprint ≠ [] := by
  have left : 62 - nameLength deviceName ≠ 0 := by omega
  simpa [suffix, shortFp, toAsciiLowercase, left] using some_fp

theorem sanitize_short (room : nameLength deviceName < 62) :
    sanitizeMdnsHostLabel deviceName fingerprint =
      some (hostBase deviceName ++ '-' :: suffix deviceName fingerprint) := by
  have base := length_hostBase deviceName
  have left : 63 - nameLength deviceName = 62 - nameLength deviceName + 1 := by omega
  have fits : (hostBase deviceName ++ '-' :: shortFp fingerprint).take 63 =
      hostBase deviceName ++ '-' :: suffix deviceName fingerprint := by
    rw [List.take_append, base, List.take_of_length_le (by omega), left, List.take_succ_cons]
    rfl
  rw [sanitize_eq some_fp plain, fits, Option.some_inj, List.rdropWhile_eq_self_iff]
  intro some_left
  have last := suffix_ne_nil some_fp room
  rw [List.getLast_append_of_ne_nil _ (List.cons_ne_nil _ _), List.getLast_cons last]
  simpa [isDash] using no_dash_of_mem_suffix plain _ (List.getLast_mem last)

theorem sanitize_long (full : 62 ≤ nameLength deviceName) :
    sanitizeMdnsHostLabel deviceName fingerprint =
      some (((hostBase deviceName).take 63).rdropWhile isDash) := by
  have base := length_hostBase deviceName
  rw [sanitize_eq some_fp plain, Option.some_inj, List.take_append, base]
  by_cases whole : nameLength deviceName = 62
  · have one : 63 - nameLength deviceName = 0 + 1 := by omega
    rw [one, List.take_succ_cons, List.take_zero]
    exact List.rdropWhile_concat_pos _ _ _ rfl
  · have none : 63 - nameLength deviceName = 0 := by omega
    rw [none, List.take_zero, List.append_nil]

end Labels

theorem plain_of_encoded (bytes : List UInt8) :
    ∀ c ∈ standard.encode bytes, c.toLower.utf8Size = 1 ∧ c.toLower ≠ '-' := by
  intro c hc
  obtain ⟨one, other, -⟩ := lower_of_mem_encode hc
  exact ⟨one, other⟩

theorem labelChar_suffix_iff (deviceName : List Char) (bytes : List UInt8) :
    (∀ c ∈ suffix deviceName (standard.encode bytes), LabelChar c) ↔
      ∀ c ∈ shown deviceName (standard.encode bytes), c ≠ '+' ∧ c ≠ '/' ∧ c ≠ '=' := by
  rw [suffix_eq]
  constructor
  · intro valid c hc
    exact (lower_of_mem_encode (List.mem_of_mem_take hc)).2.2.mp
      (valid c.toLower (List.mem_map_of_mem hc))
  · intro letters c hc
    obtain ⟨d, hd, rfl⟩ := List.mem_map.mp hc
    exact (lower_of_mem_encode (List.mem_of_mem_take hd)).2.2.mpr (letters d hd)

theorem encode_ne_nil {bytes : List UInt8} (h : bytes ≠ []) : standard.encode bytes ≠ [] := by
  rcases bytes with _ | ⟨a, _ | ⟨b, _ | ⟨c, rest⟩⟩⟩
  · exact absurd rfl h
  · exact List.cons_ne_nil _ _
  · exact List.cons_ne_nil _ _
  · exact List.cons_ne_nil _ _

theorem isDnsLabel_name (deviceName : List Char) :
    IsDnsLabel (((hostBase deviceName).take 63).rdropWhile isDash) := by
  obtain ⟨first, more, same, letter⟩ := exists_hostBase_cons deviceName
  have front : (hostBase deviceName).take 63 = first :: more.take 62 := by
    rw [same, List.take_succ_cons]
  have part := List.rdropWhile_prefix isDash ((hostBase deviceName).take 63)
  have some_left : ((hostBase deviceName).take 63).rdropWhile isDash ≠ [] := by
    rw [Ne, List.rdropWhile_eq_nil_iff, front]
    intro dashes
    exact letter (by simpa [isDash] using dashes first List.mem_cons_self)
  refine ⟨List.length_pos_iff.mpr some_left, ?_, ?_, ?_, ?_⟩
  · have short := part.length_le
    rw [List.length_take] at short
    omega
  · intro c hc
    exact labelChar_of_mem_hostBase deviceName c (List.mem_of_mem_take (part.subset hc))
  · obtain ⟨rest, joined⟩ := part
    cases kept : ((hostBase deviceName).take 63).rdropWhile isDash with
    | nil => exact absurd kept some_left
    | cons c left =>
      rw [kept, front, List.cons_append, List.cons.injEq] at joined
      rw [joined.1]
      simpa using letter
  · rw [List.getLast?_eq_some_getLast some_left]
    simpa [isDash] using List.rdropWhile_last_not isDash _ some_left

section Fingerprints

variable (deviceName : List Char) {bytes : List UInt8} (some_bytes : bytes ≠ [])

include some_bytes

theorem valid_iff :
    (∃ label, sanitizeMdnsHostLabel deviceName (standard.encode bytes) = some label ∧
      IsDnsLabel label) ↔
    ∀ c ∈ shown deviceName (standard.encode bytes), c ≠ '+' ∧ c ≠ '/' ∧ c ≠ '=' := by
  have some_fp := encode_ne_nil some_bytes
  have plain := plain_of_encoded bytes
  have base := length_hostBase deviceName
  have letters := labelChar_of_mem_hostBase deviceName
  obtain ⟨first, more, same, letter⟩ := exists_hostBase_cons deviceName
  rw [← labelChar_suffix_iff]
  by_cases room : nameLength deviceName < 62
  · rw [sanitize_short some_fp plain room]
    simp only [Option.some.injEq, exists_eq_left']
    constructor
    · intro valid c hc
      exact valid.2.2.1 c (List.mem_append_right _ (List.mem_cons_of_mem _ hc))
    · intro valid
      have short : (suffix deviceName (standard.encode bytes)).length ≤
          62 - nameLength deviceName := by
        rw [suffix, List.length_take]
        omega
      refine ⟨?_, ?_, ?_, ?_, ?_⟩
      · rw [same]
        simp
      · rw [List.length_append, List.length_cons]
        omega
      · intro c hc
        rcases List.mem_append.mp hc with hc | hc
        · exact letters c hc
        rcases List.mem_cons.mp hc with rfl | hc
        · decide
        · exact valid c hc
      · rw [same]
        simpa using letter
      · have last : suffix deviceName (standard.encode bytes) ≠ [] := suffix_ne_nil some_fp room
        rw [List.getLast?_append_of_ne_nil _ (List.cons_ne_nil _ _), List.getLast?_cons,
          List.getLast?_eq_some_getLast last]
        simpa using no_dash_of_mem_suffix plain _ (List.getLast_mem last)
  · have none : suffix deviceName (standard.encode bytes) = [] := by
      rw [suffix, Nat.sub_eq_zero_of_le (by omega), List.take_zero]
    rw [sanitize_long some_fp plain (by omega), none]
    constructor
    · exact fun _ c hc => absurd hc List.not_mem_nil
    · exact fun _ => ⟨_, rfl, isDnsLabel_name deviceName⟩

theorem differ_iff {bytes' : List UInt8} (some_bytes' : bytes' ≠ []) :
    sanitizeMdnsHostLabel deviceName (standard.encode bytes) ≠
        sanitizeMdnsHostLabel deviceName (standard.encode bytes') ↔
      toAsciiLowercase (shown deviceName (standard.encode bytes)) ≠
        toAsciiLowercase (shown deviceName (standard.encode bytes')) := by
  have some_fp := encode_ne_nil some_bytes
  have some_fp' := encode_ne_nil some_bytes'
  rw [← suffix_eq, ← suffix_eq]
  apply not_congr
  by_cases room : nameLength deviceName < 62
  · rw [sanitize_short some_fp (plain_of_encoded bytes) room,
      sanitize_short some_fp' (plain_of_encoded bytes') room]
    simp
  · have full : 62 - nameLength deviceName = 0 := by omega
    rw [sanitize_long some_fp (plain_of_encoded bytes) (by omega),
      sanitize_long some_fp' (plain_of_encoded bytes') (by omega), suffix, suffix, full]
    simp

end Fingerprints

/-- A label is valid if and only if the part of the fingerprint in it is, and labels for one name
differ if and only if these parts do. -/
theorem host_labels (deviceName : List Char) :
    (∀ bytes : List UInt8, bytes ≠ [] →
      ((∃ label, sanitizeMdnsHostLabel deviceName (standard.encode bytes) = some label ∧
        IsDnsLabel label) ↔
      ∀ c ∈ shown deviceName (standard.encode bytes), c ≠ '+' ∧ c ≠ '/' ∧ c ≠ '=')) ∧
    ∀ bytes bytes' : List UInt8, bytes ≠ [] → bytes' ≠ [] →
      ((toAsciiLowercase ((standard.encode bytes).take 8) ≠
          toAsciiLowercase ((standard.encode bytes').take 8) →
        sanitizeMdnsHostLabel deviceName (standard.encode bytes) ≠
          sanitizeMdnsHostLabel deviceName (standard.encode bytes')) ↔
      toAsciiLowercase ((standard.encode bytes).take 8) =
          toAsciiLowercase ((standard.encode bytes').take 8) ∨
        toAsciiLowercase (shown deviceName (standard.encode bytes)) ≠
          toAsciiLowercase (shown deviceName (standard.encode bytes'))) := by
  constructor
  · intro bytes some_bytes
    exact valid_iff deviceName some_bytes
  · intro bytes bytes' some_bytes some_bytes'
    rw [differ_iff deviceName some_bytes some_bytes', ← or_iff_not_imp_left]

theorem label_of_mac :
    (∃ label, sanitizeMdnsHostLabel "Mac".toList (standard.encode (List.replicate 32 0)) =
      some label ∧ IsDnsLabel label) ∧
    sanitizeMdnsHostLabel "Mac".toList (standard.encode (List.replicate 32 0)) ≠
      sanitizeMdnsHostLabel "Mac".toList (standard.encode (List.replicate 32 17)) := by
  have plain : ((standard.encode (List.replicate 32 0)).take 8).all
      (fun c => decide (c ≠ '+' ∧ c ≠ '/' ∧ c ≠ '=')) = true := by decide
  constructor
  · exact ((host_labels _).1 _ (by decide)).mpr fun c hc =>
      of_decide_eq_true (List.all_eq_true.mp plain c hc)
  · exact ((host_labels _).2 _ _ (by decide) (by decide)).mpr (Or.inr (by decide)) (by decide)

/-- A plus sign stands in the label, and behind a name of 62 letters nothing is left of the
fingerprint. -/
theorem mac_plus_and_long_name :
    sanitizeMdnsHostLabel "Mac".toList (standard.encode (List.replicate 32 248)) =
        some "mac-+pj4+pj4".toList ∧
      ¬ IsDnsLabel "mac-+pj4+pj4".toList ∧
      toAsciiLowercase ((standard.encode (List.replicate 32 0)).take 8) ≠
        toAsciiLowercase ((standard.encode (List.replicate 32 17)).take 8) ∧
      sanitizeMdnsHostLabel (List.replicate 62 'a') (standard.encode (List.replicate 32 0)) =
        sanitizeMdnsHostLabel (List.replicate 62 'a') (standard.encode (List.replicate 32 17)) := by
  refine ⟨by decide, ?_, by decide, by decide⟩
  rintro ⟨-, -, valid, -, -⟩
  exact absurd (valid '+' (by decide)) (by decide)

end DashDrop.Discovery.HostLabel
