/- GID: DashDrop/Runtime/SharePaths
   source: src-tauri/src/runtime/bootstrap.rs
   anchors: []
   digest: Paths handed over by other programs, as arguments or as file URLs. -/

import DashDrop.Foundation.Text

set_option autoImplicit false
set_option relaxedAutoImplicit false

namespace DashDrop.Runtime.SharePaths

open DashDrop.Foundation.Text

/-- `&value[..n]` where byte `n` is inside a character. -/
inductive Panic where
  | notCharBoundary
  deriving DecidableEq

structure Surroundings where
  currentDir : Option (List Char)
  canonicalize : List Char → Option (List Char)

def eqIgnoreAsciiCase (a b : List Char) : Bool := toAsciiLowercase a == toAsciiLowercase b

def stripAsciiPrefix (value front : List Char) : Except Panic (Option (List Char)) :=
  if byteLen value < byteLen front then .ok none
  else match splitBytes (byteLen front) value with
    | none => .error .notCharBoundary
    | some (candidate, rest) =>
        .ok (if eqIgnoreAsciiCase candidate front then some rest else none)

def hasAsciiPrefix (value front : List Char) : Except Panic Bool := do
  .ok (← stripAsciiPrefix value front).isSome

/-- `value.find(c).unwrap_or(value.len())` -/
def findByte (c : Char) (value : List Char) : ℕ :=
  match value.findIdx? (· = c) with
  | some i => byteLen (value.take i)
  | none => byteLen value

def stripUrlSuffix (value : List Char) : Except Panic (List Char) :=
  match splitBytes (min (findByte '?' value) (findByte '#' value)) value with
  | none => .error .notCharBoundary
  | some (front, _) => .ok front

def decodeHexDigit (value : UInt8) : Option UInt8 :=
  if 48 ≤ value ∧ value ≤ 57 then some (value - 48)
  else if 97 ≤ value ∧ value ≤ 102 then some (value - 97 + 10)
  else if 65 ≤ value ∧ value ≤ 70 then some (value - 65 + 10)
  else none

/-- The loop over the bytes from an index on; an escape needs two more bytes. -/
def percentDecode : List UInt8 → Option (List UInt8)
  | [] => some []
  | 37 :: high :: low :: rest => do
    let high ← decodeHexDigit high
    let low ← decodeHexDigit low
    let decoded ← percentDecode rest
    some (((high <<< 4) ||| low) :: decoded)
  | 37 :: _ => none
  | byte :: rest => do
    let decoded ← percentDecode rest
    some (byte :: decoded)

def percentDecodeUtf8 (value : List Char) : Option (List Char) := do
  let decoded ← percentDecode (utf8Bytes value)
  let text ← fromUtf8 decoded
  some text.toList

def fileScheme : List Char := "file://".toList

def localHost : List Char := "localhost".toList

/-- `parse_file_url_path` before it canonicalizes; on Unix `normalize_local_file_url_path` takes
the text as it is. -/
def fileUrlCandidate (rawValue : List Char) : Except Panic (Option (List Char)) := do
  match ← stripAsciiPrefix rawValue fileScheme with
  | none => .ok none
  | some afterScheme =>
    let urlPath := (← stripAsciiPrefix afterScheme localHost).getD afterScheme
    if urlPath.head? = some '/' then .ok (percentDecodeUtf8 (← stripUrlSuffix urlPath))
    else .ok none

section Collect

variable (env : Surroundings)

def parseFileUrlPath (rawValue : List Char) : Except Panic (Option (List Char)) := do
  .ok ((← fileUrlCandidate rawValue).bind env.canonicalize)

/-- `base.join(path)` for a relative path -/
def joinPath (base path : List Char) : List Char :=
  if base = [] ∨ base.getLast? = some '/' then base ++ path else base ++ '/' :: path

def normalizeExternalSharePath (rawValue : List Char) : Except Panic (Option (List Char)) := do
  if trim rawValue = [] ∨ "-psn_".toList <+: rawValue then .ok none
  else if ← hasAsciiPrefix rawValue fileScheme then parseFileUrlPath env rawValue
  else if rawValue = [] then .ok none
  else if rawValue.head? = some '/' then .ok (env.canonicalize rawValue)
  else match env.currentDir with
    | some base => .ok (env.canonicalize (joinPath base rawValue))
    | none => .ok (env.canonicalize rawValue)

/-- `filter_map` and the `seen` filter, value by value. -/
def collectFresh : List (List Char) → List (List Char) → Except Panic (List (List Char))
  | _, [] => .ok []
  | seen, value :: rest => do
    match ← normalizeExternalSharePath env value with
    | none => collectFresh seen rest
    | some path =>
      if path ∈ seen then collectFresh seen rest
      else .ok (path :: (← collectFresh (path :: seen) rest))

def collectExternalSharePaths (values : List (List Char)) : Except Panic (List (List Char)) :=
  collectFresh env [] values

end Collect

theorem stripAsciiPrefix_eq_ok {value front : List Char} {found : Option (List Char)} :
    stripAsciiPrefix value front = .ok found ↔
      (byteLen value < byteLen front ∧ found = none) ∨
        ∃ lead rest, value = lead ++ rest ∧ byteLen lead = byteLen front ∧
          found = if eqIgnoreAsciiCase lead front then some rest else none := by
  unfold stripAsciiPrefix
  by_cases short : byteLen value < byteLen front
  · rw [if_pos short, Except.ok.injEq]
    constructor
    · intro h
      exact Or.inl ⟨short, h.symm⟩
    · rintro (⟨-, h⟩ | ⟨lead, rest, rfl, length, -⟩)
      · exact h.symm
      · rw [byteLen_append] at short
        omega
  · rw [if_neg short]
    cases cut : splitBytes (byteLen front) value with
    | none =>
      simp only [reduceCtorEq, false_iff, not_or, not_and, not_exists]
      refine ⟨fun h => absurd h short, fun lead rest same length => ?_⟩
      rw [splitBytes_eq_some.mpr ⟨same, length⟩] at cut
      cases cut
    | some parts =>
      obtain ⟨lead, rest⟩ := parts
      obtain ⟨rfl, length⟩ := splitBytes_eq_some.mp cut
      simp only [Except.ok.injEq]
      constructor
      · intro h
        exact Or.inr ⟨lead, rest, rfl, length, h.symm⟩
      · rintro (⟨h, -⟩ | ⟨lead', rest', same, length', h⟩)
        · exact absurd h short
        · have again := splitBytes_eq_some.mpr ⟨same, length'⟩
          rw [cut] at again
          cases again
          exact h.symm

/-- No character of the text lies across byte `n`. -/
def Clean (n : ℕ) (value : List Char) : Prop :=
  n ≤ byteLen value → ∃ lead rest, value = lead ++ rest ∧ byteLen lead = n

theorem stripAsciiPrefix_ok_iff {value front : List Char} :
    (∃ found, stripAsciiPrefix value front = .ok found) ↔ Clean (byteLen front) value := by
  constructor
  · rintro ⟨found, h⟩ long
    rcases stripAsciiPrefix_eq_ok.mp h with ⟨short, -⟩ | ⟨lead, rest, same, length, -⟩
    · omega
    · exact ⟨lead, rest, same, length⟩
  · intro clean
    by_cases short : byteLen value < byteLen front
    · exact ⟨none, stripAsciiPrefix_eq_ok.mpr (Or.inl ⟨short, rfl⟩)⟩
    · obtain ⟨lead, rest, same, length⟩ := clean (Nat.not_lt.mp short)
      exact ⟨_, stripAsciiPrefix_eq_ok.mpr (Or.inr ⟨lead, rest, same, length, rfl⟩)⟩

theorem findByte_eq (c : Char) (value : List Char) :
    findByte c value = byteLen (value.takeWhile (· ≠ c)) := by
  unfold findByte
  induction value with
  | nil => rfl
  | cons d value ih =>
    by_cases here : d = c
    · simp [here, List.findIdx?_cons]
    · rw [List.takeWhile_cons_of_pos (by simpa using here), byteLen_cons, byteLen_cons, ← ih,
        List.findIdx?_cons]
      simp only [here, decide_false, Bool.false_eq_true, if_false]
      cases value.findIdx? (· = c) with
      | none => simp
      | some i => simp

theorem stripUrlSuffix_eq (value : List Char) :
    stripUrlSuffix value = .ok (value.takeWhile fun c => c ≠ '?' ∧ c ≠ '#') := by
  have place : min (findByte '?' value) (findByte '#' value) =
      byteLen (value.takeWhile fun c => c ≠ '?' ∧ c ≠ '#') := by
    rw [findByte_eq, findByte_eq]
    induction value with
    | nil => rfl
    | cons c value ih =>
      by_cases question : c = '?'
      · simp [question]
      · by_cases hash : c = '#'
        · simp [hash]
        · simp only [ne_eq, question, hash, not_false_eq_true, decide_true, and_self,
            List.takeWhile_cons_of_pos, byteLen_cons] at ih ⊢
          omega
  have split : value = (value.takeWhile fun c => c ≠ '?' ∧ c ≠ '#') ++
      value.dropWhile fun c => c ≠ '?' ∧ c ≠ '#' := List.takeWhile_append_dropWhile.symm
  unfold stripUrlSuffix
  rw [place, splitBytes_eq_some.mpr ⟨split, rfl⟩]

/-- No character lies across byte 7 of the argument, nor across byte 9 behind `file://`. -/
def Uncut (value : List Char) : Prop :=
  trim value = [] ∨ "-psn_".toList <+: value ∨
    (Clean 7 value ∧ ∀ lead rest, value = lead ++ rest → byteLen lead = 7 →
      eqIgnoreAsciiCase lead fileScheme = true → Clean 9 rest)

theorem byteLen_fileScheme : byteLen fileScheme = 7 := by decide

theorem byteLen_localHost : byteLen localHost = 9 := by decide

section FileUrl

variable {value rest : List Char} (scheme : stripAsciiPrefix value fileScheme = .ok (some rest))

include scheme

theorem fileUrlCandidate_eq {after : Option (List Char)}
    (host : stripAsciiPrefix rest localHost = .ok after) : fileUrlCandidate value =
      .ok (if (after.getD rest).head? = some '/' then
        percentDecodeUtf8 ((after.getD rest).takeWhile fun c => c ≠ '?' ∧ c ≠ '#') else none) := by
  unfold fileUrlCandidate
  simp only [scheme, host, stripUrlSuffix_eq, bind, Except.bind]
  split_ifs
  · rfl
  · rfl

theorem fileUrlCandidate_ok_iff :
    (∃ candidate, fileUrlCandidate value = .ok candidate) ↔ Clean 9 rest := by
  rw [← byteLen_localHost, ← stripAsciiPrefix_ok_iff]
  cases host : stripAsciiPrefix rest localHost with
  | error panic =>
    have fails : fileUrlCandidate value = .error panic := by
      unfold fileUrlCandidate
      simp only [scheme, host, bind, Except.bind]
    simp [fails]
  | ok after =>
    constructor
    · intro _
      exact ⟨after, rfl⟩
    · intro _
      exact ⟨_, fileUrlCandidate_eq scheme host⟩

end FileUrl

section Collects

variable (env : Surroundings)

theorem normalizeExternalSharePath_ok_iff (value : List Char) :
    (∃ path, normalizeExternalSharePath env value = .ok path) ↔ Uncut value := by
  unfold normalizeExternalSharePath Uncut
  by_cases blank : trim value = [] ∨ "-psn_".toList <+: value
  · rw [if_pos blank]
    constructor
    · intro _
      rcases blank with h | h
      · exact Or.inl h
      · exact Or.inr (Or.inl h)
    · intro _
      exact ⟨none, rfl⟩
  rw [if_neg blank]
  rw [not_or] at blank
  simp only [blank.1, blank.2, false_or, hasAsciiPrefix]
  have clean := @stripAsciiPrefix_ok_iff value fileScheme
  rw [byteLen_fileScheme] at clean
  cases scheme : stripAsciiPrefix value fileScheme with
  | error panic =>
    rw [scheme] at clean
    constructor
    · rintro ⟨path, h⟩
      cases h
    · rintro ⟨cut, -⟩
      obtain ⟨found, h⟩ := clean.mpr cut
      cases h
  | ok found =>
    have cut : Clean 7 value := clean.mp ⟨found, scheme⟩
    cases found with
    | none =>
      have other : ∀ lead rest, value = lead ++ rest → byteLen lead = 7 →
          eqIgnoreAsciiCase lead fileScheme = true → Clean 9 rest := by
        intro lead rest same length agrees
        have here := stripAsciiPrefix_eq_ok.mpr (Or.inr ⟨lead, rest, same,
          length.trans byteLen_fileScheme.symm, rfl⟩)
        rw [scheme, if_pos agrees] at here
        cases here
      constructor
      · intro _
        exact ⟨cut, other⟩
      · intro _
        show ∃ path, (if value = [] then _ else _) = _
        split_ifs
        · exact ⟨_, rfl⟩
        · exact ⟨_, rfl⟩
        · cases env.currentDir with
          | some base => exact ⟨_, rfl⟩
          | none => exact ⟨_, rfl⟩
    | some rest =>
      have taken : ∃ lead, value = lead ++ rest ∧ byteLen lead = 7 ∧
          eqIgnoreAsciiCase lead fileScheme = true := by
        rcases stripAsciiPrefix_eq_ok.mp scheme with ⟨-, h⟩ | ⟨lead, rest', same, length, h⟩
        · cases h
        · split_ifs at h with agrees
          cases h
          exact ⟨lead, same, length.trans byteLen_fileScheme, agrees⟩
      obtain ⟨lead, same, length, agrees⟩ := taken
      have candidate := fileUrlCandidate_ok_iff scheme
      constructor
      · rintro ⟨path, h⟩
        refine ⟨cut, fun lead' rest' same' length' _ => ?_⟩
        have again : splitBytes 7 value = some (lead, rest) :=
          splitBytes_eq_some.mpr ⟨same, length⟩
        rw [splitBytes_eq_some.mpr ⟨same', length'⟩] at again
        cases again
        apply candidate.mp
        change (do Except.ok ((← fileUrlCandidate value).bind env.canonicalize)) = _ at h
        cases found : fileUrlCandidate value with
        | error panic =>
          rw [found] at h
          cases h
        | ok c => exact ⟨c, rfl⟩
      · rintro ⟨-, behind⟩
        obtain ⟨c, found⟩ := candidate.mpr (behind lead rest same length agrees)
        refine ⟨c.bind env.canonicalize, ?_⟩
        change (do Except.ok ((← fileUrlCandidate value).bind env.canonicalize)) = _
        rw [found]
        rfl

theorem collectFresh_ok_iff (values : List (List Char)) (seen : List (List Char)) :
    (∃ paths, collectFresh env seen values = .ok paths) ↔ ∀ value ∈ values, Uncut value := by
  induction values generalizing seen with
  | nil => exact ⟨fun _ _ h => absurd h List.not_mem_nil, fun _ => ⟨[], rfl⟩⟩
  | cons value rest ih =>
    rw [List.forall_mem_cons, ← normalizeExternalSharePath_ok_iff env value, collectFresh]
    cases here : normalizeExternalSharePath env value with
    | error panic =>
      constructor
      · rintro ⟨paths, h⟩
        cases h
      · rintro ⟨⟨path, h⟩, -⟩
        cases h
    | ok found =>
      have first : ∃ path, (Except.ok found : Except Panic _) = .ok path := ⟨found, rfl⟩
      simp only [first, true_and]
      cases found with
      | none => exact ih seen
      | some path =>
        by_cases again : path ∈ seen
        · show (∃ paths, (if path ∈ seen then _ else _) = _) ↔ _
          rw [if_pos again]
          exact ih seen
        · show (∃ paths, (if path ∈ seen then _ else _) = _) ↔ _
          rw [if_neg again, ← ih (path :: seen)]
          cases later : collectFresh env (path :: seen) rest with
          | error panic =>
            constructor
            · rintro ⟨paths, h⟩
              cases h
            · rintro ⟨paths, h⟩
              cases h
          | ok paths => exact ⟨fun _ => ⟨paths, rfl⟩, fun _ => ⟨path :: paths, rfl⟩⟩

/-- The paths are collected without a panic if and only if every argument is uncut. -/
theorem collects_iff_uncut (values : List (List Char)) :
    (∃ paths, collectExternalSharePaths env values = .ok paths) ↔ ∀ value ∈ values, Uncut value :=
  collectFresh_ok_iff env values []

end Collects

/-- The second `é` takes the bytes 6 and 7. -/
theorem resume_panics :
    collectExternalSharePaths ⟨some "/home/u".toList, some⟩ ["résumé.txt".toList] =
      .error .notCharBoundary := by
  decide

def IsHexDigit (value : ℕ) (c : Char) : Prop :=
  "0123456789abcdef".toList[value]? = some c ∨ "0123456789ABCDEF".toList[value]? = some c

instance (value : ℕ) (c : Char) : Decidable (IsHexDigit value c) :=
  inferInstanceAs (Decidable (_ ∨ _))

/-- A text of plain ASCII characters and escapes that stand for the bytes. -/
inductive Encodes : List UInt8 → List Char → Prop where
  | nil : Encodes [] []
  | plain {c : Char} {bytes : List UInt8} {text : List Char} (one : c.utf8Size = 1)
      (bare : c ≠ '%' ∧ c ≠ '?' ∧ c ≠ '#') (rest : Encodes bytes text) :
      Encodes (c.val.toUInt8 :: bytes) (c :: text)
  | escape {high low : ℕ} {h l : Char} {bytes : List UInt8} {text : List Char}
      (first : IsHexDigit high h) (second : IsHexDigit low l) (rest : Encodes bytes text) :
      Encodes (UInt8.ofNat (16 * high + low) :: bytes) ('%' :: h :: l :: text)

/-- A query, a fragment or nothing. -/
def UrlSuffix (suffix : List Char) : Prop :=
  suffix = [] ∨ ∃ mark rest, suffix = mark :: rest ∧ (mark = '?' ∨ mark = '#')

/-- An escape that does not continue with two digits. -/
def Malformed (text : List Char) : Prop :=
  ∃ front tail, text = front ++ '%' :: tail ∧
    ¬ ∃ high low h l rest, tail = h :: l :: rest ∧ IsHexDigit high h ∧ IsHexDigit low l

/-- The path of a file URL, between its authority and its suffix. -/
def PathPart (value path : List Char) : Prop :=
  ∃ lead host suffix, value = lead ++ (host ++ (path ++ suffix)) ∧
    eqIgnoreAsciiCase lead fileScheme = true ∧ (∀ c ∈ host, c ≠ '/' ∧ c ≠ '?' ∧ c ≠ '#') ∧
    path.head? = some '/' ∧ (∀ c ∈ path, c ≠ '?' ∧ c ≠ '#') ∧ UrlSuffix suffix

theorem hexDigits_decoded : ∀ value : Fin 16,
    ∀ digits ∈ ["0123456789abcdef".toList, "0123456789ABCDEF".toList],
      (digits[value.val]?).all (fun c => c.utf8Size = 1 ∧ c ≠ '%' ∧ c ≠ '?' ∧ c ≠ '#' ∧
        decodeHexDigit c.val.toUInt8 = some (UInt8.ofNat value.val)) = true := by
  decide

theorem IsHexDigit.lt {value : ℕ} {c : Char} (h : IsHexDigit value c) : value < 16 := by
  rcases h with h | h
  · exact (List.getElem?_eq_some_iff.mp h).1
  · exact (List.getElem?_eq_some_iff.mp h).1

theorem IsHexDigit.digit {value : ℕ} {c : Char} (h : IsHexDigit value c) :
    c.utf8Size = 1 ∧ c ≠ '%' ∧ c ≠ '?' ∧ c ≠ '#' ∧
      decodeHexDigit c.val.toUInt8 = some (UInt8.ofNat value) := by
  have all := hexDigits_decoded ⟨value, h.lt⟩
  rcases h with h | h
  · exact of_decide_eq_true ((Option.all_eq_true _ _).mp (all _ List.mem_cons_self) c h)
  · exact of_decide_eq_true
      ((Option.all_eq_true _ _).mp (all _ (List.mem_cons_of_mem _ List.mem_cons_self)) c h)

theorem nibbles : ∀ high low : Fin 16,
    (UInt8.ofNat high.val <<< 4) ||| UInt8.ofNat low.val =
      UInt8.ofNat (16 * high.val + low.val) := by
  decide

theorem percentDecode_cons_ne {b : UInt8} (rest : List UInt8) (h : b ≠ 37) :
    percentDecode (b :: rest) = (percentDecode rest).map (b :: ·) := by
  rw [percentDecode]
  · cases percentDecode rest <;> rfl
  · exact fun _ _ _ e => absurd e h
  · exact h

theorem percent_byte {c : Char} (one : c.utf8Size = 1) : c.val.toUInt8 = 37 ↔ c = '%' := by
  constructor
  · intro same
    exact eq_of_toUInt8_eq one (by decide) same
  · rintro rfl
    rfl

theorem utf8Bytes_cons_one {c : Char} (one : c.utf8Size = 1) (s : List Char) :
    utf8Bytes (c :: s) = c.val.toUInt8 :: utf8Bytes s := by
  simp [utf8Bytes, String.utf8EncodeChar_eq_singleton one]

theorem percentDecode_escape {high low : ℕ} {h l : Char} (first : IsHexDigit high h)
    (second : IsHexDigit low l) (rest : List UInt8) :
    percentDecode (37 :: h.val.toUInt8 :: l.val.toUInt8 :: rest) =
      (percentDecode rest).map (UInt8.ofNat (16 * high + low) :: ·) := by
  obtain ⟨-, -, -, -, decoded⟩ := first.digit
  obtain ⟨-, -, -, -, decoded'⟩ := second.digit
  have byte := nibbles ⟨high, first.lt⟩ ⟨low, second.lt⟩
  simp only at byte
  rw [percentDecode, decoded, decoded']
  cases percentDecode rest with
  | none => rfl
  | some bytes =>
    show some (_ :: bytes) = some (_ :: bytes)
    rw [byte]

theorem Encodes.ascii {bytes : List UInt8} {text : List Char} (h : Encodes bytes text) :
    ∀ c ∈ text, c.utf8Size = 1 ∧ c ≠ '?' ∧ c ≠ '#' := by
  induction h with
  | nil => exact fun c hc => absurd hc List.not_mem_nil
  | plain one bare _ ih =>
    intro c hc
    rcases List.mem_cons.mp hc with rfl | hc
    · exact ⟨one, bare.2⟩
    · exact ih c hc
  | escape first second _ ih =>
    intro c hc
    rcases List.mem_cons.mp hc with rfl | hc
    · decide
    rcases List.mem_cons.mp hc with rfl | hc
    · obtain ⟨one, -, question, hash, -⟩ := first.digit
      exact ⟨one, question, hash⟩
    rcases List.mem_cons.mp hc with rfl | hc
    · obtain ⟨one, -, question, hash, -⟩ := second.digit
      exact ⟨one, question, hash⟩
    · exact ih c hc

theorem percentDecode_of_encodes {bytes : List UInt8} {text : List Char} (h : Encodes bytes text) :
    percentDecode (utf8Bytes text) = some bytes := by
  induction h with
  | nil => rfl
  | plain one bare _ ih =>
    rw [utf8Bytes_cons_one one, percentDecode_cons_ne _ ((percent_byte one).not.mpr bare.1), ih]
    rfl
  | escape first second _ ih =>
    have percent : ('%' : Char).val.toUInt8 = 37 := rfl
    rw [utf8Bytes_cons_one (by decide), utf8Bytes_cons_one first.digit.1,
      utf8Bytes_cons_one second.digit.1, percent, percentDecode_escape first second, ih]
    rfl

theorem fromUtf8_utf8Bytes (s : List Char) : fromUtf8 (utf8Bytes s) = some (String.ofList s) := by
  have whole := fromUtf8_utf8 (String.ofList s)
  rwa [utf8_eq_utf8Bytes, String.toList_ofList] at whole

theorem utf8Bytes_of_fromUtf8 {bytes : List UInt8} {s : String} (h : fromUtf8 bytes = some s) :
    utf8Bytes s.toList = bytes := by
  unfold fromUtf8 at h
  rw [← utf8_eq_utf8Bytes, utf8]
  simp only [String.fromUTF8?] at h
  split_ifs at h with valid
  cases h
  rfl

theorem percentDecodeUtf8_of_encodes {p text : List Char} (h : Encodes (utf8Bytes p) text) :
    percentDecodeUtf8 text = some p := by
  unfold percentDecodeUtf8
  rw [percentDecode_of_encodes h, Option.bind_eq_bind, Option.bind_some, fromUtf8_utf8Bytes]
  simp

theorem isHexDigit_of_decoded {c : Char} (one : c.utf8Size = 1) {b : UInt8}
    (h : decodeHexDigit c.val.toUInt8 = some b) : ∃ value, IsHexDigit value c := by
  have digits : ∀ code : Fin 128, (decodeHexDigit (UInt8.ofNat code.val)).isSome = true →
      ∃ value : Fin 16, IsHexDigit value.val (Char.ofNat code.val) := by
    unfold IsHexDigit
    decide
  rw [Char.utf8Size_eq_one_iff, UInt32.le_iff_toNat_le] at one
  have small : c.toNat < 128 := Nat.lt_succ_of_le one
  have code : c.val.toUInt8 = UInt8.ofNat c.toNat := by
    apply UInt8.toNat_inj.mp
    rw [UInt32.toNat_toUInt8, UInt8.toNat_ofNat']
    rfl
  rw [code] at h
  obtain ⟨value, digit⟩ := digits ⟨c.toNat, small⟩ (by rw [h]; rfl)
  exact ⟨value, by simpa using digit⟩

theorem percentDecode_bare {tail : List Char} (ascii : Ascii tail)
    (bad : ¬ ∃ high low h l rest, tail = h :: l :: rest ∧ IsHexDigit high h ∧ IsHexDigit low l) :
    percentDecode (utf8Bytes ('%' :: tail)) = none := by
  have percent : ('%' : Char).val.toUInt8 = 37 := rfl
  rw [utf8Bytes_cons_one (by decide), percent]
  rcases tail with _ | ⟨h, _ | ⟨l, rest⟩⟩
  · rfl
  · rw [utf8Bytes_cons_one (ascii h List.mem_cons_self)]
    rfl
  · have one := ascii h List.mem_cons_self
    have one' := ascii l (List.mem_cons_of_mem _ List.mem_cons_self)
    rw [utf8Bytes_cons_one one, utf8Bytes_cons_one one', percentDecode]
    cases high : decodeHexDigit h.val.toUInt8 with
    | none => rfl
    | some b =>
      cases low : decodeHexDigit l.val.toUInt8 with
      | none => rfl
      | some b' =>
        obtain ⟨v, first⟩ := isHexDigit_of_decoded one high
        obtain ⟨v', second⟩ := isHexDigit_of_decoded one' low
        exact absurd ⟨v, v', h, l, rest, rfl, first, second⟩ bad

theorem percentDecode_malformed {tail : List Char} (asciiTail : Ascii tail)
    (bad : ¬ ∃ high low h l rest, tail = h :: l :: rest ∧ IsHexDigit high h ∧ IsHexDigit low l)
    (front : List Char) (ascii : Ascii front) :
    percentDecode (utf8Bytes (front ++ '%' :: tail)) = none := by
  have percent : ('%' : Char).val.toUInt8 = 37 := rfl
  induction size : front.length using Nat.strong_induction_on generalizing front with
  | _ n ih =>
    cases front with
    | nil => exact percentDecode_bare asciiTail bad
    | cons c front =>
      obtain ⟨one, behind⟩ := Ascii.cons.mp ascii
      rw [List.length_cons] at size
      rw [List.cons_append]
      by_cases escape : c = '%'
      · have all : Ascii (front ++ '%' :: tail) :=
          Ascii.append.mpr ⟨behind, Ascii.cons.mpr ⟨by decide, asciiTail⟩⟩
        rw [escape]
        by_cases digits : ∃ high low h l rest, front ++ '%' :: tail = h :: l :: rest ∧
            IsHexDigit high h ∧ IsHexDigit low l
        · obtain ⟨high, low, h, l, rest, same, first, second⟩ := digits
          -- neither digit is the bad escape itself
          rcases front with _ | ⟨h', _ | ⟨l', front⟩⟩
          · cases same
            exact absurd rfl first.digit.2.1
          · cases same
            exact absurd rfl second.digit.2.1
          · cases same
            simp only [List.length_cons] at size
            have later := ih front.length (by omega) front
              (Ascii.cons.mp (Ascii.cons.mp behind).2).2 rfl
            rw [List.cons_append, List.cons_append, utf8Bytes_cons_one (by decide),
              utf8Bytes_cons_one first.digit.1, utf8Bytes_cons_one second.digit.1, percent,
              percentDecode_escape first second, later]
            rfl
        · exact percentDecode_bare all digits
      · have later := ih front.length (by omega) front behind rfl
        rw [utf8Bytes_cons_one one, percentDecode_cons_ne _ ((percent_byte one).not.mpr escape),
          later]
        rfl

theorem percentDecodeUtf8_eq_none {path : List Char} (ascii : Ascii path)
    (h : Malformed path ∨ ∃ bytes, Encodes bytes path ∧ ∀ s, utf8Bytes s ≠ bytes) :
    percentDecodeUtf8 path = none := by
  unfold percentDecodeUtf8
  rcases h with ⟨front, tail, rfl, bad⟩ | ⟨bytes, encodes, other⟩
  · obtain ⟨asciiFront, behind⟩ := Ascii.append.mp ascii
    rw [percentDecode_malformed (Ascii.cons.mp behind).2 bad front asciiFront]
    rfl
  · rw [percentDecode_of_encodes encodes, Option.bind_eq_bind, Option.bind_some]
    cases decoded : fromUtf8 bytes with
    | none => rfl
    | some s => exact absurd (utf8Bytes_of_fromUtf8 decoded) (other s.toList)

theorem stripAsciiPrefix_ascii {value : List Char} (front : List Char) (ascii : Ascii value) :
    ∃ found, stripAsciiPrefix value front = .ok found := by
  apply stripAsciiPrefix_ok_iff.mpr
  intro long
  rw [byteLen_of_ascii ascii] at long
  exact ⟨_, _, splitBytes_eq_some.mp (splitBytes_of_ascii ascii long)⟩

theorem length_of_eqIgnoreAsciiCase {a b : List Char} (h : eqIgnoreAsciiCase a b = true) :
    a.length = b.length := by
  have same := congrArg List.length (beq_iff_eq.mp h)
  rwa [toAsciiLowercase, toAsciiLowercase, List.length_map, List.length_map] at same

theorem no_slash_of_localHost {lead : List Char} (h : eqIgnoreAsciiCase lead localHost = true) :
    '/' ∉ lead := by
  intro slash
  have lower : Char.toLower '/' ∈ toAsciiLowercase lead := List.mem_map_of_mem slash
  rw [beq_iff_eq.mp h] at lower
  exact absurd lower (by decide)

theorem stripAsciiPrefix_host {host behind : List Char} {after : Option (List Char)}
    (slash : behind.head? = some '/')
    (h : stripAsciiPrefix (host ++ behind) localHost = .ok after) :
    ∃ gone left, host = gone ++ left ∧ after.getD (host ++ behind) = left ++ behind := by
  rcases stripAsciiPrefix_eq_ok.mp h with ⟨-, rfl⟩ | ⟨lead, rest, same, -, rfl⟩
  · exact ⟨[], host, rfl, rfl⟩
  · split_ifs with agrees
    · rcases List.append_eq_append_iff.mp same with ⟨more, rfl, cut⟩ | ⟨left, rfl, rfl⟩
      · -- the lead reaches no further than the slash
        cases more with
        | nil => exact ⟨host, [], (List.append_nil host).symm, by simpa using cut.symm⟩
        | cons c more =>
          rw [cut, List.cons_append, List.head?_cons, Option.some_inj] at slash
          apply absurd _ (no_slash_of_localHost agrees)
          rw [slash]
          exact List.mem_append_right _ List.mem_cons_self
      · exact ⟨lead, left, rfl, rfl⟩
    · exact ⟨[], host, rfl, rfl⟩

theorem takeWhile_urlPath {path suffix : List Char} (clean : ∀ c ∈ path, c ≠ '?' ∧ c ≠ '#')
    (mark : UrlSuffix suffix) :
    ((path ++ suffix).takeWhile fun c => c ≠ '?' ∧ c ≠ '#') = path := by
  rw [List.takeWhile_append_of_pos (by simpa using clean)]
  rcases mark with rfl | ⟨c, rest, rfl, rfl | rfl⟩
  · simp
  · simp
  · simp

theorem stripAsciiPrefix_scheme {lead rest : List Char} (ascii : Ascii lead)
    (agrees : eqIgnoreAsciiCase lead fileScheme = true) :
    stripAsciiPrefix (lead ++ rest) fileScheme = .ok (some rest) := by
  have size : byteLen lead = byteLen fileScheme := by
    rw [byteLen_of_ascii ascii, length_of_eqIgnoreAsciiCase agrees]
    decide
  exact stripAsciiPrefix_eq_ok.mpr (Or.inr ⟨lead, rest, rfl, size, by rw [if_pos agrees]⟩)

theorem fileUrlCandidate_of_encodes {value rest enc suffix : List Char}
    (encodes : Encodes (utf8Bytes rest) enc) (mark : UrlSuffix suffix) {host : List Char}
    {after : Option (List Char)}
    (scheme : stripAsciiPrefix value fileScheme = .ok (some (host ++ ('/' :: enc ++ suffix))))
    (stripped : stripAsciiPrefix (host ++ ('/' :: enc ++ suffix)) localHost = .ok after)
    (whole : after.getD (host ++ ('/' :: enc ++ suffix)) = '/' :: enc ++ suffix) :
    fileUrlCandidate value = .ok (some ('/' :: rest)) := by
  have path : Encodes (utf8Bytes ('/' :: rest)) ('/' :: enc) := by
    rw [utf8Bytes_cons_one (by decide)]
    exact Encodes.plain (by decide) (by decide) encodes
  have clean : ∀ c ∈ '/' :: enc, c ≠ '?' ∧ c ≠ '#' := fun c hc => (path.ascii c hc).2
  rw [fileUrlCandidate_eq scheme stripped, whole, List.cons_append, List.head?_cons,
    if_pos rfl, ← List.cons_append, takeWhile_urlPath clean mark,
    percentDecodeUtf8_of_encodes path]

/-- A file URL decodes to the path it encodes, and no malformed path part decodes at all. -/
theorem file_url_decoding :
    (∀ rest enc host suffix, Encodes (utf8Bytes rest) enc → host = [] ∨ host = localHost →
      UrlSuffix suffix → Ascii suffix →
      fileUrlCandidate (fileScheme ++ (host ++ ('/' :: enc ++ suffix))) =
        .ok (some ('/' :: rest))) ∧
    ∀ value path, Ascii value → PathPart value path →
      (Malformed path ∨ ∃ bytes, Encodes bytes path ∧ ∀ s, utf8Bytes s ≠ bytes) →
      fileUrlCandidate value = .ok none := by
  constructor
  · intro rest enc host suffix encodes hosts mark ascii
    have scheme : ∀ behind, stripAsciiPrefix (fileScheme ++ behind) fileScheme =
        .ok (some behind) := fun behind =>
      stripAsciiPrefix_scheme (by decide) (by decide)
    rcases hosts with rfl | rfl
    · have all : Ascii ('/' :: enc ++ suffix) :=
        Ascii.append.mpr ⟨Ascii.cons.mpr ⟨by decide, fun c hc => (encodes.ascii c hc).1⟩, ascii⟩
      obtain ⟨after, stripped⟩ := stripAsciiPrefix_ascii localHost all
      obtain ⟨gone, left, none, whole⟩ := @stripAsciiPrefix_host [] _ _ rfl stripped
      obtain ⟨-, rfl⟩ := List.append_eq_nil_iff.mp none.symm
      exact fileUrlCandidate_of_encodes encodes mark (scheme _) stripped whole
    · have stripped : stripAsciiPrefix (localHost ++ ('/' :: enc ++ suffix)) localHost =
          .ok (some ('/' :: enc ++ suffix)) :=
        stripAsciiPrefix_eq_ok.mpr (Or.inr ⟨localHost, _, rfl, rfl, by rw [if_pos (by decide)]⟩)
      exact fileUrlCandidate_of_encodes encodes mark (scheme _) stripped rfl
  · intro value path ascii part bad
    obtain ⟨lead, host, suffix, rfl, agrees, plain, slash, clean, mark⟩ := part
    obtain ⟨asciiLead, behind⟩ := Ascii.append.mp ascii
    have asciiPath := (Ascii.append.mp (Ascii.append.mp behind).2).1
    have first : (path ++ suffix).head? = some '/' := by rw [List.head?_append, slash]; rfl
    obtain ⟨after, stripped⟩ := stripAsciiPrefix_ascii localHost behind
    obtain ⟨gone, left, rfl, whole⟩ := stripAsciiPrefix_host first stripped
    rw [fileUrlCandidate_eq (stripAsciiPrefix_scheme asciiLead agrees) stripped, whole]
    cases left with
    | nil =>
      rw [List.nil_append, if_pos first, takeWhile_urlPath clean mark,
        percentDecodeUtf8_eq_none asciiPath bad]
    | cons c left =>
      -- another host than `localhost`
      have other : c ≠ '/' := (plain c (List.mem_append_right _ List.mem_cons_self)).1
      rw [List.cons_append, List.head?_cons, if_neg (by simpa using other)]

theorem spaced_path_decodes :
    fileUrlCandidate "file://localhost/a%20b?v=1".toList = .ok (some "/a b".toList) ∧
      fileUrlCandidate "file:///a%2".toList = .ok none := by
  have two : IsHexDigit 2 '2' := by decide
  have zero : IsHexDigit 0 '0' := by decide
  have encodes : Encodes (utf8Bytes "a b".toList) "a%20b".toList :=
    Encodes.plain (by decide) (by decide)
      (Encodes.escape two zero
        (Encodes.plain (by decide) (by decide) Encodes.nil))
  refine ⟨file_url_decoding.1 "a b".toList "a%20b".toList localHost "?v=1".toList encodes
    (Or.inr rfl) (Or.inr ⟨'?', "v=1".toList, rfl, Or.inl rfl⟩) (by decide), ?_⟩
  have clean : ∀ c ∈ "/a%2".toList, c ≠ '?' ∧ c ≠ '#' := by simp
  apply file_url_decoding.2 "file:///a%2".toList "/a%2".toList (by decide)
  · exact ⟨fileScheme, [], [], rfl, by decide, by simp, rfl, clean, Or.inl rfl⟩
  · refine Or.inl ⟨"/a".toList, "2".toList, rfl, ?_⟩
    rintro ⟨high, low, h, l, rest, same, -⟩
    cases same

end DashDrop.Runtime.SharePaths
