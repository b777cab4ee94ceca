/- GID: DashDrop/Trust/Rows
   source: src-tauri/src/db.rs, src-tauri/src/state.rs
   anchors: []
   digest: The columns in which trusted peers are stored, and what is read back from them. -/

import DashDrop.Trust.Statements
import Mathlib.Data.List.Perm.Basic

set_option autoImplicit false
set_option relaxedAutoImplicit false

namespace DashDrop.Trust.Rows

open DashDrop.Foundation.Text
open DashDrop.Runtime.State (TrustLevel)
open DashDrop.Trust.Peers (TrustedPeer TrustVerificationMethod)
open DashDrop.Trust.Storage (PeerMap PeerTable Keyed peersOf)
open DashDrop.Trust.Statements (Storable fitsInteger outOfRange)

inductive SqlValue where
  | null
  | integer (n : ℤ)
  | text (s : String)
  deriving DecidableEq

/-- The columns of `trusted_peers_store`. -/
inductive Column where
  | fingerprint
  | name
  | pairedAt
  | trustLevel
  | lastVerificationMethod
  | peerAlias
  | lastUsedAt
  | remoteConfirmationMaterialSeenAt
  | localConfirmationAt
  | mutualConfirmedAt
  | frozenAt
  | freezeReason
  deriving DecidableEq

abbrev Row := Column → SqlValue

/-- The rows in the order in which the table yields them; the fingerprint is the primary key. -/
structure PeerRows where
  rows : List Row
  distinct : (rows.map fun row => row .fingerprint).Nodup

def columnDefault : Column → SqlValue
  | .trustLevel => .text "legacy_paired"
  | .lastVerificationMethod => .text "manual_pairing"
  | _ => .null

/-- The row of an `INSERT` with these columns and these values. -/
def rowOf (columns : List Column) (values : List SqlValue) : Row := fun c =>
  ((columns.zip values).lookup c).getD (columnDefault c)

def required : List Column := [.name, .pairedAt, .trustLevel, .lastVerificationMethod]

def notNull (row : Row) : Except String Unit :=
  if required.any fun c => row c = .null then
    .error "NOT NULL constraint failed: trusted_peers_store"
  else .ok ()

namespace PeerRows

variable (t : PeerRows) (row : Row)

def empty : PeerRows := ⟨[], List.nodup_nil⟩

def Taken : Prop := ∃ r ∈ t.rows, r .fingerprint = row .fingerprint

instance : Decidable (t.Taken row) := inferInstanceAs (Decidable (∃ r ∈ t.rows, _))

def append (free : ¬ t.Taken row) : PeerRows where
  rows := t.rows ++ [row]
  distinct := by
    rw [List.map_append, List.map_singleton]
    apply List.nodup_append'.mpr
    refine ⟨t.distinct, List.nodup_singleton _, ?_⟩
    rw [List.disjoint_singleton]
    intro there
    exact free (List.mem_map.mp there)

def update (updated : List Column) (kept : Column.fingerprint ∉ updated) : PeerRows where
  rows := t.rows.map fun r =>
    if r .fingerprint = row .fingerprint then fun c => if c ∈ updated then row c else r c else r
  distinct := by
    rw [List.map_map]
    have same : (fun r : Row => r .fingerprint) ∘ (fun r : Row =>
        if r .fingerprint = row .fingerprint then fun c => if c ∈ updated then row c else r c
        else r) = fun r => r .fingerprint := by
      funext r
      simp only [Function.comp_apply]
      split_ifs
      · exact if_neg kept
      · rfl
    rw [same]
    exact t.distinct

end PeerRows

def insert (row : Row) (t : PeerRows) : Except String PeerRows := do
  notNull row
  if free : ¬ t.Taken row then .ok (t.append row free)
  else .error "UNIQUE constraint failed: trusted_peers_store.fingerprint"

/-- `INSERT ... ON CONFLICT(fingerprint) DO UPDATE` -/
def upsert (row : Row) (updated : List Column) (kept : Column.fingerprint ∉ updated)
    (t : PeerRows) : Except String PeerRows := do
  notNull row
  .ok (if free : ¬ t.Taken row then t.append row free else t.update row updated kept)

def snakeCase : List Char → List Char
  | [] => []
  | c :: rest => c.toLower ::
      rest.flatMap fun d => if d.isUpper then ['_', d.toLower] else [d.toLower]

def variantJson (variant : String) : List Char := '"' :: snakeCase variant.toList ++ ['"']

def levelVariant : TrustLevel → String
  | .legacyPaired => "LegacyPaired"
  | .signedLinkVerified => "SignedLinkVerified"
  | .mutualConfirmed => "MutualConfirmed"
  | .frozen => "Frozen"

def methodVariant : TrustVerificationMethod → String
  | .manualPairing => "ManualPairing"
  | .legacyUnsignedLink => "LegacyUnsignedLink"
  | .signedPairingLink => "SignedPairingLink"
  | .mutualReceipt => "MutualReceipt"

/-- `serde_json::to_string` without its quotes -/
def written (variant : String) : String :=
  String.ofList (trimMatches (· = '"') (variantJson variant))

def writeU64 (n : ℕ) : Except String SqlValue :=
  if fitsInteger n then .ok (.integer n) else .error outOfRange

def writeOption {α : Type} (write : α → Except String SqlValue) :
    Option α → Except String SqlValue
  | none => .ok .null
  | some a => write a

def params (peer : TrustedPeer) : Except String (List SqlValue) := do
  let pairedAt ← writeU64 peer.pairedAt
  let lastUsedAt ← writeOption writeU64 peer.lastUsedAt
  let remote ← writeOption writeU64 peer.remoteConfirmationMaterialSeenAt
  let localAt ← writeOption writeU64 peer.localConfirmationAt
  let mutual' ← writeOption writeU64 peer.mutualConfirmedAt
  let frozenAt ← writeOption writeU64 peer.frozenAt
  let peerAlias ← writeOption (.ok ∘ .text) peer.peerAlias
  let freezeReason ← writeOption (.ok ∘ .text) peer.freezeReason
  .ok [.text peer.fingerprint, .text peer.name, pairedAt,
    .text (written (levelVariant peer.trustLevel)),
    .text (written (methodVariant peer.lastVerificationMethod)), peerAlias, lastUsedAt, remote,
    localAt, mutual', frozenAt, freezeReason]

def replacedColumns : List Column :=
  [.fingerprint, .name, .pairedAt, .trustLevel, .lastVerificationMethod, .peerAlias, .lastUsedAt,
    .remoteConfirmationMaterialSeenAt, .localConfirmationAt, .mutualConfirmedAt, .frozenAt,
    .freezeReason]

/-- One `INSERT` for each peer; a statement that fails ends the call. -/
def insertPeers (t : PeerRows) : List TrustedPeer → PeerRows × Except String Unit
  | [] => (t, .ok ())
  | peer :: rest =>
    match (do insert (rowOf replacedColumns (← params peer)) t) with
    | .error cause => (t, .error cause)
    | .ok t' => insertPeers t' rest

/-- The `DELETE` leaves no row of the table. -/
def replaceTrustedPeers (_ : PeerRows) (trusted : PeerMap) : PeerRows × Except String Unit :=
  insertPeers .empty (peersOf trusted)

def savedColumns : List Column :=
  [.fingerprint, .name, .pairedAt, .trustLevel, .lastVerificationMethod, .peerAlias, .lastUsedAt,
    .remoteConfirmationMaterialSeenAt, .localConfirmationAt, .mutualConfirmedAt, .frozenAt,
    .freezeReason]

def updatedColumns : List Column :=
  [.name, .pairedAt, .trustLevel, .lastVerificationMethod, .peerAlias, .lastUsedAt,
    .remoteConfirmationMaterialSeenAt, .localConfirmationAt, .mutualConfirmedAt, .frozenAt,
    .freezeReason]

def saveTrustedPeer (t : PeerRows) (peer : TrustedPeer) : Except String PeerRows := do
  upsert (rowOf savedColumns (← params peer)) updatedColumns (by decide) t

def loadedColumns : List Column :=
  [.fingerprint, .name, .pairedAt, .trustLevel, .lastVerificationMethod, .peerAlias, .lastUsedAt,
    .remoteConfirmationMaterialSeenAt, .localConfirmationAt, .mutualConfirmedAt, .frozenAt,
    .freezeReason]

def readString : SqlValue → Except String String
  | .text s => .ok s
  | _ => .error "Invalid column type"

def readU64 : SqlValue → Except String ℕ
  | .integer n => if 0 ≤ n then .ok n.toNat else .error "Integer out of range"
  | _ => .error "Invalid column type"

def readOption {α : Type} (read : SqlValue → Except String α) :
    SqlValue → Except String (Option α)
  | .null => .ok none
  | value => (read value).map some

def get {α : Type} (read : SqlValue → Except String α) (values : List SqlValue) (i : ℕ) :
    Except String α :=
  match values[i]? with
  | some value => read value
  | none => .error "Invalid column index"

def readLevel : String → TrustLevel
  | "signed_link_verified" => .signedLinkVerified
  | "mutual_confirmed" => .mutualConfirmed
  | "frozen" => .frozen
  | _ => .legacyPaired

def readMethod : String → TrustVerificationMethod
  | "legacy_unsigned_link" => .legacyUnsignedLink
  | "signed_pairing_link" => .signedPairingLink
  | "mutual_receipt" => .mutualReceipt
  | _ => .manualPairing

def readPeer (values : List SqlValue) : Except String TrustedPeer := do
  let trustLevel := readLevel (← get readString values 3)
  let lastVerificationMethod := readMethod (← get readString values 4)
  .ok {
    fingerprint := ← get readString values 0
    name := ← get readString values 1
    pairedAt := ← get readU64 values 2
    trustLevel := trustLevel
    lastVerificationMethod := lastVerificationMethod
    peerAlias := ← get (readOption readString) values 5
    lastUsedAt := ← get (readOption readU64) values 6
    remoteConfirmationMaterialSeenAt := ← get (readOption readU64) values 7
    localConfirmationAt := ← get (readOption readU64) values 8
    mutualConfirmedAt := ← get (readOption readU64) values 9
    frozenAt := ← get (readOption readU64) values 10
    freezeReason := ← get (readOption readString) values 11 }

def SqlValue.le : SqlValue → SqlValue → Bool
  | .null, _ => true
  | _, .null => false
  | .integer a, .integer b => a ≤ b
  | .integer _, .text _ => true
  | .text _, .integer _ => false
  | .text a, .text b => a ≤ b

def loadTrustedPeers (t : PeerRows) : Except String (List TrustedPeer) :=
  (t.rows.mergeSort fun a b => SqlValue.le (a .pairedAt) (b .pairedAt)).mapM fun row =>
    readPeer (loadedColumns.map row)

def optionalValue {α : Type} (write : α → SqlValue) : Option α → SqlValue
  | none => .null
  | some a => write a

def numberValue (n : ℕ) : SqlValue := .integer n

def values (peer : TrustedPeer) : List SqlValue :=
  [.text peer.fingerprint, .text peer.name, numberValue peer.pairedAt,
    .text (written (levelVariant peer.trustLevel)),
    .text (written (methodVariant peer.lastVerificationMethod)), optionalValue .text peer.peerAlias,
    optionalValue numberValue peer.lastUsedAt,
    optionalValue numberValue peer.remoteConfirmationMaterialSeenAt,
    optionalValue numberValue peer.localConfirmationAt,
    optionalValue numberValue peer.mutualConfirmedAt, optionalValue numberValue peer.frozenAt,
    optionalValue .text peer.freezeReason]

theorem writeOption_u64 {n : Option ℕ} (fits : n.all fitsInteger = true) :
    writeOption writeU64 n = .ok (optionalValue numberValue n) := by
  cases n with
  | none => rfl
  | some n =>
    rw [Option.all_some] at fits
    exact if_pos fits

theorem writeOption_text (s : Option String) :
    writeOption (.ok ∘ .text) s = .ok (optionalValue .text s) := by
  cases s <;> rfl

theorem params_of_storable {peer : TrustedPeer} (fits : Storable peer = true) :
    params peer = .ok (values peer) := by
  simp only [Storable, Bool.and_eq_true] at fits
  obtain ⟨⟨⟨⟨⟨paired, used⟩, remote⟩, confirmed⟩, both⟩, frozen⟩ := fits
  have first : writeU64 peer.pairedAt = .ok (numberValue peer.pairedAt) := if_pos paired
  unfold params
  simp only [first, writeOption_u64 used, writeOption_u64 remote, writeOption_u64 confirmed,
    writeOption_u64 both, writeOption_u64 frozen, writeOption_text, bind, Except.bind]
  rfl

theorem readLevel_written (level : TrustLevel) : readLevel (written (levelVariant level)) = level := by
  cases level
  · decide
  · decide
  · decide
  · decide

theorem readMethod_written (method : TrustVerificationMethod) :
    readMethod (written (methodVariant method)) = method := by
  cases method
  · decide
  · decide
  · decide
  · decide

theorem readOption_number (n : Option ℕ) :
    readOption readU64 (optionalValue numberValue n) = .ok n := by
  cases n with
  | none => rfl
  | some n => simp [readOption, optionalValue, numberValue, readU64, Except.map]

theorem readOption_text (s : Option String) :
    readOption readString (optionalValue .text s) = .ok s := by
  cases s <;> rfl

theorem readPeer_values (peer : TrustedPeer) : readPeer (values peer) = .ok peer := by
  have number (n : ℕ) : readU64 (numberValue n) = .ok n := by simp [readU64, numberValue]
  simp only [readPeer, get, values, List.getElem?_cons_succ, List.getElem?_cons_zero, readString,
    number, readOption_number, readOption_text, readLevel_written, readMethod_written, bind,
    Except.bind]

def peerRow (peer : TrustedPeer) : Row := rowOf loadedColumns (values peer)

theorem readPeer_peerRow (peer : TrustedPeer) :
    readPeer (loadedColumns.map (peerRow peer)) = .ok peer := by
  have columns : loadedColumns.map (peerRow peer) = values peer := rfl
  rw [columns, readPeer_values]

theorem notNull_peerRow (peer : TrustedPeer) : notNull (peerRow peer) = .ok () := by
  rfl

theorem ok_of_bind {α β : Type} {x : Except String α} {f : α → Except String β} {b : β}
    (h : (x >>= f) = .ok b) : ∃ a, x = .ok a ∧ f a = .ok b := by
  cases x with
  | error cause => cases h
  | ok a => exact ⟨a, rfl, h⟩

theorem fingerprint_of_readPeer {row : Row} {peer : TrustedPeer}
    (h : readPeer (loadedColumns.map row) = .ok peer) :
    row .fingerprint = .text peer.fingerprint := by
  unfold readPeer at h
  obtain ⟨level, -, h⟩ := ok_of_bind h
  obtain ⟨method, -, h⟩ := ok_of_bind h
  obtain ⟨fp, found, h⟩ := ok_of_bind h
  have same : peer.fingerprint = fp := by
    iterate 9 obtain ⟨_, -, h⟩ := ok_of_bind h
    cases h
    rfl
  have first : readString (row .fingerprint) = .ok fp := found
  rw [same]
  cases value : row .fingerprint with
  | text s =>
    rw [value] at first
    cases first
    rfl
  | null =>
    rw [value] at first
    cases first
  | integer n =>
    rw [value] at first
    cases first

section Writes

variable {t : PeerRows} {peer : TrustedPeer}

theorem insert_peer (free : ¬ t.Taken (peerRow peer)) :
    insert (peerRow peer) t = .ok (t.append (peerRow peer) free) := by
  unfold insert
  rw [notNull_peerRow]
  exact dif_pos free

theorem insertPeers_rows {peers : List TrustedPeer} (fits : ∀ p ∈ peers, Storable p = true)
    (free : ∀ p ∈ peers, ¬ t.Taken (peerRow p))
    (distinct : (peers.map TrustedPeer.fingerprint).Nodup) :
    (insertPeers t peers).2 = .ok () ∧
      (insertPeers t peers).1.rows = t.rows ++ peers.map peerRow := by
  induction peers generalizing t with
  | nil => simp [insertPeers]
  | cons p rest ih =>
    obtain ⟨other, distinct⟩ := List.nodup_cons.mp distinct
    have here := free p List.mem_cons_self
    have step : (do insert (rowOf replacedColumns (← params p)) t) =
        .ok (t.append (peerRow p) here) := by
      rw [params_of_storable (fits p List.mem_cons_self)]
      exact insert_peer here
    have open_later : ∀ q ∈ rest, ¬ (t.append (peerRow p) here).Taken (peerRow q) := by
      rintro q hq ⟨r, hr, same⟩
      rcases List.mem_append.mp hr with hr | hr
      · exact free q (List.mem_cons_of_mem p hq) ⟨r, hr, same⟩
      · obtain rfl := List.mem_singleton.mp hr
        have names : p.fingerprint = q.fingerprint := SqlValue.text.inj same
        exact other (names ▸ List.mem_map_of_mem hq)
    rw [insertPeers, step]
    obtain ⟨done, rows⟩ := ih (fun q hq => fits q (List.mem_cons_of_mem p hq)) open_later distinct
    refine ⟨done, ?_⟩
    rw [rows]
    exact List.append_assoc t.rows [peerRow p] (rest.map peerRow)

theorem update_peer (r : Row) (same : r .fingerprint = peerRow peer .fingerprint) :
    (fun c => if c ∈ updatedColumns then peerRow peer c else r c) = peerRow peer := by
  funext c
  cases c
  case fingerprint => exact same
  all_goals rfl

end Writes

/-- Where one element has the key, putting another in its place is the same as dropping it. -/
theorem map_replace_perm {α κ : Type} [DecidableEq κ] {key : α → κ} {a : α} {l : List α}
    (distinct : (l.map key).Nodup) (taken : ∃ b ∈ l, key b = key a) :
    (l.map fun b => if key b = key a then a else b).Perm
      (a :: l.filter fun b => key b ≠ key a) := by
  induction l with
  | nil =>
    obtain ⟨b, mem, -⟩ := taken
    cases mem
  | cons b l ih =>
    obtain ⟨other, distinct⟩ := List.nodup_cons.mp distinct
    rw [List.map_cons]
    by_cases here : key b = key a
    · have rest : ∀ c ∈ l, key c ≠ key a := fun c hc same =>
        other (List.mem_map.mpr ⟨c, hc, same.trans here.symm⟩)
      rw [if_pos here, List.filter_cons_of_neg (by simpa using here),
        List.filter_eq_self.mpr (by simpa using rest)]
      apply List.Perm.cons
      rw [List.map_congr_left fun c hc => if_neg (rest c hc), List.map_id']
    · have later : ∃ c ∈ l, key c = key a := by
        obtain ⟨c, mem, same⟩ := taken
        rcases List.mem_cons.mp mem with rfl | mem
        · exact absurd same here
        · exact ⟨c, mem, same⟩
      rw [if_neg here, List.filter_cons_of_pos (by simpa using here)]
      exact ((ih distinct later).cons b).trans (List.Perm.swap a b _)

section Saves

variable {t : PeerRows} {peer : TrustedPeer}

/-- Saving puts the row of the peer in the place of what was stored under its fingerprint. -/
theorem saveTrustedPeer_rows (fits : Storable peer = true) :
    ∃ t', saveTrustedPeer t peer = .ok t' ∧ t'.rows.Perm (peerRow peer ::
      t.rows.filter fun r => r .fingerprint ≠ .text peer.fingerprint) := by
  have key : peerRow peer .fingerprint = .text peer.fingerprint := rfl
  have saved : saveTrustedPeer t peer = .ok (if free : ¬ t.Taken (peerRow peer) then
      t.append (peerRow peer) free else t.update (peerRow peer) updatedColumns (by decide)) := by
    unfold saveTrustedPeer
    rw [params_of_storable fits]
    show upsert (peerRow peer) updatedColumns _ t = _
    unfold upsert
    rw [notNull_peerRow]
    rfl
  refine ⟨_, saved, ?_⟩
  by_cases taken : t.Taken (peerRow peer)
  · rw [dif_neg (not_not.mpr taken)]
    have rows : (t.update (peerRow peer) updatedColumns (by decide)).rows =
        t.rows.map fun r => if r .fingerprint = peerRow peer .fingerprint then peerRow peer
          else r := by
      apply List.map_congr_left
      intro r _
      split_ifs with same
      · exact update_peer r same
      · rfl
    rw [rows, ← key]
    exact map_replace_perm t.distinct taken
  · rw [dif_pos taken, List.filter_eq_self.mpr]
    · exact List.perm_append_singleton (peerRow peer) t.rows
    · intro r hr
      simp only [decide_eq_true_eq]
      intro same
      exact taken ⟨r, hr, same.trans key.symm⟩

end Saves

def ReadAs (row : Row) (peer : TrustedPeer) : Prop :=
  readPeer (loadedColumns.map row) = .ok peer

theorem mapM_eq_ok_iff {α β : Type} {f : α → Except String β} {l : List α} {out : List β} :
    l.mapM f = .ok out ↔ List.Forall₂ (fun a b => f a = .ok b) l out := by
  induction l generalizing out with
  | nil =>
    rw [List.mapM_nil, List.forall₂_nil_left_iff]
    exact ⟨fun h => (Except.ok.inj h).symm, fun h => h ▸ rfl⟩
  | cons a l ih =>
    rw [List.mapM_cons]
    constructor
    · intro h
      obtain ⟨b, first, h⟩ := ok_of_bind h
      obtain ⟨rest, later, h⟩ := ok_of_bind h
      cases h
      exact List.Forall₂.cons first (ih.mp later)
    · intro h
      cases h with
      | cons first later =>
        rw [first, ih.mpr later]
        rfl

section Loads

variable {t : PeerRows} {l out : List TrustedPeer}

theorem load_of_reads (h : List.Forall₂ ReadAs t.rows l) :
    ∃ out, loadTrustedPeers t = .ok out ∧ out.Perm l := by
  obtain ⟨out, reads, perm⟩ := List.perm_comp_forall₂ (List.mergeSort_perm t.rows _) h
  exact ⟨out, mapM_eq_ok_iff.mpr reads, perm⟩

theorem reads_of_load (h : loadTrustedPeers t = .ok out) :
    ∃ l, List.Forall₂ ReadAs t.rows l ∧ l.Perm out :=
  List.perm_comp_forall₂ (List.mergeSort_perm t.rows _).symm (mapM_eq_ok_iff.mp h)

theorem reads_peerRow (peers : List TrustedPeer) :
    List.Forall₂ ReadAs (peers.map peerRow) peers := by
  induction peers with
  | nil => exact .nil
  | cons p rest ih => exact .cons (readPeer_peerRow p) ih

theorem reads_filter {rows : List Row} (h : List.Forall₂ ReadAs rows l) (fp : String) :
    List.Forall₂ ReadAs (rows.filter fun r => r .fingerprint ≠ .text fp)
      (l.filter fun p => p.fingerprint ≠ fp) := by
  induction h with
  | nil => exact .nil
  | @cons row p rows l first _ ih =>
    have key := fingerprint_of_readPeer first
    by_cases other : p.fingerprint = fp
    · rw [List.filter_cons_of_neg (by simp [key, other]),
        List.filter_cons_of_neg (by simp [other])]
      exact ih
    · rw [List.filter_cons_of_pos (by simp [key, other]),
        List.filter_cons_of_pos (by simp [other])]
      exact .cons first ih

theorem reads_save {peer : TrustedPeer} (reads : List.Forall₂ ReadAs t.rows l)
    (fits : Storable peer = true) : ∃ t' l', saveTrustedPeer t peer = .ok t' ∧
      List.Forall₂ ReadAs t'.rows l' ∧
      l'.Perm (peer :: l.filter fun p => p.fingerprint ≠ peer.fingerprint) := by
  obtain ⟨t', saved, perm⟩ := saveTrustedPeer_rows (t := t) fits
  have stored : List.Forall₂ ReadAs (peerRow peer ::
      t.rows.filter fun r => r .fingerprint ≠ .text peer.fingerprint)
      (peer :: l.filter fun p => p.fingerprint ≠ peer.fingerprint) :=
    .cons (readPeer_peerRow peer) (reads_filter reads peer.fingerprint)
  obtain ⟨l', reads', same⟩ := List.perm_comp_forall₂ perm stored
  exact ⟨t', l', saved, reads', same⟩

end Loads

theorem fingerprints_distinct {m : PeerMap} (keyed : Keyed m) :
    ((peersOf m).map TrustedPeer.fingerprint).Nodup := by
  have same : (peersOf m).map TrustedPeer.fingerprint = m.keys := by
    rw [peersOf, List.map_map]
    apply List.map_congr_left
    intro entry mem
    exact keyed entry.1 entry.2 (AList.mem_lookup_iff.mpr mem)
  rw [same]
  exact m.keys_nodup

theorem storable_of_mem {m : PeerMap}
    (fits : ∀ fp peer, m.lookup fp = some peer → Storable peer = true) :
    ∀ peer ∈ peersOf m, Storable peer = true := by
  intro peer mem
  obtain ⟨entry, here, rfl⟩ := List.mem_map.mp mem
  exact fits entry.1 entry.2 (AList.mem_lookup_iff.mpr here)

/-- The rows are read as the peers of the table. -/
def Stores (t : PeerRows) (table : PeerTable) : Prop :=
  ∃ l, List.Forall₂ ReadAs t.rows l ∧ l.Perm (peersOf table.rows)

theorem peersOf_insert {m : PeerMap} (keyed : Keyed m) (peer : TrustedPeer) :
    peersOf (m.insert peer.fingerprint peer) =
      peer :: (peersOf m).filter fun p => p.fingerprint ≠ peer.fingerprint := by
  have filed : ∀ entry ∈ m.entries, entry.2.fingerprint = entry.1 := fun entry mem =>
    keyed entry.1 entry.2 (AList.mem_lookup_iff.mpr mem)
  have erased (entries : List (Sigma fun _ : String => TrustedPeer))
      (distinct : entries.NodupKeys) (filed : ∀ entry ∈ entries, entry.2.fingerprint = entry.1) :
      (List.kerase peer.fingerprint entries).map (fun e => e.2) =
        (entries.map fun e => e.2).filter fun p => p.fingerprint ≠ peer.fingerprint := by
    induction entries with
    | nil => rfl
    | cons entry rest ih =>
      obtain ⟨other, distinct⟩ := List.nodupKeys_cons.mp distinct
      obtain ⟨here, filed⟩ := List.forall_mem_cons.mp filed
      rw [List.map_cons]
      by_cases same : peer.fingerprint = entry.1
      · rw [List.kerase_cons_eq same, List.filter_cons_of_neg (by simp [here, same])]
        apply (List.filter_eq_self.mpr _).symm
        intro p mem
        obtain ⟨e, me, rfl⟩ := List.mem_map.mp mem
        simp only [decide_eq_true_eq]
        intro again
        rw [filed e me, same] at again
        exact other (again ▸ List.mem_map_of_mem me)
      · rw [List.kerase_cons_ne same, List.map_cons, ih distinct filed,
          List.filter_cons_of_pos (by simpa [here] using fun h => same h.symm)]
  rw [peersOf, AList.entries_insert, List.map_cons,
    erased m.entries m.nodupKeys filed]
  rfl

section Refinement

variable {t : PeerRows} {table : PeerTable} {peer : TrustedPeer}

theorem stores_save (h : Stores t table) (fits : Storable peer = true) :
    ∃ t', saveTrustedPeer t peer = .ok t' ∧ Stores t' (table.upsert peer) := by
  obtain ⟨l, reads, same⟩ := h
  obtain ⟨t', l', saved, reads', same'⟩ := reads_save reads fits
  refine ⟨t', saved, l', reads', ?_⟩
  show l'.Perm (peersOf (table.rows.insert peer.fingerprint peer))
  rw [peersOf_insert table.keyed]
  exact same'.trans ((same.filter _).cons peer)

theorem stores_replace {trusted : PeerMap} (keyed : Keyed trusted)
    (fits : ∀ fp peer, trusted.lookup fp = some peer → Storable peer = true) :
    (replaceTrustedPeers t trusted).2 = .ok () ∧
      Stores (replaceTrustedPeers t trusted).1 ⟨trusted, keyed⟩ := by
  have free : ∀ p ∈ peersOf trusted, ¬ PeerRows.empty.Taken (peerRow p) := by
    rintro p - ⟨r, mem, -⟩
    cases mem
  obtain ⟨done, rows⟩ :=
    insertPeers_rows (storable_of_mem fits) free (fingerprints_distinct keyed)
  refine ⟨done, peersOf trusted, ?_, List.Perm.refl _⟩
  show List.Forall₂ ReadAs (insertPeers .empty (peersOf trusted)).1.rows (peersOf trusted)
  rw [rows]
  exact reads_peerRow (peersOf trusted)

theorem load_of_stores (h : Stores t table) :
    ∃ out, loadTrustedPeers t = .ok out ∧ out.Perm (peersOf table.rows) := by
  obtain ⟨l, reads, same⟩ := h
  obtain ⟨out, loads, perm⟩ := load_of_reads reads
  exact ⟨out, loads, perm.trans same⟩

end Refinement

/-- What the table was replaced with is loaded, and saving one record changes just this one. -/
theorem trusted_peers_survive :
    (∀ (t : PeerRows) (trusted : PeerMap), Keyed trusted →
      (∀ fp peer, trusted.lookup fp = some peer → Storable peer = true) →
      (replaceTrustedPeers t trusted).2 = .ok () ∧
        ∃ out, loadTrustedPeers (replaceTrustedPeers t trusted).1 = .ok out ∧
          out.Perm (peersOf trusted)) ∧
    ∀ (t : PeerRows) (peer : TrustedPeer) (out : List TrustedPeer), Storable peer = true →
      loadTrustedPeers t = .ok out →
      ∃ t' out', saveTrustedPeer t peer = .ok t' ∧ loadTrustedPeers t' = .ok out' ∧
        out'.Perm (peer :: out.filter fun p => p.fingerprint ≠ peer.fingerprint) := by
  constructor
  · intro t trusted keyed fits
    obtain ⟨done, stores⟩ := stores_replace (t := t) keyed fits
    exact ⟨done, load_of_stores stores⟩
  · intro t peer out fits loads
    obtain ⟨l, reads, same⟩ := reads_of_load loads
    obtain ⟨t', l', saved, reads', same'⟩ := reads_save reads fits
    obtain ⟨out', loads', perm'⟩ := load_of_reads reads'
    exact ⟨t', out', saved, loads', perm'.trans (same'.trans ((same.filter _).cons peer))⟩

def frozenSample : TrustedPeer where
  fingerprint := "peer-fp"
  name := "Peer"
  pairedAt := 1
  trustLevel := .frozen
  lastVerificationMethod := .mutualReceipt
  peerAlias := some "Laptop"
  lastUsedAt := some 2
  remoteConfirmationMaterialSeenAt := some 3
  localConfirmationAt := some 4
  mutualConfirmedAt := some 5
  frozenAt := some 6
  freezeReason := some "fingerprint changed"

def pairedSample : TrustedPeer where
  fingerprint := "other-fp"
  name := "Other"
  pairedAt := 7
  trustLevel := .legacyPaired
  lastVerificationMethod := .manualPairing
  peerAlias := none
  lastUsedAt := none
  remoteConfirmationMaterialSeenAt := none
  localConfirmationAt := none
  mutualConfirmedAt := none
  frozenAt := none
  freezeReason := none

/-- Two peers replace an empty table; then the first is saved under another name, and the second
stays. -/
theorem two_samples_survive :
    ∃ out, loadTrustedPeers (replaceTrustedPeers .empty
        (((∅ : PeerMap).insert "other-fp" pairedSample).insert "peer-fp" frozenSample)).1 = .ok out ∧
      out.Perm [frozenSample, pairedSample] ∧
      ∃ t' out', saveTrustedPeer (replaceTrustedPeers .empty
          (((∅ : PeerMap).insert "other-fp" pairedSample).insert "peer-fp" frozenSample)).1
            { frozenSample with name := "Renamed" } = .ok t' ∧
        loadTrustedPeers t' = .ok out' ∧
        out'.Perm [{ frozenSample with name := "Renamed" }, pairedSample] := by
  have found (fp : String) (peer : TrustedPeer)
      (h : (((∅ : PeerMap).insert "other-fp" pairedSample).insert "peer-fp" frozenSample).lookup fp =
        some peer) :
      fp = "peer-fp" ∧ peer = frozenSample ∨ fp = "other-fp" ∧ peer = pairedSample := by
    by_cases first : fp = "peer-fp"
    · subst first
      rw [AList.lookup_insert] at h
      exact .inl ⟨rfl, (Option.some.inj h).symm⟩
    · rw [AList.lookup_insert_ne first] at h
      by_cases second : fp = "other-fp"
      · subst second
        rw [AList.lookup_insert] at h
        exact .inr ⟨rfl, (Option.some.inj h).symm⟩
      · rw [AList.lookup_insert_ne second] at h
        cases h
  obtain ⟨-, out, loads, same⟩ := trusted_peers_survive.1 .empty
    (((∅ : PeerMap).insert "other-fp" pairedSample).insert "peer-fp" frozenSample)
    (fun fp peer h => by obtain ⟨rfl, rfl⟩ | ⟨rfl, rfl⟩ := found fp peer h <;> rfl)
    (fun fp peer h => by obtain ⟨rfl, rfl⟩ | ⟨rfl, rfl⟩ := found fp peer h <;> decide)
  have both : out.Perm [frozenSample, pairedSample] := same
  obtain ⟨t', out', saved, loads', kept⟩ := trusted_peers_survive.2 _
    { frozenSample with name := "Renamed" } out (by decide) loads
  refine ⟨out, loads, both, t', out', saved, loads', kept.trans ?_⟩
  exact (both.filter _).cons _

end DashDrop.Trust.Rows
