import C4Gateway.Domain
import C4Gateway.Lib.Text
import C4Gateway.Lib.Update
import Mathlib.Data.List.Dedup
import Mathlib.Data.List.Sort

/-! Gateway keys.  The table of keys and the writes of the repository to it, the snapshot of it that
is loaded in chunks, and the decision about the key that a request presents, which reads the
snapshot only. -/

namespace C4Gateway.Auth

open List Text

inductive KeyStatus where
  | active
  | disabled
  deriving DecidableEq, Repr

inductive UserStatus where
  | active
  | disabled
  deriving DecidableEq, Repr

structure User where
  status : UserStatus
  maxConcurrency : Int := 0
  deriving DecidableEq, Repr

/-- The text of a gateway key.  A header that holds it presents it as it is. -/
@[ext] structure GroupKey where
  text : List Char
  nonempty : text ≠ []
  trimmed : trimSpace text = text
  deriving DecidableEq

def hexDigit (n : Nat) : Char := "0123456789abcdef".toList.getD n '0'

theorem hexDigit_not_space {n : Nat} (h : n < 16) : isSpace (hexDigit n) = false := by
  have hall : ∀ i : Fin 16, isSpace (hexDigit i) = false := by decide
  exact hall ⟨n, h⟩

/-- The key that is made of random bytes. -/
def newGroupKey (b : List UInt8) : GroupKey where
  text := "ck-".toList ++ b.flatMap fun x => [hexDigit (x.toNat / 16), hexDigit (x.toNat % 16)]
  nonempty := by simp
  trimmed := by
    refine trimSpace_of_forall fun c hc => ?_
    simp only [mem_append, mem_flatMap, mem_cons, not_mem_nil, or_false] at hc
    rcases hc with hc | ⟨x, -, rfl | rfl⟩
    · have hfixed : "ck-".toList.all (! isSpace ·) = true := by decide
      simpa using all_eq_true.mp hfixed c hc
    · exact hexDigit_not_space (by have := x.toNat_lt; omega)
    · exact hexDigit_not_space (Nat.mod_lt _ (by decide))

structure KeyRow where
  id : Int
  userID : Int
  groupID : Int
  name : String
  raw : GroupKey
  status : KeyStatus := .active
  maxConcurrency : Int := 0
  quota : Int := 0
  quotaUsed : Int := 0
  updatedAt : Int := 0
  deleted : Bool := false
  deriving DecidableEq

/-- The table of keys.  Texts are unique among all rows, those of deleted keys included. -/
structure KeyTable where
  rows : List KeyRow
  ids : (rows.map KeyRow.id).Nodup
  raws : (rows.map KeyRow.raw).Nodup

/-- What a request with the key is checked against. -/
structure AuthMeta extends KeyMeta where
  groupID : Int
  keyStatus : KeyStatus
  userStatus : Option UserStatus
  deriving DecidableEq, Repr

abbrev Keys := List Char → Option AuthMeta

/-- The headers that a gateway key is taken from; an absent header is empty. -/
structure HttpRequest where
  authorization : List Char := []
  xApiKey : List Char := []
  deriving DecidableEq, Repr

def bearer (authorization : List Char) : Option (List Char) :=
  match fields (trimSpace authorization) with
  | [scheme, raw] => if scheme.map Char.toLower = "bearer".toList then some raw else none
  | _ => none

def gatewayKeyFromRequest (r : HttpRequest) : List Char :=
  match bearer r.authorization with
  | some raw => if trimSpace raw ≠ [] then trimSpace raw else trimSpace r.xApiKey
  | none => trimSpace r.xApiKey

def AuthMeta.active (m : AuthMeta) : Bool := m.keyStatus = .active && m.userStatus = some .active

def authenticate (keys : Keys) (r : HttpRequest) : Option AuthMeta :=
  let raw := gatewayKeyFromRequest r
  if raw = [] then none else (keys raw).filter AuthMeta.active

/-- The snapshot has an active entry for the key. -/
def admitted (keys : Keys) (raw : GroupKey) : Bool := (keys raw.text).any AuthMeta.active

theorem gatewayKeyFromRequest_xApiKey (raw : GroupKey) :
    gatewayKeyFromRequest { xApiKey := raw.text } = raw.text := raw.trimmed

variable {raw : GroupKey}

/-- A request that presents a key is accepted exactly if the snapshot has an active entry for it. -/
theorem authenticate_isSome {keys : Keys} {r : HttpRequest}
    (h : gatewayKeyFromRequest r = raw.text) :
    (authenticate keys r).isSome = admitted keys raw := by
  simp only [authenticate, h, if_neg raw.nonempty, admitted]
  cases keys raw.text with
  | none => rfl
  | some m => cases hactive : m.active <;> simp

/-- The requests that present a key are all decided alike. -/
theorem forall_authenticate_iff {keys : Keys} {b : Bool} :
    (∀ r : HttpRequest, gatewayKeyFromRequest r = raw.text → (authenticate keys r).isSome = b) ↔
      admitted keys raw = b := by
  constructor
  · intro h
    rw [← authenticate_isSome (gatewayKeyFromRequest_xApiKey raw)]
    exact h _ (gatewayKeyFromRequest_xApiKey raw)
  · intro h r hr
    rw [authenticate_isSome hr, h]

variable {t : KeyTable} {row : KeyRow}

namespace KeyTable

def nextID (t : KeyTable) : Int := (t.rows.map KeyRow.id).foldr max 0 + 1

theorem id_lt_nextID (h : row ∈ t.rows) : row.id < t.nextID := by
  have hmax : ∀ l : List Int, ∀ i ∈ l, i ≤ l.foldr max 0 := by
    intro l i hi
    induction l with
    | nil => exact absurd hi not_mem_nil
    | cons j l ih =>
      rcases mem_cons.mp hi with rfl | hi
      · exact le_max_left _ _
      · exact (ih hi).trans (le_max_right _ _)
  have := hmax _ _ (mem_map_of_mem (f := KeyRow.id) h)
  unfold nextID
  omega

theorem eq_of_id {r r' : KeyRow} (h : r ∈ t.rows) (h' : r' ∈ t.rows)
    (hid : r.id = r'.id) : r = r' :=
  inj_on_of_nodup_map t.ids h h' hid

theorem eq_of_raw {r r' : KeyRow} (h : r ∈ t.rows) (h' : r' ∈ t.rows)
    (hraw : r.raw = r'.raw) : r = r' :=
  inj_on_of_nodup_map t.raws h h' hraw

theorem nodup_map_append {β : Type*} {f : KeyRow → β} {rows : List KeyRow}
    (h : (rows.map f).Nodup) (hnew : ∀ r ∈ rows, f r ≠ f row) :
    ((rows ++ [row]).map f).Nodup := by
  rw [map_append, nodup_append]
  refine ⟨h, nodup_singleton _, fun a ha b hb => ?_⟩
  obtain ⟨r, hr, rfl⟩ := mem_map.mp ha
  rw [mem_singleton.mp hb]
  exact hnew r hr

def insert (t : KeyTable) (row : KeyRow) (hid : ∀ r ∈ t.rows, r.id ≠ row.id)
    (hraw : ∀ r ∈ t.rows, r.raw ≠ row.raw) : KeyTable where
  rows := t.rows ++ [row]
  ids := nodup_map_append t.ids hid
  raws := nodup_map_append t.raws hraw

/-- `UPDATE … SET … WHERE …`, with a change that keeps ids and never makes two texts equal. -/
def update (t : KeyTable) (cond : KeyRow → Bool) (change : KeyRow → KeyRow)
    (hid : ∀ r, (change r).id = r.id)
    (hraw : ∀ r ∈ t.rows, ∀ r' ∈ t.rows, r.raw ≠ r'.raw →
      (bif cond r then change r else r).raw ≠ (bif cond r' then change r' else r').raw) :
    KeyTable where
  rows := t.rows.map fun r => bif cond r then change r else r
  ids := by
    have hsame : ∀ r, (bif cond r then change r else r).id = r.id := by
      intro r
      cases cond r
      · rfl
      · exact hid r
    simpa only [map_map, Function.comp_def, hsame] using t.ids
  raws := by
    rw [map_map, List.Nodup, pairwise_map]
    exact (pairwise_map.mp t.raws).imp_of_mem fun hr hr' hne => hraw _ hr _ hr' hne

/-- The rows that a statement reports as changed. -/
def returning (t : KeyTable) (cond : KeyRow → Bool) (change : KeyRow → KeyRow) : List KeyRow :=
  (t.rows.filter cond).map change

end KeyTable

/-- An update with a change that keeps the texts. -/
def KeyTable.patchRows (t : KeyTable) (cond : KeyRow → Bool) (change : KeyRow → KeyRow)
    (hid : ∀ r, (change r).id = r.id) (hraw : ∀ r, (change r).raw = r.raw) : KeyTable :=
  t.update cond change hid fun r _ r' _ hne => by
    cases cond r <;> cases cond r' <;> simpa [hraw] using hne

/-- The fields that a request sets. -/
structure KeyChange where
  groupID : Option Int := none
  name : Option String := none
  status : Option KeyStatus := none
  maxConcurrency : Option Int := none
  quota : Option Int := none
  deriving DecidableEq, Repr

/-- A change of a key, made for the row as it was at `expectedUpdatedAt`. -/
structure KeyPatch extends KeyChange where
  id : Int
  expectedUpdatedAt : Int
  deriving DecidableEq, Repr

def KeyPatch.apply (p : KeyPatch) (now : Int) (row : KeyRow) : KeyRow :=
  { row with
    groupID := p.groupID.getD row.groupID
    name := p.name.getD row.name
    status := p.status.getD row.status
    maxConcurrency := p.maxConcurrency.getD row.maxConcurrency
    quota := p.quota.getD row.quota
    updatedAt := now }

def KeyPatch.cond (p : KeyPatch) (row : KeyRow) : Bool :=
  row.id = p.id && !row.deleted && row.updatedAt = p.expectedUpdatedAt

/-- The row of a live key. -/
def liveRow (id : Int) (row : KeyRow) : Bool := row.id = id && !row.deleted

def rotated (raw : GroupKey) (now : Int) (row : KeyRow) : KeyRow :=
  { row with raw, updatedAt := now }

def softDeleted (row : KeyRow) : KeyRow := { row with deleted := true }

def removed (now : Int) (row : KeyRow) : KeyRow := { softDeleted row with updatedAt := now }

namespace KeyTable

/-- A text that no row has stays unique if it is given to the row of one id. -/
theorem rotated_raw_ne {t : KeyTable} {id now : Int} {raw : GroupKey}
    (hfresh : ¬ ∃ r ∈ t.rows, r.raw = raw) :
    ∀ r ∈ t.rows, ∀ r' ∈ t.rows, r.raw ≠ r'.raw →
      (bif liveRow id r then rotated raw now r else r).raw ≠
        (bif liveRow id r' then rotated raw now r' else r').raw := by
  intro r hr r' hr' hne
  cases hsel : liveRow id r <;> cases hsel' : liveRow id r'
  · exact hne
  · exact fun heq => hfresh ⟨r, hr, heq⟩
  · exact fun heq => hfresh ⟨r', hr', heq.symm⟩
  · -- both rows have the id, so they are one row
    simp only [liveRow, Bool.and_eq_true, decide_eq_true_eq] at hsel hsel'
    exact absurd (congrArg KeyRow.raw (eq_of_id hr hr' (hsel.1.trans hsel'.1.symm))) hne

/-- The new row, or nothing if the text is taken. -/
def createKey (t : KeyTable) (userID groupID maxConcurrency quota : Int) (name : String)
    (raw : GroupKey) (now : Int) : Option (KeyTable × KeyRow) :=
  let row : KeyRow := {
    id := t.nextID, userID, groupID, name, raw, maxConcurrency, quota, updatedAt := now }
  if h : ∃ r ∈ t.rows, r.raw = raw then none
  else some (t.insert row (fun _ hr => (id_lt_nextID hr).ne) fun r hr heq => h ⟨r, hr, heq⟩, row)

def updateKey (t : KeyTable) (p : KeyPatch) (now : Int) : Option (KeyTable × KeyRow) :=
  (t.returning p.cond (p.apply now)).head?.map fun row =>
    (t.patchRows p.cond (p.apply now) (fun _ => rfl) fun _ => rfl, row)

def rotateKey (t : KeyTable) (id : Int) (raw : GroupKey) (now : Int) :
    Option (KeyTable × KeyRow) :=
  if h : ∃ r ∈ t.rows, r.raw = raw then none
  else (t.returning (liveRow id) (rotated raw now)).head?.map fun row =>
    (t.update (liveRow id) (rotated raw now) (fun _ => rfl) (rotated_raw_ne h), row)

/-- The table after a key has been deleted, if there was one. -/
def deleteKey (t : KeyTable) (id now : Int) : Option KeyTable :=
  if t.rows.any (liveRow id) then
    some (t.patchRows (liveRow id) (removed now) (fun _ => rfl) fun _ => rfl)
  else none

def inGroups (ids : List Int) (row : KeyRow) : Bool := row.groupID ∈ ids && !row.deleted

/-- The keys of groups are deleted by one statement, which reports their texts and leaves
`updated_at` alone. -/
def deleteKeysByGroup (t : KeyTable) (ids : List Int) : KeyTable × List GroupKey :=
  (t.patchRows (inGroups ids) softDeleted (fun _ => rfl) fun _ => rfl,
    (t.rows.filter (inGroups ids)).map KeyRow.raw)

end KeyTable

/-- The entry of a row, with the gate fields of its user. -/
def loadedMeta (users : Int → Option User) (row : KeyRow) : AuthMeta where
  keyID := row.id
  userID := row.userID
  groupID := row.groupID
  keyStatus := row.status
  keyMaxConc := row.maxConcurrency
  hasQuota := row.quota > 0
  quota := row.quota
  quotaUsed := row.quotaUsed
  userStatus := (users row.userID).map User.status
  userMaxConc := ((users row.userID).map User.maxConcurrency).getD 0

def inChunkSize : Nat := 8192

def chunkIDs (ids : List Int) (size : Nat) : List (List Int) :=
  (List.range ((ids.length + size - 1) / size)).map fun i => (ids.drop (i * size)).take size

theorem mem_chunkIDs {ids : List Int} {size : Nat} (hsize : 0 < size) {id : Int} :
    (∃ chunk ∈ chunkIDs ids size, id ∈ chunk) ↔ id ∈ ids := by
  simp only [chunkIDs, mem_map, mem_range]
  constructor
  · rintro ⟨_, ⟨i, -, rfl⟩, hid⟩
    exact mem_of_mem_drop (mem_of_mem_take hid)
  · intro hid
    obtain ⟨k, hk, rfl⟩ := getElem_of_mem hid
    have hdiv := Nat.div_add_mod k size
    have hmod := Nat.mod_lt k hsize
    rw [Nat.mul_comm] at hdiv
    refine ⟨_, ⟨k / size, ?_, rfl⟩, ?_⟩
    · rw [Nat.lt_iff_add_one_le, Nat.le_div_iff_mul_le hsize, Nat.add_mul]
      omega
    · refine mem_take_iff_getElem.mpr ⟨k % size, ?_, ?_⟩
      · rw [length_drop]
        omega
      · simp [hdiv]

namespace KeyTable

variable (users : Int → Option User)

/-- The ids of the live keys, which a load starts with. -/
def scanIDs (t : KeyTable) : List Int :=
  ((t.rows.filter fun row => !row.deleted).map KeyRow.id).insertionSort (· ≤ ·)

/-- One chunk of a load.  The rows are taken by their ids alone. -/
def loadChunk (t : KeyTable) (out : Keys) (chunk : List Int) : Keys :=
  (t.rows.filter fun row => row.id ∈ chunk).foldl
    (fun out row => Function.update out row.raw.text (some (loadedMeta users row))) out

/-- A load during which nothing is written. -/
def loadKeys (t : KeyTable) : Keys :=
  (chunkIDs t.scanIDs inChunkSize).foldl (t.loadChunk users) fun _ => none

/-- The key is stored, not deleted, active, and belongs to an active user. -/
def live (t : KeyTable) (raw : GroupKey) : Bool :=
  t.rows.any fun row => row.raw = raw && !row.deleted && (loadedMeta users row).active

variable {users} {t : KeyTable}

theorem live_of_mem (h : row ∈ t.rows) :
    t.live users row.raw = (!row.deleted && (loadedMeta users row).active) := by
  rw [Bool.eq_iff_iff]
  simp only [live, any_eq_true, Bool.and_eq_true, decide_eq_true_eq, and_assoc]
  constructor
  · rintro ⟨r, hr, hraw, hrest⟩
    rwa [eq_of_raw hr h hraw] at hrest
  · exact fun hrest => ⟨row, h, rfl, hrest⟩

theorem live_of_absent
    (h : ∀ row ∈ t.rows, row.deleted = false → row.raw ≠ raw) : t.live users raw = false := by
  simp only [live, any_eq_false, Bool.and_eq_true, decide_eq_true_eq, Bool.not_eq_true']
  rintro row hrow ⟨⟨hraw, hlive⟩, -⟩
  exact h row hrow hlive hraw

theorem mem_scanIDs (h : row ∈ t.rows) :
    row.id ∈ t.scanIDs ↔ row.deleted = false := by
  simp only [scanIDs, mem_insertionSort, mem_map, mem_filter]
  constructor
  · rintro ⟨r, ⟨hr, hlive⟩, hid⟩
    simpa [eq_of_id hr h hid] using hlive
  · exact fun hlive => ⟨row, ⟨h, by simp [hlive]⟩, rfl⟩

/-- A load during which nothing is written admits the keys that the table holds as usable. -/
theorem admitted_loadKeys (raw : GroupKey) :
    admitted (t.loadKeys users) raw = t.live users raw := by
  let loaded := (chunkIDs t.scanIDs inChunkSize).flatMap fun chunk =>
    t.rows.filter fun row => row.id ∈ chunk
  have hload : t.loadKeys users = loaded.foldl
      (fun (out : Keys) row => Function.update out row.raw.text (some (loadedMeta users row)))
      fun _ => none := by
    rw [foldl_flatMap]
    rfl
  have hmem : ∀ row, row ∈ loaded ↔ row ∈ t.rows ∧ row.deleted = false := by
    intro row
    simp only [loaded, mem_flatMap, mem_filter, decide_eq_true_eq]
    constructor
    · rintro ⟨chunk, hchunk, hrow, hid⟩
      exact ⟨hrow, (mem_scanIDs hrow).mp ((mem_chunkIDs (by decide)).mp ⟨chunk, hchunk, hid⟩)⟩
    · rintro ⟨hrow, hlive⟩
      have hsize : 0 < inChunkSize := by decide
      obtain ⟨chunk, hchunk, hid⟩ := (mem_chunkIDs hsize).mpr ((mem_scanIDs hrow).mpr hlive)
      exact ⟨chunk, hchunk, hrow, hid⟩
  by_cases hex : ∃ row ∈ loaded, row.raw = raw
  · obtain ⟨row, hrow, rfl⟩ := hex
    obtain ⟨hin, hlive⟩ := (hmem row).mp hrow
    have hentry : t.loadKeys users row.raw.text = some (loadedMeta users row) := by
      rw [hload]
      refine Update.foldl_insert_of_mem (f := fun row : KeyRow => row.raw.text) _ hrow ?_
      intro row' hrow' htext
      rw [eq_of_raw ((hmem row').mp hrow').1 hin (GroupKey.ext htext)]
    rw [live_of_mem hin, hlive, admitted, hentry]
    rfl
  · push Not at hex
    have hentry : t.loadKeys users raw.text = none := by
      rw [hload]
      exact Update.foldl_insert_of_notMem (f := fun row : KeyRow => row.raw.text) _
        fun row hrow htext => hex row hrow (GroupKey.ext htext)
    have hgone : t.live users raw = false :=
      live_of_absent fun row hrow hlive => hex row ((hmem row).mpr ⟨hrow, hlive⟩)
    rw [hgone, admitted, hentry]
    rfl

end KeyTable
end C4Gateway.Auth
