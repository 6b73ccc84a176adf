import Mathlib.Data.List.Sort
import Mathlib.Data.List.Dedup
import Mathlib.Algebra.BigOperators.Group.List.Basic
import Mathlib.Algebra.Order.Ring.Int

/-! A fragment of SQL over lists of rows: three-valued conditions, joins, ORDER BY with LIMIT,
grouped sums, running sums over a ROWS frame, and UPDATE .. FROM against one snapshot.  NULL is
`none`. -/

namespace C4Gateway.Sql

open List

/-- The three truth values of a condition. -/
inductive Truth where
  | yes
  | no
  | unknown
  deriving DecidableEq, Repr

namespace Truth

def ofBool : Bool → Truth
  | true => yes
  | false => no

def and : Truth → Truth → Truth
  | yes, b => b
  | no, _ => no
  | unknown, no => no
  | unknown, _ => unknown

def or : Truth → Truth → Truth
  | yes, _ => yes
  | no, b => b
  | unknown, yes => yes
  | unknown, _ => unknown

def not : Truth → Truth
  | yes => no
  | no => yes
  | unknown => unknown

/-- WHERE, ON and HAVING keep a row when its condition is TRUE, and drop it on UNKNOWN. -/
def holds : Truth → Bool
  | yes => true
  | _ => false

@[simp] theorem holds_ofBool (b : Bool) : (ofBool b).holds = b := by cases b <;> rfl

@[simp] theorem holds_not_ofBool (b : Bool) : (ofBool b).not.holds = !b := by cases b <;> rfl

@[simp] theorem holds_and (a b : Truth) : (a.and b).holds = (a.holds && b.holds) := by
  cases a <;> cases b <;> rfl

@[simp] theorem holds_or (a b : Truth) : (a.or b).holds = (a.holds || b.holds) := by
  cases a <;> cases b <;> rfl

end Truth

section
variable {α β : Type}

/-- `a = b`, UNKNOWN when either side is NULL. -/
def eq [DecidableEq α] : Option α → Option α → Truth
  | some a, some b => .ofBool (decide (a = b))
  | _, _ => .unknown

def gt : Option Int → Option Int → Truth
  | some a, some b => .ofBool (decide (b < a))
  | _, _ => .unknown

def isNull (a : Option α) : Truth := .ofBool a.isNone

def isNotNull (a : Option α) : Truth := .ofBool a.isSome

/-- `a IS NOT DISTINCT FROM b`: two NULLs are equal. -/
def notDistinct [DecidableEq α] (a b : Option α) : Truth := .ofBool (decide (a = b))

def existsRow (rows : List α) (p : α → Truth) : Truth := .ofBool (rows.any fun r => (p r).holds)

@[simp] theorem holds_eq [DecidableEq α] (a b : Option α) :
    (eq a b).holds = decide (a.isSome = true ∧ a = b) := by
  cases a <;> cases b <;> first | rfl | simp [eq]

@[simp] theorem holds_gt (a : Option Int) (y : Int) :
    (gt a (some y)).holds = a.any fun x => decide (y < x) := by
  cases a <;> first | rfl | simp [gt]

@[simp] theorem holds_isNull (a : Option α) : (isNull a).holds = a.isNone := by simp [isNull]

@[simp] theorem holds_isNotNull (a : Option α) : (isNotNull a).holds = a.isSome := by
  simp [isNotNull]

@[simp] theorem holds_notDistinct [DecidableEq α] (a b : Option α) :
    (notDistinct a b).holds = decide (a = b) := by simp [notDistinct]

@[simp] theorem holds_existsRow (rows : List α) (p : α → Truth) :
    (existsRow rows p).holds = rows.any fun r => (p r).holds := by simp [existsRow]

@[simp] theorem holds_not_existsRow (rows : List α) (p : α → Truth) :
    (existsRow rows p).not.holds = !rows.any fun r => (p r).holds := by simp [existsRow]

end

section
variable {α β γ κ : Type}

def whereRows (p : α → Truth) (rows : List α) : List α := rows.filter fun r => (p r).holds

def leftJoin (rows : List α) (other : List β) (on : α → β → Truth) : List (α × Option β) :=
  rows.flatMap fun r =>
    match other.filter fun q => (on r q).holds with
    | [] => [(r, none)]
    | found => found.map fun q => (r, some q)

def join (rows : List α) (other : List β) (on : α → β → Truth) : List (α × β) :=
  rows.flatMap fun r => (other.filter fun q => (on r q).holds).map fun q => (r, q)

/-- ORDER BY `key` LIMIT `n`. -/
def orderLimit (key : α → Int) (n : Nat) (rows : List α) : List α :=
  (rows.insertionSort fun a b => key a ≤ key b).take n

/-- SELECT `key`, SUM(`val`) GROUP BY `key`. -/
def groupSum [DecidableEq κ] (key : α → κ) (val : α → Int) (rows : List α) : List (κ × Int) :=
  (rows.map key).dedup.map fun k => (k, ((rows.filter fun r => key r = k).map val).sum)

/-- A row with its ROW_NUMBER and its SUM over the rows of its partition up to itself. -/
structure Framed (α : Type) where
  row : α
  rn : Nat
  cum : Int
  deriving DecidableEq, Repr

def frames (val : α → Int) : Nat → Int → List α → List (Framed α)
  | _, _, [] => []
  | n, c, r :: rows => ⟨r, n + 1, c + val r⟩ :: frames val (n + 1) (c + val r) rows

/-- ROW_NUMBER() and SUM(`val`) OVER (PARTITION BY `part` ORDER BY `le` ROWS BETWEEN UNBOUNDED
PRECEDING AND CURRENT ROW). -/
def window [DecidableEq κ] (part : α → κ) (le : α → α → Prop) [DecidableRel le] (val : α → Int)
    (rows : List α) : List (Framed α) :=
  (rows.map part).dedup.flatMap fun k =>
    frames val 0 0 ((rows.filter fun r => part r = k).insertionSort le)

/-- A value that a sequence has given to no stored row. -/
def nextID (ids : List Int) : Int := ids.foldr max 0 + 1

/-- The order in which a query without ORDER BY returns its rows. -/
structure Scan (α : Type*) where
  arrange : List α → List α
  perm : ∀ rows, (arrange rows).Perm rows

/-- The FROM row that an UPDATE joins to the target row `r`. -/
def joined (froms : List β) (on : α → β → Truth) (r : α) : Option β :=
  froms.find? fun q => (on r q).holds

def returning (rows : List α) (froms : List β) (on : α → β → Truth) (out : α → β → γ) : List γ :=
  rows.filterMap fun r => (joined froms on r).map (out r)

/-- A table after the UPDATEs of one statement.  Each reads the snapshot, and a row is modified by
one of them at most. -/
def update (cmds : List (α → Option α)) (rows : List α) : List α :=
  rows.map fun r => (cmds.findSome? fun cmd => cmd r).getD r

theorem lt_nextID {ids : List Int} {i : Int} (h : i ∈ ids) : i < nextID ids := by
  induction ids with
  | nil => exact absurd h not_mem_nil
  | cons j ids ih =>
    simp only [nextID, foldr_cons] at ih ⊢
    rcases mem_cons.mp h with rfl | h
    · omega
    · have := ih h
      omega

theorem nextID_notMem (ids : List Int) : nextID ids ∉ ids :=
  fun h => absurd (lt_nextID h) (lt_irrefl _)

variable {l rows : List α} {key : α → κ} {r : α} {other : List β} {on : α → β → Truth}

theorem filter_eq_joined (h : (other.filter fun q => (on r q).holds).length ≤ 1) :
    (other.filter fun q => (on r q).holds) = (joined other on r).toList := by
  rw [joined, ← head?_filter]
  match hm : other.filter fun q => (on r q).holds with
  | [] => rfl
  | [q] => rfl
  | _ :: _ :: _ => simp [hm] at h

theorem leftJoin_of_unique (h : ∀ r ∈ rows, (other.filter fun q => (on r q).holds).length ≤ 1) :
    leftJoin rows other on = rows.map fun r => (r, joined other on r) := by
  rw [map_eq_flatMap]
  refine flatMap_congr fun r hr => ?_
  rw [filter_eq_joined (h r hr)]
  cases joined other on r <;> rfl

theorem exists_mem_leftJoin : (∃ q, (r, q) ∈ leftJoin rows other on) ↔ r ∈ rows := by
  simp only [leftJoin, mem_flatMap]
  constructor
  · rintro ⟨q, r', hr', hq⟩
    split at hq
    · obtain ⟨rfl, _⟩ : r = r' ∧ q = none := by simpa using hq
      exact hr'
    · obtain ⟨_, _, h⟩ := mem_map.mp hq
      obtain rfl : r' = r := congrArg Prod.fst h
      exact hr'
  · intro hr
    cases hm : other.filter fun q => (on r q).holds with
    | nil => exact ⟨none, r, hr, by simp [hm]⟩
    | cons q rest => exact ⟨some q, r, hr, by simp [hm]⟩

theorem join_map_fst (h : ∀ r ∈ rows, (other.filter fun q => (on r q).holds).length ≤ 1) :
    (join rows other on).map Prod.fst = rows.filter fun r => (joined other on r).isSome := by
  induction rows with
  | nil => rfl
  | cons r rows ih =>
    have hrest := ih fun q hq => h q (by simp [hq])
    rw [join] at hrest ⊢
    rw [flatMap_cons, map_append, hrest, filter_cons,
      filter_eq_joined (h r (by simp))]
    cases joined other on r <;> rfl

theorem filter_length_le_one {l : List β} (hl : l.Nodup) {p : β → Bool}
    (hp : ∀ a ∈ l, ∀ b ∈ l, p a = true → p b = true → a = b) : (l.filter p).length ≤ 1 := by
  match hm : l.filter p with
  | [] => simp
  | [_] => simp
  | a :: b :: rest =>
    have hnd := hl.filter p
    have ha : a ∈ l.filter p := by simp [hm]
    have hb : b ∈ l.filter p := by simp [hm]
    have hab := hp a (mem_filter.mp ha).1 b (mem_filter.mp hb).1
      (mem_filter.mp ha).2 (mem_filter.mp hb).2
    rw [hm] at hnd
    simp [hab] at hnd

theorem filter_key_eq [DecidableEq κ] (keys : (rows.map key).Nodup) (h : r ∈ rows) :
    rows.filter (fun q => key q = key r) = [r] := by
  induction rows with
  | nil => cases h
  | cons q rows ih =>
    obtain ⟨hq, keys⟩ := nodup_cons.mp keys
    rcases mem_cons.mp h with rfl | h
    · have : rows.filter (fun q => key q = key r) = [] := by
        refine filter_eq_nil_iff.mpr fun p hp => ?_
        have : key p ≠ key r := fun hk => hq (hk ▸ mem_map_of_mem hp)
        simpa using this
      simp [this]
    · have hne : key q ≠ key r := fun hk => hq (hk ▸ mem_map_of_mem h)
      simpa [hne] using ih keys h

/-- A row found by its unique key. -/
theorem find?_key_iff [DecidableEq κ] {k : κ} (keys : (rows.map key).Nodup) :
    rows.find? (fun q => key q = k) = some r ↔ r ∈ rows ∧ key r = k := by
  constructor
  · intro h
    exact ⟨mem_of_find?_eq_some h, by simpa using find?_some h⟩
  · rintro ⟨hr, hk⟩
    obtain ⟨q, hq⟩ : ∃ q, rows.find? (fun q => key q = k) = some q :=
      Option.isSome_iff_exists.mp (find?_isSome.mpr ⟨r, hr, by simpa using hk⟩)
    have hqk : key q = k := by simpa using find?_some hq
    rw [hq, inj_on_of_nodup_map keys (mem_of_find?_eq_some hq) hr (hqk.trans hk.symm)]

theorem mem_join {p : α × β} :
    p ∈ join rows other on ↔ p.1 ∈ rows ∧ p.2 ∈ other ∧ (on p.1 p.2).holds = true := by
  obtain ⟨r, q⟩ := p
  simp [join]

theorem frames_split {val : α → Int} {n : Nat} {c : Int} {f : Framed α} (h : f ∈ frames val n c l) :
    ∃ pre post, l = pre ++ f.row :: post ∧ f.cum = c + (pre.map val).sum + val f.row := by
  induction l generalizing n c with
  | nil => simp [frames] at h
  | cons r rows ih =>
    rcases mem_cons.mp h with rfl | h
    · exact ⟨[], rows, rfl, by simp⟩
    · obtain ⟨pre, post, rfl, hcum⟩ := ih h
      exact ⟨r :: pre, post, rfl, by rw [map_cons, sum_cons]; omega⟩

theorem exists_frame (val : α → Int) (h : r ∈ l) (n : Nat) (c : Int) :
    ∃ f ∈ frames val n c l, f.row = r := by
  induction l generalizing n c with
  | nil => cases h
  | cons q rows ih =>
    rcases mem_cons.mp h with rfl | h
    · exact ⟨⟨r, n + 1, c + val r⟩, by simp [frames], rfl⟩
    · obtain ⟨f, hf, hrow⟩ := ih h (n + 1) (c + val q)
      exact ⟨f, by simp [frames, hf], hrow⟩

section
variable [DecidableEq κ] {part : α → κ} {le : α → α → Prop} [DecidableRel le] {val : α → Int}
  {rows : List α}

theorem mem_window {f : Framed α} (h : f ∈ window part le val rows) :
    f ∈ frames val 0 0 ((rows.filter fun r => part r = part f.row).insertionSort le) := by
  obtain ⟨k, _, hf⟩ := mem_flatMap.mp h
  obtain ⟨pre, post, hl, _⟩ := frames_split hf
  have hrow : f.row ∈ (rows.filter fun r => part r = k).insertionSort le := by simp [hl]
  obtain rfl : part f.row = k := by simpa using (mem_filter.mp
    ((mem_insertionSort le).mp hrow)).2
  exact hf

theorem exists_window (h : r ∈ rows) : ∃ f ∈ window part le val rows, f.row = r := by
  obtain ⟨f, hf, hrow⟩ := exists_frame val ((mem_insertionSort le).mpr
    (mem_filter.mpr ⟨h, by simp⟩ : r ∈ rows.filter fun q => part q = part r)) 0 0
  exact ⟨f, mem_flatMap.mpr ⟨part r, by simpa using ⟨r, h, rfl⟩, hf⟩, hrow⟩

end

variable {cmds : List (α → Option α)} {froms : List β}

theorem mem_returning {out : α → β → γ} {c : γ} : c ∈ returning rows froms on out ↔
      ∃ r ∈ rows, ∃ q, joined froms on r = some q ∧ out r q = c := by
  simp [returning]

theorem joined_some {q : β} (h : joined froms on r = some q) : q ∈ froms ∧ (on r q).holds = true :=
  ⟨mem_of_find?_eq_some h, by simpa using find?_some h⟩

theorem joined_none : joined froms on r = none ↔ ∀ q ∈ froms, (on r q).holds = false := by
  simp [joined]

theorem mem_update {r' : α} (h : r' ∈ update cmds rows) :
    r' ∈ rows ∨ ∃ cmd ∈ cmds, ∃ r ∈ rows, cmd r = some r' := by
  obtain ⟨r, hr, hset⟩ := mem_map.mp h
  cases hf : cmds.findSome? fun cmd => cmd r with
  | none => left; rw [hf] at hset; exact hset ▸ hr
  | some s =>
    rw [hf] at hset
    obtain ⟨cmd, hcmd, hs⟩ := exists_of_findSome?_eq_some hf
    exact .inr ⟨cmd, hcmd, r, hr, hs.trans (congrArg some hset)⟩

theorem update_one (cmd : α → Option α) (rows : List α) :
    update [cmd] rows = rows.map fun r => (cmd r).getD r := by
  refine map_congr_left fun r _ => ?_
  cases h : cmd r <;> simp [h]

theorem update_map_key (h : ∀ cmd ∈ cmds, ∀ r r', cmd r = some r' → key r' = key r) :
    (update cmds rows).map key = rows.map key := by
  rw [update, map_map]
  refine map_congr_left fun r _ => ?_
  cases hf : cmds.findSome? fun cmd => cmd r with
  | none => simp [hf]
  | some s =>
    obtain ⟨cmd, hcmd, hs⟩ := exists_of_findSome?_eq_some hf
    simpa [hf] using h cmd hcmd r s hs

theorem sum_filter_add_sum_filter_not (val : α → Int) (p : α → Bool) (rows : List α) :
    ((rows.filter p).map val).sum + ((rows.filter fun r => !p r).map val).sum =
      (rows.map val).sum := by
  rw [← sum_append, ← map_append]
  exact ((filter_append_perm p rows).map val).sum_eq

theorem sum_filter_of_zero {val : α → Int} {p : α → Bool}
    (h : ∀ r ∈ rows, p r = false → val r = 0) :
    ((rows.filter p).map val).sum = (rows.map val).sum := by
  have hzero : ((rows.filter fun r => !p r).map val).sum = 0 := by
    refine sum_eq_zero fun v hv => ?_
    obtain ⟨r, hr, rfl⟩ := mem_map.mp hv
    exact h r (mem_of_mem_filter hr) (by simpa using (mem_filter.mp hr).2)
  rw [← sum_filter_add_sum_filter_not val p rows, hzero, add_zero]

section
variable [DecidableEq κ] {key : α → κ} {val : α → Int} {rows : List α}

theorem groupSum_keys : ((groupSum key val rows).map Prod.fst).Nodup := by
  rw [groupSum]
  simpa [Function.comp_def] using nodup_dedup (rows.map key)

theorem mem_groupSum {g : κ × Int} : g ∈ groupSum key val rows ↔
    (∃ r ∈ rows, key r = g.1) ∧ g.2 = ((rows.filter fun r => key r = g.1).map val).sum := by
  simp only [groupSum, mem_map, mem_dedup]
  grind

variable (key val rows) in
theorem groupSum_lookup (k : κ) :
    (((groupSum key val rows).filter fun g => g.1 = k).map Prod.snd).sum =
      ((rows.filter fun r => key r = k).map val).sum := by
  by_cases h : ∃ r ∈ rows, key r = k
  · have hmem : (k, ((rows.filter fun r => key r = k).map val).sum) ∈ groupSum key val rows :=
      mem_groupSum.mpr ⟨h, rfl⟩
    simp [filter_key_eq groupSum_keys hmem]
  · have hrows : rows.filter (fun r => key r = k) = [] :=
      filter_eq_nil_iff.mpr fun r hr => by simpa using fun hk => h ⟨r, hr, hk⟩
    have hgroups : (groupSum key val rows).filter (fun g => g.1 = k) = [] := by
      refine filter_eq_nil_iff.mpr fun g hg => ?_
      simpa using fun hk : g.1 = k => h (hk ▸ (mem_groupSum.mp hg).1)
    rw [hrows, hgroups]
    rfl

variable (key val) in
/-- The sums over the groups of distinct keys add up to the sum over all rows, when the rows
outside the groups have value 0. -/
theorem sum_groups {keys : List κ} (h : keys.Nodup) : ∀ {rows : List α},
    (∀ r ∈ rows, key r ∉ keys → val r = 0) →
    (keys.map fun k => ((rows.filter fun r => key r = k).map val).sum).sum =
      (rows.map val).sum := by
  induction keys with
  | nil =>
    intro rows hout
    refine (sum_eq_zero fun v hv => ?_).symm
    obtain ⟨r, hr, rfl⟩ := mem_map.mp hv
    exact hout r hr (by simp)
  | cons k keys ih =>
    intro rows hout
    obtain ⟨hk, h⟩ := nodup_cons.mp h
    have hrest : ∀ r ∈ rows.filter (fun r => !decide (key r = k)), key r ∉ keys → val r = 0 := by
      intro r hr hmem
      have hne : key r ≠ k := by simpa using (mem_filter.mp hr).2
      exact hout r (mem_of_mem_filter hr) (by simp [hne, hmem])
    rw [map_cons, sum_cons, ← sum_filter_add_sum_filter_not val (fun r => key r = k) rows,
      ← ih h hrest]
    congr 2
    refine map_congr_left fun k' hk' => ?_
    rw [filter_filter]
    congr 2
    refine filter_congr fun r _ => ?_
    by_cases hr : key r = k'
    · have : k' ≠ k := fun heq => hk (heq ▸ hk')
      simp [hr, this]
    · simp [hr]

variable (key val) in
theorem sum_groups_filter {keys : List κ} (h : keys.Nodup) {p : α → Bool} {rows : List α}
    (hin : ∀ r ∈ rows, key r ∈ keys → p r = true)
    (hout : ∀ r ∈ rows, p r = true → key r ∉ keys → val r = 0) :
    (keys.map fun k => ((rows.filter fun r => key r = k).map val).sum).sum =
      ((rows.filter p).map val).sum := by
  rw [← sum_groups key val h fun r hr => hout r (mem_of_mem_filter hr)
    (by simpa using (mem_filter.mp hr).2)]
  congr 1
  refine map_congr_left fun k hk => ?_
  rw [filter_filter]
  congr 2
  refine filter_congr fun r hr => ?_
  by_cases hkey : key r = k
  · simp [hin r hr (hkey ▸ hk)]
  · simp [hkey]

end

section

section
variable [LinearOrder κ] {key : α → κ} {rows : List α}

theorem sorted_pairwise :
    (rows.insertionSort fun a b => key a ≤ key b).Pairwise fun a b => key a ≤ key b := by
  have : Std.Total fun a b : α => key a ≤ key b := ⟨fun a b => le_total (key a) (key b)⟩
  have : IsTrans α fun a b => key a ≤ key b := ⟨fun _ _ _ => le_trans⟩
  exact pairwise_insertionSort _ rows

theorem sorted_pairwise_lt (h : (rows.map key).Nodup) :
    (rows.insertionSort fun a b => key a ≤ key b).Pairwise fun a b => key a < key b := by
  have hperm := (perm_insertionSort (fun a b => key a ≤ key b) rows).map key
  exact sorted_pairwise.imp₂ (fun _ _ => lt_of_le_of_ne)
    (pairwise_map.mp (hperm.nodup_iff.mpr h))

end

variable {key : α → Int} {n : Nat} {rows : List α}

theorem mem_of_mem_orderLimit (h : r ∈ orderLimit key n rows) : r ∈ rows :=
  (mem_insertionSort _).mp (mem_of_mem_take h)

theorem orderLimit_pairwise : (orderLimit key n rows).Pairwise fun a b => key a ≤ key b :=
  sorted_pairwise.sublist (take_sublist n _)

theorem orderLimit_nodup (h : rows.Nodup) : (orderLimit key n rows).Nodup :=
  ((perm_insertionSort _ rows).nodup_iff.mpr h).sublist (take_sublist n _)

theorem orderLimit_le {w : α} (hw : w ∈ orderLimit key n rows) (hr : r ∈ rows)
    (hout : r ∉ orderLimit key n rows) : key w ≤ key r := by
  have hs : (rows.insertionSort fun a b => key a ≤ key b).Pairwise _ := sorted_pairwise
  rw [← take_append_drop n (rows.insertionSort _)] at hs
  refine (pairwise_append.mp hs).2.2 w hw r ?_
  have : r ∈ rows.insertionSort fun a b => key a ≤ key b := (mem_insertionSort _).mpr hr
  rw [← take_append_drop n (rows.insertionSort _)] at this
  exact (mem_append.mp this).resolve_left hout

theorem orderLimit_map {f : α → β} (key : α → Int) {key' : β → Int} (h : ∀ r, key' (f r) = key r) :
    orderLimit key' n (rows.map f) = (orderLimit key n rows).map f := by
  rw [orderLimit, orderLimit, map_take, ← map_insertionSort (fun a b => key a ≤ key b)
    (fun a b => key' a ≤ key' b) f rows fun a _ b _ => by rw [h, h]]

theorem orderLimit_head? (hn : 1 ≤ n) :
    (orderLimit key n rows).head? = (orderLimit key 1 rows).head? := by
  cases hs : rows.insertionSort fun a b => key a ≤ key b with
  | nil => simp [orderLimit, hs]
  | cons a rest =>
    obtain ⟨m, rfl⟩ : ∃ m, n = m + 1 := ⟨n - 1, by omega⟩
    simp [orderLimit, hs]

theorem orderLimit_of_sorted (h : rows.Pairwise fun a b => key a ≤ key b) :
    orderLimit key n rows = rows.take n := by
  rw [orderLimit, h.insertionSort_eq]

theorem orderLimit_eq_nil (hn : 1 ≤ n) : orderLimit key n rows = [] ↔ rows = [] := by
  have hsort : (rows.insertionSort fun a b => key a ≤ key b) = [] ↔ rows = [] := by
    rw [← length_eq_zero_iff, length_insertionSort, length_eq_zero_iff]
  rw [orderLimit, take_eq_nil_iff, hsort, or_iff_right (by omega)]

theorem mem_take_iff (h : rows.Pairwise fun a b => key a < key b) :
    r ∈ rows.take n ↔ r ∈ rows ∧ (rows.filter fun a => key a < key r).length < n := by
  induction rows generalizing n with
  | nil => simp
  | cons a rest ih =>
    obtain ⟨hfirst, hrest⟩ := pairwise_cons.mp h
    cases n with
    | zero => simp
    | succ n =>
      rw [take_succ_cons, mem_cons, ih hrest]
      by_cases hr : r = a
      · subst hr
        have hnone : rest.filter (fun b => key b < key r) = [] :=
          filter_eq_nil_iff.mpr fun b hb => by simpa using (hfirst b hb).le
        simp [hnone]
      · by_cases hmem : r ∈ rest
        · simp [hr, hfirst r hmem]
        · simp [hr, hmem]

/-- A row is within the LIMIT exactly when fewer rows than that come before it. -/
theorem mem_orderLimit_iff (h : (rows.map key).Nodup) : r ∈ orderLimit key n rows ↔
    r ∈ rows ∧ (rows.filter fun a => key a < key r).length < n := by
  have hperm := perm_insertionSort (fun a b => key a ≤ key b) rows
  rw [orderLimit, mem_take_iff (sorted_pairwise_lt h), hperm.mem_iff, (hperm.filter _).length_eq]

theorem filter_notMem_take [DecidableEq α] (h : rows.Nodup) (n : Nat) :
    rows.filter (fun r => r ∉ rows.take n) = rows.drop n := by
  have hsplit := take_append_drop n rows
  have hdisjoint : List.Disjoint (rows.take n) (rows.drop n) :=
    disjoint_of_nodup_append (hsplit.symm ▸ h)
  have hfilter : (rows.take n ++ rows.drop n).filter (fun r => r ∉ rows.take n) = rows.drop n := by
    rw [filter_append, filter_eq_nil_iff.mpr fun r hr => by simpa using hr,
      filter_eq_self.mpr fun r hr => by simpa using fun hin => hdisjoint hin hr]
    rfl
  rwa [hsplit] at hfilter

end
end

/-! The steps of a transaction, which ends with the first one that fails. -/
section
variable {ε α β : Type}

theorem bind_eq_ok_iff {x : Except ε α} {f : α → Except ε β} {b : β} :
    (x >>= f) = .ok b ↔ ∃ a, x = .ok a ∧ f a = .ok b := by
  cases x <;> simp [bind, Except.bind]

theorem ite_error_eq_ok_iff {p : Prop} [Decidable p] {e : ε} {x : Except ε α} {a : α} :
    (if p then .error e else x) = .ok a ↔ ¬p ∧ x = .ok a := by
  by_cases h : p <;> simp [h]

end
end C4Gateway.Sql
