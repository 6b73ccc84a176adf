import C4Gateway.Pricing.Cost
import Mathlib.Algebra.BigOperators.Group.List.Basic

/-! The fractions the live path carries from request to request.  A token price leaves a remainder
of the division by 1 000 000 and the multiplier one of the division by 10 000; the accumulator keeps
both in a cell of their own for every pricing identity.  A call works under its cell's lock and a
retired cell is not in the map, so a history is a list of calls; the order in which `Range` visits
the map is an argument. -/

namespace C4Gateway

open Prod

def maxBillingMultiplier : Int := 100000

def maxUpstreamMultiplier : Int := 1000000

def remainderSweepEvery : UInt64 := 4096

def remainderIdleSeconds : Int := 24 * 3600

def maxRemainderCells : Int := 65536

def normalizeMultiplier (m maxMultiplier : Int) : Int :=
  if m < 0 then 0 else if m > maxMultiplier then maxMultiplier else m

def normalizeBillingMultiplier (m : Int) : Int := normalizeMultiplier m maxBillingMultiplier

def normalizeUpstreamMultiplier (m : Int) : Int := normalizeMultiplier m maxUpstreamMultiplier

/-- The version of the live path: it looks for the base before it clamps the multiplier. -/
def multiplierFloorPartsWithMax (cost m maxMultiplier : Int) : Int × Int :=
  if cost ≤ 0 ∨ m ≤ 0 then (0, 0)
  else if m = billingMultiplierBase then (cost, 0)
  else
    let maxMultiplier := if maxMultiplier < 0 then 0 else maxMultiplier
    let m := if m > maxMultiplier then maxMultiplier else m
    if m ≤ 0 then (0, 0) else scaledParts cost m

/-- The identity a fraction belongs to, with the price snapshot it was computed from. -/
structure MultiplierRemainderKey where
  scope : String := ""
  upstreamID : Int := 0
  accountID : Int := 0
  keyID : Int := 0
  userID : Int := 0
  groupID : Int := 0
  model : String := ""
  multiplier : Int
  prices : ResolvedPrices := {}
  deriving DecidableEq

def maxMultiplierForKey (key : MultiplierRemainderKey) : Int :=
  if key.scope = "upstream" then maxUpstreamMultiplier else maxBillingMultiplier

/-- The fractions not charged yet for one key; each is less than a whole unit. -/
structure MultiplierRemainderCell where
  rawRemainder : Int := 0
  multiplierRemainder : Int := 0
  lastUsedUnix : Int := 0
  raw_range : 0 ≤ rawRemainder ∧ rawRemainder < costRemainderScale := by decide
  multiplier_range : 0 ≤ multiplierRemainder ∧ multiplierRemainder < billingMultiplierBase := by
    decide

/-- The raw amount of a request and the remainder to keep.  `none` when the amount saturates at
`maxInt64`, where the remainder is dropped. -/
def rawStage (parts : CostParts) (rawRemainder : Int) : Option (Int × Int) :=
  let raw := max 0 parts.units
  if raw < maxInt64 then
    let remainder := max 0 parts.remainder
    let total := rawRemainder + remainder % costRemainderScale
    let carry := remainder / costRemainderScale + total / costRemainderScale
    if raw > maxInt64 - carry then none else some (raw + carry, total % costRemainderScale)
  else none

def billedStage (key : MultiplierRemainderKey) (raw multiplierRemainder : Int) :
    Option (Int × Int) :=
  let (billed, fraction) :=
    multiplierFloorPartsWithMax raw key.multiplier (maxMultiplierForKey key)
  if billed = maxInt64 then none
  else
    let total := multiplierRemainder + fraction
    let carry := total / billingMultiplierBase
    if billed > maxInt64 - carry then none
    else some (billed + carry, total % billingMultiplierBase)

def saturated : Int × Int := (maxInt64, 0)

def CostParts.numerator (parts : CostParts) : Int :=
  max 0 parts.units * costRemainderScale + max 0 parts.remainder

def MultiplierRemainderKey.clamped (key : MultiplierRemainderKey) : Int :=
  normalizeMultiplier key.multiplier (maxMultiplierForKey key)

variable {x : Int × Int} {key : MultiplierRemainderKey}

theorem rawStage_some {parts : CostParts} {r : Int} (h : rawStage parts r = some x) :
    x.2 + costRemainderScale * x.1 = r + parts.numerator ∧ (0 ≤ x.2 ∧ x.2 < costRemainderScale) ∧
      x.1 ≤ maxInt64 := by
  simp only [rawStage] at h
  split at h
  · split_ifs at h
    cases h
    simp only [CostParts.numerator, costRemainderScale, milliPerMillion] at *
    omega
  · cases h

theorem multiplierFloorPartsWithMax_eq {maxMultiplier : Int} (cost m : Int)
    (hmax : billingMultiplierBase < maxMultiplier) :
    multiplierFloorPartsWithMax cost m maxMultiplier =
      multiplierFloorParts cost m maxMultiplier := by
  have hbase : 0 < billingMultiplierBase := by decide
  unfold multiplierFloorPartsWithMax multiplierFloorParts
  rw [if_neg (show ¬ maxMultiplier < 0 by omega)]
  split
  · rfl
  · dsimp only
    split_ifs <;> first | rfl | omega

theorem lt_maxMultiplierForKey (key : MultiplierRemainderKey) :
    billingMultiplierBase < maxMultiplierForKey key := by
  unfold maxMultiplierForKey
  split <;> decide

theorem normalizeMultiplier_eq {maxMultiplier : Int} (m : Int) (hmax : 0 ≤ maxMultiplier) :
    normalizeMultiplier m maxMultiplier = max 0 (min m maxMultiplier) := by
  unfold normalizeMultiplier
  split_ifs <;> omega

theorem billedStage_some {raw r : Int} (h : billedStage key raw r = some x) :
    (0 ≤ raw → raw ≤ maxInt64 → x.2 + billingMultiplierBase * x.1 = r + raw * key.clamped) ∧
      0 ≤ x.2 ∧ x.2 < billingMultiplierBase := by
  have hmax := lt_maxMultiplierForKey key
  have hpos : 0 < maxMultiplierForKey key := lt_trans (by decide) hmax
  simp only [billedStage, multiplierFloorPartsWithMax_eq _ _ hmax] at h
  split_ifs at h with hne
  cases h
  refine ⟨fun hraw hle => ?_, ?_⟩
  · rw [multiplierFloorParts_eq _ hle hpos] at hne ⊢
    have := floorParts_exact hne
    rw [max_eq_left hraw, ← normalizeMultiplier_eq _ hpos.le] at this ⊢
    simp only [billingMultiplierBase, MultiplierRemainderKey.clamped] at this ⊢
    omega
  · simp only [billingMultiplierBase]
    omega

theorem rawStage_range (parts : CostParts) (r : Int) :
    0 ≤ ((rawStage parts r).getD saturated).2 ∧
      ((rawStage parts r).getD saturated).2 < costRemainderScale := by
  cases h : rawStage parts r with
  | none => exact ⟨le_refl 0, by decide⟩
  | some x => exact (rawStage_some h).2.1

theorem billedStage_range (key : MultiplierRemainderKey) (raw r : Int) :
    0 ≤ ((billedStage key raw r).getD saturated).2 ∧
      ((billedStage key raw r).getD saturated).2 < billingMultiplierBase := by
  cases h : billedStage key raw r with
  | none => exact ⟨le_refl 0, by decide⟩
  | some x => exact (billedStage_some h).2

namespace MultiplierRemainderCell

def settled (cell : MultiplierRemainderCell) : Bool :=
  cell.rawRemainder == 0 && cell.multiplierRemainder == 0

def charge (cell : MultiplierRemainderCell) (now : Int) (parts : CostParts)
    (key : MultiplierRemainderKey) : (Int × Int) × MultiplierRemainderCell :=
  let raw := (rawStage parts cell.rawRemainder).getD saturated
  let billed := (billedStage key raw.1 cell.multiplierRemainder).getD saturated
  ((raw.1, billed.1),
    { rawRemainder := raw.2, multiplierRemainder := billed.2, lastUsedUnix := now
      raw_range := rawStage_range .., multiplier_range := billedStage_range .. })

def saturates (cell : MultiplierRemainderCell) (parts : CostParts)
    (key : MultiplierRemainderKey) : Bool :=
  match rawStage parts cell.rawRemainder with
  | none => true
  | some raw => (billedStage key raw.1 cell.multiplierRemainder).isNone

end MultiplierRemainderCell

/-- The fallback when no cell is free: every positive fraction is rounded up at once. -/
def applyConservativeCostWithMax (parts : CostParts) (multiplier maxMultiplier : Int) :
    Int × Int :=
  let units := max 0 parts.units
  let rem := max 0 parts.remainder
  let units :=
    if units < maxInt64 then
      if units > maxInt64 - rem / costRemainderScale then maxInt64
      else units + rem / costRemainderScale
    else units
  let units := if units < maxInt64 ∧ rem % costRemainderScale ≠ 0 then units + 1 else units
  let maxMultiplier := if maxMultiplier < 0 then 0 else maxMultiplier
  let m := normalizeMultiplier multiplier maxMultiplier
  if m = 0 ∨ units ≤ 0 then (units, 0)
  else
    let (billed, fraction) := multiplierFloorPartsWithMax units m maxMultiplier
    (units, if billed < maxInt64 ∧ fraction > 0 then billed + 1 else billed)

/-- The remainders by key; `cells` counts them, and `ops` decides when to sweep. -/
structure MultiplierRemainderAccumulator where
  values : MultiplierRemainderKey → Option MultiplierRemainderCell := fun _ => none
  ops : UInt64 := 0
  cells : Int := 0

namespace MultiplierRemainderAccumulator

def retire (a : MultiplierRemainderAccumulator) (idle : MultiplierRemainderCell → Bool)
    (key : MultiplierRemainderKey) : MultiplierRemainderAccumulator :=
  match a.values key with
  | none => a
  | some cell =>
    if idle cell && cell.settled then
      { a with values := Function.update a.values key none, cells := a.cells - 1 }
    else a

def sweep (a : MultiplierRemainderAccumulator) (cutoffUnix : Int)
    (order : List MultiplierRemainderKey) : MultiplierRemainderAccumulator :=
  order.foldl (fun a => a.retire fun cell => cell.lastUsedUnix < cutoffUnix) a

def trimSettled (a : MultiplierRemainderAccumulator) :
    List MultiplierRemainderKey → MultiplierRemainderAccumulator
  | [] => a
  | key :: order =>
    if a.cells < maxRemainderCells then a
    else trimSettled (a.retire (fun _ => true) key) order

def reserveCell (a : MultiplierRemainderAccumulator) : Option MultiplierRemainderAccumulator :=
  if a.cells ≥ maxRemainderCells then none else some { a with cells := a.cells + 1 }

/-- The cell of a key, a fresh one if there is room; `none` when the map is full of unpaid cells. -/
def openCell (a : MultiplierRemainderAccumulator) (trimmed : List MultiplierRemainderKey)
    (key : MultiplierRemainderKey) :
    Option (MultiplierRemainderCell × MultiplierRemainderAccumulator) :=
  match a.values key with
  | some cell => some (cell, a)
  | none =>
    match a.reserveCell with
    | some a => some ({}, a)
    | none => (a.trimSettled trimmed).reserveCell.map fun a => ({}, a)

/-- One call, at a time `now` and with the keys in the order the two `Range` loops visit them. -/
def applyKey (a : MultiplierRemainderAccumulator) (now : Int)
    (trimmed swept : List MultiplierRemainderKey) (parts : CostParts)
    (key : MultiplierRemainderKey) : (Int × Int) × MultiplierRemainderAccumulator :=
  match a.openCell trimmed key with
  | none =>
    (applyConservativeCostWithMax parts key.multiplier (maxMultiplierForKey key),
      a.trimSettled trimmed)
  | some (cell, a) =>
    let (amounts, cell) := cell.charge now parts key
    let a := { a with values := Function.update a.values key (some cell), ops := a.ops + 1 }
    (amounts, if a.ops % remainderSweepEvery = 0 then a.sweep (now - remainderIdleSeconds) swept
      else a)

def applyResolvedIdentity (a : MultiplierRemainderAccumulator) (now : Int)
    (trimmed swept : List MultiplierRemainderKey) (parts : CostParts)
    (m accountID keyID userID groupID : Int) (model : String) (rp : ResolvedPrices) :
    (Int × Int) × MultiplierRemainderAccumulator :=
  a.applyKey now trimmed swept parts
    { accountID, keyID, userID, groupID, model, multiplier := normalizeBillingMultiplier m
      prices := rp }

/-- The entry point of upstream costs, which carries only the fraction of the multiplier. -/
def applyUpstream (a : MultiplierRemainderAccumulator) (now : Int)
    (trimmed swept : List MultiplierRemainderKey) (rawCost multiplier upstreamID : Int)
    (model : String) (rp : ResolvedPrices) : Int × MultiplierRemainderAccumulator :=
  if rawCost ≤ 0 ∨ upstreamID ≤ 0 ∨ multiplier ≤ 0 then
    (roundScaled (multiplierFloorPartsWithMax rawCost multiplier maxUpstreamMultiplier), a)
  else
    let (amounts, a) := a.applyKey now trimmed swept { units := rawCost }
      { scope := "upstream", upstreamID, model
        multiplier := normalizeUpstreamMultiplier multiplier, prices := rp }
    (amounts.2, a)

/-- What is owed to a key's next requests: the numerators over 1 000 000 and over 10 000. -/
def held (a : MultiplierRemainderAccumulator) (key : MultiplierRemainderKey) : Int × Int :=
  match a.values key with
  | none => (0, 0)
  | some cell => (cell.rawRemainder, cell.multiplierRemainder)

variable {a : MultiplierRemainderAccumulator} {k : MultiplierRemainderKey}

theorem held_retire (idle : MultiplierRemainderCell → Bool) (key : MultiplierRemainderKey) :
    (a.retire idle key).held k = a.held k := by
  unfold retire
  split
  · rfl
  next cell hcell =>
    split
    next hidle =>
      by_cases hk : k = key
      · subst hk
        simp only [MultiplierRemainderCell.settled, Bool.and_eq_true, beq_iff_eq] at hidle
        simp [held, hcell, hidle.2]
      · simp [held, Function.update_of_ne hk]
    · rfl

theorem held_sweep (cutoffUnix : Int) (order : List MultiplierRemainderKey) :
    (a.sweep cutoffUnix order).held k = a.held k := by
  unfold sweep
  induction order generalizing a with
  | nil => rfl
  | cons key order ih => rw [List.foldl_cons, ih, held_retire]

theorem held_trimSettled (order : List MultiplierRemainderKey) :
    (a.trimSettled order).held k = a.held k := by
  induction order generalizing a with
  | nil => rfl
  | cons key order ih =>
    unfold trimSettled
    split
    · rfl
    · rw [ih, held_retire]

variable {parts : CostParts} {cell : MultiplierRemainderCell}
  {trimmed : List MultiplierRemainderKey} {a' : MultiplierRemainderAccumulator}

theorem held_reserveCell (h : a.reserveCell = some a') : a'.held k = a.held k := by
  unfold reserveCell at h
  split_ifs at h
  cases h
  rfl

theorem held_openCell (h : a.openCell trimmed key = some (cell, a')) :
    a'.held k = a.held k ∧ a.held key = (cell.rawRemainder, cell.multiplierRemainder) := by
  unfold openCell at h
  split at h
  next hcell =>
    cases h
    exact ⟨rfl, by simp [held, hcell]⟩
  next hnone =>
    refine ⟨?_, ?_⟩
    · split at h
      · cases h
        exact held_reserveCell ‹_›
      · obtain ⟨a'', ha'', heq⟩ := Option.map_eq_some_iff.mp h
        cases heq
        rw [held_reserveCell ha'', held_trimSettled]
    · have hcell : cell = {} := by
        split at h
        · cases h
          rfl
        · obtain ⟨a'', -, heq⟩ := Option.map_eq_some_iff.mp h
          cases heq
          rfl
      simp [held, hnone, hcell]

theorem held_range :
    (0 ≤ (a.held k).1 ∧ (a.held k).1 < costRemainderScale) ∧
      0 ≤ (a.held k).2 ∧ (a.held k).2 < billingMultiplierBase := by
  unfold held
  split
  · decide
  next cell _ =>
    exact ⟨cell.raw_range, cell.multiplier_range⟩

theorem held_applyKey_ne {now : Int} {swept : List MultiplierRemainderKey} (hne : key ≠ k) :
    (a.applyKey now trimmed swept parts key).2.held k = a.held k := by
  unfold applyKey
  split
  · exact held_trimSettled trimmed
  next cell a' hopen =>
    rw [← (held_openCell hopen).1]
    simp only
    split
    · rw [held_sweep]
      simp [held, Function.update_of_ne hne.symm]
    · simp [held, Function.update_of_ne hne.symm]

/-- A call that finds its cell and does not saturate charges the whole units of what it is given
and what the cell held, and leaves the rest in the cell. -/
theorem held_applyKey (now : Int) (swept : List MultiplierRemainderKey)
    (hopen : a.openCell trimmed k = some (cell, a')) (hsat : cell.saturates parts k = false) :
    let (amounts, after) := a.applyKey now trimmed swept parts k
    (after.held k).1 + costRemainderScale * amounts.1 = (a.held k).1 + parts.numerator ∧
      (after.held k).2 + billingMultiplierBase * amounts.2 =
        (a.held k).2 + amounts.1 * k.clamped := by
  have hheld := (held_openCell (k := k) hopen).2
  have hafter : (a.applyKey now trimmed swept parts k).2.held k =
      ((cell.charge now parts k).2.rawRemainder,
        (cell.charge now parts k).2.multiplierRemainder) := by
    simp only [applyKey, hopen]
    split
    · rw [held_sweep]
      simp [held]
    · simp [held]
  have hamounts : (a.applyKey now trimmed swept parts k).1 = (cell.charge now parts k).1 := by
    simp [applyKey, hopen]
  simp only [hafter, hamounts, hheld]
  unfold MultiplierRemainderCell.saturates at hsat
  split at hsat
  · cases hsat
  next raw hraw =>
    obtain ⟨billed, hbilled⟩ :=
      Option.isSome_iff_exists.mp (Option.isNone_eq_false_iff.mp hsat)
    have hnonneg : 0 ≤ raw.1 := by
      have h := rawStage_some hraw
      have hcell := cell.raw_range
      simp only [CostParts.numerator, costRemainderScale, milliPerMillion] at h hcell
      omega
    simp only [MultiplierRemainderCell.charge, hraw, Option.getD_some, hbilled]
    exact ⟨(rawStage_some hraw).1,
      (billedStage_some hbilled).1 hnonneg (rawStage_some hraw).2.2⟩

end MultiplierRemainderAccumulator

/-- The calls of the accumulator.  The order of a range over its map is given with the call. -/
inductive RemainderOp where
  | applyKey (now : Int) (trimmed swept : List MultiplierRemainderKey) (parts : CostParts)
      (key : MultiplierRemainderKey)
  | sweep (cutoffUnix : Int) (order : List MultiplierRemainderKey)
  | trimSettled (order : List MultiplierRemainderKey)

def RemainderOp.partsFor (k : MultiplierRemainderKey) : RemainderOp → List CostParts
  | .applyKey _ _ _ parts key => if key = k then [parts] else []
  | .sweep .. | .trimSettled .. => []

namespace MultiplierRemainderAccumulator

def step (a : MultiplierRemainderAccumulator) : RemainderOp → MultiplierRemainderAccumulator
  | .applyKey now trimmed swept parts key => (a.applyKey now trimmed swept parts key).2
  | .sweep cutoffUnix order => a.sweep cutoffUnix order
  | .trimSettled order => a.trimSettled order

def run (a : MultiplierRemainderAccumulator) (ops : List RemainderOp) :
    MultiplierRemainderAccumulator :=
  ops.foldl step a

def returnedBy (k : MultiplierRemainderKey) (a : MultiplierRemainderAccumulator) :
    RemainderOp → List (Int × Int)
  | .applyKey now trimmed swept parts key =>
    if key = k then [(a.applyKey now trimmed swept parts key).1] else []
  | .sweep .. | .trimSettled .. => []

def returned (k : MultiplierRemainderKey) :
    MultiplierRemainderAccumulator → List RemainderOp → List (Int × Int)
  | _, [] => []
  | a, op :: ops => returnedBy k a op ++ returned k (a.step op) ops

/-- An event is no call for the key, or one that neither saturates nor takes the fallback. -/
def carriedBy (k : MultiplierRemainderKey) (a : MultiplierRemainderAccumulator) :
    RemainderOp → Bool
  | .applyKey _ trimmed _ parts key =>
    key ≠ k ||
      match a.openCell trimmed key with
      | none => false
      | some (cell, _) => !cell.saturates parts key
  | .sweep .. | .trimSettled .. => true

def carried (k : MultiplierRemainderKey) :
    MultiplierRemainderAccumulator → List RemainderOp → Bool
  | _, [] => true
  | a, op :: ops => carriedBy k a op && carried k (a.step op) ops

theorem held_step {op : RemainderOp} (h : carriedBy k a op) :
    ((a.step op).held k).1 + costRemainderScale * ((returnedBy k a op).map fst).sum =
        (a.held k).1 + ((op.partsFor k).map CostParts.numerator).sum ∧
      ((a.step op).held k).2 + billingMultiplierBase * ((returnedBy k a op).map snd).sum =
        (a.held k).2 + ((returnedBy k a op).map fst).sum * k.clamped := by
  cases op with
  | sweep cutoffUnix order => simp [step, returnedBy, RemainderOp.partsFor, held_sweep]
  | trimSettled order => simp [step, returnedBy, RemainderOp.partsFor, held_trimSettled]
  | applyKey now trimmed swept parts key =>
    by_cases hkey : key = k
    · subst hkey
      simp only [carriedBy, ne_eq, not_true, decide_false, Bool.false_or] at h
      split at h
      · cases h
      next cell a' hopen =>
        have := held_applyKey now swept hopen (by simpa using h)
        simpa [step, returnedBy, RemainderOp.partsFor] using this
    · simp [step, returnedBy, RemainderOp.partsFor, hkey, held_applyKey_ne hkey]

variable {ops : List RemainderOp}

theorem held_run (h : carried k a ops) :
    ((a.run ops).held k).1 + costRemainderScale * ((returned k a ops).map fst).sum =
        (a.held k).1 + ((ops.flatMap (·.partsFor k)).map CostParts.numerator).sum ∧
      ((a.run ops).held k).2 + billingMultiplierBase * ((returned k a ops).map snd).sum =
        (a.held k).2 + ((returned k a ops).map fst).sum * k.clamped := by
  induction ops generalizing a with
  | nil => simp [run, returned]
  | cons op ops ih =>
    simp only [carried, Bool.and_eq_true] at h
    obtain ⟨hraw, hbilled⟩ := held_step h.1
    obtain ⟨hraws, hbilleds⟩ := ih h.2
    simp only [run, List.foldl_cons, returned, List.map_append, List.sum_append, List.flatMap_cons,
      mul_add, add_mul] at hraws hbilleds ⊢
    omega

theorem returned_exact (h : carried k {} ops) :
    let total := ((ops.flatMap (·.partsFor k)).map CostParts.numerator).sum
    let raw := ((returned k {} ops).map fst).sum
    raw = total / costRemainderScale ∧
      ((returned k {} ops).map snd).sum = raw * k.clamped / billingMultiplierBase ∧
      (run {} ops).held k =
        (total % costRemainderScale, raw * k.clamped % billingMultiplierBase) := by
  obtain ⟨hraw, hbilled⟩ := held_run h
  have hrange := held_range (a := run {} ops) (k := k)
  have hempty : held {} k = (0, 0) := rfl
  simp only [Prod.ext_iff, costRemainderScale, milliPerMillion, billingMultiplierBase] at *
  omega

end MultiplierRemainderAccumulator

open MultiplierRemainderAccumulator

/-- Over any history of an accumulator, the raw amounts returned for a key are the whole units of
everything the key was given, the billed amounts are the whole units of that times the multiplier,
and the cell of the key holds exactly the two fractions.  The amounts therefore depend on nothing
but the costs given for the key. -/
theorem applyKey_carries_exactly (k : MultiplierRemainderKey) (ops : List RemainderOp)
    (h : carried k {} ops) :
    let total := ((ops.flatMap (·.partsFor k)).map CostParts.numerator).sum
    let raw := ((returned k {} ops).map fst).sum
    raw = total / costRemainderScale ∧
      ((returned k {} ops).map snd).sum = raw * k.clamped / billingMultiplierBase ∧
      (run {} ops).held k =
        (total % costRemainderScale, raw * k.clamped % billingMultiplierBase) ∧
      ∀ ops', carried k {} ops' →
        (ops.flatMap (·.partsFor k)).Perm (ops'.flatMap (·.partsFor k)) →
        ((returned k {} ops').map fst).sum = raw ∧
          ((returned k {} ops').map snd).sum = ((returned k {} ops).map snd).sum := by
  obtain ⟨hraw, hbilled, hheld⟩ := returned_exact h
  refine ⟨hraw, hbilled, hheld, fun ops' h' hperm => ?_⟩
  obtain ⟨hraw', hbilled', -⟩ := returned_exact h'
  have heq : ((returned k {} ops').map fst).sum = ((returned k {} ops).map fst).sum := by
    rw [hraw, hraw', (hperm.map _).sum_eq]
  exact ⟨heq, by rw [hbilled, hbilled', heq]⟩

/-- Three requests of 0.6 units at half price, with another user's request, a sweep and a trim in
between. -/
def interleavedOps : List RemainderOp :=
  let key : MultiplierRemainderKey := { userID := 1, multiplier := 5000 }
  let other : MultiplierRemainderKey := { userID := 2, multiplier := 5000 }
  [.applyKey 10 [] [] { remainder := 600000 } key,
    .applyKey 11 [] [] { units := 3 } other,
    .sweep 20 [other, key],
    .applyKey 30 [] [] { units := 1, remainder := 600000 } key,
    .trimSettled [key, other],
    .applyKey 31 [] [] { units := -4, remainder := 600000 } key]

theorem applyKey_carries_interleaved :
    let key : MultiplierRemainderKey := { userID := 1, multiplier := 5000 }
    carried key {} interleavedOps ∧
      ((returned key {} interleavedOps).map fst).sum = 2800000 / costRemainderScale ∧
      ((returned key {} interleavedOps).map snd).sum = 2 * 5000 / billingMultiplierBase := by
  have hcarried : carried { userID := 1, multiplier := 5000 } {} interleavedOps := by decide
  obtain ⟨hraw, hbilled, -⟩ :=
    applyKey_carries_exactly { userID := 1, multiplier := 5000 } interleavedOps hcarried
  exact ⟨hcarried, hraw, hbilled⟩

end C4Gateway
