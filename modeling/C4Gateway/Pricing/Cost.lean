import C4Gateway.Domain
import Mathlib.Tactic.Ring

/-! The fixed-point arithmetic of costs.  Every product and sum is guarded before it is formed, so
none leaves `int64` and the model computes in `Int`; all divisions have non-negative operands. -/

namespace C4Gateway

def milliPerMillion : Int := 1000000

def costRemainderScale : Int := milliPerMillion

def segBudget : Int := (maxInt64 - milliPerMillion / 2) / 8

def imageTotalCap : Int := maxInt64 / 100000

def saturatingCostMul (a b limit : Int) : Int :=
  if a ≤ 0 ∨ b ≤ 0 ∨ limit ≤ 0 then 0
  else if a > limit / b then limit
  else a * b

def saturatingCostAdd (a b : Int) : Int :=
  if a ≤ 0 then
    if b ≤ 0 then 0 else b
  else if b ≤ 0 then a
  else if a > maxInt64 - b then maxInt64
  else a + b

/-- A cost before it is rounded: whole milli-cents, and the numerator of the fraction left. -/
structure CostParts where
  units : Int := 0
  remainder : Int := 0
  deriving DecidableEq, Repr

def positiveCostPrice : Option Int → Int
  | none => 0
  | some v => if v ≤ 0 then 0 else v

def splitCostParts (raw : Int) : CostParts :=
  if raw ≤ 0 then {} else ⟨raw / milliPerMillion, raw % milliPerMillion⟩

def clampTokens (t : Int) : Int := if t < 0 then 0 else t

/-- A missing cache price is the input price, and an explicit 0 is free. -/
def costPartsFromResolved (rp : ResolvedPrices) (pt ct cr cc : Int) : CostParts :=
  let input := positiveCostPrice rp.inputPerM
  let cacheRead := if rp.cacheReadPerM = none then input else positiveCostPrice rp.cacheReadPerM
  let cacheWrite := if rp.cacheWritePerM = none then input else positiveCostPrice rp.cacheWritePerM
  let raw := saturatingCostAdd (saturatingCostMul (clampTokens pt) input segBudget)
    (saturatingCostMul (clampTokens ct) (positiveCostPrice rp.outputPerM) segBudget)
  let raw := saturatingCostAdd raw (saturatingCostMul (clampTokens cr) cacheRead segBudget)
  splitCostParts
    (saturatingCostAdd raw (saturatingCostMul (clampTokens cc) cacheWrite segBudget))

def imageCostPartsFromResolved (rp : ResolvedPrices) (inTok outTok count : Int) : CostParts :=
  let perImage := positiveCostPrice rp.pricePerImage
  let parts := splitCostParts (saturatingCostAdd
    (saturatingCostMul (clampTokens inTok) (positiveCostPrice rp.imgInTokPerM) segBudget)
    (saturatingCostMul (clampTokens outTok) (positiveCostPrice rp.imgOutTokPerM) segBudget))
  let units :=
    if perImage > 0 ∧ clampTokens count > 0 then
      saturatingCostAdd parts.units
        (saturatingCostMul (clampTokens count) perImage imageTotalCap)
    else parts.units
  if units ≥ imageTotalCap then ⟨imageTotalCap, 0⟩ else ⟨units, parts.remainder⟩

def addCostParts (a b : CostParts) : CostParts :=
  let units := saturatingCostAdd a.units b.units
  if units = maxInt64 then ⟨maxInt64, 0⟩
  else
    let remainder := a.remainder + b.remainder
    let carry := remainder / milliPerMillion
    if units > maxInt64 - carry then ⟨maxInt64, 0⟩
    else ⟨units + carry, remainder % milliPerMillion⟩

def CostParts.rounded (parts : CostParts) : Int :=
  let units := if parts.units < 0 then 0 else parts.units
  if parts.remainder ≥ milliPerMillion / 2 ∧ units < maxInt64 then units + 1 else units

def callCostFromResolved (rp : ResolvedPrices) (count : Int) : Int :=
  match rp.pricePerCall with
  | none => 0
  | some p => if p > 0 then saturatingCostMul (clampTokens count) p imageTotalCap else 0

def billingMultiplierBase : Int := 10000

/-- `cost * m / 10000` and the numerator left, for positive `cost` and `m`, with the product split
so that it does not overflow. -/
def scaledParts (cost m : Int) : Int × Int :=
  let q := cost / billingMultiplierBase
  let scaled := cost % billingMultiplierBase * m
  if q > maxInt64 / m then (maxInt64, 0)
  else if q * m > maxInt64 - scaled / billingMultiplierBase then (maxInt64, 0)
  else (q * m + scaled / billingMultiplierBase, scaled % billingMultiplierBase)

/-- The version of the recovery path. -/
def multiplierFloorParts (cost multiplier maxMultiplier : Int) : Int × Int :=
  if cost ≤ 0 ∨ multiplier ≤ 0 then (0, 0)
  else
    let m := if multiplier > maxMultiplier then maxMultiplier else multiplier
    if m = billingMultiplierBase then (cost, 0) else scaledParts cost m

def roundScaled (parts : Int × Int) : Int :=
  if parts.1 = maxInt64 ∨ parts.2 < 5000 then parts.1 else parts.1 + 1

def applyMultiplier (cost multiplier : Int) : Int :=
  roundScaled (multiplierFloorParts cost multiplier 100000)

def applyUpstreamMultiplier (cost multiplier : Int) : Int :=
  roundScaled (multiplierFloorParts cost multiplier 1000000)

theorem saturatingCostMul_eq (a b : Int) {limit : Int} (hlimit : 0 < limit) :
    saturatingCostMul a b limit = min limit (max a 0 * max b 0) := by
  unfold saturatingCostMul
  by_cases hzero : a ≤ 0 ∨ b ≤ 0
  · have hprod : max a 0 * max b 0 = 0 := by
      rcases hzero with h | h
      · rw [max_eq_right h, zero_mul]
      · rw [max_eq_right h, mul_zero]
    rw [if_pos (by tauto), hprod, min_eq_right hlimit.le]
  · simp only [not_or, not_le] at hzero
    rw [if_neg (by omega), max_eq_left hzero.1.le, max_eq_left hzero.2.le]
    have hover : a > limit / b ↔ limit < a * b := Int.ediv_lt_iff_lt_mul hzero.2
    split <;> omega

theorem clampTokens_eq (t : Int) : clampTokens t = max t 0 := by
  unfold clampTokens
  split <;> omega

/-- `p / 10000` and what is left of `p`, or the largest amount. -/
def floorParts (p : Int) : Int × Int :=
  if p / billingMultiplierBase ≤ maxInt64 then
    (p / billingMultiplierBase, p % billingMultiplierBase)
  else (maxInt64, 0)

theorem floorParts_exact {p : Int} (hne : (floorParts p).1 ≠ maxInt64) :
    (floorParts p).1 * billingMultiplierBase + (floorParts p).2 = p := by
  unfold floorParts at hne ⊢
  split at hne
  · rw [if_pos ‹_›, Int.ediv_mul_add_emod]
  · exact absurd rfl hne

theorem floorParts_nonneg {p : Int} (hp : 0 ≤ p) : 0 ≤ (floorParts p).1 := by
  unfold floorParts
  split
  · exact Int.ediv_nonneg hp (by decide)
  · decide

theorem floorParts_base {cost : Int} (h : cost ≤ maxInt64) :
    floorParts (cost * billingMultiplierBase) = (cost, 0) := by
  have hdiv : cost * billingMultiplierBase / billingMultiplierBase = cost :=
    Int.mul_ediv_cancel _ (by decide)
  simp [floorParts, hdiv, h]

theorem roundScaled_floorParts {p : Int} (hp : 0 ≤ p) :
    roundScaled (floorParts p) = min maxInt64 ((p + 5000) / billingMultiplierBase) := by
  unfold roundScaled floorParts billingMultiplierBase maxInt64
  split_ifs <;> omega

theorem scaledParts_eq {cost m : Int} (hm : 0 < m) :
    scaledParts cost m = floorParts (cost * m) := by
  have hdiv : billingMultiplierBase * (cost / billingMultiplierBase)
      + cost % billingMultiplierBase = cost := Int.mul_ediv_add_emod cost _
  have hrem : 0 ≤ cost % billingMultiplierBase * m :=
    Int.mul_nonneg (Int.emod_nonneg _ (by decide)) hm.le
  have hover : cost / billingMultiplierBase > maxInt64 / m ↔
      cost / billingMultiplierBase * m > maxInt64 := Int.ediv_lt_iff_lt_mul hm
  have hcm : cost * m = billingMultiplierBase * (cost / billingMultiplierBase * m)
      + cost % billingMultiplierBase * m := by
    conv_lhs => rw [← hdiv]
    ring
  simp only [scaledParts, hover, hcm, floorParts]
  generalize cost / billingMultiplierBase * m = q at *
  generalize cost % billingMultiplierBase * m = r at *
  unfold billingMultiplierBase
  split_ifs <;> first | omega | (rw [Prod.mk.injEq]; omega)

theorem multiplierFloorParts_eq {cost maxMultiplier : Int} (m : Int) (hcost : cost ≤ maxInt64)
    (hmax : 0 < maxMultiplier) : multiplierFloorParts cost m maxMultiplier =
      floorParts (max cost 0 * max 0 (min m maxMultiplier)) := by
  unfold multiplierFloorParts
  split
  · have hzero : max cost 0 * max 0 (min m maxMultiplier) = 0 := by
      rcases ‹cost ≤ 0 ∨ m ≤ 0› with h | h
      · simp [max_eq_right h]
      · simp [min_eq_left (h.trans hmax.le), max_eq_left h]
    rw [hzero]
    decide
  · have hm : (if m > maxMultiplier then maxMultiplier else m) = max 0 (min m maxMultiplier) := by
      split <;> omega
    have hpos : 0 < max 0 (min m maxMultiplier) := by omega
    rw [hm, max_eq_left (show 0 ≤ cost by omega)]
    dsimp only
    split
    · rw [‹max 0 (min m maxMultiplier) = _›, floorParts_base hcost]
    · exact scaledParts_eq hpos

end C4Gateway
