import C4Gateway.Billing.Remainder
import C4Gateway.Pricing.Recovered
import Mathlib.Algebra.Order.BigOperators.Group.List

/-! The cost arithmetic in closed form.  The source computes in `int64`, so beside each guarded
operation stands the one that wraps, and they agree. -/

namespace C4Gateway

/-- The token components of a request: each counter with the price that applies to it. -/
def tokenComponents (rp : ResolvedPrices) (pt ct cr cc : Int) : List (Int × Int) :=
  [(pt, rp.inputPerM.getD 0), (ct, rp.outputPerM.getD 0),
    (cr, (rp.cacheReadPerM.or rp.inputPerM).getD 0),
    (cc, (rp.cacheWritePerM.or rp.inputPerM).getD 0)]

/-- The exact amount of a component, where negative counts and prices are nothing. -/
def componentAmount (c : Int × Int) : Int := max c.1 0 * max c.2 0

def cappedAmount (c : Int × Int) : Int := min segBudget (componentAmount c)

/-- The parts as one number of the smaller unit. -/
def CostParts.total (parts : CostParts) : Int := parts.units * milliPerMillion + parts.remainder

theorem cappedAmount_nonneg (c : Int × Int) : 0 ≤ cappedAmount c :=
  le_min (by decide) (Int.mul_nonneg (le_max_right ..) (le_max_right ..))

theorem cappedAmount_mono {c d : Int × Int} (h : c.1 ≤ d.1 ∧ c.2 ≤ d.2) :
    cappedAmount c ≤ cappedAmount d :=
  min_le_min_left _ (Int.mul_le_mul (max_le_max_right 0 h.1) (max_le_max_right 0 h.2)
    (le_max_right ..) (le_max_right ..))

theorem saturatingCostAdd_eq {a b : Int} (ha : 0 ≤ a) (hb : 0 ≤ b) (hle : a + b ≤ maxInt64) :
    saturatingCostAdd a b = a + b := by
  unfold saturatingCostAdd
  repeat' split
  all_goals omega

theorem costPartsFromResolved_eq (rp : ResolvedPrices) (pt ct cr cc : Int) :
    costPartsFromResolved rp pt ct cr cc =
      splitCostParts ((tokenComponents rp pt ct cr cc).map cappedAmount).sum := by
  have hroom : 4 * segBudget ≤ maxInt64 := by decide
  have hmul (t p : Int) : saturatingCostMul (clampTokens t) (max p 0) segBudget =
      cappedAmount (t, p) := by
    rw [saturatingCostMul_eq _ _ (by decide), clampTokens_eq, max_eq_left (le_max_right t 0),
      max_eq_left (le_max_right p 0), cappedAmount, componentAmount]
  have hcapped (c : Int × Int) : 0 ≤ cappedAmount c ∧ cappedAmount c ≤ segBudget :=
    ⟨cappedAmount_nonneg c, min_le_left ..⟩
  unfold costPartsFromResolved tokenComponents
  dsimp only
  simp only [cachePrice_eq rp.cacheReadPerM, cachePrice_eq rp.cacheWritePerM]
  simp only [positiveCostPrice_eq, hmul, List.map_cons, List.map_nil, List.sum_cons, List.sum_nil]
  have h₁ := hcapped (pt, rp.inputPerM.getD 0)
  have h₂ := hcapped (ct, rp.outputPerM.getD 0)
  have h₃ := hcapped (cr, (rp.cacheReadPerM.or rp.inputPerM).getD 0)
  have h₄ := hcapped (cc, (rp.cacheWritePerM.or rp.inputPerM).getD 0)
  rw [saturatingCostAdd_eq h₁.1 h₂.1 (by omega), saturatingCostAdd_eq (by omega) h₃.1 (by omega),
    saturatingCostAdd_eq (by omega) h₄.1 (by omega)]
  congr 1
  ring

theorem splitCostParts_total {raw : Int} (hraw : 0 ≤ raw) :
    (splitCostParts raw).total = raw ∧ 0 ≤ (splitCostParts raw).remainder ∧
      (splitCostParts raw).remainder < milliPerMillion := by
  unfold splitCostParts CostParts.total milliPerMillion
  split <;> dsimp only <;> omega

/-- A token cost is the sum of its capped components.  A product or a sum is formed only where it
is the result, so nothing overflows on the way. -/
theorem costPartsFromResolved_exact (rp : ResolvedPrices) (pt ct cr cc : Int) :
    let parts := costPartsFromResolved rp pt ct cr cc
    let components := tokenComponents rp pt ct cr cc
    (0 ≤ parts.remainder ∧ parts.remainder < milliPerMillion) ∧
      parts.total = (components.map cappedAmount).sum ∧
      ((∀ c ∈ components, componentAmount c ≤ segBudget) →
        parts.total = (components.map componentAmount).sum) ∧
      (∀ rp' pt' ct' cr' cc',
        List.Forall₂ (fun c d => c.1 ≤ d.1 ∧ c.2 ≤ d.2) components
          (tokenComponents rp' pt' ct' cr' cc') →
        parts.total ≤ (costPartsFromResolved rp' pt' ct' cr' cc').total) ∧
      ((∃ c ∈ components, 0 < c.1 ∧ 0 < c.2) → 0 < parts.total) ∧
      (∀ a b, InInt64 (saturatingCostMul a b segBudget)) ∧
      ∀ a b, InInt64 a → InInt64 b → InInt64 (saturatingCostAdd a b) := by
  have hnonneg (cs : List (Int × Int)) : ∀ x ∈ cs.map cappedAmount, 0 ≤ x :=
    List.forall_mem_map.mpr fun c _ => cappedAmount_nonneg c
  have htotal (rp : ResolvedPrices) (pt ct cr cc : Int) :=
    costPartsFromResolved_eq rp pt ct cr cc ▸ splitCostParts_total (List.sum_nonneg (hnonneg _))
  dsimp only
  refine ⟨(htotal ..).2, (htotal ..).1, fun hexact => ?_, fun rp' pt' ct' cr' cc' hle => ?_, ?_,
    fun a b => ?_, fun a b ha hb => ?_⟩
  · rw [(htotal ..).1]
    exact congrArg List.sum (List.map_congr_left fun c hc => min_eq_right (hexact c hc))
  · rw [(htotal ..).1, (htotal ..).1]
    refine List.Forall₂.sum_le_sum ?_
    rw [List.forall₂_map_left_iff, List.forall₂_map_right_iff]
    exact hle.imp fun _ _ => cappedAmount_mono
  · rintro ⟨c, hc, hcount, hprice⟩
    have hpos : 0 < cappedAmount c := lt_min (by decide)
      (Int.mul_pos (lt_max_of_lt_left hcount) (lt_max_of_lt_left hprice))
    rw [(htotal ..).1]
    exact hpos.trans_le (List.single_le_sum (hnonneg _) _ (List.mem_map_of_mem hc))
  · rw [saturatingCostMul_eq _ _ (by decide)]
    exact ⟨le_min (by decide) (le_trans (by decide) (Int.mul_nonneg (le_max_right ..)
      (le_max_right ..))), (min_le_left ..).trans (by decide)⟩
  · have := ha.2
    have := hb.2
    unfold saturatingCostAdd InInt64 minInt64 maxInt64 at *
    split_ifs <;> omega

namespace Proxy

def applyMultiplier (cost m : Int) : Int :=
  roundScaled (multiplierFloorPartsWithMax cost m maxBillingMultiplier)

def applyUpstreamMultiplier (cost m : Int) : Int :=
  roundScaled (multiplierFloorPartsWithMax cost m maxUpstreamMultiplier)

end Proxy

/-- `cost` times the multiplier clamped to its range, rounded half up and clamped. -/
def halfUp (cost m maxMultiplier : Int) : Int :=
  min maxInt64 ((max cost 0 * max 0 (min m maxMultiplier) + 5000) / billingMultiplierBase)

def scaledPartsInt64 (cost m : Int) : Int × Int :=
  let q := cost / billingMultiplierBase
  let scaled := wrapInt64 (cost % billingMultiplierBase * m)
  let remCost := scaled / billingMultiplierBase
  if q > maxInt64 / m then (maxInt64, 0)
  else if wrapInt64 (q * m) > wrapInt64 (maxInt64 - remCost) then (maxInt64, 0)
  else (wrapInt64 (wrapInt64 (q * m) + remCost), scaled % billingMultiplierBase)

theorem scaledPartsInt64_eq {cost m : Int} (hcost : 0 ≤ cost) (hm : 0 < m)
    (hmax : m ≤ maxUpstreamMultiplier) : scaledPartsInt64 cost m = scaledParts cost m := by
  have hq : 0 ≤ cost / billingMultiplierBase * m :=
    Int.mul_nonneg (Int.ediv_nonneg hcost (by decide)) hm.le
  have hrem : 0 ≤ cost % billingMultiplierBase * m :=
    Int.mul_nonneg (Int.emod_nonneg _ (by decide)) hm.le
  have hrem' : cost % billingMultiplierBase * m ≤ 9999 * maxUpstreamMultiplier := by
    refine Int.mul_le_mul (Int.le_of_lt_add_one ?_) hmax hm.le (by decide)
    exact Int.emod_lt_of_pos cost (show (0 : Int) < billingMultiplierBase by decide)
  have hbig : 9999 * maxUpstreamMultiplier ≤ maxInt64 := by decide
  have hover : cost / billingMultiplierBase > maxInt64 / m ↔
      cost / billingMultiplierBase * m > maxInt64 := Int.ediv_lt_iff_lt_mul hm
  simp only [scaledPartsInt64, scaledParts, hover, wrapInt64_of_le hrem (hrem'.trans hbig)]
  generalize cost / billingMultiplierBase * m = q at *
  generalize cost % billingMultiplierBase * m = r at *
  have hr : 0 ≤ r / billingMultiplierBase ∧ r / billingMultiplierBase ≤ maxInt64 := by
    unfold billingMultiplierBase
    omega
  split
  · rfl
  · rw [wrapInt64_of_le hq (by omega), wrapInt64_of_le (by omega) (by omega)]
    split
    · rfl
    · rw [wrapInt64_of_le (by omega) (by omega)]

theorem roundScaled_multiplierFloorParts {cost maxMultiplier : Int} (m : Int)
    (hcost : cost ≤ maxInt64) (hmax : 0 < maxMultiplier) :
    roundScaled (multiplierFloorParts cost m maxMultiplier) = halfUp cost m maxMultiplier := by
  rw [multiplierFloorParts_eq m hcost hmax, roundScaled_floorParts, halfUp]
  exact Int.mul_nonneg (le_max_right ..) (le_max_left ..)

theorem halfUp_mono {cost cost' m m' : Int} (maxMultiplier : Int) (hcost : cost ≤ cost')
    (hm : m ≤ m') : halfUp cost m maxMultiplier ≤ halfUp cost' m' maxMultiplier := by
  have hmul : max cost 0 * max 0 (min m maxMultiplier) ≤
      max cost' 0 * max 0 (min m' maxMultiplier) :=
    Int.mul_le_mul (by omega) (by omega) (le_max_left ..) (le_max_right ..)
  unfold halfUp billingMultiplierBase
  omega

/-- The request path and the recovery path round one amount, and nothing overflows on the way. -/
theorem multipliers_halfUp {cost : Int} (hcost : InInt64 cost) (m : Int) :
    (Proxy.applyMultiplier cost m = halfUp cost m 100000 ∧
        applyMultiplier cost m = halfUp cost m 100000) ∧
      (Proxy.applyUpstreamMultiplier cost m = halfUp cost m 1000000 ∧
        applyUpstreamMultiplier cost m = halfUp cost m 1000000) ∧
      (∀ cost' m', InInt64 cost' → cost ≤ cost' → m ≤ m' →
        applyMultiplier cost m ≤ applyMultiplier cost' m' ∧
          applyUpstreamMultiplier cost m ≤ applyUpstreamMultiplier cost' m') ∧
      (0 < cost → 0 < m → m ≤ 1000000 → scaledPartsInt64 cost m = scaledParts cost m) := by
  have huser (c n : Int) (hc : InInt64 c) : applyMultiplier c n = halfUp c n 100000 :=
    roundScaled_multiplierFloorParts n hc.2 (by decide)
  have hupstream (c n : Int) (hc : InInt64 c) :
      applyUpstreamMultiplier c n = halfUp c n 1000000 :=
    roundScaled_multiplierFloorParts n hc.2 (by decide)
  refine ⟨⟨?_, huser _ _ hcost⟩, ⟨?_, hupstream _ _ hcost⟩, ?_, ?_⟩
  · rw [Proxy.applyMultiplier, multiplierFloorPartsWithMax_eq _ _ (by decide)]
    exact huser _ _ hcost
  · rw [Proxy.applyUpstreamMultiplier, multiplierFloorPartsWithMax_eq _ _ (by decide)]
    exact hupstream _ _ hcost
  · intro cost' m' hcost' hle hle'
    rw [huser _ _ hcost, huser _ _ hcost', hupstream _ _ hcost, hupstream _ _ hcost']
    exact ⟨halfUp_mono _ hle hle', halfUp_mono _ hle hle'⟩
  · exact fun hpos hm hmax => scaledPartsInt64_eq hpos.le hm hmax

theorem multipliers_halfUp_odd :
    InInt64 3 ∧ Proxy.applyMultiplier 3 5000 = 2 ∧ applyMultiplier 3 5000 = 2 := by
  have hcost : InInt64 3 := by decide
  have h := (multipliers_halfUp hcost 5000).1
  exact ⟨hcost, h.1, h.2⟩

/-- `value * 10000 / divisor`, rounded half away from zero and clamped. -/
def clampedRatio (value divisor : Int) : Int :=
  value.sign * min maxInt64 ((2 * (|value| * 10000) + divisor) / (2 * divisor))

theorem div_add_round (p : Nat) {d : Nat} (hd : 0 < d) :
    (p / d + if p % d ≥ (d + 1) / 2 then 1 else 0) = (2 * p + d) / (2 * d) := by
  have hp := Nat.div_add_mod p d
  have hr := Nat.mod_lt p hd
  have hsplit : 2 * p + d = 2 * d * (p / d) + (2 * (p % d) + d) := by
    conv_lhs => rw [← hp]
    ring
  rw [hsplit, Nat.mul_add_div (by omega)]
  congr 1
  split
  · exact (Nat.div_eq_of_lt_le (by omega) (by omega)).symm
  · exact (Nat.div_eq_of_lt (by omega)).symm

theorem signedMulDivBP_eq {value divisor : Int} (hvalue : value ≠ 0) (hdiv : 0 < divisor) :
    let q := (2 * (value.natAbs * 10000) + divisor.toNat) / (2 * divisor.toNat)
    signedMulDivBP value divisor = value.sign *
      if divisor.toNat ≤ value.natAbs * 10000 / 2 ^ 64 ∨ ((q % 2 ^ 64 : Nat) : Int) > maxInt64
      then maxInt64 else (q % 2 ^ 64 : Nat) := by
  unfold signedMulDivBP
  rw [if_neg (by omega)]
  dsimp only
  rw [div_add_round _ (by omega)]
  split
  · rw [Int.sign_eq_neg_one_of_neg ‹_›, neg_one_mul]
  · rw [Int.sign_eq_one_of_pos (by omega), one_mul]

/-- The margin is the rounded ratio, except where the largest 64-bit quotient is rounded up: it
becomes 0. -/
theorem signedMulDivBP_eq_clampedRatio_iff (value : Int) {divisor : Int} (hdiv : 0 < divisor) :
    signedMulDivBP value divisor = clampedRatio value divisor ↔
      ¬ (|value| * 10000 < divisor * 2 ^ 64 ∧
        divisor * 2 ^ 65 ≤ 2 * (|value| * 10000) + divisor) := by
  by_cases hvalue : value = 0
  · subst hvalue
    simp [signedMulDivBP, clampedRatio]
    omega
  · have hsign : value.sign ≠ 0 := by simpa using hvalue
    obtain ⟨d, rfl⟩ := Int.eq_ofNat_of_zero_le hdiv.le
    have hprod : |value| * 10000 = (value.natAbs * 10000 : Nat) := by
      rw [Int.abs_eq_natAbs, Nat.cast_mul, Nat.cast_ofNat]
    rw [signedMulDivBP_eq hvalue hdiv, clampedRatio, mul_right_inj' hsign, hprod, Int.toNat_natCast]
    generalize value.natAbs * 10000 = p
    have hcast : (2 * (p : Int) + d) / (2 * d) = ((2 * p + d) / (2 * d) : Nat) := by
      push_cast
      rfl
    have hhi : d ≤ p / 2 ^ 64 ↔ d * 2 ^ 64 ≤ p := Nat.le_div_iff_mul_le (by decide)
    have hmax : (2 * p + d) / (2 * d) < 2 ^ 64 ↔ 2 * p + d < 2 ^ 64 * (2 * d) :=
      Nat.div_lt_iff_lt_mul (by omega)
    have hwrap : (2 * p + d) / (2 * d) < 2 ^ 64 + 1 ↔ 2 * p + d < (2 ^ 64 + 1) * (2 * d) :=
      Nat.div_lt_iff_lt_mul (by omega)
    simp only [hcast, hhi]
    generalize (2 * p + d) / (2 * d) = q at *
    unfold maxInt64
    split_ifs <;> omega

theorem signedMulDivBP_eq_clampedRatio_third :
    signedMulDivBP (-5) 3 = clampedRatio (-5) 3 ∧ clampedRatio (-5) 3 = -16667 :=
  ⟨(signedMulDivBP_eq_clampedRatio_iff (-5) (show (0 : Int) < 3 by decide)).mpr (by decide),
    by decide⟩

/-- The quotient `2 ^ 64 - 1` is rounded up to 0, and the margin is reported as nothing. -/
theorem signedMulDivBP_wraps :
    signedMulDivBP 422430439287948732 229 = 0 ∧
      clampedRatio 422430439287948732 229 = maxInt64 := by
  decide

/-- The raw units the fallback charges for. -/
def conservativeUnits (parts : CostParts) : Int :=
  min maxInt64 ((parts.numerator + 999999) / costRemainderScale)

/-- What the units are filled up by, before the multiplication. -/
theorem conservativeUnits_fill {parts : CostParts} {m : Int} (hm : 0 < m)
    (hunsat : parts.numerator ≤ maxInt64 * 1000000) :
    conservativeUnits parts * m * 1000000 =
      parts.numerator * m + -parts.numerator % 1000000 * m ∧
    0 ≤ -parts.numerator % 1000000 * m := by
  have hfill : conservativeUnits parts * 1000000 =
      parts.numerator + -parts.numerator % 1000000 := by
    unfold conservativeUnits costRemainderScale milliPerMillion
    omega
  exact ⟨by rw [mul_right_comm, hfill, add_mul],
    Int.mul_nonneg (Int.emod_nonneg _ (by decide)) hm.le⟩

section
variable {parts : CostParts} {m : Int} (key : MultiplierRemainderKey)
  (hunits : 0 ≤ parts.units ∧ parts.units ≤ maxInt64) (hm : 0 < m)
include hunits

theorem applyConservativeCostWithMax_fst (multiplier maxMultiplier : Int) :
    (applyConservativeCostWithMax parts multiplier maxMultiplier).1 = conservativeUnits parts := by
  unfold applyConservativeCostWithMax conservativeUnits CostParts.numerator costRemainderScale
    milliPerMillion
  dsimp only
  split_ifs <;> dsimp only <;> omega

include hm

theorem applyConservativeCostWithMax_snd (hmax : m ≤ maxMultiplierForKey key) :
    (applyConservativeCostWithMax parts m (maxMultiplierForKey key)).2 =
      min maxInt64 ((conservativeUnits parts * m + 9999) / billingMultiplierBase) := by
  have hcons : 0 ≤ conservativeUnits parts ∧ conservativeUnits parts ≤ maxInt64 := by
    unfold conservativeUnits CostParts.numerator costRemainderScale milliPerMillion maxInt64
    omega
  have hprod : 0 ≤ conservativeUnits parts * m := Int.mul_nonneg hcons.1 hm.le
  have hnorm : normalizeMultiplier m (maxMultiplierForKey key) = m := by
    rw [normalizeMultiplier_eq m (by omega)]
    omega
  have hfst := applyConservativeCostWithMax_fst hunits m (maxMultiplierForKey key)
  unfold applyConservativeCostWithMax at hfst ⊢
  dsimp only at hfst ⊢
  rw [if_neg (show ¬ maxMultiplierForKey key < 0 by omega), hnorm] at hfst ⊢
  simp only [show m ≠ 0 by omega, false_or, apply_ite Prod.fst, ite_self] at hfst ⊢
  rw [hfst, multiplierFloorPartsWithMax_eq _ _ (lt_maxMultiplierForKey key),
    multiplierFloorParts_eq _ hcons.2 (by omega), max_eq_left hcons.1, min_eq_left hmax,
    max_eq_right hm.le]
  split
  · rw [show conservativeUnits parts = 0 by omega, zero_mul]
    decide
  · generalize conservativeUnits parts * m = p at *
    unfold floorParts billingMultiplierBase maxInt64
    split_ifs <;> dsimp only at * <;> omega

/-- The fallback rounds up twice and stops at the largest amount.  It charges at least the exact
amount unless that, or the raw cost at the multiplier, lies beyond it; and less than a unit more
only while the unit fraction it fills up, times the multiplier, leaves room for the second
rounding. -/
theorem applyConservativeCostWithMax_bounds (hmax : m ≤ maxMultiplierForKey key) :
    let charged := (applyConservativeCostWithMax parts m (maxMultiplierForKey key)).2
    let units := conservativeUnits parts
    (0 < parts.numerator → 0 < charged) ∧
      (parts.numerator * m ≤ charged * 10000000000 ↔
        parts.numerator * m ≤ maxInt64 * 10000000000 ∧
          (parts.numerator ≤ maxInt64 * 1000000 ∨
            parts.numerator * m ≤ (maxInt64 * m + 9999) / 10000 * 10000000000)) ∧
      (parts.numerator ≤ maxInt64 * 1000000 → units * m ≤ maxInt64 * 10000 →
        (charged * 10000000000 < parts.numerator * m + 10000000000 ↔
          -parts.numerator % 1000000 * m + 1000000 * (-(units * m) % 10000) < 10000000000)) := by
  rw [applyConservativeCostWithMax_snd key hunits hm hmax]
  dsimp only
  refine ⟨fun hpos => ?_, ?_, fun hunsat hunsat' => ?_⟩
  · have hone : 1 ≤ conservativeUnits parts := by
      unfold conservativeUnits costRemainderScale milliPerMillion maxInt64
      omega
    have hprod : 0 < conservativeUnits parts * m := Int.mul_pos (by omega) hm
    unfold billingMultiplierBase maxInt64
    omega
  · by_cases hunsat : parts.numerator ≤ maxInt64 * 1000000
    · -- the units cover the raw cost, so that only the largest amount can fall short
      obtain ⟨hfill, hgap⟩ := conservativeUnits_fill hm hunsat
      generalize conservativeUnits parts * m = p at *
      generalize -parts.numerator % 1000000 * m = gap at *
      generalize parts.numerator * m = x at *
      unfold billingMultiplierBase
      omega
    · have hcons : conservativeUnits parts = maxInt64 := by
        unfold conservativeUnits costRemainderScale milliPerMillion
        omega
      rw [hcons]
      generalize maxInt64 * m = p at *
      generalize parts.numerator * m = x at *
      unfold billingMultiplierBase
      omega
  · obtain ⟨hfill, hgap⟩ := conservativeUnits_fill hm hunsat
    generalize conservativeUnits parts * m = p at *
    generalize -parts.numerator % 1000000 * m = gap at *
    generalize parts.numerator * m = x at *
    unfold billingMultiplierBase
    omega

end

theorem applyConservativeCostWithMax_bounds_whole :
    (applyConservativeCostWithMax ⟨3, 0⟩ 15000 100000).2 * 10000000000 <
      (⟨3, 0⟩ : CostParts).numerator * 15000 + 10000000000 :=
  ((applyConservativeCostWithMax_bounds { multiplier := 15000 } (by decide) (by decide)
    (by decide)).2.2 (by decide) (by decide)).mpr (by decide)

/-- A millionth of a unit at ten times the price is charged as ten units, and twice the largest
amount as the largest amount. -/
theorem applyConservativeCostWithMax_overcharges :
    (applyConservativeCostWithMax ⟨0, 1⟩ 100000 maxBillingMultiplier).2 = 10 ∧
      ¬ 10 * 10000000000 < (⟨0, 1⟩ : CostParts).numerator * 100000 + 10000000000 ∧
      (applyConservativeCostWithMax ⟨maxInt64, 0⟩ 20000 maxBillingMultiplier).2 = maxInt64 ∧
      ¬ (⟨maxInt64, 0⟩ : CostParts).numerator * 20000 ≤ maxInt64 * 10000000000 := by
  decide

end C4Gateway
