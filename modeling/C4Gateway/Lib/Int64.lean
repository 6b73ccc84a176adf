import Mathlib.Algebra.Order.Ring.Int

/-! The range of a 64-bit signed integer, as a range of `Int`, and the wrap-around of its sums. -/

namespace C4Gateway

def maxInt64 : Int := 9223372036854775807

def minInt64 : Int := -9223372036854775808

/-- `x` is the value of an `int64`, or of a `bigint` column. -/
def InInt64 (x : Int) : Prop := minInt64 ≤ x ∧ x ≤ maxInt64

instance (x : Int) : Decidable (InInt64 x) := inferInstanceAs (Decidable (_ ∧ _))

/-- The value of `x` in an `int64`. -/
def wrapInt64 (x : Int) : Int := Int.bmod x (2 ^ 64)

theorem wrapInt64_of_le {x : Int} (h0 : 0 ≤ x) (h : x ≤ maxInt64) : wrapInt64 x = x := by
  unfold maxInt64 at h
  simp only [wrapInt64, Int.bmod_def]
  omega

theorem wrapInt64_neg_of_gt {a b : Int} (ha : a ≤ maxInt64) (hb : b ≤ maxInt64)
    (h : maxInt64 < a + b) : wrapInt64 (a + b) < 0 := by
  unfold maxInt64 at *
  simp only [wrapInt64, Int.bmod_def]
  omega

theorem wrapInt64_le (x : Int) : wrapInt64 x ≤ maxInt64 := by
  unfold maxInt64
  simp only [wrapInt64, Int.bmod_def]
  omega

end C4Gateway
