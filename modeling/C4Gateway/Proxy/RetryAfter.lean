import C4Gateway.Lib.Text
import C4Gateway.Scheduler.Breaker

/-! How long an account rests after a 429: what the provider's headers ask for, which
`retryAfterDeadline` reads, within the bounds of `retry429Deadline`.  Times and durations are
nanoseconds; a product of durations wraps around in an `int64`. -/

namespace C4Gateway.Proxy

/-- Response headers under their canonical names. -/
abbrev Header := List (String × List String)

def Header.get (h : Header) (key : String) : String := ((h.lookup key).bind List.head?).getD ""

/-- A header without the white space around it. -/
def Header.text (h : Header) (key : String) : List Char := Text.trimSpace (h.get key).toList

def second : Int := 1000000000

def millisecond : Int := 1000000

/-- The deadline for a number of units, at least a second from now. -/
def deadlineIn (now unit n : Int) : Int :=
  let d := wrapInt64 (n * unit)
  now + if d < second then second else d

/-- The deadline that a header with a number asks for. -/
def numericDeadline (now unit : Int) (raw : List Char) : Option Int :=
  if raw = [] then none
  else ((Text.parseInt64 raw).filter (0 ≤ ·)).map (deadlineIn now unit)

/-- `Retry-After` may also be a date, which is as `parseTime` reads it; headers that are missing are
those of the error. -/
def retryAfterDeadline (parseTime : List Char → Option Int) (now : Int)
    (hdr errHdr : Option Header) : Option Int :=
  match hdr.or errHdr with
  | none => none
  | some h =>
    let retryAfter := h.text "Retry-After"
    let date := if retryAfter = [] then none else (parseTime retryAfter).filter (· > now)
    (numericDeadline now second retryAfter).or <|
      date.or <|
      (numericDeadline now second (h.text "X-Retry-After")).or <|
      numericDeadline now millisecond (h.text "Retry-After-Ms")

/-- The header that counts, with its unit: the first one that is there. -/
def Header.retry (h : Header) : List Char × Int :=
  if h.text "Retry-After" ≠ [] then (h.text "Retry-After", second)
  else if h.text "X-Retry-After" ≠ [] then (h.text "X-Retry-After", second)
  else (h.text "Retry-After-Ms", millisecond)

/-- The product of a number and its unit is an `int64`, or wraps around to more than the maximum. -/
def FitsOrLong (n unit : Int) : Prop := n * unit ≤ maxInt64 ∨ retry429Max ≤ wrapInt64 (n * unit)

theorem numericDeadline_eq {raw : List Char} {n : Int} (hraw : Text.parseInt64 raw = some n)
    (hn : 0 ≤ n) (now unit : Int) :
    numericDeadline now unit raw = some (deadlineIn now unit n) := by
  have hne : raw ≠ [] := by
    rintro rfl
    simp [Text.parseInt64, Text.wholeNat, Text.decimalNat] at hraw
  simp [numericDeadline, hne, hraw, hn]

theorem retryAfterDeadline_eq (parseTime : List Char → Option Int) (now : Int)
    {hdr errHdr : Option Header} {h : Header} (hh : hdr.or errHdr = some h) {n : Int}
    (hraw : Text.parseInt64 h.retry.1 = some n) (hn : 0 ≤ n) :
    retryAfterDeadline parseTime now hdr errHdr = some (deadlineIn now h.retry.2 n) := by
  have hnil (unit : Int) : numericDeadline now unit [] = none := rfl
  unfold retryAfterDeadline
  rw [hh]
  unfold Header.retry at hraw ⊢
  by_cases hretry : h.text "Retry-After" = []
  · by_cases hx : h.text "X-Retry-After" = []
    · simp only [hretry, hx, ne_eq, not_true_eq_false, if_false] at hraw
      simp [hretry, hx, hnil, numericDeadline_eq hraw hn]
    · simp only [hretry, hx, ne_eq, not_true_eq_false, if_false, not_false_eq_true, if_true] at hraw
      simp [hretry, hx, hnil, numericDeadline_eq hraw hn]
  · simp only [hretry, ne_eq, not_false_eq_true, if_true] at hraw
    simp [hretry, numericDeadline_eq hraw hn]

/-- A provider's deadline is always in the future and bounded by the maximum. -/
theorem retry429Deadline_deadlineIn (now unit n : Int) (streak : Nat) :
    retry429Deadline now streak (some (deadlineIn now unit n)) =
      now + min (max (wrapInt64 (n * unit)) second) retry429Max := by
  have hmax : (if wrapInt64 (n * unit) < second then second else wrapInt64 (n * unit)) =
      max (wrapInt64 (n * unit)) second := by
    split <;> omega
  have hlater : now < now + max (wrapInt64 (n * unit)) second := by
    unfold second
    omega
  simp only [retry429Deadline, deadlineIn, hmax, Option.filter_some, gt_iff_lt, hlater, decide_true]
  exact min_add_add_left ..

/-- The cooldown is what the header asks for, within its bounds, unless the product with the unit
wraps around to a shorter one. -/
theorem retry_after_kept_iff (parseTime : List Char → Option Int) (now : Int) (streak : Nat)
    {hdr errHdr : Option Header} {h : Header} (hh : hdr.or errHdr = some h) {n : Int}
    (hraw : Text.parseInt64 h.retry.1 = some n) (hn : 0 ≤ n) :
    retry429Deadline now streak (retryAfterDeadline parseTime now hdr errHdr) =
        now + min (max (n * h.retry.2) second) retry429Max ↔ FitsOrLong n h.retry.2 := by
  have hunit : 0 ≤ h.retry.2 := by
    unfold Header.retry
    repeat' split
    all_goals simp [second, millisecond]
  have hnonneg : 0 ≤ n * h.retry.2 := Int.mul_nonneg hn hunit
  rw [retryAfterDeadline_eq parseTime now hh hraw hn, retry429Deadline_deadlineIn, FitsOrLong,
    Int.add_right_inj]
  by_cases hfits : n * h.retry.2 ≤ maxInt64
  · simp [wrapInt64_of_le hnonneg hfits, hfits]
  · have hlong : retry429Max < n * h.retry.2 := by
      unfold maxInt64 at hfits
      unfold retry429Max
      omega
    have hbound : second ≤ retry429Max := by decide
    have hall : min (max (n * h.retry.2) second) retry429Max = retry429Max := by
      rw [min_eq_right (le_trans hlong.le (le_max_left ..))]
    rw [hall, min_eq_right_iff, le_max_iff]
    constructor
    · rintro (hle | hle)
      · exact .inr hle
      · exact absurd hle (by decide)
    · rintro (hle | hle)
      · exact absurd hle hfits
      · exact .inl hle

theorem retry_after_kept_minute :
    retry429Deadline 5 1 (retryAfterDeadline (fun _ => none) 5
      (some [("X-Retry-After", [" 60 "])]) none) = 5 + 60 * second := by
  have hkept : FitsOrLong 60 second := .inl (by decide)
  exact (@retry_after_kept_iff (fun _ => none) 5 1 (some [("X-Retry-After", [" 60 "])]) none _ rfl
    60 (by decide) (by decide)).mpr hkept

/-- A wait of three hundred years becomes one of a second. -/
theorem retry_after_wraps :
    retry429Deadline 5 1 (retryAfterDeadline (fun _ => none) 5
        (some [("Retry-After", ["9223372037"])]) none) = 5 + second ∧
      min (max (9223372037 * second) second) retry429Max = retry429Max := by
  decide

end C4Gateway.Proxy
