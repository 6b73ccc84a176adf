import Mathlib.Tactic.Common

/-! Passes over a state that count what they take.  `Idles` says when a pass takes nothing, in terms
of a view of the state, and that it then leaves the view alone; the rule for sequences puts such
passes together. -/

namespace C4Gateway.Progress

variable {S V : Type*}

def seq (p q : S → Int × S) (s : S) : Int × S :=
  ((p s).1 + (q (p s).2).1, (q (p s).2).2)

/-- The pass takes nothing exactly in the states whose view satisfies `I`, and keeps their view. -/
structure Idles (view : S → V) (p : S → Int × S) (I : V → Prop) : Prop where
  nonneg : ∀ s, 0 ≤ (p s).1
  idle : ∀ s, I (view s) → (p s).1 = 0 ∧ view (p s).2 = view s
  of_zero : ∀ s, (p s).1 = 0 → I (view s)

variable {view : S → V} {p q : S → Int × S} {I J : V → Prop}

theorem Idles.skip : Idles view (fun s => (0, s)) fun _ => True :=
  ⟨fun _ => Int.le_refl _, fun _ _ => ⟨rfl, rfl⟩, fun _ _ => trivial⟩

theorem Idles.seq (hp : Idles view p I) (hq : Idles view q J) :
    Idles view (seq p q) fun v => I v ∧ J v := by
  refine ⟨fun s => Int.add_nonneg (hp.nonneg s) (hq.nonneg _), ?_, fun s hzero => ?_⟩
  · rintro s ⟨hI, hJ⟩
    obtain ⟨hp0, hview⟩ := hp.idle s hI
    obtain ⟨hq0, hview'⟩ := hq.idle (p s).2 (hview ▸ hJ)
    exact ⟨by simp [Progress.seq, hp0, hq0], hview'.trans hview⟩
  · have hpn := hp.nonneg s
    have hqn := hq.nonneg (p s).2
    simp only [Progress.seq] at hzero
    have hI := hp.of_zero s (by omega)
    have hJ := hq.of_zero (p s).2 (by omega)
    exact ⟨hI, (hp.idle s hI).2 ▸ hJ⟩

theorem Idles.congr (hp : Idles view p I) (h : ∀ v, I v ↔ J v) : Idles view p J :=
  ⟨hp.nonneg, fun s hs => hp.idle s ((h _).mpr hs), fun s hs => (h _).mp (hp.of_zero s hs)⟩

end C4Gateway.Progress
