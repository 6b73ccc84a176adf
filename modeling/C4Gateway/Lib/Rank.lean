import C4Gateway.Lib.Run

/-! Progress by a rank.  Some steps of a system are work; while a goal is not reached, every step of
work lowers the rank and no other step raises it. -/

namespace C4Gateway.Rank

variable {S Op : Type*} (step : S → Op → S) (works : S → Op → Bool)

/-- The number of steps of a run that are work. -/
def work : S → List Op → Nat
  | _, [] => 0
  | s, op :: ops => (if works s op then 1 else 0) + work (step s op) ops

variable {step works} {Inv Goal : S → Prop} {C : S → Op → Prop} {rank : S → Nat} {s : S}

/-- A run whose steps meet a condition reaches the goal, or has done no more work than the rank
allows. -/
theorem reached_or_le (hgoal : ∀ s op, Goal s → Goal (step s op))
    (hstep : ∀ s op, Inv s → C s op → Goal (step s op) ∨
      Inv (step s op) ∧ rank (step s op) + (if works s op then 1 else 0) ≤ rank s)
    (hs : Inv s) {ops : List Op} (hops : Run.Each step C s ops) :
    Goal (ops.foldl step s) ∨
      Inv (ops.foldl step s) ∧ rank (ops.foldl step s) + work step works s ops ≤ rank s := by
  induction ops generalizing s with
  | nil => exact .inr ⟨hs, Nat.le_refl _⟩
  | cons op ops ih =>
    rcases hstep s op hs hops.1 with hreached | ⟨hinv, hrank⟩
    · left
      exact Run.states_inv Goal hgoal hreached _ Run.foldl_mem_states
    · rcases ih hinv hops.2 with hreached | ⟨hinv', hrank'⟩
      · exact .inl hreached
      · refine .inr ⟨hinv', ?_⟩
        rw [List.foldl_cons, work]
        omega

end C4Gateway.Rank
