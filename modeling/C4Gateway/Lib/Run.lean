import Mathlib.Data.List.Basic

/-! Runs of a deterministic step function over a list of operations: the states a run goes through,
conditions on its steps, and the rules that relate the two. -/

namespace C4Gateway.Run

variable {S Op : Type*} (step : S → Op → S)

def states : S → List Op → List S
  | s, [] => [s]
  | s, op :: ops => s :: states (step s op) ops

/-- A condition on every step of a run, at the state the step starts from. -/
def Each (C : S → Op → Prop) : S → List Op → Prop
  | _, [] => True
  | s, op :: ops => C s op ∧ Each C (step s op) ops

instance Each.decidable (C : S → Op → Prop) [∀ s op, Decidable (C s op)] :
    ∀ s ops, Decidable (Each step C s ops)
  | _, [] => isTrue trivial
  | s, op :: ops =>
    have := Each.decidable C (step s op) ops
    inferInstanceAs (Decidable (C s op ∧ Each step C (step s op) ops))

variable {step} {C D : S → Op → Prop} {Inv P : S → Prop} {s : S} {ops : List Op}

theorem Each.and (hC : Each step C s ops) (hD : Each step D s ops) :
    Each step (fun s op => C s op ∧ D s op) s ops := by
  induction ops generalizing s with
  | nil => trivial
  | cons op ops ih => exact ⟨⟨hC.1, hD.1⟩, ih hC.2 hD.2⟩

theorem Each.of_forall (h : ∀ s op, C s op) : Each step C s ops := by
  induction ops generalizing s with
  | nil => trivial
  | cons op ops ih => exact ⟨h s op, ih⟩

theorem Each.append {ops' : List Op} :
    Each step C s (ops ++ ops') ↔ Each step C s ops ∧ Each step C (ops.foldl step s) ops' := by
  induction ops generalizing s with
  | nil => simp [Each]
  | cons op ops ih => simp [Each, ih, and_assoc]

theorem self_mem_states : s ∈ states step s ops := by
  cases ops <;> simp [states]

theorem foldl_mem_states : ops.foldl step s ∈ states step s ops := by
  induction ops generalizing s with
  | nil => simp [states]
  | cons op ops ih => exact List.mem_cons_of_mem _ ih

variable (Inv) in
/-- An invariant that every step keeps holds in every state of a run. -/
theorem Each.states_inv (hstep : ∀ s op, Inv s → C s op → Inv (step s op))
    (h : Each step C s ops) (hs : Inv s) : ∀ t ∈ states step s ops, Inv t := by
  induction ops generalizing s with
  | nil => simpa [states] using hs
  | cons op ops ih =>
    simp only [states, List.mem_cons, forall_eq_or_imp]
    exact ⟨hs, ih h.2 (hstep s op hs h.1)⟩

variable (Inv) in
theorem states_inv (hstep : ∀ s op, Inv s → Inv (step s op)) (hs : Inv s) :
    ∀ t ∈ states step s ops, Inv t :=
  Each.states_inv Inv (fun s op hs _ => hstep s op hs) (Each.of_forall fun _ _ => trivial) hs

variable (Inv P) in
/-- A property that holds after a step exactly if the step meets a condition holds throughout a run
exactly if every step does. -/
theorem each_iff_states (hstep : ∀ s op, Inv s → P s → Inv (step s op))
    (hiff : ∀ s op, Inv s → P s → (P (step s op) ↔ D s op)) (hs : Inv s) (hP : P s) :
    (∀ t ∈ states step s ops, P t) ↔ Each step D s ops := by
  induction ops generalizing s with
  | nil => simpa [states, Each] using hP
  | cons op ops ih =>
    have hhead : step s op ∈ states step (step s op) ops := self_mem_states
    simp only [states, List.mem_cons, forall_eq_or_imp]
    constructor
    · rintro ⟨-, h⟩
      have hnext := h _ hhead
      exact ⟨(hiff s op hs hP).mp hnext, (ih (hstep s op hs hP) hnext).mp h⟩
    · rintro ⟨hD, h⟩
      exact ⟨hP, (ih (hstep s op hs hP) ((hiff s op hs hP).mpr hD)).mpr h⟩

variable (Inv) in
theorem Each.imp (hstep : ∀ s op, Inv s → C s op → Inv (step s op))
    (himp : ∀ s op, Inv s → C s op → D s op) (h : Each step C s ops) (hs : Inv s) :
    Each step D s ops := by
  induction ops generalizing s with
  | nil => trivial
  | cons op ops ih => exact ⟨himp s op hs h.1, ih h.2 (hstep s op hs h.1)⟩

variable (Inv) in
theorem Each.congr_inv (hstep : ∀ s op, Inv s → Inv (step s op))
    (hiff : ∀ s op, Inv s → (C s op ↔ D s op)) (hs : Inv s) :
    Each step C s ops ↔ Each step D s ops := by
  induction ops generalizing s with
  | nil => exact Iff.rfl
  | cons op ops ih => exact and_congr (hiff s op hs) (ih (hstep s op hs))

theorem Each.congr (h : ∀ s op, C s op ↔ D s op) : Each step C s ops ↔ Each step D s ops :=
  congr_inv (fun _ => True) (fun _ _ _ => trivial) (fun s op _ => h s op) trivial

theorem each_of_states (h : ∀ t ∈ states step s ops, P t) : Each step (fun s _ => P s) s ops := by
  induction ops generalizing s with
  | nil => trivial
  | cons op ops ih =>
    simp only [states, List.mem_cons, forall_eq_or_imp] at h
    exact ⟨h.1, ih h.2⟩

theorem Each.of_states (hstep : ∀ s op, Inv s → C s op → Inv (step s op))
    (himp : ∀ s op, Inv s → C s op → P (step s op) → D s op)
    (h : Each step C s ops) (hs : Inv s) (hP : ∀ t ∈ states step s ops, P t) :
    Each step D s ops := by
  induction ops generalizing s with
  | nil => trivial
  | cons op ops ih =>
    simp only [states, List.mem_cons, forall_eq_or_imp] at hP
    exact ⟨himp s op hs h.1 (hP.2 _ self_mem_states), ih h.2 (hstep s op hs h.1) hP.2⟩

end C4Gateway.Run
