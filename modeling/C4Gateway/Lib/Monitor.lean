import C4Gateway.Lib.Run

/-! A monitor reads the events that a machine puts out and fails on the first one that its protocol
does not allow. -/

namespace C4Gateway.Monitor

variable {S Op M E : Type*} (mon : M → E → Option M) (step : S → Op → S) (out : S → Op → List E)

def run (m : M) (events : List E) : Option M := events.foldlM mon m

/-- What a run of the machine puts out. -/
def outputs : S → List Op → List E
  | _, [] => []
  | s, op :: ops => out s op ++ outputs (step s op) ops

variable {mon step out}

@[simp] theorem run_nil (m : M) : run mon m [] = some m := rfl

@[simp] theorem run_cons (m : M) (e : E) (events : List E) :
    run mon m (e :: events) = (mon m e).bind fun m => run mon m events := rfl

theorem run_append (m : M) (es es' : List E) :
    run mon m (es ++ es') = (run mon m es).bind fun m => run mon m es' := List.foldlM_append

theorem outputs_append (s : S) (ops ops' : List Op) :
    outputs step out s (ops ++ ops') =
      outputs step out s ops ++ outputs step out (ops.foldl step s) ops' := by
  induction ops generalizing s with
  | nil => rfl
  | cons op ops ih => simp [outputs, ih]

theorem forall_mem_outputs {P : E → Prop} (h : ∀ s op, ∀ e ∈ out s op, P e) (s : S)
    (ops : List Op) : ∀ e ∈ outputs step out s ops, P e := by
  induction ops generalizing s with
  | nil => simp [outputs]
  | cons op ops ih =>
    intro e he
    rcases List.mem_append.mp he with he | he
    · exact h s op e he
    · exact ih _ e he

variable (mon) in
/-- The monitor accepts the events exactly if the condition holds, and is then related to the state
that they come with. -/
def Tells (R : S → M → Prop) (m : M) (r : S × List E) (C : Prop) : Prop :=
  (C → ∃ m', run mon m r.2 = some m' ∧ R r.1 m') ∧ (¬ C → run mon m r.2 = none)

variable {R : S → M → Prop} {m : M} {s : S} {C D : Prop}

theorem tells_nil (h : R s m) : Tells mon R m (s, []) True :=
  ⟨fun _ => ⟨m, rfl, h⟩, fun hnot => absurd trivial hnot⟩

/-- First the events of one state, then those of the next. -/
theorem Tells.append {r r' : S × List E} (h : Tells mon R m r C)
    (h' : ∀ m', C → R r.1 m' → Tells mon R m' r' D) :
    Tells mon R m (r'.1, r.2 ++ r'.2) (C ∧ D) := by
  unfold Tells
  simp only [run_append]
  by_cases hC : C
  · obtain ⟨m', hm', hr⟩ := h.1 hC
    simpa [hm', hC, Tells] using h' m' hC hr
  · simp [h.2 hC, hC]

/-- If every step tells the monitor whether it meets its condition, then a run tells it whether
every step does. -/
theorem tells_outputs {C : S → Op → Prop} {ops : List Op}
    (h : ∀ s m, ∀ op ∈ ops, R s m → Tells mon R m (step s op, out s op) (C s op)) (hs : R s m) :
    Tells mon R m (ops.foldl step s, outputs step out s ops) (Run.Each step C s ops) := by
  induction ops generalizing s m with
  | nil => exact tells_nil hs
  | cons op ops ih =>
    exact (h s m op (.head _) hs).append fun m' _ hs' =>
      ih (fun s m op hop => h s m op (.tail _ hop)) hs'

end C4Gateway.Monitor
