import Mathlib.Data.List.Basic

/-! A loop that returns at the first element that decides, and what it returns in every order of its
elements. -/

namespace C4Gateway.AnyOrder

variable {α : Type*}

/-- The verdict of the first element that has one, and otherwise `false`. -/
def verdict (decides : α → Option Bool) (l : List α) : Bool := (l.findSome? decides).getD false

theorem verdict_cons (decides : α → Option Bool) (a : α) (l : List α) :
    verdict decides (a :: l) = (decides a).getD (verdict decides l) := by
  cases h : decides a <;> simp [verdict, h]

variable {decides : α → Option Bool} {l : List α}

theorem exists_of_verdict (h : verdict decides l = true) : ∃ a ∈ l, decides a = some true := by
  have hsome : l.findSome? decides = some true := by
    simpa [verdict, Option.getD_eq_iff] using h
  exact List.exists_of_findSome?_eq_some hsome

theorem verdict_of_exists (h : ∃ a ∈ l, decides a = some true)
    (hnever : ∀ a ∈ l, decides a ≠ some false) : verdict decides l = true := by
  induction l with
  | nil => simp at h
  | cons a l ih =>
    rw [verdict_cons]
    cases ha : decides a with
    | none =>
      obtain ⟨b, hb, hdecides⟩ := h
      rcases List.mem_cons.mp hb with rfl | hb
      · simp [ha] at hdecides
      · exact ih ⟨b, hb, hdecides⟩ fun c hc => hnever c (List.mem_cons_of_mem a hc)
    | some b =>
      have hb : b ≠ false := fun hb => hnever a List.mem_cons_self (by rw [ha, hb])
      simpa using hb

/-- The loop returns `true` in every order exactly if some element decides so and none against. -/
theorem verdict_every_order_iff :
    (∀ l', l'.Perm l → verdict decides l' = true) ↔
      (∃ a ∈ l, decides a = some true) ∧ ∀ a ∈ l, decides a ≠ some false := by
  constructor
  · refine fun h => ⟨exists_of_verdict (h l (.refl l)), fun a ha hfalse => ?_⟩
    -- the element that decides against comes first
    obtain ⟨s, t, rfl⟩ := List.append_of_mem ha
    have hfirst := h (a :: (s ++ t)) List.perm_middle.symm
    rw [verdict_cons, hfalse] at hfirst
    exact absurd hfirst (by simp)
  · rintro ⟨⟨a, ha, hdecides⟩, hnever⟩ l' hperm
    exact verdict_of_exists ⟨a, hperm.mem_iff.mpr ha, hdecides⟩
      fun b hb => hnever b (hperm.mem_iff.mp hb)

end C4Gateway.AnyOrder
