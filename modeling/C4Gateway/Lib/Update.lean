import Mathlib.Data.List.Induction

/-! Maps as functions, changed entry by entry along a list: what such a fold removes, what it leaves
alone, and which of its entries a key has in the end. -/

namespace C4Gateway.Update

open List
open Function (update update_of_ne)

variable {α κ β : Type*} [DecidableEq κ] {f : α → κ} {g : α → β} {l : List α} {k : κ}

theorem foldl_remove (f : α → κ) (gone : κ → Prop) [DecidablePred gone] (l : List α)
    (m : κ → Option β) (k : κ) :
    (l.foldl (fun m a => if gone (f a) then update m (f a) none else m) m) k =
      if gone k ∧ ∃ a ∈ l, f a = k then none else m k := by
  induction l generalizing m with
  | nil => simp
  | cons a l ih =>
    rw [foldl_cons, ih]
    by_cases heq : f a = k
    · subst heq
      by_cases hgone : gone (f a) <;> simp [hgone]
    · by_cases hgone : gone (f a) <;> simp [hgone, heq, update_of_ne (Ne.symm heq)]

theorem foldl_insert_of_mem (m : κ → β) {a : α} (ha : a ∈ l)
    (hsame : ∀ a' ∈ l, f a' = f a → g a' = g a) :
    (l.foldl (fun m a => update m (f a) (g a)) m) (f a) = g a := by
  induction l using List.reverseRecOn with
  | nil => exact absurd ha not_mem_nil
  | append_singleton l b ih =>
    rw [foldl_append, foldl_cons, foldl_nil]
    by_cases heq : f b = f a
    · rw [← hsame b (by simp) heq, heq, Function.update_self]
    · rw [update_of_ne (Ne.symm heq)]
      refine ih ?_ fun a' ha' => hsame a' (mem_append_left _ ha')
      rcases mem_append.mp ha with ha | ha
      · exact ha
      · exact absurd (congrArg f (mem_singleton.mp ha).symm) heq

theorem foldl_insert_of_notMem (m : κ → β) (hk : ∀ a ∈ l, f a ≠ k) :
    (l.foldl (fun m a => update m (f a) (g a)) m) k = m k := by
  induction l generalizing m with
  | nil => rfl
  | cons a l ih =>
    rw [foldl_cons, ih _ fun a' ha' => hk a' (mem_cons_of_mem _ ha'),
      update_of_ne (hk a mem_cons_self).symm]

/-- An entry for a key that has none. -/
def addNew (m : κ → Option β) (k : κ) (v : β) : κ → Option β :=
  if (m k).isSome then m else update m k (some v)

/-- The first entry of a key wins. -/
theorem foldl_addNew (p : α → Bool) (l : List α) (m : κ → Option β) (k : κ) :
    (l.foldl (fun m a => if p a then addNew m (f a) (g a) else m) m) k =
      (m k).or ((l.find? fun a => p a && f a = k).map g) := by
  induction l generalizing m with
  | nil => simp
  | cons a l ih =>
    rw [foldl_cons, ih]
    by_cases hp : p a = true
    · by_cases hk : f a = k
      · subst hk
        rcases hm : m (f a) with _ | v <;> simp [addNew, hp, hm]
      · rcases hm : m (f a) with _ | v <;>
          simp [addNew, hp, hm, hk, update_of_ne (Ne.symm hk)]
    · simp [hp]

end C4Gateway.Update
