import Mathlib.Logic.Function.Basic

/-! A store of objects that other objects refer to by address, with addresses from `next` on not
given out yet, and the frame of an operation: which of the old objects it leaves as they were. -/

namespace C4Gateway

/-- Cells by address; those from `next` on are not allocated. -/
structure Heap (α : Type*) where
  get : Nat → α
  next : Nat := 0

namespace Heap

variable {α : Type*} {h h' h'' : Heap α} {A B : Nat → Prop} {a b : Nat}

def set (h : Heap α) (a : Nat) (v : α) : Heap α := { h with get := Function.update h.get a v }

def modify (h : Heap α) (a : Nat) (f : α → α) : Heap α := h.set a (f (h.get a))

/-- The new object has the address `h.next`. -/
def alloc (h : Heap α) (v : α) : Heap α :=
  { get := Function.update h.get h.next v, next := h.next + 1 }

variable (v : α) (f : α → α)

@[simp] theorem next_alloc : (h.alloc v).next = h.next + 1 := rfl

@[simp] theorem get_modify_self : (h.modify a f).get a = f (h.get a) :=
  Function.update_self ..

theorem get_modify_of_ne (hne : b ≠ a) : (h.modify a f).get b = h.get b :=
  Function.update_of_ne hne ..

@[simp] theorem get_alloc_self : (h.alloc v).get h.next = v := Function.update_self ..

theorem get_alloc_of_lt (hlt : b < h.next) : (h.alloc v).get b = h.get b :=
  Function.update_of_ne (Nat.ne_of_lt hlt) ..

/-- Of the objects of `h`, at most those with `A` are different in `h'`. -/
structure Frame (A : Nat → Prop) (h h' : Heap α) : Prop where
  le : h.next ≤ h'.next
  get : ∀ a < h.next, ¬A a → h'.get a = h.get a

namespace Frame

theorem refl (A : Nat → Prop) (h : Heap α) : Frame A h h := ⟨Nat.le_refl _, fun _ _ _ => rfl⟩

theorem trans (h₁ : Frame A h h') (h₂ : Frame A h' h'') : Frame A h h'' where
  le := Nat.le_trans h₁.le h₂.le
  get a ha hA := (h₂.get a (Nat.lt_of_lt_of_le ha h₁.le) hA).trans (h₁.get a ha hA)

theorem mono (hf : Frame A h h') (hAB : ∀ a, A a → B a) : Frame B h h' where
  le := hf.le
  get a ha hB := hf.get a ha fun hA => hB (hAB a hA)

theorem alloc : Frame A h (h.alloc v) where
  le := Nat.le_succ _
  get _ ha _ := get_alloc_of_lt v ha

theorem modify (ha : h.next ≤ a ∨ A a) : Frame A h (h.modify a f) where
  le := Nat.le_refl _
  get b hb hA := by
    refine get_modify_of_ne f ?_
    rintro rfl
    rcases ha with ha | ha
    · exact absurd hb (Nat.not_lt.mpr ha)
    · exact hA ha

end Frame
end Heap
end C4Gateway
