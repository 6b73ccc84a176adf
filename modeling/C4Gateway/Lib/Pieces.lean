import Mathlib.Data.List.Forall2

/-! Lists that are put together piece by piece, and compared element by element. -/

namespace C4Gateway.Pieces

open List

variable {α β γ : Type} {R : β → γ → Prop} {f : α → List β} {g : α → List γ} {l : List α}
  (kept : α → Prop)

theorem forall₂_flatMap (h : ∀ a ∈ l, Forall₂ R (f a) (g a)) :
    Forall₂ R (l.flatMap f) (l.flatMap g) := by
  induction l with
  | nil => exact .nil
  | cons a l ih =>
    obtain ⟨ha, hl⟩ := forall_mem_cons.mp h
    simpa only [flatMap_cons] using rel_append ha (ih hl)

theorem length_flatMap_le (h : ∀ a ∈ l, (g a).length ≤ (f a).length) :
    (l.flatMap g).length ≤ (l.flatMap f).length := by
  induction l with
  | nil => exact Nat.le_refl _
  | cons a l ih =>
    obtain ⟨ha, hl⟩ := forall_mem_cons.mp h
    simpa only [flatMap_cons, length_append] using Nat.add_le_add ha (ih hl)

/-- Where every piece is either kept or shortened, all are kept if the whole is as long as before.
-/
theorem kept_of_length_eq (hkept : ∀ a ∈ l, kept a → (f a).length = (g a).length)
    (hlost : ∀ a ∈ l, ¬ kept a → (g a).length < (f a).length)
    (h : (l.flatMap f).length = (l.flatMap g).length) : ∀ a ∈ l, kept a := by
  intro a ha
  by_contra hk
  obtain ⟨pre, post, rfl⟩ := append_of_mem ha
  have hle : ∀ b ∈ pre ++ a :: post, (g b).length ≤ (f b).length := by
    intro b hb
    by_cases hkb : kept b
    · exact Nat.le_of_eq (hkept b hb hkb).symm
    · exact Nat.le_of_lt (hlost b hb hkb)
  have hpre := length_flatMap_le fun b hb => hle b (mem_append_left _ hb)
  have hpost := length_flatMap_le fun b hb =>
    hle b (mem_append_right _ (mem_cons_of_mem _ hb))
  have hlt := hlost a ha hk
  simp only [flatMap_append, flatMap_cons, length_append] at h
  omega

theorem forall₂_flatMap_iff (hkept : ∀ a ∈ l, kept a → Forall₂ R (f a) (g a))
    (hlost : ∀ a ∈ l, ¬ kept a → (g a).length < (f a).length) :
    Forall₂ R (l.flatMap f) (l.flatMap g) ↔ ∀ a ∈ l, kept a := by
  constructor
  · intro h
    exact kept_of_length_eq kept (fun a ha hk => (hkept a ha hk).length_eq) hlost h.length_eq
  · intro h
    exact forall₂_flatMap fun a ha => hkept a ha (h a ha)

theorem flatMap_eq_iff {g : α → List β} (hkept : ∀ a ∈ l, kept a → f a = g a)
    (hlost : ∀ a ∈ l, ¬ kept a → (g a).length < (f a).length) :
    l.flatMap f = l.flatMap g ↔ ∀ a ∈ l, kept a := by
  rw [← forall₂_eq_eq_eq]
  exact forall₂_flatMap_iff kept
    (fun a ha hk => by rw [hkept a ha hk, forall₂_eq_eq_eq]) hlost

/-- Pieces of which each may fail, all or nothing. -/
theorem flatMap_of_mapM {make : α → Option (List β)} {read : β → List γ} {spec : α → List γ}
    {pieces : List (List β)} (h : l.mapM make = some pieces)
    (hspec : ∀ a ∈ l, ∀ piece, make a = some piece → piece.flatMap read = spec a) :
    pieces.flatten.flatMap read = l.flatMap spec := by
  induction l generalizing pieces with
  | nil =>
    obtain rfl : [] = pieces := by simpa using h
    rfl
  | cons a l ih =>
    obtain ⟨ha, hl⟩ := forall_mem_cons.mp hspec
    simp only [mapM_cons, Option.pure_def, Option.bind_eq_bind, Option.bind_eq_some_iff,
      Option.some.injEq] at h
    obtain ⟨piece, hpiece, rest, hrest, rfl⟩ := h
    rw [flatten_cons, flatMap_append, ha piece hpiece, ih hrest hl, flatMap_cons]

theorem isSome_mapM {make : α → Option β} (h : ∀ a ∈ l, (make a).isSome) :
    (l.mapM make).isSome := by
  induction l with
  | nil => rfl
  | cons a l ih =>
    obtain ⟨ha, hl⟩ := forall_mem_cons.mp h
    obtain ⟨b, hb⟩ := Option.isSome_iff_exists.mp ha
    obtain ⟨bs, hbs⟩ := Option.isSome_iff_exists.mp (ih hl)
    simp [hb, hbs]

end C4Gateway.Pieces
