import Mathlib.Algebra.Order.Ring.Int
import Mathlib.Data.List.DropRight

/-! Text as lists of characters: trimming, cutting at a pattern, decimal numbers, LIKE, and lines.
-/

namespace C4Gateway.Text

open List

/-- Membership in a list of texts is decided with this proof in every module.  Without a name, each
module would make one of its own. -/
instance lawfulBEq : LawfulBEq (List Char) := inferInstance

def isSpace (c : Char) : Bool :=
  let n := c.toNat
  (9 ≤ n && n ≤ 13) || n == 0x20 || n == 0x85 || n == 0xA0 || n == 0x1680 ||
    (0x2000 ≤ n && n ≤ 0x200A) || n == 0x2028 || n == 0x2029 || n == 0x202F || n == 0x205F ||
    n == 0x3000

def trim (p : Char → Bool) (s : List Char) : List Char :=
  ((s.dropWhile p).reverse.dropWhile p).reverse

def trimSpace (s : List Char) : List Char := trim isSpace s

variable {sep c : Char} (p : Char → Bool) (s : List Char)

@[simp]
theorem trimSpace_nil : trimSpace [] = [] := rfl

theorem trimSpace_cons_ne_nil (h : isSpace c = false) (s : List Char) :
    trimSpace (c :: s) ≠ [] := by
  simp [trimSpace, trim, h]

theorem trim_trim : trim p (trim p s) = trim p s := by
  have hfront : (trim p s).dropWhile p = trim p s := by
    rw [dropWhile_eq_self_iff]
    intro hlen
    have hcut : trim p s <+: s.dropWhile p := rdropWhile_prefix _ _
    rw [hcut.getElem hlen]
    exact dropWhile_eq_self_iff.mp (dropWhile_idempotent _ _) _
  have hback : ((trim p s).reverse.dropWhile p).reverse = trim p s := rdropWhile_idempotent _ _
  rw [trim, hfront, hback]

theorem trim_isInfix : trim p s <:+: s := by
  have hback : trim p s <+: s.dropWhile p := rdropWhile_prefix _ _
  exact hback.isInfix.trans (dropWhile_suffix _).isInfix

theorem trim_map (f : Char → Char) (hf : ∀ c, p (f c) = p c) (s : List Char) :
    trim p (s.map f) = (trim p s).map f := by
  have hcomp : p ∘ f = p := funext hf
  simp [trim, dropWhile_map, hcomp, ← map_reverse]

theorem trimSpace_trimSpace : trimSpace (trimSpace s) = trimSpace s :=
  trim_trim isSpace s

theorem toNat_toLower (c : Char) :
    c.toLower.toNat = if 65 ≤ c.toNat ∧ c.toNat ≤ 90 then c.toNat + 32 else c.toNat := by
  have hupper : (c.val ≥ 'A'.val ∧ c.val ≤ 'Z'.val) ↔ 65 ≤ c.toNat ∧ c.toNat ≤ 90 := by
    rw [ge_iff_le, UInt32.le_iff_toNat_le, UInt32.le_iff_toNat_le]
    rfl
  unfold Char.toLower
  split
  next h =>
    rw [if_pos (hupper.mp h)]
    have hbound := (hupper.mp h).2
    show (c.val + ('a'.val - 'A'.val)).toNat = c.toNat + 32
    rw [UInt32.toNat_add]
    simp only [Char.toNat] at hbound ⊢
    have h32 : ('a'.val - 'A'.val).toNat = 32 := by decide
    omega
  next h =>
    rw [if_neg (mt hupper.mpr h)]

theorem isSpace_toLower (c : Char) : isSpace c.toLower = isSpace c := by
  simp only [isSpace, toNat_toLower]
  split
  · rw [Bool.eq_iff_iff]
    simp
    omega
  · rfl

theorem toLower_toLower (c : Char) : c.toLower.toLower = c.toLower := by
  apply Char.toNat_inj.mp
  simp only [toNat_toLower]
  by_cases h : 65 ≤ c.toNat ∧ c.toNat ≤ 90
  · rw [if_pos h, if_neg (by omega)]
  · rw [if_neg h, if_neg h]

variable {s : List Char}

theorem mem_dropWhile_isSpace (hc : isSpace c = false) (h : c ∈ s) :
    c ∈ s.dropWhile isSpace := by
  rw [← takeWhile_append_dropWhile (p := isSpace) (l := s), mem_append] at h
  rcases h with htaken | hleft
  · exact absurd (mem_takeWhile_imp htaken) (by simp [hc])
  · exact hleft

theorem mem_trimSpace (hc : isSpace c = false) (h : c ∈ s) : c ∈ trimSpace s := by
  have hfront := mem_dropWhile_isSpace hc h
  exact mem_reverse.mpr (mem_dropWhile_isSpace hc (mem_reverse.mpr hfront))

theorem trimSpace_of_ends {d : Char} (hc : isSpace c = false) (hd : isSpace d = false)
    (s : List Char) : trimSpace (c :: (s ++ [d])) = c :: (s ++ [d]) := by
  simp [trimSpace, trim, hc, hd]

theorem trimSpace_of_forall (h : ∀ c ∈ s, isSpace c = false) : trimSpace s = s := by
  have hkeep : ∀ l : List Char, (∀ c ∈ l, isSpace c = false) → l.dropWhile isSpace = l := by
    intro l hl
    cases l with
    | nil => rfl
    | cons c l => rw [dropWhile_cons_of_neg (by simp [hl c mem_cons_self])]
  rw [trimSpace, trim, hkeep s h, hkeep _ fun c hc => h c (mem_reverse.mp hc), reverse_reverse]

/-- The words of a text, cut at white space. -/
def fields (s : List Char) : List (List Char) := (s.splitOnP isSpace).filter (· ≠ [])

/-- What stands before the first occurrence of a pattern, all of the text if there is none. -/
def cutBefore (pat : List Char) : List Char → List Char
  | [] => []
  | c :: s => if pat.isPrefixOf (c :: s) then [] else c :: cutBefore pat s

def afterLast (pat : List Char) : List Char → Option (List Char)
  | [] => none
  | c :: s =>
    match afterLast pat s with
    | some rest => some rest
    | none => if pat.isPrefixOf (c :: s) then some ((c :: s).drop pat.length) else none

/-- What stands before and after the last occurrence of a pattern. -/
def cutLast (pat : List Char) : List Char → Option (List Char × List Char)
  | [] => none
  | c :: s =>
    match cutLast pat s with
    | some (before, after) => some (c :: before, after)
    | none => if pat.isPrefixOf (c :: s) then some ([], (c :: s).drop pat.length) else none

def decimalNat (s : List Char) : Option Nat :=
  match s.takeWhile Char.isDigit with
  | [] => none
  | digits => some (digits.foldl (fun n c => 10 * n + (c.toNat - '0'.toNat)) 0)

/-- The number at the start of a text, with a sign; what follows it is not looked at. -/
def decimalInt : List Char → Option Int
  | '-' :: s => (decimalNat s).map fun n => -(n : Int)
  | '+' :: s => (decimalNat s).map fun n => (n : Int)
  | s => (decimalNat s).map fun n => (n : Int)

/-- The number that the whole text is. -/
def wholeNat (s : List Char) : Option Nat := if s.all Char.isDigit then decimalNat s else none

/-- A decimal `int64` that takes up the whole text, with or without a sign. -/
def parseInt64 : List Char → Option Int
  | '-' :: s => (wholeNat s).bind fun n => if n ≤ 2 ^ 63 then some (-(n : Int)) else none
  | '+' :: s => (wholeNat s).bind fun n => if n < 2 ^ 63 then some (n : Int) else none
  | s => (wholeNat s).bind fun n => if n < 2 ^ 63 then some (n : Int) else none

/-- A number as `%d` writes it. -/
def decimal (n : Int) : List Char :=
  if n < 0 then '-' :: Nat.toDigits 10 n.natAbs else Nat.toDigits 10 n.natAbs

theorem isDigit_or_eq_of_mem_decimal {n : Int} (h : c ∈ decimal n) :
    c.isDigit = true ∨ c = '-' := by
  have hdigits {m : Nat} (h : c ∈ Nat.toDigits 10 m) : c.isDigit = true :=
    Nat.isDigit_of_mem_toDigits (by decide) (by decide) h
  unfold decimal at h
  split at h
  · rcases mem_cons.mp h with h | h
    · exact Or.inr h
    · exact Or.inl (hdigits h)
  · exact Or.inl (hdigits h)

theorem toDigits_injective {m n : Nat} (h : Nat.toDigits 10 m = Nat.toDigits 10 n) : m = n := by
  have hback := congrArg (fun s => Nat.ofDigitChars 10 s 0) h
  simpa only [Nat.ofDigitChars_ten_toDigits] using hback

theorem decimal_injective : Function.Injective decimal := by
  have hsign {m n : Nat} (h : '-' :: Nat.toDigits 10 m = Nat.toDigits 10 n) : False := by
    have hmem : '-' ∈ Nat.toDigits 10 n := h ▸ mem_cons_self
    exact absurd (Nat.isDigit_of_mem_toDigits (by decide) (by decide) hmem) (by decide)
  intro m n h
  unfold decimal at h
  split at h <;> split at h
  · have hdigits := toDigits_injective (tail_eq_of_cons_eq h)
    omega
  · exact (hsign h).elim
  · exact (hsign h.symm).elim
  · have hdigits := toDigits_injective h
    omega

/-- Two texts cut at a separator that the parts before it do not have. -/
theorem append_cons_inj {l l' r r' : List Char} (h : sep ∉ l) (h' : sep ∉ l')
    (heq : l ++ sep :: r = l' ++ sep :: r') : l = l' ∧ r = r' := by
  induction l generalizing l' with
  | nil =>
    cases l' with
    | nil => simpa using heq
    | cons c l' =>
      simp only [nil_append, cons_append, List.cons.injEq] at heq
      exact absurd (heq.1 ▸ mem_cons_self) h'
  | cons c l ih =>
    cases l' with
    | nil =>
      simp only [nil_append, cons_append, List.cons.injEq] at heq
      exact absurd (heq.1 ▸ mem_cons_self) h
    | cons c' l' =>
      simp only [cons_append, List.cons.injEq] at heq
      obtain ⟨hl, hr⟩ := ih (fun hmem => h (mem_cons_of_mem _ hmem))
        (fun hmem => h' (mem_cons_of_mem _ hmem)) heq.2
      exact ⟨by rw [heq.1, hl], hr⟩

/-- Two texts cut at a separator that the parts after it do not have. -/
theorem append_cons_inj_right {l l' r r' : List Char} (h : sep ∉ r) (h' : sep ∉ r')
    (heq : l ++ sep :: r = l' ++ sep :: r') : l = l' ∧ r = r' := by
  have hrev := congrArg List.reverse heq
  simp only [reverse_append, reverse_cons, append_assoc] at hrev
  obtain ⟨hr, hl⟩ := append_cons_inj (by simpa using h) (by simpa using h') hrev
  exact ⟨reverse_injective hl, reverse_injective hr⟩

/-- LIKE: `%` stands for any text and `_` for any one character. -/
def like : List Char → List Char → Bool
  | [], s => s.isEmpty
  | '%' :: pat, s => s.tails.any (like pat)
  | '_' :: pat, s => match s with
    | [] => false
    | _ :: s => like pat s
  | p :: pat, s => match s with
    | [] => false
    | c :: s => p == c && like pat s

/-- A text of line breaks only. -/
def blank (s : List Char) : Bool := s.all (· == '\n')

/-- The lines of a text that are not empty. -/
def lines (s : List Char) : List (List Char) :=
  (s.splitOnP (· == '\n')).filter (! ·.isEmpty)

@[simp]
theorem lines_nil : lines [] = [] := rfl

theorem lines_append_newline (s t : List Char) : lines (s ++ '\n' :: t) = lines s ++ lines t := by
  rw [lines, splitOnP_append_cons s t (by decide), filter_append]
  rfl

theorem lines_eq_nil_iff : lines s = [] ↔ blank s := by
  induction s with
  | nil => simp [blank]
  | cons c s ih =>
    by_cases hc : c = '\n'
    · subst hc
      have h := lines_append_newline [] s
      simp only [nil_append, lines_nil] at h
      rw [h, ih]
      simp [blank]
    · -- the character stands at the head of a line, which is then not empty
      have hne := splitOnP_ne_nil (· == '\n') s
      obtain ⟨l, ls, hs⟩ := exists_cons_of_ne_nil hne
      simp [lines, splitOnP_cons_eq_if_modifyHead, hc, hs, blank]

end C4Gateway.Text
