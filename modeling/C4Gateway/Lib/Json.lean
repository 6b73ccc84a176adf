import Mathlib.Data.Rat.Defs

/-! JSON values.  A number is its exact value, and an object is the list of its fields in the order
of the text, repeated keys included. -/

namespace C4Gateway

open List

inductive Json where
  | null
  | bool (b : Bool)
  | num (q : Rat)
  | str (s : String)
  | arr (items : List Json)
  | obj (fields : List (String × Json))
  deriving Inhabited

namespace Json

def asStr : Json → Option String
  | .str s => some s
  | _ => none

def asNum : Json → Option Rat
  | .num q => some q
  | _ => none

def asArr : Json → Option (List Json)
  | .arr items => some items
  | _ => none

def asObj : Json → Option (List (String × Json))
  | .obj fields => some fields
  | _ => none

attribute [simp] asStr.eq_1 asStr.eq_2 asArr.eq_1 asArr.eq_2 asObj.eq_1 asObj.eq_2

def isNull : Json → Bool
  | .null => true
  | _ => false

variable {j : Json}

theorem asStr_eq_some {s : String} : j.asStr = some s ↔ j = .str s := by
  cases j <;> simp

theorem asArr_eq_some {items : List Json} : j.asArr = some items ↔ j = .arr items := by
  cases j <;> simp

theorem asObj_eq_some {fields : List (String × Json)} :
    j.asObj = some fields ↔ j = .obj fields := by
  cases j <;> simp

/-- The field that a decoder into a map keeps: the last one of the key. -/
def lastField (fields : List (String × Json)) (key : String) : Option Json :=
  (fields.reverse.find? (·.1 = key)).map (·.2)

/-- The field that a search through the text finds: the first one of the key. -/
def firstField (fields : List (String × Json)) (key : String) : Option Json :=
  (fields.find? (·.1 = key)).map (·.2)

@[simp]
theorem lastField_nil (key : String) : lastField [] key = none := rfl

@[simp]
theorem lastField_cons (k : String) (v : Json) (fields : List (String × Json)) (key : String) :
    lastField ((k, v) :: fields) key =
      (lastField fields key).or (if k = key then some v else none) := by
  simp only [lastField, reverse_cons, find?_append]
  cases fields.reverse.find? (·.1 = key) <;> by_cases h : k = key <;> simp [h]

theorem lastField_append (fields fields' : List (String × Json)) (key : String) :
    lastField (fields ++ fields') key = (lastField fields' key).or (lastField fields key) := by
  simp only [lastField, reverse_append, find?_append]
  cases fields'.reverse.find? (·.1 = key) <;> simp

/-- No object of the value has a key twice. -/
inductive Unique : Json → Prop
  | null : Unique .null
  | bool (b : Bool) : Unique (.bool b)
  | num (q : Rat) : Unique (.num q)
  | str (s : String) : Unique (.str s)
  | arr {items : List Json} : (∀ j ∈ items, Unique j) → Unique (.arr items)
  | obj {fields : List (String × Json)} : (fields.map (·.1)).Nodup → (∀ f ∈ fields, Unique f.2) →
      Unique (.obj fields)

attribute [simp] Unique.null Unique.bool Unique.num Unique.str

@[simp]
theorem unique_arr (items : List Json) : Unique (.arr items) ↔ ∀ j ∈ items, Unique j := by
  constructor
  · intro h
    cases h with
    | arr hitems => exact hitems
  · exact .arr

@[simp]
theorem unique_obj (fields : List (String × Json)) :
    Unique (.obj fields) ↔ (fields.map (·.1)).Nodup ∧ ∀ f ∈ fields, Unique f.2 := by
  constructor
  · intro h
    cases h with
    | obj hkeys hfields => exact ⟨hkeys, hfields⟩
  · exact fun h => .obj h.1 h.2

variable {v : Json} {key : String} {fields : List (String × Json)}

theorem lastField_eq_none (h : key ∉ fields.map (·.1)) : lastField fields key = none := by
  induction fields with
  | nil => rfl
  | cons f fields ih =>
    simp only [map_cons, mem_cons, not_or] at h
    rw [lastField_cons, ih h.2, if_neg (Ne.symm h.1)]
    rfl

theorem firstField_eq_lastField (h : (fields.map (·.1)).Nodup) (key : String) :
    firstField fields key = lastField fields key := by
  induction fields with
  | nil => rfl
  | cons f fields ih =>
    rw [map_cons, nodup_cons] at h
    have ih := ih h.2
    rw [lastField_cons, ← ih]
    by_cases hk : f.1 = key
    · subst hk
      rw [ih, lastField_eq_none h.1]
      simp [firstField]
    · simp [firstField, hk]

theorem mem_of_lastField (h : lastField fields key = some v) : (key, v) ∈ fields := by
  obtain ⟨f, hf, rfl⟩ := Option.map_eq_some_iff.mp h
  have hkey : f.1 = key := by simpa using find?_some hf
  subst hkey
  exact mem_reverse.mp (mem_of_find?_eq_some hf)

/-- The values inside a value without repeated keys have none either. -/
theorem Unique.field (h : Unique (.obj fields)) (hv : lastField fields key = some v) : Unique v :=
  ((unique_obj fields).mp h).2 _ (mem_of_lastField hv)

theorem Unique.item {items : List Json} (h : Unique (.arr items)) (hj : j ∈ items) : Unique j :=
  (unique_arr items).mp h j hj

theorem Unique.firstField_eq (h : Unique (.obj fields)) (key : String) :
    firstField fields key = lastField fields key :=
  firstField_eq_lastField ((unique_obj fields).mp h).1 key

end Json
end C4Gateway
