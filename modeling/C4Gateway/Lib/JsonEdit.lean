import C4Gateway.Lib.JsonText

/-! Reading and editing the members of a JSON object that has a name more than once.  A decoder
reads the last member of a name; a field that is set or deleted is the first one, and the later
ones stay. -/

namespace C4Gateway.JsonText

open List

/-! ### Quoted strings -/

theorem mem_short {c : Char} (h : ¬(c ≠ '"' ∧ c ≠ '\\')) :
    c ∈ ['"', '\\', '/', 'b', 'f', 'n', 'r', 't'] := by
  rcases not_and_or.mp h with h | h
  · simp [not_not.mp h]
  · simp [not_not.mp h]

def Written.ofChar (c : Char) : Written :=
  if h : c ≠ '"' ∧ c ≠ '\\' then .plain c h else .short c (mem_short h)

def quote (s : List Char) : List Written := s.map Written.ofChar

theorem Written.code_ofChar (c : Char) : (ofChar c).code = none := by
  unfold ofChar
  split <;> rfl

theorem Written.char_ofChar (c : Char) : (ofChar c).char = c := by
  unfold ofChar
  split
  · rfl
  · next h =>
    show shortChar c = c
    rcases not_and_or.mp h with h | h <;> rw [not_not.mp h] <;> rfl

/-- No two escapes are read as a pair if none is the first half of one. -/
theorem decode_of_whole {token : List Written}
    (h : ∀ w ∈ token, w.code.getD 0 < 0xd800 ∨ 0xdc00 ≤ w.code.getD 0) :
    decode token = token.map Written.char := by
  fun_induction decode token with
  | case1 | case2 w => rfl
  | case3 w w' rest c hpair ih =>
    have hwhole := h w mem_cons_self
    unfold pair at hpair
    grind
  | case4 w w' rest hpair ih =>
    rw [ih fun w hw => h w (mem_cons_of_mem _ hw)]
    rfl

@[simp]
theorem decode_quote (s : List Char) : decode (quote s) = s := by
  rw [quote, decode_of_whole (by simp [Written.code_ofChar])]
  simp [Function.comp_def, Written.char_ofChar]

/-! ### Values that are read -/

/-- What a decoder reads into a string; a value that is not there is empty. -/
def stringValue : Option Doc → Option (List Char)
  | none | some .null => some []
  | some (.str token) => some (decode token)
  | _ => none

/-- What a decoder reads into a flag. -/
def boolValue : Option Doc → Option Bool
  | none | some .null => some false
  | some (.bool b) => some b
  | _ => none

namespace Doc

variable {d : Doc} {key key' : List Char} {v : Doc}

/-- The values of the members that have the key, in the order they stand in. -/
def fields (d : Doc) (key : List Char) : List Doc :=
  (d.members.filter fun m => decode m.1.token = key).map Prod.snd

theorem firstField_eq_head? (d : Doc) (key : List Char) :
    d.firstField key = (d.fields key).head? := by
  rw [firstField, fields, head?_map, head?_filter]

theorem lastField_eq_getLast? (d : Doc) (key : List Char) :
    d.lastField key = (d.fields key).getLast? := by
  rw [lastField, fields, getLast?_map, getLast?_filter]

/-! ### Edits -/

/-- The first member with the key gets the value; a member is added if none has it. -/
def setMember (key : List Char) (v : Doc) : List (Key × Doc) → List (Key × Doc)
  | [] => [(⟨quote key, noSpace, noSpace, noSpace, noSpace⟩, v)]
  | m :: members =>
    if decode m.1.token = key then (m.1, v) :: members else m :: setMember key v members

def setField (d : Doc) (key : List Char) (v : Doc) : Doc :=
  match d with
  | .obj members stop => .obj (setMember key v members) stop
  | d => d

/-- The first member with the key is taken out. -/
def deleteField (d : Doc) (key : List Char) : Doc :=
  match d with
  | .obj members stop => .obj (members.eraseP fun m => decode m.1.token = key) stop
  | d => d

@[simp]
theorem isObj_setField (d : Doc) : (d.setField key v).isObj = d.isObj := by
  cases d <;> rfl

@[simp]
theorem isObj_deleteField (d : Doc) : (d.deleteField key).isObj = d.isObj := by
  cases d <;> rfl

theorem fields_setField_self (h : d.isObj) :
    (d.setField key v).fields key = v :: (d.fields key).tail := by
  cases d with
  | obj members stop =>
    simp only [fields, setField, Doc.members]
    induction members with
    | nil => simp [setMember]
    | cons m members ih =>
      by_cases hm : decode m.1.token = key
      · simp [setMember, hm]
      · simpa [setMember, hm] using ih rfl
  | _ => exact absurd h (by simp [isObj])

@[simp]
theorem fields_setField_of_ne (d : Doc) (h : key' ≠ key) :
    (d.setField key v).fields key' = d.fields key' := by
  cases d with
  | obj members stop =>
    simp only [fields, setField, Doc.members]
    induction members with
    | nil => simp [setMember, h.symm]
    | cons m members ih =>
      by_cases hm : decode m.1.token = key
      · simp [setMember, hm, h.symm]
      · simp only [setMember, if_neg hm, filter_cons]
        split
        · rw [map_cons, map_cons, ih]
        · exact ih
  | _ => rfl

@[simp]
theorem fields_deleteField_self (d : Doc) :
    (d.deleteField key).fields key = (d.fields key).tail := by
  cases d with
  | obj members stop =>
    simp only [fields, deleteField, Doc.members]
    induction members with
    | nil => rfl
    | cons m members ih =>
      by_cases hm : decode m.1.token = key
      · simp [hm]
      · simpa [hm] using ih
  | _ => rfl

@[simp]
theorem fields_deleteField_of_ne (d : Doc) (h : key' ≠ key) :
    (d.deleteField key).fields key' = d.fields key' := by
  cases d with
  | obj members stop =>
    simp only [fields, deleteField, Doc.members]
    induction members with
    | nil => rfl
    | cons m members ih =>
      by_cases hm : decode m.1.token = key
      · simp [hm, h.symm]
      · simp only [eraseP_cons, hm, decide_false, cond_false, filter_cons]
        split
        · rw [map_cons, map_cons, ih]
        · exact ih
  | _ => rfl

end Doc
end C4Gateway.JsonText
