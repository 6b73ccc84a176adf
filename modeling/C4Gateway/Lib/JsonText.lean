import C4Gateway.Lib.Text

/-! JSON as it is written: a syntax tree that keeps the white space, the escapes and the spelling of
numbers, with its text.  Every JSON text is the text of a tree between white space. -/

namespace C4Gateway.JsonText

open List

def isSpace (c : Char) : Bool := c == ' ' || c == '\t' || c == '\n' || c == '\r'

abbrev Space := { s : List Char // s.all isSpace }

def isHex (c : Char) : Bool :=
  c.isDigit || ('a' ≤ c && c ≤ 'f') || ('A' ≤ c && c ≤ 'F')

abbrev Hex := { c : Char // isHex c }

theorem Hex.plain (x : Hex) : x.1 ≠ '"' ∧ x.1 ≠ '\\' := by
  have hx := x.2
  constructor <;> intro h <;> rw [h] at hx <;> exact absurd hx (by decide)

/-! ### Strings -/

/-- A character of a string as it is written. -/
inductive Written where
  | plain (c : Char) (h : c ≠ '"' ∧ c ≠ '\\')
  | short (c : Char) (h : c ∈ ['"', '\\', '/', 'b', 'f', 'n', 'r', 't'])
  | unicode (a b c d : Hex)

def Written.text : Written → List Char
  | .plain c _ => [c]
  | .short c _ => ['\\', c]
  | .unicode a b c d => ['\\', 'u', a.1, b.1, c.1, d.1]

def hexValue (c : Hex) : Nat :=
  if c.1.isDigit then c.1.toNat - '0'.toNat
  else if 'a' ≤ c.1 then c.1.toNat - 'a'.toNat + 10
  else c.1.toNat - 'A'.toNat + 10

def Written.code : Written → Option Nat
  | .unicode a b c d => some (((hexValue a * 16 + hexValue b) * 16 + hexValue c) * 16 + hexValue d)
  | _ => none

def shortChar (c : Char) : Char :=
  if c = 'b' then '\x08' else if c = 'f' then '\x0c' else if c = 'n' then '\n'
  else if c = 'r' then '\r' else if c = 't' then '\t' else c

/-- The character of a code, where half of a surrogate pair is replaced. -/
def ofCode (n : Nat) : Char := if 0xd800 ≤ n ∧ n < 0xe000 then '�' else Char.ofNat n

def Written.char : Written → Char
  | .plain c _ => c
  | .short c _ => shortChar c
  | w => ofCode (w.code.getD 0)

/-- The character that two escapes stand for together. -/
def pair (w w' : Written) : Option Char :=
  match w.code, w'.code with
  | some hi, some lo =>
    if 0xd800 ≤ hi ∧ hi < 0xdc00 ∧ 0xdc00 ≤ lo ∧ lo < 0xe000 then
      some (Char.ofNat (0x10000 + (hi - 0xd800) * 0x400 + (lo - 0xdc00)))
    else none
  | _, _ => none

def decode : List Written → List Char
  | [] => []
  | [w] => [w.char]
  | w :: w' :: rest =>
    match pair w w' with
    | some c => c :: decode rest
    | none => w.char :: decode (w' :: rest)

def written (token : List Written) : List Char := token.flatMap Written.text

/-! ### Numbers -/

abbrev Digits := List (Fin 10)

/-- Digits are written as numerals with this proof in every module. -/
instance neZeroTen : NeZero 10 := inferInstance

def Digits.text (ds : Digits) : List Char := ds.map fun d : Fin 10 => Nat.digitChar d.val

structure Exponent where
  capital : Bool
  sign : Option Bool
  digits : Digits

def Exponent.text (e : Exponent) : List Char :=
  (if e.capital then 'E' else 'e') ::
    ((e.sign.map fun plus => if plus then '+' else '-').toList ++ e.digits.text)

/-- A number as it is written; it has a digit before the point. -/
structure Number where
  negative : Bool := false
  whole : Digits
  whole_ne : whole ≠ [] := by decide
  fraction : Digits := []
  exponent : Option Exponent := none

namespace Number

def ofDigits (d : Fin 10) (ds : Digits) : Number where
  whole := d :: ds
  whole_ne := cons_ne_nil d ds

def text (n : Number) : List Char :=
  (if n.negative then ['-'] else []) ++ (n.whole.text ++
    ((if n.fraction.isEmpty then [] else '.' :: n.fraction.text) ++
      (n.exponent.map Exponent.text).getD []))

/-- The number without its powers of ten, which has the number's sign. -/
def mantissa (n : Number) : Int :=
  let m : Nat := (n.whole ++ n.fraction).foldl (fun m (d : Fin 10) => 10 * m + d.val) 0
  if n.negative then -m else m

def isNumberChar (c : Char) : Bool :=
  c.isDigit || c == '-' || c == '+' || c == '.' || c == 'e' || c == 'E'

theorem isNumberChar_digits (ds : Digits) : ∀ c ∈ ds.text, isNumberChar c = true := by
  intro c hc
  obtain ⟨d, _, rfl⟩ := mem_map.mp hc
  exact (show ∀ d : Fin 10, isNumberChar (Nat.digitChar d.val) = true by decide) d

theorem isNumberChar_text (n : Number) : ∀ c ∈ n.text, isNumberChar c = true := by
  intro c hc
  simp only [text, mem_append] at hc
  rcases hc with hc | hc | hc | hc
  · split at hc
    · obtain rfl := mem_singleton.mp hc
      decide
    · exact absurd hc not_mem_nil
  · exact isNumberChar_digits _ _ hc
  · split at hc
    · exact absurd hc not_mem_nil
    · rcases mem_cons.mp hc with rfl | hc
      · decide
      · exact isNumberChar_digits _ _ hc
  · cases hexp : n.exponent with
    | none => rw [hexp] at hc; exact absurd hc not_mem_nil
    | some e =>
      rw [hexp] at hc
      simp only [Option.map_some, Option.getD_some, Exponent.text, mem_cons, mem_append,
        Option.mem_toList, Option.map_eq_some_iff] at hc
      rcases hc with rfl | ⟨plus, _, rfl⟩ | hc
      · split <;> decide
      · split <;> decide
      · exact isNumberChar_digits _ _ hc

theorem text_ne_nil (n : Number) : n.text ≠ [] := by
  have hwhole : n.whole.text ≠ [] := fun h => n.whole_ne (map_eq_nil_iff.mp h)
  simp [text, hwhole]

/-- A whole number, written without a point and without an exponent. -/
def Decimal (n : Number) : Prop := n.fraction = [] ∧ n.exponent = none

theorem isDigit_digitChar (d : Fin 10) : (Nat.digitChar d.val).isDigit = true ∧
    (Nat.digitChar d.val).toNat - '0'.toNat = d.val := by
  revert d
  decide

theorem isDigit_text (ds : Digits) : ∀ c ∈ ds.text, c.isDigit = true := by
  intro c hc
  obtain ⟨d, _, rfl⟩ := mem_map.mp hc
  exact (isDigit_digitChar d).1

theorem decimalNat_text {ds : Digits} (h : ds ≠ []) :
    Text.decimalNat ds.text = some (ds.foldl (fun m (d : Fin 10) => 10 * m + d.val) 0) := by
  have hne : ds.text ≠ [] := fun h' => h (map_eq_nil_iff.mp h')
  unfold Text.decimalNat
  rw [takeWhile_eq_self_iff.mpr (isDigit_text ds)]
  split
  · next hnil => exact absurd hnil hne
  · simp only [Digits.text, foldl_map, (isDigit_digitChar _).2]

theorem wholeNat_text {ds : Digits} (h : ds ≠ []) :
    Text.wholeNat ds.text = some (ds.foldl (fun m (d : Fin 10) => 10 * m + d.val) 0) := by
  rw [Text.wholeNat, if_pos (all_eq_true.mpr (isDigit_text ds)), decimalNat_text h]

theorem parseInt64_text {n : Number} (h : n.Decimal) (hmin : -(2 ^ 63) ≤ n.mantissa)
    (hmax : n.mantissa < 2 ^ 63) : Text.parseInt64 n.text = some n.mantissa := by
  have htext : n.text = (if n.negative then ['-'] else []) ++ n.whole.text := by
    simp [text, h.1, h.2]
  have hwhole := wholeNat_text n.whole_ne
  unfold mantissa at hmin hmax ⊢
  rw [h.1, append_nil] at hmin hmax ⊢
  generalize n.whole.foldl (fun m (d : Fin 10) => 10 * m + d.val) 0 = m at hwhole hmin hmax ⊢
  rw [htext]
  cases hneg : n.negative with
  | true =>
    simp only [hneg, if_true] at hmin
    have hm : m ≤ 2 ^ 63 := by omega
    simp only [if_true, cons_append, nil_append, Text.parseInt64, hwhole,
      Option.bind_some, if_pos hm]
  | false =>
    simp only [hneg, Bool.false_eq_true, if_false] at hmax
    have hm : m < 2 ^ 63 := by omega
    have hdigit := isDigit_text n.whole
    simp only [Bool.false_eq_true, if_false, nil_append, Text.parseInt64]
    split
    · next _ htext => exact absurd (hdigit '-' (by rw [htext]; simp)) (by decide)
    · next _ htext => exact absurd (hdigit '+' (by rw [htext]; simp)) (by decide)
    · simp only [hwhole, Option.bind_some, if_pos hm]

end Number

/-! ### Values -/

/-- The white space around an item of an array. -/
structure Slot where
  before : Space
  after : Space

/-- The key of a member, with the white space of the member. -/
structure Key where
  token : List Written
  before : Space
  afterKey : Space
  beforeValue : Space
  after : Space

/-- A value as it is written, with its white space. -/
inductive Doc where
  | null
  | bool (b : Bool)
  | num (n : Number)
  | str (token : List Written)
  | arr (items : List (Slot × Doc)) (stop : Space)
  | obj (members : List (Key × Doc)) (stop : Space)

namespace Doc

/-- A comma, if more is to come. -/
def comma {α : Type} (more : List α) : List Char := if more.isEmpty then [] else [',']

mutual

def text : Doc → List Char
  | .null => ['n', 'u', 'l', 'l']
  | .bool true => ['t', 'r', 'u', 'e']
  | .bool false => ['f', 'a', 'l', 's', 'e']
  | .num n => n.text
  | .str token => '"' :: (written token ++ ['"'])
  | .arr items stop => '[' :: (itemsText items ++ (stop.1 ++ [']']))
  | .obj members stop => '{' :: (membersText members ++ (stop.1 ++ ['}']))

def itemsText : List (Slot × Doc) → List Char
  | [] => []
  | (slot, d) :: items =>
    slot.before.1 ++ (text d ++ (slot.after.1 ++ (comma items ++ itemsText items)))

def membersText : List (Key × Doc) → List Char
  | [] => []
  | (key, d) :: members =>
    key.before.1 ++ ('"' :: (written key.token ++ ('"' :: (key.afterKey.1 ++ (':' ::
      (key.beforeValue.1 ++ (text d ++ (key.after.1 ++ (comma members ++
        membersText members)))))))))

end

def members : Doc → List (Key × Doc)
  | .obj members _ => members
  | _ => []

def isObj : Doc → Bool
  | .obj _ _ => true
  | _ => false

def isArr : Doc → Bool
  | .arr _ _ => true
  | _ => false

def isStr : Doc → Bool
  | .str _ => true
  | _ => false

/-- The value of the first member whose key is written like this. -/
def rawField (d : Doc) (key : List Char) : Option Doc :=
  (d.members.find? fun m => written m.1.token = key).map Prod.snd

/-- The value of the first member that has the key. -/
def firstField (d : Doc) (key : List Char) : Option Doc :=
  (d.members.find? fun m => decode m.1.token = key).map Prod.snd

/-- The value of the last member that has the key. -/
def lastField (d : Doc) (key : List Char) : Option Doc :=
  (d.members.reverse.find? fun m => decode m.1.token = key).map Prod.snd

def UniqueKeys (d : Doc) : Prop := (d.members.map fun m => decode m.1.token).Nodup

end Doc

/-- A text that is written without escapes is the string itself. -/
theorem decode_of_written {token : List Written} (h : '\\' ∉ written token) :
    decode token = written token := by
  induction token with
  | nil => rfl
  | cons w token ih =>
    rw [written, flatMap_cons, mem_append, not_or] at h
    have ih := ih h.2
    cases w with
    | short c _ | unicode a b c d => exact absurd h.1 (by simp [Written.text])
    | plain c _ =>
      cases token with
      | nil => rfl
      | cons w' token =>
        have hpair : pair (.plain c ‹_›) w' = none := rfl
        rw [decode, hpair]
        exact congrArg (c :: ·) ih

namespace Doc

theorem find?_of_nodup {α β : Type} [DecidableEq β] {f : α → β} {l : List α}
    (h : (l.map f).Nodup) {a : α} (ha : a ∈ l) :
    l.find? (fun b => f b = f a) = some a := by
  induction l with
  | nil => exact absurd ha not_mem_nil
  | cons b l ih =>
    rw [map_cons, nodup_cons] at h
    rcases mem_cons.mp ha with rfl | ha
    · simp
    · have hne : f b ≠ f a := fun he => h.1 (he ▸ mem_map_of_mem ha)
      simpa [hne] using ih h.2 ha

theorem firstField_of_mem {d : Doc} (h : d.UniqueKeys) {m : Key × Doc} (hm : m ∈ d.members) :
    d.firstField (decode m.1.token) = some m.2 := by
  rw [firstField, find?_of_nodup h hm, Option.map_some]

theorem lastField_eq_firstField {d : Doc} (h : d.UniqueKeys) (key : List Char) :
    d.lastField key = d.firstField key := by
  unfold lastField
  cases hfind : d.members.reverse.find? fun m => decode m.1.token = key with
  | none =>
    have hnone : d.members.find? (fun m => decode m.1.token = key) = none := by
      simpa using hfind
    rw [firstField, hnone]
  | some m =>
    have hkey : decode m.1.token = key := by simpa using find?_some hfind
    subst hkey
    exact (firstField_of_mem h (mem_reverse.mp (mem_of_find?_eq_some hfind))).symm

/-- What is found under a key as it is written is what has the key. -/
theorem firstField_of_rawField {d : Doc} (h : d.UniqueKeys) {key : List Char}
    (hkey : '\\' ∉ key) {v : Doc} (hv : d.rawField key = some v) : d.firstField key = some v := by
  obtain ⟨m, hm, rfl⟩ := Option.map_eq_some_iff.mp hv
  have hwritten : written m.1.token = key := by simpa using find?_some hm
  subst hwritten
  rw [← decode_of_written hkey]
  exact firstField_of_mem h (mem_of_find?_eq_some hm)

end Doc

/-- A JSON text: a value between white space. -/
structure Data where
  lead : Space
  doc : Doc
  trail : Space

def Data.text (data : Data) : List Char := data.lead.1 ++ (data.doc.text ++ data.trail.1)

/-! ### Plain texts -/

def noSpace : Space := ⟨[], rfl⟩

/-- The characters of a string that need no escape. -/
def plain (s : String) : List Written :=
  s.toList.filterMap fun c => if h : c ≠ '"' ∧ c ≠ '\\' then some (.plain c h) else none

/-- An object without white space. -/
def object (members : List (String × Doc)) : Doc :=
  .obj (members.map fun m => (⟨plain m.1, noSpace, noSpace, noSpace, noSpace⟩, m.2)) noSpace

def Doc.data (doc : Doc) : Data := ⟨noSpace, doc, noSpace⟩

end C4Gateway.JsonText
