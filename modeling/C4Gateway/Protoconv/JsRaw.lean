import Mathlib.Algebra.Order.Group.Nat
import C4Gateway.Lib.JsonEdit

/-! The conversions compare and write JSON strings as bytes.  A key is compared with a name by its
length before it is decoded, and a string of the upstream is written into a frame with escapes. -/

namespace C4Gateway.Protoconv

open List JsonText

open String (utf8EncodeChar)

/-- The bytes of a text. -/
def bytes (text : List Char) : List UInt8 := text.flatMap utf8EncodeChar

/-- `parse` is the string that `gjson.Parse` reads. -/
def rawStrEq (parse : List UInt8 → List UInt8) (v lit : List UInt8) : Bool :=
  if v.length < 2 ∨ v.head? ≠ some 0x22 ∨ v.getLast? ≠ some 0x22 then false
  else if v.length = lit.length + 2 then v.tail.dropLast == lit
  else if 0x5c ∈ v.tail.dropLast then parse v == lit
  else false

def gjsonKeyEq (parse : List UInt8 → List UInt8) (raw name : List UInt8) : Bool :=
  rawStrEq parse raw name

def hexDigit (b : UInt8) : UInt8 := if b < 10 then 0x30 + b else 0x61 + b - 10

def decodeRuneInString (s : List UInt8) : Char × Nat :=
  match s.toByteArray.utf8DecodeChar? 0 with
  | some r => (r, r.utf8Size)
  | none => ('�', 1)

/-- The cases that look at one byte. -/
def jsonByte (c : UInt8) : List UInt8 :=
  if c = 0x22 then bytes ['\\', '"']
  else if c = 0x5c then bytes ['\\', '\\']
  else if c < 0x20 then
    if c = 0x0a then bytes ['\\', 'n']
    else if c = 0x0d then bytes ['\\', 'r']
    else if c = 0x09 then bytes ['\\', 't']
    else if c = 0x08 then bytes ['\\', 'b']
    else if c = 0x0c then bytes ['\\', 'f']
    else bytes ['\\', 'u', '0', '0'] ++ [hexDigit (c >>> 4), hexDigit (c &&& 0xf)]
  else if c = 0x26 then bytes ['\\', 'u', '0', '0', '2', '6']
  else if c = 0x3c then bytes ['\\', 'u', '0', '0', '3', 'c']
  else if c = 0x3e then bytes ['\\', 'u', '0', '0', '3', 'e']
  else [c]

/-- What one round of the loop appends, and the bytes it reads. -/
def jsonPiece (c : UInt8) (s : List UInt8) : List UInt8 × Nat :=
  if c ≥ 0x80 then
    let r := decodeRuneInString (c :: s)
    if r = ('�', 1) then (bytes ['\\', 'u', 'f', 'f', 'f', 'd'], 1) else ((c :: s).take r.2, r.2)
  else (jsonByte c, 1)

def appendLoop (out : List UInt8) : List UInt8 → List UInt8
  | [] => out
  | c :: s => appendLoop (out ++ (jsonPiece c s).1) (s.drop ((jsonPiece c s).2 - 1))
termination_by s => s.length

def appendJSONString (out s : List UInt8) : List UInt8 := appendLoop (out ++ [0x22]) s ++ [0x22]

/-- The characters of a string, with U+FFFD for each invalid byte. -/
def runes : List UInt8 → List Char
  | [] => []
  | c :: s =>
    (decodeRuneInString (c :: s)).1 :: runes (s.drop ((decodeRuneInString (c :: s)).2 - 1))
termination_by s => s.length

/-! ### Bytes and characters -/

theorem utf8EncodeChar_ascii {r : Char} (h : r.toNat < 0x80) :
    utf8EncodeChar r = [UInt8.ofNat r.toNat] := if_pos (Nat.le_of_lt_succ h)

theorem mem_utf8EncodeChar {r : Char} {b : UInt8} (h : b ∈ utf8EncodeChar r) :
    0x80 ≤ b.toNat ∨ b.toNat = r.toNat := by
  have hval : r.toNat = r.val.toNat := rfl
  unfold utf8EncodeChar at h
  grind [UInt8.toNat_ofNat']

theorem decodeRuneInString_append (r : Char) (s : List UInt8) :
    decodeRuneInString (utf8EncodeChar r ++ s) = (r, r.utf8Size) := by
  rw [decodeRuneInString, toByteArray_append, ByteArray.utf8DecodeChar?_utf8EncodeChar_append]

theorem decodeRuneInString_cases (s : List UInt8) : decodeRuneInString s = ('�', 1) ∨
    ∃ r rest, decodeRuneInString s = (r, r.utf8Size) ∧ s = utf8EncodeChar r ++ rest := by
  unfold decodeRuneInString
  split
  · next r h =>
    obtain ⟨l, hl⟩ := ByteArray.exists_of_utf8DecodeChar?_eq_some h
    refine .inr ⟨r, l.data.toList, rfl, ?_⟩
    rw [← toList_data_toByteArray (l := s), hl, ByteArray.toList_data_append,
      toList_data_toByteArray]
  · exact .inl rfl

theorem bytes_append (v w : List Char) : bytes (v ++ w) = bytes v ++ bytes w := flatMap_append

theorem bytes_literal (token : List Written) :
    bytes (Doc.str token).text = 0x22 :: (bytes (written token) ++ [0x22]) :=
  congrArg (0x22 :: ·) (bytes_append _ _)

/-! ### Writing -/

/-- A character as it is written that is no half of a pair and holds no control character. -/
abbrev Tame (w : Written) : Prop :=
  w.text.all (' '.toNat ≤ ·.toNat) ∧ (w.code.getD 0 < 0xd800 ∨ 0xdc00 ≤ w.code.getD 0)

def hex (n : Fin 16) : Hex := ⟨Nat.digitChar n, by revert n; decide⟩

/-- The ways in which a byte below 0x80 may be written. -/
def spellings (n : Fin 128) : List Written :=
  [.ofChar (.ofNat n), .short 'n' (by decide), .short 'r' (by decide), .short 't' (by decide),
    .short 'b' (by decide), .short 'f' (by decide),
    .unicode (hex 0) (hex 0) (hex ⟨n / 16, by omega⟩) (hex ⟨n % 16, by omega⟩)]

theorem jsonByte_spelling : ∀ n : Fin 128, ∃ w ∈ spellings n, Tame w ∧ w.char.toNat = n ∧
    jsonByte (.ofNat n) = bytes w.text := by
  decide +kernel

/-- One round writes the character that the decoder reads. -/
theorem jsonPiece_written (c : UInt8) (s : List UInt8) : ∃ w : Written, Tame w ∧
    decodeRuneInString (c :: s) = (w.char, (jsonPiece c s).2) ∧
      (jsonPiece c s).1 = bytes w.text := by
  unfold jsonPiece
  split
  · next hc =>
    have hc : 0x80 ≤ c.toNat := hc
    rcases decodeRuneInString_cases (c :: s) with h | ⟨r, rest, h, hs⟩
    · rw [h]
      exact ⟨.unicode (hex 15) (hex 15) (hex 15) (hex 13), by decide, rfl, rfl⟩
    · have hr : 0x80 ≤ r.toNat := by
        by_contra! hr
        rw [utf8EncodeChar_ascii hr, singleton_append, cons.injEq] at hs
        rw [hs.1, UInt8.toNat_ofNat'] at hc
        omega
      have hne : ∀ c : Char, c.toNat < 0x80 → r ≠ c := fun c hc h => by subst h; omega
      have hvalid : (r, r.utf8Size) ≠ ('�', 1) := by
        rintro ⟨⟩
      refine ⟨.plain r ⟨hne _ (by decide), hne _ (by decide)⟩, ⟨?_, .inl ?_⟩, ?_⟩
      · simpa [Written.text] using le_trans (show 32 ≤ 0x80 by decide) hr
      · simp [Written.code]
      · rw [h, if_neg hvalid, hs, ← String.length_utf8EncodeChar, take_left]
        exact ⟨rfl, (append_nil _).symm⟩
  · next hc =>
    have hc : c.toNat < 0x80 := not_le.mp hc
    obtain ⟨w, -, htame, hnat, hbytes⟩ := jsonByte_spelling ⟨c.toNat, hc⟩
    have hdecode := decodeRuneInString_append w.char s
    rw [← String.length_utf8EncodeChar, utf8EncodeChar_ascii (hnat ▸ hc), hnat,
      UInt8.ofNat_toNat] at hdecode
    exact ⟨w, htame, hdecode, by simpa using hbytes⟩

theorem appendLoop_written (s : List UInt8) : ∃ token, (∀ w ∈ token, Tame w) ∧
    token.map Written.char = runes s ∧ ∀ out, appendLoop out s = out ++ bytes (written token) := by
  fun_induction runes s with
  | case1 => exact ⟨[], by simp, rfl, fun out => by simp [appendLoop, written, bytes]⟩
  | case2 c s ih =>
    obtain ⟨token, htame, hrunes, hloop⟩ := ih
    obtain ⟨w, hw, hdecode, hpiece⟩ := jsonPiece_written c s
    rw [hdecode] at hrunes hloop ⊢
    refine ⟨w :: token, forall_mem_cons.mpr ⟨hw, htame⟩, congrArg _ hrunes, fun out => ?_⟩
    rw [appendLoop, hloop, hpiece, append_assoc, ← bytes_append]
    rfl

/-- What is written for a string: a literal of JSON that decodes to its characters, without control
characters. -/
def Literal (s lit : List UInt8) : Prop := ∃ token : List Written,
  lit = bytes (Doc.str token).text ∧ decode token = runes s ∧ ∀ b ∈ lit, 0x20 ≤ b

theorem exists_literal (s : List UInt8) :
    ∃ lit, Literal s lit ∧ ∀ out, appendJSONString out s = out ++ lit := by
  obtain ⟨token, htame, hrunes, hloop⟩ := appendLoop_written s
  have hdecode := decode_of_whole fun w hw => (htame w hw).2
  refine ⟨_, ⟨token, rfl, hdecode.trans hrunes, ?_⟩, fun out => ?_⟩
  · intro b hb
    obtain ⟨c, hc, hb⟩ := mem_flatMap.mp hb
    have hspace : ' '.toNat ≤ c.toNat := by
      simp only [Doc.text, mem_cons, mem_append, mem_flatMap, written, not_mem_nil, or_false] at hc
      rcases hc with rfl | ⟨w, hw, hc⟩ | rfl
      · decide
      · simpa using all_eq_true.mp (htame w hw).1 c hc
      · decide
    show 0x20 ≤ b.toNat
    rcases mem_utf8EncodeChar hb with h | h
    · omega
    · exact h ▸ hspace
  · rw [appendJSONString, hloop, bytes_literal, append_assoc, append_assoc]
    rfl

/-! ### A frame -/

def lit (s : String) : List UInt8 := bytes s.toList

def frameHead (created : Int) (delta : List UInt8) (finish : Option (List UInt8)) : List UInt8 :=
  lit "data: \x7b\"choices\":[\x7b\"delta\":" ++ delta ++ lit ",\"finish_reason\":" ++
    finish.getD (lit "null") ++ lit ",\"index\":0\x7d],\"created\":" ++ lit (toString created) ++
    lit ",\"id\":"

def frameTail (usage : Option (List UInt8)) : List UInt8 :=
  lit ",\"object\":\"chat.completion.chunk\"" ++
    (usage.elim [] fun usage => lit ",\"usage\":" ++ usage) ++ lit "\x7d\n\n"

def chatChunkFrame (created : Int) (id model delta : List UInt8)
    (finish usage : Option (List UInt8)) : List UInt8 :=
  let buf := appendJSONString (frameHead created delta finish) id
  appendJSONString (buf ++ lit ",\"model\":") model ++ frameTail usage

/-- Whatever the upstream sends as id and model, the bytes around them stay. -/
theorem appendJSONString_literal (s : List UInt8) :
    (∃ l, Literal s l ∧ ∀ out, appendJSONString out s = out ++ l) ∧
      ∀ created id model delta finish usage, ∃ l l', Literal id l ∧ Literal model l' ∧
        chatChunkFrame created id model delta finish usage =
          frameHead created delta finish ++ l ++ lit ",\"model\":" ++ l' ++ frameTail usage := by
  refine ⟨exists_literal s, fun created id model delta finish usage => ?_⟩
  obtain ⟨l, hl, hid⟩ := exists_literal id
  obtain ⟨l', hl', hmodel⟩ := exists_literal model
  exact ⟨l, l', hl, hl', by rw [chatChunkFrame, hid, hmodel]⟩

/-! ### Comparing -/

theorem bytes_injective : Function.Injective bytes := by
  intro v w h
  have h : v.utf8Encode = w.utf8Encode := congrArg toByteArray h
  rwa [← String.toByteArray_ofList, ← String.toByteArray_ofList, String.toByteArray_inj,
    String.ofList_inj] at h

@[simp] theorem length_bytes (v : List Char) :
    (bytes v).length = (v.map Char.utf8Size).sum := by
  simp [bytes, length_flatMap, String.length_utf8EncodeChar]

theorem backslash_mem_bytes (v : List Char) : 0x5c ∈ bytes v ↔ '\\' ∈ v := by
  rw [bytes, mem_flatMap]
  constructor
  · rintro ⟨c, hc, hb⟩
    rcases mem_utf8EncodeChar hb with h | h
    · exact absurd h (by decide)
    · obtain rfl : c = '\\' := Char.toNat_inj.mp h.symm
      exact hc
  · exact fun h => ⟨'\\', h, by decide⟩

theorem length_le_bytes (v : List Char) : v.length ≤ (bytes v).length := by
  induction v with
  | nil => exact le_rfl
  | cons c v ih =>
    have hpos := c.utf8Size_pos
    simp at ih ⊢
    omega

theorem length_char (w : Written) : w.char.utf8Size ≤ (bytes w.text).length ∧
    ('\\' ∈ w.text → w.char.utf8Size < (bytes w.text).length) := by
  cases w with
  | plain c h => simp [Written.char, Written.text, h.2.symm]
  | short c h =>
    have hshort : ['"', '\\', '/', 'b', 'f', 'n', 'r', 't'].all fun c =>
        (shortChar c).utf8Size < (bytes ['\\', c]).length := by decide
    have hlt := of_decide_eq_true (all_eq_true.mp hshort c h)
    exact ⟨hlt.le, fun _ => hlt⟩
  | unicode a b c d =>
    have hchar := (Written.unicode a b c d).char.utf8Size_le_four
    have htext : 6 ≤ _ := length_le_bytes (Written.unicode a b c d).text
    omega

/-- An escape is longer than what it stands for. -/
theorem length_decode (token : List Written) :
    (bytes (decode token)).length ≤ (bytes (written token)).length ∧
      ('\\' ∈ written token → (bytes (decode token)).length < (bytes (written token)).length) := by
  fun_induction decode token with
  | case1 => simp [written]
  | case2 w => simpa [written] using length_char w
  | case3 w w' rest c hpair ih =>
    have hchar := c.utf8Size_le_four
    cases w <;> cases w' <;> try contradiction
    next a b c d a' b' c' d' =>
    have htext : 6 ≤ _ := length_le_bytes (Written.unicode a b c d).text
    have htext' : 6 ≤ _ := length_le_bytes (Written.unicode a' b' c' d').text
    simp [written] at ih htext htext' ⊢
    omega
  | case4 w w' rest hpair ih =>
    have hchar := length_char w
    simp [written] at ih hchar ⊢
    grind

variable (parse : List UInt8 → List UInt8) (token : List Written) (name : List Char)

/-- The comparison decides by length, and no escape has the length of what it stands for. -/
theorem rawStrEq_iff_decode
    (hparse : parse (bytes (Doc.str token).text) = bytes (decode token)) (hname : '\\' ∉ name) :
    (rawStrEq parse (bytes (Doc.str token).text) (bytes name) = true ↔ decode token = name) ∧
      (gjsonKeyEq parse (bytes (Doc.str token).text) (bytes name) = true ↔
        decode token = name) := by
  rw [gjsonKeyEq, and_self]
  have hlen := length_decode token
  rw [bytes_literal] at hparse ⊢
  unfold rawStrEq
  simp only [hparse, tail_cons, dropLast_concat, backslash_mem_bytes]
  rw [if_neg (by simp [getLast?_cons])]
  by_cases hesc : '\\' ∈ written token
  · have hne : written token ≠ name := fun h => hname (h ▸ hesc)
    have hlt := hlen.2 hesc
    split
    · simp only [beq_iff_eq, bytes_injective.eq_iff, hne, false_iff]
      rintro rfl
      grind
    · rw [beq_iff_eq, bytes_injective.eq_iff]
  · rw [decode_of_written hesc]
    split
    · rw [beq_iff_eq, bytes_injective.eq_iff]
    · simp only [Bool.false_eq_true, false_iff]
      rintro rfl
      simp_all

theorem rawStrEq_iff_decode_escaped :
    let token := [.unicode (hex 0) (hex 0) (hex 6) (hex 9), Written.ofChar 'd']
    rawStrEq (fun _ => lit "id") (bytes (Doc.str token).text) (bytes ['i', 'd']) = true :=
  (rawStrEq_iff_decode _ _ _ rfl (by decide)).1.mpr (by decide)

end C4Gateway.Protoconv
