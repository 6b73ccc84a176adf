import Mathlib.Data.List.Infix
import C4Gateway.Lib.JsonText

/-! The byte scanner that finds the value of a key in a JSON text without decoding it.  A position
in a text is what stands from there on.  On the text of a tree the scanner finds the first member
whose key is written like the key that is looked for. -/

namespace C4Gateway.Proxy

open List JsonText

def isWS (c : Char) : Bool := c == ' ' || c == '\t' || c == '\n' || c == '\r'

def skipSpace (b : List Char) : List Char := b.dropWhile isWS

def contains (text pattern : List Char) : Bool := text.tails.any pattern.isPrefixOf

/-- What stands between two positions. -/
def between (start stop : List Char) : List Char := start.take (start.length - stop.length)

/-- The position after the quote that ends a string. -/
def closingQuote : List Char → Option (List Char)
  | [] => none
  | ['\\'] => none
  | '\\' :: _ :: rest => closingQuote rest
  | '"' :: rest => some rest
  | _ :: rest => closingQuote rest

/-- The text starts with the opening quote. -/
def skipJSONString (body : List Char) : Option (List Char) := closingQuote body.tail

/-- The string as it is written, and the position after it. -/
def parseJSONString (body : List Char) : Option (List Char × List Char) :=
  (skipJSONString body).map fun stop => ((between body stop).tail.dropLast, stop)

variable {body stop : List Char}

theorem closingQuote_length (h : closingQuote body = some stop) :
    stop.length < body.length := by
  fun_induction closingQuote body with
  | case1 | case2 => cases h
  | case4 rest =>
    cases h
    simp
  | case3 c rest ih | case5 c rest _ _ _ ih =>
    have := ih h
    simp only [length_cons]
    omega

/-- The position after the bracket that closes the outermost of `depth` open ones. -/
def skipNested (depth : Nat) (body : List Char) : Option (List Char) :=
  match body with
  | [] => none
  | c :: rest =>
    if c = '"' then
      match _hstop : skipJSONString (c :: rest) with
      | none => none
      | some stop => skipNested depth stop
    else if c = '{' ∨ c = '[' then skipNested (depth + 1) rest
    else if c = '}' ∨ c = ']' then
      if depth = 1 then some rest else skipNested (depth - 1) rest
    else skipNested depth rest
termination_by body.length
decreasing_by
  · have := closingQuote_length _hstop
    simp only [tail_cons, length_cons] at this ⊢
    omega
  all_goals simp

def skipLiteral (literal body : List Char) : Option (List Char) :=
  if literal.isPrefixOf body then some (body.drop literal.length) else none

def endsNumber (c : Char) : Bool := isWS c || c == ',' || c == '}' || c == ']'

def skipValue (body : List Char) : Option (List Char) :=
  match body with
  | [] => none
  | c :: rest =>
    if c = '"' then skipJSONString body
    else if c = '{' ∨ c = '[' then skipNested 1 rest
    else if c = 't' then skipLiteral ['t', 'r', 'u', 'e'] body
    else if c = 'f' then skipLiteral ['f', 'a', 'l', 's', 'e'] body
    else if c = 'n' then skipLiteral ['n', 'u', 'l', 'l'] body
    else some (body.dropWhile (! endsNumber ·))

/-- A member of an object: its key, its value, and the position after it. -/
def scanMember (body : List Char) : Option (List Char × List Char × List Char) :=
  match parseJSONString body with
  | none => none
  | some (k, next) =>
    match skipSpace next with
    | ':' :: next =>
      let value := skipSpace next
      (skipValue value).map fun stop => (k, between value stop, stop)
    | _ => none

variable {c : Char} (token : List Written) (b rest : List Char)

theorem skipSpace_length : (skipSpace b).length ≤ b.length :=
  (dropWhile_suffix _).length_le

theorem skipNested_length {depth : Nat}
    (h : skipNested depth body = some stop) : stop.length ≤ body.length := by
  fun_induction skipNested depth body with
  | case1 | case2 => cases h
  | case3 depth rest stop' hstring ih =>
    have := closingQuote_length hstring
    have := ih h
    simp only [tail_cons, length_cons] at *
    omega
  | case5 depth c rest =>
    cases h
    exact Nat.le_succ _
  | case4 depth c rest _ _ ih | case6 depth c rest _ _ _ _ ih | case7 depth c rest _ _ _ ih =>
    exact Nat.le_succ_of_le (ih h)

theorem skipLiteral_length {literal body stop : List Char}
    (h : skipLiteral literal body = some stop) : stop.length ≤ body.length := by
  unfold skipLiteral at h
  split at h
  · cases h
    simp
  · cases h

theorem skipValue_length (h : skipValue body = some stop) :
    stop.length ≤ body.length := by
  cases body with
  | nil => exact absurd h (by simp [skipValue])
  | cons c rest =>
    simp only [skipValue] at h
    split_ifs at h
    · have := closingQuote_length h
      simp only [tail_cons, length_cons] at *
      omega
    · exact Nat.le_succ_of_le (skipNested_length h)
    iterate 3
      · exact skipLiteral_length h
    · cases h
      exact (dropWhile_suffix _).length_le

theorem scanMember_length {body k value stop : List Char}
    (h : scanMember body = some (k, value, stop)) : stop.length < body.length := by
  unfold scanMember at h
  split at h
  · cases h
  · next k' next hkey =>
    obtain ⟨next', hstop, hnext⟩ := Option.map_eq_some_iff.mp hkey
    obtain rfl := (Prod.mk.inj hnext).2
    have hkey := closingQuote_length hstop
    have htail := (tail_suffix body).length_le
    split at h
    · next rest hcolon =>
      obtain ⟨stop', hvalue, hmember⟩ := Option.map_eq_some_iff.mp h
      obtain rfl := (Prod.mk.inj (Prod.mk.inj hmember).2).2
      have hspace := skipSpace_length next'
      rw [hcolon, length_cons] at hspace
      have := skipValue_length hvalue
      have := skipSpace_length rest
      omega
    · cases h

/-- The loop over the members, which takes a comma anywhere between them. -/
def scanMembers (key body : List Char) : Option (List Char) :=
  match body with
  | [] => none
  | c :: rest =>
    if c = '}' then none
    else if c = ',' then scanMembers key (skipSpace rest)
    else if c = '"' then
      match _hmember : scanMember (c :: rest) with
      | none => none
      | some (k, value, stop) => if k = key then some value else scanMembers key (skipSpace stop)
    else none
termination_by body.length
decreasing_by
  · have := skipSpace_length rest
    rw [length_cons]
    omega
  · have := scanMember_length _hmember
    have := skipSpace_length stop
    omega

/-- The value of a top-level key, as it is written. -/
def scanKeyValue (body key : List Char) : Option (List Char) :=
  match skipSpace body with
  | [] => none
  | c :: rest => if c = '{' then scanMembers key (skipSpace rest) else none

/-! ### The scanner on the text of a tree -/

theorem skipSpace_append (sp : Space) (b : List Char) : skipSpace (sp.1 ++ b) = skipSpace b := by
  obtain ⟨s, hs⟩ := sp
  induction s with
  | nil => rfl
  | cons c s ih =>
    rw [all_cons, Bool.and_eq_true] at hs
    have hc : isWS c = true := hs.1
    simpa only [skipSpace, cons_append, dropWhile_cons, hc, if_true] using ih hs.2

theorem skipSpace_cons (h : isWS c = false) (b : List Char) : skipSpace (c :: b) = c :: b := by
  simp [skipSpace, h]

theorem between_append (v rest : List Char) : between (v ++ rest) rest = v := by
  simp [between]

theorem closingQuote_plain (hc : c ≠ '"' ∧ c ≠ '\\') (rest : List Char) :
    closingQuote (c :: rest) = closingQuote rest := by
  rw [closingQuote.eq_5]
  · exact fun h => absurd h hc.2
  · exact fun _ _ h => absurd h hc.2
  · exact fun h => absurd h hc.1

theorem closingQuote_written : closingQuote (written token ++ '"' :: rest) = some rest := by
  induction token with
  | nil => rfl
  | cons w token ih =>
    rw [written, flatMap_cons]
    cases w with
    | plain c h => exact (closingQuote_plain h _).trans ih
    | short c h => exact ih
    | unicode a b c d =>
      have hhex : ∀ (x : Hex) (s : List Char), closingQuote (x.1 :: s) = closingQuote s :=
        fun x s => closingQuote_plain x.plain s
      simp only [Written.text, cons_append, closingQuote, hhex]
      exact ih

theorem parseJSONString_written :
    parseJSONString ('"' :: (written token ++ '"' :: rest)) = some (written token, rest) := by
  have hbetween : between ('"' :: (written token ++ '"' :: rest)) rest =
      '"' :: (written token ++ ['"']) := by
    rw [← between_append ('"' :: (written token ++ ['"'])) rest]
    simp
  simp only [parseJSONString, skipJSONString, tail_cons, closingQuote_written, Option.map_some,
    hbetween, dropLast_concat]

variable {c : Char}

section
variable (depth : Nat) (rest : List Char)

/-- A character that neither opens nor closes anything. -/
def isInner (c : Char) : Bool :=
  c != '"' && c != '{' && c != '[' && c != '}' && c != ']'

theorem skipNested_inner (h : isInner c = true) :
    skipNested depth (c :: rest) = skipNested depth rest := by
  simp only [isInner, Bool.and_eq_true, bne_iff_ne] at h
  rw [skipNested]
  simp [h]

theorem skipNested_inners {s : List Char} (h : ∀ c ∈ s, isInner c = true) :
    skipNested depth (s ++ rest) = skipNested depth rest := by
  induction s with
  | nil => rfl
  | cons c s ih =>
    obtain ⟨hc, hs⟩ := forall_mem_cons.mp h
    rw [cons_append, skipNested_inner _ _ hc, ih hs]

theorem skipNested_string (token : List Written) :
    skipNested depth ('"' :: (written token ++ '"' :: rest)) = skipNested depth rest := by
  rw [skipNested, if_pos rfl]
  split
  · next h =>
    rw [skipJSONString, tail_cons, closingQuote_written] at h
    cases h
  · next stop h =>
    rw [skipJSONString, tail_cons, closingQuote_written] at h
    rw [Option.some.inj h]

theorem skipNested_open (h : c = '{' ∨ c = '[') :
    skipNested depth (c :: rest) = skipNested (depth + 1) rest := by
  rw [skipNested]
  rcases h with rfl | rfl <;> simp

theorem skipNested_close (h : c = '}' ∨ c = ']') :
    skipNested (depth + 1) (c :: rest) =
      if depth = 0 then some rest else skipNested depth rest := by
  rw [skipNested]
  rcases h with rfl | rfl <;> simp

end

theorem ne_of_isNumberChar (h : Number.isNumberChar c = true) (c' : Char)
    (h' : Number.isNumberChar c' = false) : c ≠ c' := by
  rintro rfl
  simp [h'] at h

theorem isInner_of_isNumberChar (h : Number.isNumberChar c = true) :
    isInner c = true := by
  by_contra hinner
  simp only [isInner, Bool.and_eq_true, bne_iff_ne, not_and_or, not_not] at hinner
  rcases hinner with (((rfl | rfl) | rfl) | rfl) | rfl <;> cases h

theorem isInner_of_isSpace (h : isSpace c = true) : isInner c = true := by
  simp only [isSpace, Bool.or_eq_true, beq_iff_eq] at h
  rcases h with ((rfl | rfl) | rfl) | rfl <;> decide

theorem skipNested_space (depth : Nat) (sp : Space) (rest : List Char) :
    skipNested depth (sp.1 ++ rest) = skipNested depth rest :=
  skipNested_inners depth rest fun c hc => isInner_of_isSpace (all_eq_true.mp sp.2 c hc)

theorem skipNested_comma {α : Type} (depth : Nat) (more : List α) (rest : List Char) :
    skipNested depth (Doc.comma more ++ rest) = skipNested depth rest := by
  unfold Doc.comma
  split
  · rfl
  · exact skipNested_inner depth rest (by decide)

mutual

/-- Inside a bracket the text of a value changes nothing. -/
theorem skipNested_text (depth : Nat) : (d : Doc) → (rest : List Char) →
    skipNested (depth + 1) (d.text ++ rest) = skipNested (depth + 1) rest
  | .null, rest | .bool true, rest | .bool false, rest =>
    skipNested_inners _ rest (all_eq_true.mp (by decide))
  | .num n, rest =>
    skipNested_inners _ rest fun c hc => isInner_of_isNumberChar (n.isNumberChar_text c hc)
  | .str token, rest => by
    simpa [Doc.text] using skipNested_string (depth + 1) rest token
  | .arr items stop, rest => by
    rw [Doc.text, cons_append, skipNested_open _ _ (.inr rfl), append_assoc,
      skipNested_itemsText, append_assoc, skipNested_space, singleton_append,
      skipNested_close _ _ (.inr rfl), if_neg (by omega)]
  | .obj members stop, rest => by
    rw [Doc.text, cons_append, skipNested_open _ _ (.inl rfl), append_assoc,
      skipNested_membersText, append_assoc, skipNested_space, singleton_append,
      skipNested_close _ _ (.inl rfl), if_neg (by omega)]

theorem skipNested_itemsText (depth : Nat) : (items : List (JsonText.Slot × Doc)) →
    (rest : List Char) →
    skipNested (depth + 1) (Doc.itemsText items ++ rest) = skipNested (depth + 1) rest
  | [], _ => rfl
  | (slot, d) :: items, rest => by
    simp only [Doc.itemsText, append_assoc]
    rw [skipNested_space, skipNested_text, skipNested_space, skipNested_comma, skipNested_itemsText]

theorem skipNested_membersText (depth : Nat) : (members : List (Key × Doc)) →
    (rest : List Char) →
    skipNested (depth + 1) (Doc.membersText members ++ rest) = skipNested (depth + 1) rest
  | [], _ => rfl
  | (key, d) :: members, rest => by
    simp only [Doc.membersText, append_assoc, cons_append]
    rw [skipNested_space, skipNested_string, skipNested_space, skipNested_inner _ _ (by decide),
      skipNested_space, skipNested_text, skipNested_space, skipNested_comma, skipNested_membersText]

end

/-- A position at which a number ends. -/
def Ends (rest : List Char) : Prop := ∀ c ∈ rest.head?, endsNumber c = true

variable {rest : List Char}

theorem dropWhile_number (n : Number) (h : Ends rest) :
    (n.text ++ rest).dropWhile (! endsNumber ·) = rest := by
  have hrest : rest.dropWhile (! endsNumber ·) = rest := by
    cases rest with
    | nil => rfl
    | cons c rest => simp [h c rfl]
  rw [dropWhile_append_of_pos, hrest]
  intro c hc
  have hnum := n.isNumberChar_text c hc
  by_contra hend
  simp only [Bool.not_eq_true', Bool.not_eq_false, endsNumber, isWS, Bool.or_eq_true,
    beq_iff_eq] at hend
  rcases hend with (((((rfl | rfl) | rfl) | rfl) | rfl) | rfl) | rfl <;>
    exact absurd hnum (by decide)

theorem skipValue_open (h : c = '{' ∨ c = '[') (rest : List Char) :
    skipValue (c :: rest) = skipNested 1 rest := by
  rcases h with rfl | rfl <;> simp [skipValue]

variable (d : Doc) (key : List Char) (members : List (Key × Doc)) (stop : Space)

theorem skipValue_number (h : Number.isNumberChar c = true) (rest : List Char) :
    skipValue (c :: rest) = some ((c :: rest).dropWhile (! endsNumber ·)) := by
  have hne := ne_of_isNumberChar h
  simp only [skipValue, hne '"' (by decide), hne '{' (by decide), hne '[' (by decide),
    hne 't' (by decide), hne 'f' (by decide), hne 'n' (by decide), or_self, if_false]

/-- The scanner leaves what stands after a value. -/
theorem skipValue_text (h : Ends rest) :
    skipValue (d.text ++ rest) = some rest := by
  cases d with
  | null => rfl
  | bool b => cases b <;> rfl
  | num n =>
    have hdrop := dropWhile_number n h
    obtain ⟨c, s, htext⟩ := exists_cons_of_ne_nil n.text_ne_nil
    have hc := n.isNumberChar_text c (by simp [htext])
    rw [htext, cons_append] at hdrop
    rw [Doc.text, htext, cons_append, skipValue_number hc, hdrop]
  | str token =>
    simpa [skipValue, Doc.text, skipJSONString] using closingQuote_written token rest
  | arr items stop =>
    rw [Doc.text, cons_append, skipValue_open (.inr rfl), append_assoc, skipNested_itemsText 0,
      append_assoc, skipNested_space, singleton_append, skipNested_close _ _ (.inr rfl), if_pos rfl]
  | obj members stop =>
    rw [Doc.text, cons_append, skipValue_open (.inl rfl), append_assoc, skipNested_membersText 0,
      append_assoc, skipNested_space, singleton_append, skipNested_close _ _ (.inl rfl), if_pos rfl]

/-- The first character of a value says what it is. -/
theorem text_head : ∃ c s, d.text = c :: s ∧ isWS c = false ∧
    (c = '{' ↔ d.isObj) ∧ (c = '[' ↔ d.isArr) ∧ (c = '"' ↔ d.isStr) := by
  cases d with
  | null => exact ⟨_, _, rfl, by decide⟩
  | bool b => cases b <;> exact ⟨_, _, rfl, by decide⟩
  | num n =>
    obtain ⟨c, s, htext⟩ := exists_cons_of_ne_nil n.text_ne_nil
    have hne := ne_of_isNumberChar (n.isNumberChar_text c (by simp [htext]))
    refine ⟨c, s, htext, ?_, ?_, ?_, ?_⟩
    · simp [isWS, hne ' ' (by decide), hne '\t' (by decide), hne '\n' (by decide),
        hne '\r' (by decide)]
    · simp [Doc.isObj, hne '{' (by decide)]
    · simp [Doc.isArr, hne '[' (by decide)]
    · simp [Doc.isStr, hne '"' (by decide)]
  | str _ | arr _ _ | obj _ _ =>
    exact ⟨_, _, rfl, by decide, by simp [Doc.isObj], by simp [Doc.isArr], by simp [Doc.isStr]⟩

theorem skipSpace_text (rest : List Char) : skipSpace (d.text ++ rest) = d.text ++ rest := by
  obtain ⟨c, s, htext, hc, _⟩ := text_head d
  rw [htext, cons_append, skipSpace_cons hc]

theorem scanMember_text (key : Key) (d : Doc) (h : Ends rest) :
    scanMember ('"' :: (written key.token ++ ('"' :: (key.afterKey.1 ++ (':' ::
      (key.beforeValue.1 ++ (d.text ++ rest))))))) =
        some (written key.token, d.text, rest) := by
  unfold scanMember
  rw [parseJSONString_written]
  simp [skipSpace_append, skipSpace_cons (show isWS ':' = false by decide), skipSpace_text,
    skipValue_text d h, between_append]

theorem ends_space (sp : Space) (h : Ends rest) : Ends (sp.1 ++ rest) := by
  obtain ⟨s, hs⟩ := sp
  cases s with
  | nil => exact h
  | cons c s =>
    intro c' hc'
    obtain rfl := Option.some.inj hc'
    rw [all_cons, Bool.and_eq_true] at hs
    have hc : isWS c = true := hs.1
    simp [endsNumber, hc]

theorem ends_cons (h : endsNumber c = true) (rest : List Char) : Ends (c :: rest) :=
  fun _ hc => Option.some.inj hc ▸ h

/-- What stands after a member and its comma. -/
theorem ends_members (rest : List Char) :
    Ends (Doc.comma members ++ (Doc.membersText members ++ (stop.1 ++ '}' :: rest))) := by
  cases members with
  | nil => exact ends_space stop (ends_cons (by decide) rest)
  | cons m members => exact ends_cons (by decide) _

theorem scanMembers_comma {α : Type} (more : List α) (rest : List Char) :
    scanMembers key (skipSpace (Doc.comma more ++ rest)) = scanMembers key (skipSpace rest) := by
  unfold Doc.comma
  split
  · rfl
  · rw [singleton_append, skipSpace_cons (by decide), scanMembers]
    simp

theorem scanMembers_quote {key body k value stop : List Char}
    (h : scanMember ('"' :: body) = some (k, value, stop)) :
    scanMembers key ('"' :: body) =
      if k = key then some value else scanMembers key (skipSpace stop) := by
  rw [scanMembers, if_neg (by decide), if_neg (by decide), if_pos rfl]
  split
  · next hnone => rw [h] at hnone; exact absurd hnone (by simp)
  · next k' value' stop' hsome =>
    rw [h] at hsome
    obtain ⟨rfl, rfl, rfl⟩ : k = k' ∧ value = value' ∧ stop = stop' := by simpa using hsome
    rfl

/-- The loop finds the first member whose key is written like this. -/
theorem scanMembers_text (rest : List Char) :
    scanMembers key (skipSpace (Doc.membersText members ++ (stop.1 ++ '}' :: rest))) =
      (members.find? fun m => written m.1.token = key).map fun m => m.2.text := by
  induction members with
  | nil =>
    rw [Doc.membersText, nil_append, skipSpace_append, skipSpace_cons (by decide), scanMembers]
    simp
  | cons m members ih =>
    obtain ⟨name, d⟩ := m
    have hends := ends_space name.after (ends_members members stop rest)
    simp only [Doc.membersText, append_assoc, cons_append, skipSpace_append,
      skipSpace_cons (show isWS '"' = false by decide)]
    rw [scanMembers_quote (scanMember_text name d hends), skipSpace_append, scanMembers_comma, ih,
      find?_cons]
    by_cases hkey : written name.token = key <;> simp [hkey]

/-- On the text of a tree, with white space before it and anything after it, the scanner finds the
value of the first member whose key is written like the key. -/
theorem scanKeyValue_text (lead : Space) (rest key : List Char) :
    scanKeyValue (lead.1 ++ (d.text ++ rest)) key = (d.rawField key).map Doc.text := by
  unfold scanKeyValue
  rw [skipSpace_append, skipSpace_text]
  obtain ⟨c, s, htext, _, hobj, _⟩ := text_head d
  cases d with
  | obj members stop =>
    have hmembers := scanMembers_text key members stop rest
    simp only [Doc.text, cons_append, append_assoc, nil_append]
    rw [hmembers, Doc.rawField, Option.map_map]
    rfl
  | _ =>
    rw [htext]
    exact if_neg fun hc => absurd (hobj.mp hc) (by simp [Doc.isObj])

/-- The scanner finds nothing in a text but what stands in its tree. -/
theorem scanKeyValue_doc : scanKeyValue d.text key = (d.rawField key).map Doc.text := by
  simpa using scanKeyValue_text d ⟨[], rfl⟩ [] key

end C4Gateway.Proxy
