import C4Gateway.Domain
import C4Gateway.Lib.JsonEdit
import C4Gateway.Proxy.Scan

/-! The request body.  `handleFormat` reads the stream flag, the model and the service tier with a
scanner that compares keys as they are written and takes the first; the callers then edit the first
member of a name, and the provider decodes the last one. -/

namespace C4Gateway.Proxy

open List JsonText

namespace Keys

def stream := "stream".toList
def model := "model".toList
def serviceTier := "service_tier".toList
def streamOptions := "stream_options".toList
def includeUsage := "include_usage".toList

end Keys

open Keys (serviceTier)

/-! ### Scanning for several keys -/

/-- A key that is looked for, with the value found for it. -/
abbrev ScanSlot := List Char × Option (List Char)

def takeValue (k value : List Char) (slot : ScanSlot) : ScanSlot :=
  if slot.2 = none ∧ k = slot.1 then (slot.1, some value) else slot

def complete (slots : List ScanSlot) : Bool := slots.all (·.2.isSome)

/-- The loop of `scanKeys`, which ends as soon as every key has a value. -/
def scanKeysMembers (slots : List ScanSlot) (body : List Char) : Bool × List ScanSlot :=
  match body with
  | [] => (false, slots)
  | c :: rest =>
    if c = '}' then (true, slots)
    else if c = ',' then scanKeysMembers slots (skipSpace rest)
    else if c = '"' then
      match _hmember : scanMember (c :: rest) with
      | none => (false, slots)
      | some (k, value, stop) =>
        let taken := slots.map (takeValue k value)
        if complete taken && !complete slots then (true, taken)
        else scanKeysMembers taken (skipSpace stop)
    else (false, slots)
termination_by body.length
decreasing_by
  · have := skipSpace_length rest
    rw [length_cons]
    omega
  · have := scanMember_length _hmember
    have := skipSpace_length stop
    omega

/-- The first value of each key, as it is written; the flag tells whether the scan came to its
end. -/
def scanKeys (body : List Char) (keys : List (List Char)) : Bool × List (Option (List Char)) :=
  let slots : List ScanSlot := keys.map fun key => (key, none)
  match skipSpace body with
  | [] => (false, slots.map Prod.snd)
  | c :: rest =>
    if c = '{' then
      let scanned := scanKeysMembers slots (skipSpace rest)
      (scanned.1, scanned.2.map Prod.snd)
    else (false, slots.map Prod.snd)

variable (slots : List ScanSlot)

theorem scanKeysMembers_comma {α : Type} (more : List α) (rest : List Char) :
    scanKeysMembers slots (skipSpace (Doc.comma more ++ rest)) =
      scanKeysMembers slots (skipSpace rest) := by
  unfold Doc.comma
  split
  · rfl
  · rw [singleton_append, skipSpace_cons (by decide), scanKeysMembers]
    simp

theorem scanKeysMembers_quote {body k value stop : List Char}
    (h : scanMember ('"' :: body) = some (k, value, stop)) :
    scanKeysMembers slots ('"' :: body) =
      if complete (slots.map (takeValue k value)) && !complete slots then
        (true, slots.map (takeValue k value))
      else scanKeysMembers (slots.map (takeValue k value)) (skipSpace stop) := by
  rw [scanKeysMembers, if_neg (by decide), if_neg (by decide), if_pos rfl]
  split
  · next hnone => rw [h] at hnone; exact absurd hnone (by simp)
  · next k' value' stop' hsome =>
    rw [h] at hsome
    obtain ⟨rfl, rfl, rfl⟩ : k = k' ∧ value = value' ∧ stop = stop' := by simpa using hsome
    rfl

/-- The first member of an object whose key is written like the key of a slot fills it. -/
def fill (members : List (Key × Doc)) (slot : ScanSlot) : ScanSlot :=
  (slot.1, slot.2.or
    ((members.find? fun m => written m.1.token = slot.1).map fun m => m.2.text))

theorem fill_of_complete {slots : List ScanSlot} (h : complete slots = true)
    (members : List (Key × Doc)) : slots.map (fill members) = slots := by
  refine (map_congr_left fun slot hslot => ?_).trans (map_id slots)
  obtain ⟨value, hvalue⟩ := Option.isSome_iff_exists.mp (all_eq_true.mp h slot hslot)
  rw [fill, hvalue, Option.some_or, ← hvalue, id]

theorem fill_cons (m : Key × Doc) (members : List (Key × Doc)) (slot : ScanSlot) :
    fill members (takeValue (written m.1.token) m.2.text slot) = fill (m :: members) slot := by
  obtain ⟨key, value⟩ := slot
  cases value with
  | some value => simp [fill, takeValue]
  | none =>
    by_cases hkey : written m.1.token = key <;> simp [fill, takeValue, hkey]

theorem scanKeysMembers_text (members : List (Key × Doc)) (stop : Space) (rest : List Char) :
    (scanKeysMembers slots
      (skipSpace (Doc.membersText members ++ (stop.1 ++ '}' :: rest)))).2 =
        slots.map (fill members) := by
  induction members generalizing slots with
  | nil =>
    rw [Doc.membersText, nil_append, skipSpace_append, skipSpace_cons (by decide),
      scanKeysMembers, if_pos rfl]
    refine ((map_congr_left fun slot _ => ?_).trans (map_id slots)).symm
    simp [fill]
  | cons m members ih =>
    obtain ⟨name, d⟩ := m
    have hends := ends_space name.after (ends_members members stop rest)
    have hfill : (slots.map (takeValue (written name.token) d.text)).map (fill members) =
        slots.map (fill ((name, d) :: members)) := by
      rw [map_map]
      exact map_congr_left fun slot _ => fill_cons (name, d) members slot
    simp only [Doc.membersText, append_assoc, cons_append, skipSpace_append,
      skipSpace_cons (show isWS '"' = false by decide)]
    rw [scanKeysMembers_quote slots (scanMember_text name d hends), skipSpace_append,
      scanKeysMembers_comma, ← hfill]
    split
    · next hcomplete =>
      exact (fill_of_complete (by simp_all) members).symm
    · exact ih _

/-- On a JSON text the scan finds the first member whose key is written like the key. -/
theorem scanKeys_data (data : Data) (keys : List (List Char)) :
    (scanKeys data.text keys).2 = keys.map fun key => (data.doc.rawField key).map Doc.text := by
  unfold scanKeys Data.text
  rw [skipSpace_append, skipSpace_text]
  cases hdoc : data.doc with
  | obj members stop =>
    simp only [Doc.text, cons_append, append_assoc]
    rw [scanKeysMembers_text, map_map, map_map]
    refine map_congr_left fun key _ => ?_
    simp [fill, Doc.rawField, Doc.members, Function.comp_def]
  | _ =>
    obtain ⟨c, s, htext, _, hobj, _⟩ := text_head data.doc
    rw [hdoc] at htext hobj
    have hc : c ≠ '{' := fun hc => absurd (hobj.mp hc) (by simp [Doc.isObj])
    rw [htext]
    simp [hc, Doc.rawField, Doc.members, Function.comp_def]

/-! ### Strings -/

def hexDigit (c : Char) : Nat :=
  if '0' ≤ c ∧ c ≤ '9' then c.toNat - '0'.toNat
  else if 'a' ≤ c ∧ c ≤ 'f' then c.toNat - 'a'.toNat + 10
  else c.toNat - 'A'.toNat + 10

def decodeHex4 (a b c d : Char) : Char :=
  ofCode (((hexDigit a * 16 + hexDigit b) * 16 + hexDigit c) * 16 + hexDigit d)

def unicodeEscapes : List Char → List Char
  | [] => []
  | '\\' :: '\\' :: rest => '\\' :: unicodeEscapes rest
  | '\\' :: 'u' :: a :: b :: c :: d :: rest =>
    if [a, b, c, d].all isHex then decodeHex4 a b c d :: unicodeEscapes rest
    else '\\' :: unicodeEscapes ('u' :: a :: b :: c :: d :: rest)
  | c :: rest => c :: unicodeEscapes rest

/-- Only the escapes with a code are decoded; the others stay as they are written. -/
def decodeUnicodeEscapes (v : List Char) : List Char :=
  if contains v ['\\', 'u'] then unicodeEscapes v else v

/-- The string that a value stands for; a missing value and `null` are empty. -/
def parseStringValue (raw : List Char) : Option (List Char) :=
  match raw with
  | [] => some []
  | c :: rest =>
    if c = '"' then if rest = [] then none else some (decodeUnicodeEscapes rest.dropLast)
    else if raw = "null".toList then some []
    else none

/-! ### The service tier -/

inductive Tier where
  | auto
  | priority
  | flex
  | fast
  deriving DecidableEq, Repr

/-- What is done with the tier of a request. -/
inductive TierPolicyMode where
  | passthrough
  | strip
  | reject
  deriving DecidableEq, Repr

structure BillingHooks where
  tierPolicy : Option (Tier → TierPolicyMode) := none

/-- What the reading of a body rests on: `unicode.ToLower`, the text gjson gives a number, and the
billing hooks. -/
structure BodyReader where
  lower : Char → Char
  numberText : Number → List Char
  bill : Option BillingHooks

namespace BodyReader

variable (R : BodyReader)

def normalizeTier (raw : List Char) : Tier :=
  let tier := (Text.trimSpace raw).map R.lower
  if tier = "fast".toList then .fast
  else if tier = "priority".toList then .priority
  else if tier = "flex".toList then .flex
  else .auto

/-- What the policy makes of a tier.  Without billing there is none, and it is never asked about
`auto`. -/
def policy (tier : Tier) : TierPolicyMode :=
  if tier = .auto then .passthrough
  else ((R.bill.bind BillingHooks.tierPolicy).map fun p => p tier).getD .passthrough

@[simp]
theorem normalizeTier_nil : R.normalizeTier [] = .auto := rfl

@[simp]
theorem policy_auto : R.policy .auto = .passthrough := rfl

theorem ne_nil_of_policy {tier : List Char}
    (h : R.policy (R.normalizeTier tier) ≠ .passthrough) : tier ≠ [] := by
  rintro rfl
  exact h (by rw [normalizeTier_nil, policy_auto])

end BodyReader

/-! ### Reading a body -/

/-- Why a body is refused before a selection. -/
inductive BodyError where
  | streamNotBool
  | modelNotString
  | tierNotString
  | notObject
  | tierRejected
  deriving DecidableEq, Repr

def BodyError.message : BodyError → String
  | .streamNotBool => "invalid request body: stream must be a boolean"
  | .modelNotString => "invalid request body: model must be a string"
  | .tierNotString => "invalid request body: service_tier must be a string"
  | .notObject => "invalid request body: body must be a JSON object"
  | .tierRejected => "service_tier rejected by gateway policy"

/-- The first character that is not blank opens an object. -/
def isJSONObjectRoot (body : List Char) : Bool := body.find? (' ' < ·) = some '{'

theorem blank_lt_of_isNumberChar {c : Char} (h : Number.isNumberChar c = true) : ' ' < c := by
  simp only [Number.isNumberChar, Bool.or_eq_true, beq_iff_eq] at h
  rcases h with ((((h | rfl) | rfl) | rfl) | rfl) | rfl
  · simp only [Char.isDigit, Bool.and_eq_true, decide_eq_true_eq] at h
    exact UInt32.lt_of_lt_of_le (by decide) h.1
  all_goals decide

variable {s : List Char}

theorem blank_lt_head {d : Doc} {c : Char} (h : d.text = c :: s) : ' ' < c := by
  cases d with
  | num n => exact blank_lt_of_isNumberChar (n.isNumberChar_text c (by rw [← Doc.text, h]; simp))
  | bool b => cases b <;> (obtain ⟨rfl, -⟩ := cons.inj h; decide)
  | null | str _ | arr _ _ | obj _ _ =>
    obtain ⟨rfl, -⟩ := cons.inj h
    decide

theorem isJSONObjectRoot_data (data : Data) : isJSONObjectRoot data.text = data.doc.isObj := by
  have hlead : data.lead.1.find? (' ' < ·) = none := by
    refine find?_eq_none.mpr fun c hc => ?_
    have hspace := all_eq_true.mp data.lead.2 c hc
    simp only [isSpace, Bool.or_eq_true, beq_iff_eq] at hspace
    rcases hspace with ((rfl | rfl) | rfl) | rfl <;> decide
  obtain ⟨c, s, htext, -, hobj, -⟩ := text_head data.doc
  have hfind : data.text.find? (' ' < ·) = some c := by
    rw [Data.text, find?_append, hlead, htext]
    simp [blank_lt_head htext]
  rw [isJSONObjectRoot, hfind, Bool.eq_iff_iff, ← hobj]
  simp

def streamModelTierKeys : List (List Char) := [Keys.stream, Keys.model, serviceTier]

def streamValue : Option (List Char) → Option Bool
  | none => some false
  | some raw =>
    if raw = "false".toList ∨ raw = "null".toList then some false
    else if raw = "true".toList then some true
    else none

def stripServiceTier (body : Data) : Option Data :=
  if isJSONObjectRoot body.text then
    some { body with doc := body.doc.deleteField serviceTier }
  else none

/-- What a request goes on with. -/
structure Reading where
  stream : Bool
  model : List Char
  tier : List Char
  body : Data

namespace BodyReader

variable (R : BodyReader)

/-- The three fields that the gateway reads, and the body with the tier policy applied. -/
def read (data : Data) : Except BodyError Reading :=
  let values := (scanKeys data.text streamModelTierKeys).2
  match streamValue values[0]?.join, parseStringValue (values[1]?.join.getD []),
      parseStringValue (values[2]?.join.getD []) with
  | none, _, _ => .error .streamNotBool
  | some _, none, _ => .error .modelNotString
  | some _, some _, none => .error .tierNotString
  | some stream, some model, some tier =>
    match R.policy (R.normalizeTier tier) with
    | .passthrough => .ok ⟨stream, model, tier, data⟩
    | .strip =>
      match stripServiceTier data with
      | none => .error .notObject
      | some body => .ok ⟨stream, model, tier, body⟩
    | .reject => .error .tierRejected

/-- The text of the first member whose key is written like this, or nothing. -/
def rawText (d : Doc) (key : List Char) : List Char := ((d.rawField key).map Doc.text).getD []

/-- What a body is read as, when it is read. -/
structure Reads (data : Data) (r : Reading) : Prop where
  stream : streamValue ((data.doc.rawField Keys.stream).map Doc.text) = some r.stream
  model : parseStringValue (rawText data.doc Keys.model) = some r.model
  tier : parseStringValue (rawText data.doc serviceTier) = some r.tier
  body : r.body = if R.policy (R.normalizeTier r.tier) = .strip then
    { data with doc := data.doc.deleteField serviceTier } else data

theorem reads_of_read {data : Data} {r : Reading} (h : R.read data = .ok r) : R.Reads data r := by
  have hvalues : (scanKeys data.text streamModelTierKeys).2 =
      [(data.doc.rawField Keys.stream).map Doc.text, (data.doc.rawField Keys.model).map Doc.text,
        (data.doc.rawField serviceTier).map Doc.text] := scanKeys_data data _
  simp only [read, hvalues] at h
  split at h
  · cases h
  · cases h
  · cases h
  · next stream model tier hstream hmodel htier =>
    split at h
    · next hpolicy =>
      obtain rfl := Except.ok.inj h
      exact ⟨hstream, hmodel, htier, by rw [if_neg (by simp [hpolicy])]⟩
    · next hpolicy =>
      unfold stripServiceTier at h
      split at h
      · cases h
      · next body hbody =>
        obtain rfl := Except.ok.inj h
        refine ⟨hstream, hmodel, htier, ?_⟩
        rw [if_pos hpolicy]
        split at hbody
        · exact (Option.some.inj hbody).symm
        · exact absurd hbody (by simp)
    · cases h

/-! ### Rewriting it -/

/-- `gjson.Result.String`. -/
def gjsonString : Option Doc → List Char
  | none | some .null => []
  | some (.str token) => decode token
  | some (.num n) => R.numberText n
  | some d => d.text

def setModel (body : Data) (model : List Char) : Option Data :=
  if R.gjsonString (body.doc.firstField Keys.model) = model then some body
  else if isJSONObjectRoot body.text then
    some { body with doc := body.doc.setField Keys.model (.str (quote model)) }
  else none

/-- `gjson` finds the flag, with this value. -/
def isFlag (v : Option Doc) (b : Bool) : Bool :=
  match v with
  | some (.bool b') => b' = b
  | _ => false

def setStreamAndModel (body : Data) (stream : Bool) (model : List Char) : Option Data :=
  if isFlag (body.doc.firstField Keys.stream) stream ∧
      R.gjsonString (body.doc.firstField Keys.model) = model then some body
  else if isJSONObjectRoot body.text then
    some { body with
      doc := (body.doc.setField Keys.stream (.bool stream)).setField Keys.model
        (.str (quote model)) }
  else none

/-- The options with the flag set.  A value that is not an object is replaced by one. -/
def includeUsage : Option Doc → Option Doc
  | some (.obj members stop) =>
    some ((Doc.obj members stop).setField Keys.includeUsage (.bool true))
  | some (.arr _ _) => none
  | _ => some (object [("include_usage", .bool true)])

/-- The flag is looked for in every member of that name, and set in the first one. -/
def ensureChatStreamUsage (body : Data) : Option Data :=
  let options := body.doc.fields Keys.streamOptions
  if isFlag (options.findSome? (·.firstField Keys.includeUsage)) true then some body
  else if isJSONObjectRoot body.text then
    (includeUsage options.head?).map fun v =>
      { body with doc := body.doc.setField Keys.streamOptions v }
  else none

/-! ### What the edits leave -/

/-- The document still has the model it had, or its first model is replaced; the tiers are the
same. -/
structure Edited (m : List Char) (d f : Doc) : Prop where
  model : R.gjsonString (d.firstField Keys.model) = m ∧ f.fields Keys.model = d.fields Keys.model ∨
    f.fields Keys.model = .str (quote m) :: (d.fields Keys.model).tail
  tier : f.fields serviceTier = d.fields serviceTier

variable {body fwd : Data}

theorem edited_setModel {m : List Char} (h : R.setModel body m = some fwd) :
    R.Edited m body.doc fwd.doc := by
  unfold setModel at h
  split at h
  · next hmodel =>
    cases h
    exact ⟨.inl ⟨hmodel, rfl⟩, rfl⟩
  · split at h
    · next hobj =>
      cases h
      rw [isJSONObjectRoot_data] at hobj
      exact ⟨.inr (Doc.fields_setField_self hobj), Doc.fields_setField_of_ne _ (by decide)⟩
    · cases h

theorem edited_setStreamAndModel {stream : Bool} {m : List Char}
    (h : R.setStreamAndModel body stream m = some fwd) : R.Edited m body.doc fwd.doc := by
  unfold setStreamAndModel at h
  split at h
  · next hsame =>
    cases h
    exact ⟨.inl ⟨hsame.2, rfl⟩, rfl⟩
  · split at h
    · next hobj =>
      cases h
      rw [isJSONObjectRoot_data] at hobj
      refine ⟨.inr ?_, ?_⟩
      · rw [Doc.fields_setField_self (by simpa using hobj),
          Doc.fields_setField_of_ne _ (by decide)]
      · rw [Doc.fields_setField_of_ne _ (by decide), Doc.fields_setField_of_ne _ (by decide)]
    · cases h

theorem fields_ensureChatStreamUsage (h : ensureChatStreamUsage body = some fwd)
    (key : List Char) (hkey : key ≠ Keys.streamOptions) :
    fwd.doc.fields key = body.doc.fields key := by
  unfold ensureChatStreamUsage at h
  dsimp only at h
  split at h
  · cases h
    rfl
  · split at h
    · obtain ⟨v, -, rfl⟩ := Option.map_eq_some_iff.mp h
      exact Doc.fields_setField_of_ne _ hkey
    · cases h

/-- A value that is read as a string has its text for gjson. -/
theorem gjsonString_of_stringValue {v : Option Doc} (h : stringValue v = some s) :
    R.gjsonString v = s := by
  unfold stringValue at h
  split at h <;> simp_all [gjsonString]

/-- The edited document has the model, unless it has a later one. -/
theorem Edited.model_iff {m s : List Char} {d f : Doc} (h : R.Edited m d f)
    (hs : stringValue (d.lastField Keys.model) = some s) :
    stringValue (f.lastField Keys.model) = some m ↔
      (2 ≤ (d.fields Keys.model).length → stringValue (d.lastField Keys.model) = some m) := by
  rw [Doc.lastField_eq_getLast?] at hs ⊢
  rw [Doc.lastField_eq_getLast?]
  rcases h.model with ⟨hsame, hfields⟩ | hfields
  · rw [Doc.firstField_eq_head?] at hsame
    rw [hfields]
    refine ⟨fun hm _ => hm, fun hm => ?_⟩
    rcases hlist : d.fields Keys.model with _ | ⟨v, _ | ⟨w, rest⟩⟩
    · rw [hlist] at hsame
      rw [← hsame]
      rfl
    · rw [hlist] at hs hsame
      rw [← hsame, show [v].head? = [v].getLast? from rfl, R.gjsonString_of_stringValue hs]
      exact hs
    · rw [← hlist]
      exact hm (by rw [hlist]; simp)
  · rw [hfields]
    rcases hlist : d.fields Keys.model with _ | ⟨v, _ | ⟨w, rest⟩⟩
    · simp [stringValue]
    · simp [stringValue]
    · simp

end BodyReader

/-! ### Forwarding it -/

/-- The members that `encoding/json` takes for a field, whatever the case of the key. -/
def unmarshalFields (key : List Char) (d : Doc) : List Doc :=
  (d.members.filter fun m => (decode m.1.token).map Char.toLower = key).map Prod.snd

/-- A string field after the body is decoded into a struct. -/
def unmarshalString (key : List Char) (d : Doc) : Option (List Char) :=
  (unmarshalFields key d).foldl (fun found v =>
    if v.isStr then found.map fun _ => (stringValue (some v)).getD []
    else if v.text = "null".toList then found
    else none) (some [])

/-- The SDKs: the body of the parameters that a body is decoded into, with the model replaced, and
the body of an image request. -/
structure Sdk where
  params : Doc → List Char → Option Doc
  params_model : ∀ {d m f}, params d m = some f → stringValue (f.lastField Keys.model) = some m
  params_tier : ∀ {d m f}, params d m = some f →
    (f.lastField serviceTier = none ↔ stringValue (d.lastField serviceTier) = some [])
  image : Doc → List Char → Doc
  image_model : ∀ d m, stringValue ((image d m).lastField Keys.model) = some m
  image_tier : ∀ d m, (image d m).lastField serviceTier = none

/-- How a caller makes the body it sends. -/
inductive Rewrite where
  | streamAndModel
  | model
  | params
  | imageModel
  | imageParams
  deriving DecidableEq, Repr

/-- The caller of a format, for a selection with Codex credentials or without. -/
def rewriteFor (format : RequestFormat) (stream codex : Bool) : Option Rewrite :=
  match format with
  | .openaiChat => some (if stream then .streamAndModel else .params)
  | .openaiResponses => some (if stream || codex then .model else .params)
  | .anthropic => some (if stream then .model else .params)
  | .openaiImages => some (if codex then .imageParams else .imageModel)
  | .openaiResponsesWS | .openaiSearch => none

namespace BodyReader

variable (R : BodyReader)

/-- The body that is sent upstream for model `m`. -/
def rewrite (sdk : Sdk) (m : List Char) (body : Data) : Rewrite → Option Doc
  | .streamAndModel =>
    ((R.setStreamAndModel body true m).bind ensureChatStreamUsage).map Data.doc
  | .model => (R.setModel body m).map Data.doc
  | .params => sdk.params body.doc m
  | .imageModel => some ((R.setModel body m).getD body).doc
  | .imageParams =>
    -- the model of the selection only stands in for one that is missing, and that is refused
    match unmarshalString Keys.model body.doc, unmarshalString "prompt".toList body.doc with
    | some model, some prompt =>
      if model = [] ∨ prompt = [] then none else some (sdk.image body.doc model)
    | _, _ => none

/-- What is sent for a body that was read, for a selection with this model. -/
def forward (sdk : Sdk) (format : RequestFormat) (codex : Bool) (m : List Char) (r : Reading) :
    Option Doc :=
  (rewriteFor format r.stream codex).bind (R.rewrite sdk m r.body)

/-- What the gateway goes by is what a decoder reads. -/
@[mk_iff]
structure ReadAsDecoded (d : Doc) (r : Reading) : Prop where
  stream : boolValue (d.lastField Keys.stream) = some r.stream
  model : stringValue (d.lastField Keys.model) = some r.model
  tier : stringValue (d.lastField serviceTier) = some r.tier

/-- The first member whose key is written without escapes says what the last one with the name
says, where of the escapes of a string only those with a code are decoded. -/
@[mk_iff]
structure SaysOnce (d : Doc) : Prop where
  stream : streamValue ((d.rawField Keys.stream).map Doc.text) = boolValue (d.lastField Keys.stream)
  model : parseStringValue (rawText d Keys.model) = stringValue (d.lastField Keys.model)
  tier : parseStringValue (rawText d serviceTier) = stringValue (d.lastField serviceTier)

variable {r : Reading} {data : Data}

theorem Reads.readAsDecoded_iff (h : R.Reads data r) :
    ReadAsDecoded data.doc r ↔ SaysOnce data.doc := by
  simp only [BodyReader.readAsDecoded_iff, saysOnce_iff, h.stream, h.model, h.tier, eq_comm]

/-- The body does not get in the way of the model of the selection. -/
def TakesModel (d : Doc) (m : List Char) : Rewrite → Prop
  | .params => True
  | .imageParams => unmarshalString Keys.model d = some m
  | _ => 2 ≤ (d.fields Keys.model).length → stringValue (d.lastField Keys.model) = some m

/-- A tier that is stripped leaves none. -/
def TakesStrip (d : Doc) : Rewrite → Prop
  | .imageParams => True
  | _ => (d.fields serviceTier).length ≤ 1

theorem unmarshalFields_deleteField {key key' : List Char} (h : key.map Char.toLower ≠ key')
    (d : Doc) : unmarshalFields key' (d.deleteField key) = unmarshalFields key' d := by
  cases d with
  | obj members stop =>
    simp only [unmarshalFields, Doc.deleteField, Doc.members]
    induction members with
    | nil => rfl
    | cons m members ih =>
      by_cases hm : decode m.1.token = key
      · simp [hm, h]
      · simp only [eraseP_cons, hm, decide_false, cond_false, filter_cons]
        split
        · rw [map_cons, map_cons, ih]
        · exact ih
  | _ => rfl

theorem fields_body (h : R.Reads data r) (key : List Char) (hkey : key ≠ serviceTier) :
    r.body.doc.fields key = data.doc.fields key := by
  rw [h.body]
  split
  · exact Doc.fields_deleteField_of_ne _ hkey
  · rfl

theorem unmarshalString_body (h : R.Reads data r) :
    unmarshalString Keys.model r.body.doc = unmarshalString Keys.model data.doc := by
  rw [h.body]
  split
  · rw [unmarshalString, unmarshalFields_deleteField (by decide), unmarshalString]
  · rfl

section
variable {R} {sdk : Sdk} {m : List Char} {fwd : Doc} {rw : Rewrite}

/-- The rewrites that keep the text of the body edit its first model and keep its tiers. -/
theorem edited_rewrite (hrw : rw ≠ .params ∧ rw ≠ .imageParams) (hobj : r.body.doc.isObj)
    (h : R.rewrite sdk m r.body rw = some fwd) : R.Edited m r.body.doc fwd := by
  cases rw with
  | streamAndModel =>
    obtain ⟨fwd', hfwd, rfl⟩ := Option.map_eq_some_iff.mp h
    obtain ⟨body, hbody, hensure⟩ := Option.bind_eq_some_iff.mp hfwd
    have hedited := R.edited_setStreamAndModel hbody
    have hmodel := fields_ensureChatStreamUsage hensure Keys.model (by decide)
    have htier := fields_ensureChatStreamUsage hensure serviceTier (by decide)
    exact ⟨by rw [hmodel]; exact hedited.model, by rw [htier]; exact hedited.tier⟩
  | model =>
    obtain ⟨body, hbody, rfl⟩ := Option.map_eq_some_iff.mp h
    exact R.edited_setModel hbody
  | imageModel =>
    cases h
    cases hset : R.setModel r.body m with
    | some body => exact R.edited_setModel hset
    | none =>
      unfold setModel at hset
      rw [isJSONObjectRoot_data] at hset
      split at hset <;> exact absurd hset (by simp)
  | params => exact absurd rfl hrw.1
  | imageParams => exact absurd rfl hrw.2

theorem model_rewrite_iff (hreads : R.Reads data r) (hobj : r.body.doc.isObj)
    (hs : stringValue (data.doc.lastField Keys.model) = some s)
    (h : R.rewrite sdk m r.body rw = some fwd) :
    stringValue (fwd.lastField Keys.model) = some m ↔ TakesModel data.doc m rw := by
  have hfields := R.fields_body hreads Keys.model (by decide)
  have hlast : r.body.doc.lastField Keys.model = data.doc.lastField Keys.model := by
    rw [Doc.lastField_eq_getLast?, hfields, Doc.lastField_eq_getLast?]
  cases rw with
  | streamAndModel | model | imageModel =>
    rw [(edited_rewrite (by decide) hobj h).model_iff R (hlast ▸ hs), hfields, hlast]
    rfl
  | params => exact iff_of_true (sdk.params_model h) trivial
  | imageParams =>
    simp only [rewrite] at h
    split at h
    · next model prompt hmodel hprompt =>
      split_ifs at h
      cases h
      rw [sdk.image_model, TakesModel, ← R.unmarshalString_body hreads, hmodel]
    · cases h

theorem tier_rewrite_iff (hreads : R.Reads data r) (hobj : r.body.doc.isObj)
    (hs : stringValue (data.doc.lastField serviceTier) = some r.tier)
    (hstrip : R.policy (R.normalizeTier r.tier) = .strip)
    (h : R.rewrite sdk m r.body rw = some fwd) :
    fwd.lastField serviceTier = none ↔ TakesStrip data.doc rw := by
  have hfields : r.body.doc.fields serviceTier = (data.doc.fields serviceTier).tail := by
    rw [hreads.body, if_pos hstrip, Doc.fields_deleteField_self]
  cases rw with
  | streamAndModel | model | imageModel =>
    rw [Doc.lastField_eq_getLast?, (edited_rewrite (by decide) hobj h).tier, hfields,
      getLast?_eq_none_iff, ← length_eq_zero_iff, length_tail, Nat.sub_eq_zero_iff_le]
    rfl
  | imageParams =>
    simp only [rewrite] at h
    split at h
    · split_ifs at h
      cases h
      exact iff_of_true (sdk.image_tier _ _) trivial
    · cases h
  | params =>
    have hne : r.tier ≠ [] := R.ne_nil_of_policy (by simp [hstrip])
    rw [Doc.lastField_eq_getLast?] at hs
    rw [sdk.params_tier h, Doc.lastField_eq_getLast?, hfields]
    show _ ↔ _ ≤ 1
    rcases hlist : data.doc.fields serviceTier with _ | ⟨v, _ | ⟨w, rest⟩⟩
    · exact iff_of_true rfl (by simp)
    · exact iff_of_true rfl (by simp)
    · rw [hlist, getLast?_cons_cons] at hs
      rw [tail_cons, hs]
      exact iff_of_false (by simpa using hne) (by simp)

/-- The gateway goes by what the provider decodes, and the provider gets the selected model and no
tier that is stripped, if and only if the body says each of the three once; where the text of the
body is kept, a second model has to be the selected one and a second tier may not stand there. -/
theorem forwarded_as_read_iff (R : BodyReader) (sdk : Sdk) (format : RequestFormat) (codex : Bool)
    (m : List Char) (data : Data) (hobj : data.doc.isObj) (r : Reading)
    (hread : R.read data = .ok r) (fwd : Doc)
    (hfwd : R.forward sdk format codex m r = some fwd) :
    ReadAsDecoded data.doc r ∧ stringValue (fwd.lastField Keys.model) = some m ∧
        (R.policy (R.normalizeTier r.tier) = .strip → fwd.lastField serviceTier = none) ↔
      SaysOnce data.doc ∧
        ∀ rw, rewriteFor format ((boolValue (data.doc.lastField Keys.stream)).getD false) codex =
            some rw →
          TakesModel data.doc m rw ∧
            (R.policy (R.normalizeTier
                ((stringValue (data.doc.lastField serviceTier)).getD [])) = .strip →
              TakesStrip data.doc rw) := by
  have hreads := R.reads_of_read hread
  have hobj' : r.body.doc.isObj := by
    rw [hreads.body]
    split
    · simpa using hobj
    · exact hobj
  obtain ⟨rw, hrw, hrewrite⟩ := Option.bind_eq_some_iff.mp hfwd
  rw [hreads.readAsDecoded_iff]
  refine and_congr_right fun honce => ?_
  obtain ⟨hstream, hmodel, htier⟩ := hreads.readAsDecoded_iff.mpr honce
  rw [hstream, htier, Option.getD_some, hrw, model_rewrite_iff hreads hobj' hmodel hrewrite]
  simp only [Option.some.injEq, forall_eq']
  exact and_congr_right' (forall_congr' fun h => tier_rewrite_iff hreads hobj' htier h hrewrite)

end

/-! ### Bodies -/

/-- A reader for ASCII texts, whose policy refuses every tier but the default. -/
def refusing : BodyReader where
  lower := Char.toLower
  numberText := Number.text
  bill := some { tierPolicy := some fun _ => .reject }

/-- An SDK that knows two parameters. -/
def twoParams : Sdk where
  params d m := (stringValue (d.lastField serviceTier)).map fun tier =>
    let model := (Doc.obj [] noSpace).setField Keys.model (.str (quote m))
    if tier = [] then model else model.setField serviceTier (.str (quote tier))
  params_model := by
    intro d m f h
    obtain ⟨tier, -, rfl⟩ := Option.map_eq_some_iff.mp h
    have hne : Keys.model ≠ serviceTier := by decide
    dsimp only
    split
    · rw [Doc.lastField_eq_getLast?, Doc.fields_setField_self rfl]
      simp [stringValue, Doc.fields, Doc.members]
    · rw [Doc.lastField_eq_getLast?, Doc.fields_setField_of_ne _ hne, Doc.fields_setField_self rfl]
      simp [stringValue, Doc.fields, Doc.members]
  params_tier := by
    intro d m f h
    obtain ⟨tier, htier, rfl⟩ := Option.map_eq_some_iff.mp h
    have hne : serviceTier ≠ Keys.model := by decide
    rw [htier]
    dsimp only
    split
    · next hnil =>
      rw [Doc.lastField_eq_getLast?, Doc.fields_setField_of_ne _ hne]
      simp [hnil, Doc.fields, Doc.members]
    · next hne' =>
      rw [Doc.lastField_eq_getLast?, Doc.fields_setField_self rfl]
      simp [hne', getLast?_cons]
  image _ m := (Doc.obj [] noSpace).setField Keys.model (.str (quote m))
  image_model := by
    intro d m
    rw [Doc.lastField_eq_getLast?, Doc.fields_setField_self rfl]
    simp [stringValue, Doc.fields, Doc.members]
  image_tier := by
    intro d m
    rw [Doc.lastField_eq_getLast?, Doc.fields_setField_of_ne _ (by decide)]
    rfl

def plainBody : Data :=
  (object [("model", .str (plain "gpt-4o")), ("stream", .bool true)]).data

theorem forwarded_as_read_plain : ∃ r fwd, refusing.read plainBody = .ok r ∧
    refusing.forward twoParams .openaiChat false "gpt-4o-mini".toList r = some fwd ∧
      ReadAsDecoded plainBody.doc r ∧
        stringValue (fwd.lastField Keys.model) = some "gpt-4o-mini".toList := by
  have hread : refusing.read plainBody =
      .ok ⟨true, "gpt-4o".toList, [], plainBody⟩ := by
    simp only [read, scanKeys_data]
    rfl
  refine ⟨_, _, hread, rfl, ?_⟩
  have hiff := forwarded_as_read_iff refusing twoParams .openaiChat false "gpt-4o-mini".toList
    plainBody rfl _ hread _ rfl
  have honce : SaysOnce plainBody.doc := ⟨rfl, rfl, rfl⟩
  refine (hiff.mpr ⟨honce, fun rw hrw => ?_⟩).imp_right And.left
  obtain rfl := Option.some.inj (show some Rewrite.streamAndModel = some rw from hrw)
  exact ⟨fun h => absurd h (by decide), fun h => absurd h (by decide)⟩

/-- The model and the tier each stand twice. -/
def doubledBody : Data :=
  (object [("model", .str (plain "gpt-4o-mini")), ("service_tier", .str (plain "default")),
    ("stream", .bool true), ("model", .str (plain "gpt-4o")),
    ("service_tier", .str (plain "priority"))]).data

/-- The gateway selects, prices and forwards the first model with a tier it lets through; the
provider decodes another model, and a tier that the policy refuses. -/
theorem provider_decodes_other_model : ∃ r fwd, refusing.read doubledBody = .ok r ∧
    r.model = "gpt-4o-mini".toList ∧ refusing.normalizeTier r.tier = .auto ∧
      refusing.forward twoParams .openaiChat false "gpt-4o-mini".toList r = some fwd ∧
      stringValue (fwd.lastField Keys.model) = some "gpt-4o".toList ∧
      stringValue (fwd.lastField serviceTier) = some "priority".toList ∧
      refusing.policy .priority = .reject := by
  have hread : refusing.read doubledBody =
      .ok ⟨true, "gpt-4o-mini".toList, "default".toList, doubledBody⟩ := by
    simp only [read, scanKeys_data]
    rfl
  exact ⟨_, _, hread, rfl, by decide, rfl, rfl, rfl, rfl⟩

end BodyReader
end C4Gateway.Proxy
