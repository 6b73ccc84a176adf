import C4Gateway.Lib.AnyOrder
import C4Gateway.Lib.JsonText
import C4Gateway.Protoconv.Request

/-! Failures that an upstream reports in a response with HTTP status 200.  The envelope of the
response is searched, and the fields of its error object are looked at in the order in which Go
iterates over a map, which is an argument here. -/

namespace C4Gateway.Protoconv

open List JsonText Text

/-- The functions of package `strings` that go by Unicode tables. -/
structure CaseFolding where
  toLower : List Char → List Char
  equalFold : List Char → List Char → Bool

def CaseFolding.ascii : CaseFolding where
  toLower s := s.map Char.toLower
  equalFold s t := s.map Char.toLower = t.map Char.toLower

/-! ### Maps of raw values -/

/-- The entries of the map that an object is decoded to: of each key, the last member. -/
def mapEntries : List (Key × Doc) → List (List Char × Doc)
  | [] => []
  | (key, d) :: members =>
    if members.any fun m => decode m.1.token = decode key.token then mapEntries members
    else (decode key.token, d) :: mapEntries members

/-- The order in which a loop goes through a map. -/
structure MapOrder where
  range : List (List Char × Doc) → List (List Char × Doc)
  perm : ∀ m, (range m).Perm m

def MapOrder.asWritten : MapOrder := ⟨id, .refl⟩

def MapOrder.reversed : MapOrder := ⟨reverse, reverse_perm⟩

/-- The orders of the loops over the error objects, by the wrappers around each. -/
abbrev MapOrders := List String → MapOrder

/-- The orders of an object, and those inside the wrappers that it has. -/
def MapOrders.graft (here : MapOrder) (inside : String → MapOrders) : MapOrders
  | [] => here
  | key :: path => inside key path

def field (root : Doc) (key : String) : Option Doc := root.lastField key.toList

/-- A JSON text that is `null` up to case is `null`. -/
def upstreamResponseJSONNull : Doc → Bool
  | .null => true
  | _ => false

/-- What `json.Unmarshal` makes of a value for a string. -/
def unmarshalString : Doc → Option (List Char)
  | .str token => some (decode token)
  | .null => some []
  | _ => none

/-- What it makes of a value for a Boolean. -/
def unmarshalBool : Doc → Option Bool
  | .bool b => some b
  | .null => some false
  | _ => none

def upstreamResponseRawString (raw : Option Doc) : List Char := (raw.bind unmarshalString).getD []

/-! ### The error object -/

/-- The loop over the fields of an error object. -/
def payloadLoop : List (List Char × Doc) → Bool
  | [] => false
  | (_, value) :: rest =>
    if upstreamResponseJSONNull value then payloadLoop rest
    else match unmarshalString value with
      | some text => if trimSpace text ≠ [] then true else payloadLoop rest
      | none => value.text ≠ [] && trimSpace value.text ≠ "{}".toList

def upstreamResponseHasErrorPayload (order : MapOrder) (raw : Doc) : Bool :=
  if raw.text = [] ∨ upstreamResponseJSONNull raw then false
  else match raw with
    | .obj members _ => payloadLoop (order.range (mapEntries members))
    | _ => trimSpace raw.text ≠ []

/-- The first of the fields that is a string with a text. -/
def firstText (obj : Doc) (keys : List String) : List Char :=
  ((keys.map fun key => upstreamResponseRawString (field obj key)).find? (· ≠ [])).getD []

def upstreamResponseErrorDetails (raw : Option Doc) : List Char × List Char :=
  match raw with
  | none => ([], [])
  | some (.obj members stop) =>
    (firstText (.obj members stop) ["code", "type", "name"],
      firstText (.obj members stop) ["message", "detail", "reason"])
  | some d => ([], upstreamResponseRawString (some d))

/-! ### The envelope -/

/-- A failure that the upstream reports in its response. -/
structure UpstreamResponseError where
  status : List Char
  code : List Char
  message : List Char
  deriving DecidableEq, Repr

def upstreamResponseFailureMaxDepth : Nat := 3

variable (S : CaseFolding)

def failureStatuses : List (List Char) :=
  ["failed".toList, "failure".toList, "cancelled".toList, "canceled".toList, "error".toList,
    "errored".toList, "rejected".toList]

def upstreamResponseIsFailureStatus (status : List Char) : Bool :=
  S.toLower (trimSpace status) ∈ failureStatuses

def upstreamResponseIsFailureType (value : List Char) : Bool :=
  let typ := S.toLower (trimSpace value)
  typ ∈ ["error".toList, "failed".toList, "cancelled".toList, "canceled".toList] ||
    [".error".toList, ".failed".toList, ".cancelled".toList, ".canceled".toList].any
      (·.isSuffixOf typ)

def upstreamResponseLooksCanonical (value : Doc) : Bool :=
  let object := S.toLower (trimSpace (upstreamResponseRawString (field value "object")))
  let typ := S.toLower (trimSpace (upstreamResponseRawString (field value "type")))
  ["choices", "output", "content"].any (fun key => (field value key).isSome) ||
    object ∈ ["chat.completion".toList, "completion".toList, "text_completion".toList,
      "response".toList, "message".toList, "image".toList, "image_generation".toList] ||
    typ ∈ ["response".toList, "message".toList, "chat.completion".toList, "completion".toList] ||
    ["response.".toList, "message.".toList, "message_".toList, "content_block_".toList].any
      (·.isPrefixOf typ)

def wrapperKeys : List String := ["response", "data", "result", "payload", "body"]

/-- The object in a wrapper that the search goes on in. -/
def wrapped (root : Doc) (key : String) : Option Doc :=
  (field root key).filter fun nested =>
    nested.isObj && (key == "response" || !upstreamResponseLooksCanonical S root)

/-- The error that the envelope itself stands for, with a message of its own if the error object
has none. -/
def envelopeError (root : Doc) : UpstreamResponseError :=
  let details := upstreamResponseErrorDetails (field root "error")
  { status := upstreamResponseRawString (field root "status")
    code := details.1
    message := if details.2 = [] then upstreamResponseRawString (field root "message")
      else details.2 }

/-- A flag that says that the response is not a success. -/
def unsuccessful (root : Doc) : Bool :=
  ["success", "ok"].any fun key => (field root key).bind unmarshalBool == some false

def unsuccessfulError (root : Doc) : UpstreamResponseError :=
  let message := upstreamResponseRawString (field root "message")
  { status := upstreamResponseRawString (field root "status")
    code := []
    message := if message = [] then "upstream reported an unsuccessful response".toList
      else message }

/-- The status and the type of an envelope that say that it is a failure. -/
def failureMarked (root : Doc) : Bool :=
  upstreamResponseIsFailureStatus S (upstreamResponseRawString (field root "status")) ||
    upstreamResponseIsFailureType S (upstreamResponseRawString (field root "type"))

/-- `fuel` is the number of levels that the search may still go down. -/
def detectUpstreamResponseFailureObject : (fuel : Nat) → MapOrders → Doc →
    Option UpstreamResponseError
  | 0, _, _ => none
  | fuel + 1, orders, root =>
    if (field root "error").any (upstreamResponseHasErrorPayload (orders [])) ||
        failureMarked S root
    then some (envelopeError root)
    else
      (wrapperKeys.findSome? fun key => (wrapped S root key).bind fun nested =>
        detectUpstreamResponseFailureObject fuel (fun path => orders (key :: path)) nested).or
      (if unsuccessful root then some (unsuccessfulError root) else none)

def detectUpstreamResponseFailure (orders : MapOrders) (body : Doc) :
    Option UpstreamResponseError :=
  if body.isObj then
    detectUpstreamResponseFailureObject S (upstreamResponseFailureMaxDepth + 1) orders body
  else none

/-! ### Every order -/

/-- The object `{}`, written like this. -/
def isEmptyObject : Doc → Bool
  | .obj [] stop => stop.1.isEmpty
  | _ => false

/-- A value that makes an error object count. -/
def tells : Doc → Bool
  | .null => false
  | .str token => trimSpace (decode token) ≠ []
  | d => !isEmptyObject d

/-- What the loop concludes from a value, if it concludes anything. -/
def payloadVerdict (value : Doc) : Option Bool :=
  if upstreamResponseJSONNull value then none
  else match unmarshalString value with
    | some text => if trimSpace text ≠ [] then some true else none
    | none => some (value.text ≠ [] && trimSpace value.text ≠ "{}".toList)

theorem payloadLoop_eq_verdict (m : List (List Char × Doc)) :
    payloadLoop m = AnyOrder.verdict (fun f => payloadVerdict f.2) m := by
  induction m with
  | nil => rfl
  | cons f m ih =>
    rw [AnyOrder.verdict_cons, payloadLoop, payloadVerdict, ih]
    split
    · rfl
    · split
      · split <;> rfl
      · rfl

theorem isSpace_of_isNumberChar {c : Char} (h : Number.isNumberChar c = true) :
    Text.isSpace c = false := by
  simp only [Number.isNumberChar, Bool.or_eq_true, beq_iff_eq] at h
  rcases h with ((((hdigit | rfl) | rfl) | rfl) | rfl) | rfl
  · obtain ⟨hlow, hhigh⟩ : 48 ≤ c.toNat ∧ c.toNat ≤ 57 := by
      simp only [Char.isDigit, Bool.and_eq_true, decide_eq_true_eq] at hdigit
      exact hdigit
    simp only [Text.isSpace, Bool.or_eq_false_iff, Bool.and_eq_false_iff, decide_eq_false_iff_not,
      beq_eq_false_iff_ne]
    omega
  all_goals decide

/-- The text of a value begins with a character that is no space. -/
theorem exists_text_eq_cons (d : Doc) : ∃ c s, d.text = c :: s ∧ Text.isSpace c = false := by
  cases d with
  | bool b => cases b <;> exact ⟨_, _, rfl, by decide⟩
  | num n =>
    obtain ⟨c, s, htext⟩ := exists_cons_of_ne_nil n.text_ne_nil
    exact ⟨c, s, htext, isSpace_of_isNumberChar (n.isNumberChar_text c (by simp [htext]))⟩
  | null | str token | arr items stop | obj members stop => exact ⟨_, _, rfl, by decide⟩

theorem text_ne_nil (d : Doc) : d.text ≠ [] := by
  obtain ⟨c, s, htext, -⟩ := exists_text_eq_cons d
  simp [htext]

theorem trimSpace_text_ne_nil (d : Doc) : trimSpace d.text ≠ [] := by
  obtain ⟨c, s, htext, hc⟩ := exists_text_eq_cons d
  rw [htext]
  exact trimSpace_cons_ne_nil hc s

theorem membersText_eq_nil_iff {members : List (Key × Doc)} :
    Doc.membersText members = [] ↔ members = [] := by
  cases members with
  | nil | cons m members => simp [Doc.membersText]

variable {d : Doc}

/-- A value that is not a string is written `{}` only if it is the empty object. -/
theorem trimSpace_text_eq_iff (h : unmarshalString d = none) :
    trimSpace d.text = "{}".toList ↔ isEmptyObject d = true := by
  cases d with
  | null | str token => simp [unmarshalString] at h
  | bool b => cases b <;> decide
  | num n =>
    refine iff_of_false (fun heq => ?_) (by simp [isEmptyObject])
    rw [Doc.text,
      trimSpace_of_forall fun c hc => isSpace_of_isNumberChar (n.isNumberChar_text c hc)] at heq
    have hbrace := n.isNumberChar_text '{' (by rw [heq]; decide)
    exact absurd hbrace (by decide)
  | arr items stop =>
    have htext : Doc.text (.arr items stop) =
        '[' :: ((Doc.itemsText items ++ stop.1) ++ [']']) := by simp [Doc.text]
    rw [htext, trimSpace_of_ends (by decide) (by decide)]
    simp [isEmptyObject]
  | obj members stop =>
    have htext : Doc.text (.obj members stop) =
        '{' :: ((Doc.membersText members ++ stop.1) ++ ['}']) := by simp [Doc.text]
    have hend : '{' :: ((Doc.membersText members ++ stop.1) ++ ['}']) = "{}".toList ↔
        Doc.membersText members ++ stop.1 = [] := by
      rw [show "{}".toList = '{' :: ([] ++ ['}']) from rfl, cons.injEq, append_left_inj]
      exact and_iff_right rfl
    rw [htext, trimSpace_of_ends (by decide) (by decide), hend, append_eq_nil_iff,
      membersText_eq_nil_iff]
    cases members <;> simp [isEmptyObject]

theorem payloadVerdict_of_none (h : unmarshalString d = none) :
    payloadVerdict d = some (!isEmptyObject d) := by
  have hnull : upstreamResponseJSONNull d = false := by
    cases d with
    | null => simp [unmarshalString] at h
    | _ => rfl
  have hempty : decide (trimSpace d.text ≠ "{}".toList) = !isEmptyObject d := by
    rw [← Bool.coe_iff_coe]
    simp only [decide_eq_true_eq, ne_eq, trimSpace_text_eq_iff h, Bool.not_eq_true',
      Bool.not_eq_true]
  simp only [payloadVerdict, hnull, h, hempty, text_ne_nil, ne_eq, not_false_eq_true, decide_true,
    Bool.true_and, Bool.false_eq_true, if_false]

theorem payloadVerdict_eq_true_iff : payloadVerdict d = some true ↔ tells d = true := by
  cases d with
  | null | str token => simp [payloadVerdict, upstreamResponseJSONNull, unmarshalString, tells]
  | bool b | num n | arr items stop | obj members stop =>
    rw [payloadVerdict_of_none rfl, Option.some.injEq]
    rfl

theorem payloadVerdict_eq_false_iff :
    payloadVerdict d = some false ↔ isEmptyObject d = true := by
  cases d with
  | null | str token =>
    simp [payloadVerdict, upstreamResponseJSONNull, unmarshalString, isEmptyObject]
  | bool b | num n | arr items stop | obj members stop =>
    rw [payloadVerdict_of_none rfl, Option.some.injEq, Bool.not_eq_false']

/-- An error object that is taken for one in every order of its fields, or another error value. -/
def certainError : Doc → Bool
  | .null => false
  | .obj members _ =>
    (mapEntries members).any (fun f => tells f.2) &&
      (mapEntries members).all fun f => !isEmptyObject f.2
  | _ => true

open Classical in
/-- An order that goes through one map like this. -/
noncomputable def MapOrder.only (m l : List (List Char × Doc)) (h : l.Perm m) : MapOrder where
  range m' := if m' = m then l else m'
  perm m' := by
    split
    · next heq => exact heq ▸ h
    · exact .refl m'

theorem MapOrder.only_range {m l : List (List Char × Doc)} (h : l.Perm m) :
    (MapOrder.only m l h).range m = l :=
  if_pos rfl

theorem hasErrorPayload_every_order_iff (raw : Doc) :
    (∀ order, upstreamResponseHasErrorPayload order raw = true) ↔ certainError raw = true := by
  cases raw with
  | null =>
    refine iff_of_false (fun h => ?_) (by simp [certainError])
    simpa [upstreamResponseHasErrorPayload, upstreamResponseJSONNull] using h .asWritten
  | bool b | num n | str token | arr items stop =>
    refine iff_of_true (fun order => ?_) rfl
    simp [upstreamResponseHasErrorPayload, upstreamResponseJSONNull, text_ne_nil,
      trimSpace_text_ne_nil]
  | obj members stop =>
    have hloop : ∀ order, upstreamResponseHasErrorPayload order (.obj members stop) =
        AnyOrder.verdict (fun f => payloadVerdict f.2) (order.range (mapEntries members)) := by
      intro order
      rw [← payloadLoop_eq_verdict]
      simp [upstreamResponseHasErrorPayload, upstreamResponseJSONNull, text_ne_nil]
    have hevery : (∀ order, upstreamResponseHasErrorPayload order (.obj members stop) = true) ↔
        ∀ l, l.Perm (mapEntries members) →
          AnyOrder.verdict (fun f : List Char × Doc => payloadVerdict f.2) l = true := by
      refine ⟨fun h l hl => ?_, fun h order => ?_⟩
      · have hl' := h (.only (mapEntries members) l hl)
        rwa [hloop, MapOrder.only_range] at hl'
      · rw [hloop]
        exact h _ (order.perm _)
    rw [hevery, AnyOrder.verdict_every_order_iff]
    simp only [certainError, Bool.and_eq_true, any_eq_true, all_eq_true, ne_eq,
      payloadVerdict_eq_true_iff, payloadVerdict_eq_false_iff, Bool.not_eq_true', Bool.not_eq_true]

/-- The envelope says otherwise than by its error object that the response has failed. -/
def reportedBy (inside : Doc → Bool) (root : Doc) : Bool :=
  failureMarked S root || wrapperKeys.any (fun key => (wrapped S root key).any inside) ||
    unsuccessful root

/-- A failure that is found in every order. -/
def reported : (fuel : Nat) → Doc → Bool
  | 0, _ => false
  | fuel + 1, root => (field root "error").any certainError || reportedBy S (reported fuel) root

variable {S}

theorem exists_order_none {raw : Option Doc} (h : raw.any certainError = false) :
    ∃ order, raw.any (upstreamResponseHasErrorPayload order) = false := by
  cases raw with
  | none => exact ⟨.asWritten, rfl⟩
  | some d =>
    have hnot : ¬∀ order, upstreamResponseHasErrorPayload order d = true := fun hall => by
      simp [(hasErrorPayload_every_order_iff d).mp hall] at h
    obtain ⟨order, horder⟩ := not_forall.mp hnot
    exact ⟨order, by simpa using horder⟩

theorem any_hasErrorPayload {raw : Option Doc} (h : raw.any certainError = true)
    (order : MapOrder) : raw.any (upstreamResponseHasErrorPayload order) = true := by
  cases raw with
  | none => simp at h
  | some d => exact (hasErrorPayload_every_order_iff d).mpr h order

theorem detect_eq_none_iff {fuel : Nat} {orders : MapOrders} {root : Doc} :
    detectUpstreamResponseFailureObject S (fuel + 1) orders root = none ↔
      (field root "error").any (upstreamResponseHasErrorPayload (orders [])) = false ∧
      failureMarked S root = false ∧
      (∀ key ∈ wrapperKeys, ∀ nested, wrapped S root key = some nested →
        detectUpstreamResponseFailureObject S fuel (fun path => orders (key :: path)) nested =
          none) ∧
      unsuccessful root = false := by
  rw [detectUpstreamResponseFailureObject]
  split
  · next h =>
    rw [Bool.or_eq_true] at h
    refine iff_of_false (by simp) fun hnone => ?_
    rcases h with h | h <;> simp [hnone.1, hnone.2.1] at h
  · next h =>
    rw [Bool.not_eq_true, Bool.or_eq_false_iff] at h
    simp [h.1, h.2, imp_false]

/-- A failure is found in every order exactly if it is reported in a way that does not depend on
it. -/
theorem detect_every_order_iff (fuel : Nat) (root : Doc) :
    (∀ orders, detectUpstreamResponseFailureObject S fuel orders root ≠ none) ↔
      reported S fuel root = true := by
  induction fuel generalizing root with
  | zero => exact iff_of_false (fun h => h (fun _ => .asWritten) rfl) (by simp [reported])
  | succ fuel ih =>
    simp only [reported, reportedBy, Bool.or_eq_true, any_eq_true]
    constructor
    · intro h
      by_contra hnot
      simp only [not_or, Bool.not_eq_true, not_exists, not_and] at hnot
      obtain ⟨hcertain, ⟨hmarked, hwrapped⟩, hflags⟩ := hnot
      obtain ⟨here, hhere⟩ := exists_order_none hcertain
      -- every wrapper has orders of its own in which nothing is found
      have hinside : ∀ key, ∃ orders : MapOrders, key ∈ wrapperKeys → ∀ nested,
          wrapped S root key = some nested →
          detectUpstreamResponseFailureObject S fuel orders nested = none := by
        intro key
        by_cases hkey : key ∈ wrapperKeys ∧ (wrapped S root key).isSome
        · obtain ⟨nested, hnested⟩ := Option.isSome_iff_exists.mp hkey.2
          have hnot : ¬reported S fuel nested = true := by
            simpa [hnested] using hwrapped key hkey.1
          obtain ⟨orders, horders⟩ := not_forall.mp (mt (ih nested).mp hnot)
          refine ⟨orders, fun _ other hother => ?_⟩
          cases hnested.symm.trans hother
          exact not_not.mp horders
        · refine ⟨fun _ => .asWritten, fun hmem nested hnested => ?_⟩
          exact absurd ⟨hmem, by simp [hnested]⟩ hkey
      choose inside hinside using hinside
      exact h (.graft here inside) (detect_eq_none_iff.mpr
        ⟨hhere, hmarked, fun key hkey nested hnested => hinside key hkey nested hnested, hflags⟩)
    · intro h orders hnone
      obtain ⟨herror, hmarked, hwrapped, hflags⟩ := detect_eq_none_iff.mp hnone
      rcases h with hcertain | (hmarked' | ⟨key, hkey, hnested⟩) | hflags'
      · simp [any_hasErrorPayload hcertain] at herror
      · simp [hmarked] at hmarked'
      · obtain ⟨nested, hwrap, hreported⟩ : ∃ nested, wrapped S root key = some nested ∧
            reported S fuel nested = true := by
          simpa [Option.any_eq_true] using hnested
        exact (ih nested).mpr hreported _ (hwrapped key hkey nested hwrap)
      · simp [hflags] at hflags'

/-! ### Responses -/

inductive ConvertError where
  | upstream (e : UpstreamResponseError)
  | other (message : List Char)
  deriving DecidableEq

/-- `convert` is the converter of the direction. -/
def convertResponse {α : Type} (S : CaseFolding)
    (convert : Direction → Doc → Except (List Char) α) (orders : MapOrders) (dir : Direction)
    (body : Doc) : Except ConvertError α :=
  match detectUpstreamResponseFailure S orders body with
  | some e => .error (.upstream e)
  | none => (convert dir body).mapError .other

theorem convertResponse_upstream_iff {α : Type} {convert : Direction → Doc → Except (List Char) α}
    {orders : MapOrders} {dir : Direction} {body : Doc} :
    (∃ e, convertResponse S convert orders dir body = .error (.upstream e)) ↔
      detectUpstreamResponseFailure S orders body ≠ none := by
  unfold convertResponse
  cases detectUpstreamResponseFailure S orders body with
  | none => cases convert dir body <;> simp [Except.mapError]
  | some e => simp

end C4Gateway.Protoconv
