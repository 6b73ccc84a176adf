import C4Gateway.Protoconv.Failure
import C4Gateway.Proxy.ResponsesRecord

/-! Failures that an upstream stream reports in a frame, and the verdict on responses and frames in
every order of the map iterations. -/

namespace C4Gateway.Proxy

open JsonText Text Protoconv

def hasJSONErrorPayload : MapOrder → Doc → Bool := upstreamResponseHasErrorPayload

def rawText : Option Doc → List Char := upstreamResponseRawString

variable (S : CaseFolding)

def failureStatus : List Char → Bool := upstreamResponseIsFailureStatus S

/-- The status and the type of a frame that say that it is a failure. -/
def markedFrame (root : Doc) : Bool :=
  failureStatus S (rawText (field root "status")) ||
    S.equalFold (rawText (field root "type")) "error".toList

def nestedResponse (root : Doc) : Option Doc := (field root "response").filter Doc.isObj

def streamFailureEnvelope (orders : MapOrders) (data : Doc) : Bool :=
  data.isObj &&
    ((field data "error").any (hasJSONErrorPayload (orders [])) || markedFrame S data ||
      (nestedResponse data).any fun nested =>
        failureStatus S (rawText (field nested "status")) ||
          (field nested "error").any (hasJSONErrorPayload (orders ["response"])))

/-- `getString` is `gjson`. -/
def streamFailureMessage (getString : List Char → String → List Char) (data : List Char) :
    List Char :=
  ((["error.message", "response.error.message", "message", "response.message"].map fun path =>
      trimSpace (getString data path)).find? (· ≠ [])).getD
    "upstream stream reported a terminal failure".toList

def failureNames : List (List Char) :=
  ["response.failed".toList, "response.error".toList, "error".toList]

/-- The message of the failure that a frame reports, if it reports one. -/
def convertedStreamFailure (getString : List Char → String → List Char) (orders : MapOrders)
    (ev : Frame) : Option (List Char) :=
  let name := S.toLower (trimSpace ev.name)
  let data := trimSpace ev.2.text
  if data = "[DONE]".toList then none
  else if name ∉ failureNames ∧ streamFailureEnvelope S orders ev.2.doc = false then none
  else some (streamFailureMessage getString data)

/-! ### The verdict -/

/-- The error object has a field with a text that is not blank. -/
def NamesError (d : Doc) : Prop :=
  ∃ members stop, field d "error" = some (.obj members stop) ∧
    ∃ f ∈ mapEntries members, ∃ token, f.2 = .str token ∧ trimSpace (decode token) ≠ []

/-- No field of the error object is `{}`. -/
def ErrorFieldsFull (d : Doc) : Prop :=
  ∀ members stop, field d "error" = some (.obj members stop) →
    ∀ f ∈ mapEntries members, isEmptyObject f.2 = false

/-- A frame says otherwise than by its error object that it is a failure, in every order. -/
def reportedByFrame (ev : Frame) : Bool :=
  S.toLower (trimSpace ev.name) ∈ failureNames || markedFrame S ev.2.doc ||
    (nestedResponse ev.2.doc).any fun nested =>
      failureStatus S (rawText (field nested "status")) || (field nested "error").any certainError

variable {S} {d : Doc}

theorem NamesError.isObj (h : NamesError d) : d.isObj = true := by
  obtain ⟨members, stop, hfield, -⟩ := h
  cases d with
  | obj members stop => rfl
  | null | bool b | num n | str token | arr items stop =>
    simp [field, Doc.lastField, Doc.members] at hfield

/-- Such an error object counts in every order exactly if none of its fields is `{}`. -/
theorem NamesError.certain_iff (h : NamesError d) :
    (field d "error").any certainError = true ↔ ErrorFieldsFull d := by
  obtain ⟨members, stop, hfield, f, hf, token, hstr, htext⟩ := h
  have htells : (mapEntries members).any (fun f => tells f.2) = true :=
    List.any_eq_true.mpr ⟨f, hf, by simpa [hstr, tells] using htext⟩
  simp only [hfield, Option.any_some, certainError, htells, Bool.true_and, List.all_eq_true,
    Bool.not_eq_true']
  constructor
  · intro hall members' stop' hfield'
    cases hfield.symm.trans hfield'
    exact hall
  · exact fun hfull => hfull members stop hfield

theorem text_ne_done {data : Data} (h : data.doc.isObj = true) :
    trimSpace data.text ≠ "[DONE]".toList := by
  intro hdone
  have hbrace : '{' ∈ data.text := by
    cases hd : data.doc with
    | obj members stop => simp [Data.text, hd, Doc.text]
    | null | bool b | num n | str token | arr items stop => simp [hd, Doc.isObj] at h
  have hmem := mem_trimSpace (by decide) hbrace
  rw [hdone] at hmem
  exact absurd hmem (by decide)

theorem convertedStreamFailure_eq_none_iff {getString : List Char → String → List Char}
    {orders : MapOrders} {ev : Frame} (h : ev.2.doc.isObj = true) :
    convertedStreamFailure S getString orders ev = none ↔
      S.toLower (trimSpace ev.name) ∉ failureNames ∧
        streamFailureEnvelope S orders ev.2.doc = false := by
  simp only [convertedStreamFailure, if_neg (text_ne_done h)]
  split
  · next hnone => exact iff_of_true rfl hnone
  · next hsome => exact iff_of_false (by simp) hsome

theorem streamFailureEnvelope_eq_false_iff {orders : MapOrders} (h : d.isObj = true) :
    streamFailureEnvelope S orders d = false ↔
      (field d "error").any (hasJSONErrorPayload (orders [])) = false ∧ markedFrame S d = false ∧
        ∀ nested, nestedResponse d = some nested →
          failureStatus S (rawText (field nested "status")) = false ∧
            (field nested "error").any (hasJSONErrorPayload (orders ["response"])) = false := by
  rw [streamFailureEnvelope, h, Bool.true_and, Bool.or_eq_false_iff, Bool.or_eq_false_iff,
    and_assoc]
  cases nestedResponse d with
  | none => simp
  | some nested => simp

/-- A frame is taken for a failure in every order exactly if it reports one that does not depend on
it. -/
theorem stream_every_order_iff (getString : List Char → String → List Char) (ev : Frame)
    (h : ev.2.doc.isObj = true) :
    (∀ orders, convertedStreamFailure S getString orders ev ≠ none) ↔
      (field ev.2.doc "error").any certainError = true ∨ reportedByFrame S ev = true := by
  simp only [ne_eq, convertedStreamFailure_eq_none_iff h, streamFailureEnvelope_eq_false_iff h,
    reportedByFrame, Bool.or_eq_true, decide_eq_true_eq]
  constructor
  · intro hevery
    by_contra hnot
    simp only [not_or, Bool.not_eq_true] at hnot
    obtain ⟨hcertain, ⟨hname, hmarked⟩, hnested⟩ := hnot
    obtain ⟨here, hhere⟩ := exists_order_none hcertain
    obtain ⟨inside, hinside⟩ : ∃ order, ∀ nested, nestedResponse ev.2.doc = some nested →
        failureStatus S (rawText (field nested "status")) = false ∧
          (field nested "error").any (hasJSONErrorPayload order) = false := by
      cases hresp : nestedResponse ev.2.doc with
      | none => exact ⟨.asWritten, by simp⟩
      | some nested =>
        rw [hresp, Option.any_some, Bool.or_eq_false_iff] at hnested
        obtain ⟨order, horder⟩ := exists_order_none hnested.2
        refine ⟨order, fun other hother => ?_⟩
        cases hother
        exact ⟨hnested.1, horder⟩
    exact hevery (.graft here fun _ _ => inside) ⟨hname, hhere, hmarked, hinside⟩
  · rintro (hcertain | (hname | hmarked) | hnested) orders ⟨hname', herror, hmarked', hresp⟩
    · have := any_hasErrorPayload hcertain (orders [])
      simp [hasJSONErrorPayload, this] at herror
    · exact hname' hname
    · simp [hmarked] at hmarked'
    · cases hn : nestedResponse ev.2.doc with
      | none => simp [hn] at hnested
      | some nested =>
        obtain ⟨hstatus, hnone⟩ := hresp nested hn
        rw [hn, Option.any_some, hstatus] at hnested
        have := any_hasErrorPayload hnested (orders ["response"])
        simp [hasJSONErrorPayload, this] at hnone
/-- A body or a frame with an error object that has a text is taken for a failure in every order
exactly if no field of the error object is `{}`, or the failure is reported in another way too. -/
theorem failure_in_every_order_iff {α : Type} (S : CaseFolding)
    (convert : Direction → Doc → Except (List Char) α)
    (getString : List Char → String → List Char) (dir : Direction) (ev : Frame)
    (h : NamesError ev.2.doc) :
    ((∀ orders, ∃ e, convertResponse S convert orders dir ev.2.doc = .error (.upstream e)) ↔
      ErrorFieldsFull ev.2.doc ∨
        reportedBy S (reported S upstreamResponseFailureMaxDepth) ev.2.doc = true) ∧
    ((∀ orders, convertedStreamFailure S getString orders ev ≠ none) ↔
      ErrorFieldsFull ev.2.doc ∨ reportedByFrame S ev = true) := by
  refine ⟨?_, by rw [stream_every_order_iff getString ev h.isObj, h.certain_iff]⟩
  simp only [convertResponse_upstream_iff, detectUpstreamResponseFailure, h.isObj, if_true]
  rw [detect_every_order_iff, reported, Bool.or_eq_true, h.certain_iff]

/-- A body with an error object and nothing else. -/
def errorBody (fields : List (String × Doc)) : Frame :=
  ([], (object [("error", object fields)]).data)

def overloaded : Frame := errorBody [("message", .str (plain "Overloaded"))]

theorem overloaded_namesError : NamesError overloaded.2.doc :=
  ⟨_, _, rfl, _, List.mem_cons_self, _, rfl, by decide⟩

theorem failure_in_every_order_overloaded :
    NamesError overloaded.2.doc ∧
      (∀ orders, ∃ e, convertResponse .ascii (fun _ _ => .ok ()) orders .chatToResp
        overloaded.2.doc = .error (.upstream e)) ∧
      ∀ orders, convertedStreamFailure .ascii (fun _ _ => []) orders overloaded ≠ none := by
  have hiff := failure_in_every_order_iff .ascii (fun _ _ => .ok ()) (fun _ _ => []) .chatToResp
    overloaded overloaded_namesError
  have hfull : ErrorFieldsFull overloaded.2.doc := by
    intro members stop hfield
    cases hfield
    decide
  exact ⟨overloaded_namesError, hiff.1.mpr (.inl hfull), hiff.2.mpr (.inl hfull)⟩

/-- An error object whose first field is `{}`. -/
def detailed : Frame := errorBody [("details", object []), ("message", .str (plain "Overloaded"))]

/-- With its fields in the order of the text it is a success, in the other order a failure. -/
theorem verdict_depends_on_order :
    NamesError detailed.2.doc ∧
      convertResponse CaseFolding.ascii (fun _ _ => .ok ()) (fun _ => .asWritten) .chatToResp
        detailed.2.doc = .ok () ∧
      convertResponse CaseFolding.ascii (fun _ _ => .ok ()) (fun _ => .reversed) .chatToResp
        detailed.2.doc = .error (.upstream ⟨[], [], "Overloaded".toList⟩) ∧
      convertedStreamFailure .ascii (fun _ _ => []) (fun _ => .asWritten) detailed = none ∧
      convertedStreamFailure .ascii (fun _ _ => []) (fun _ => .reversed) detailed ≠ none := by
  refine ⟨⟨_, _, rfl, _, List.mem_cons_of_mem _ List.mem_cons_self, _, rfl, by decide⟩, ?_, ?_, ?_,
    ?_⟩
  · decide +kernel
  · decide +kernel
  · decide +kernel
  · decide +kernel

end C4Gateway.Proxy
