import C4Gateway.Proxy.UsageMerge

/-! The usage that is recorded for a Responses stream, over SSE, over a WebSocket and through the
Codex client.  Only a frame that is taken for `response.completed` is read. -/

namespace C4Gateway.Proxy

open List JsonText

/-! ### The end of a stream -/

def typeAnchor : List Char := '{' :: "\"type\":\"".toList

/-- The types that decoding into a struct finds, whatever the case of the key. -/
def typeFields (d : Doc) : List Doc :=
  (d.members.filter fun m => (decode m.1.token).map Char.toLower = Keys.type).map Prod.snd

def unmarshalType (d : Doc) : List Char :=
  let step (found : Option (List Char)) (v : Doc) : Option (List Char) :=
    match v with
    | .str token => found.map fun _ => decode token
    | .null => found
    | _ => none
  ((typeFields d).foldl step (some [])).getD []

/-- The type of the data, which stands in for a missing event name. -/
def inferEventName (data : Data) : List Char :=
  if typeAnchor.isPrefixOf data.text then
    let rest := data.text.drop typeAnchor.length
    ((closingQuote rest).map fun stop => (between rest stop).dropLast).getD []
  else unmarshalType data.doc

def Frame.name (frame : Frame) : List Char :=
  if frame.1 ≠ [] then frame.1 else inferEventName frame.2

def completedPattern : List Char := "\"type\":\"response.completed\"".toList

inductive Transport where
  | sse
  | ws
  | codex
  deriving DecidableEq, Repr

/-- The frame is taken for the end of the stream. -/
def completes (transport : Transport) (frame : Frame) : Bool :=
  let data := frame.2.text
  match transport with
  | .sse => isResponsesCompletedEvent frame.name data
  | .ws => contains data completedPattern || isResponsesCompletedType data
  | .codex => isResponsesCompletedType data

/-- What is recorded so far, and whether the Codex client has seen the end. -/
structure Recorded where
  usage : UsageTuple := {}
  usageTaken : Bool := false

def observe (transport : Transport) (r : Recorded) (frame : Frame) : Recorded :=
  if completes transport frame then
    match transport with
    | .sse | .ws => { r with usage := (responsesStreamUsage frame.2.text).getD r.usage }
    | .codex =>
      if r.usageTaken then r
      else { usage := (responsesTopLevelUsage frame.2.text).getD {}, usageTaken := true }
  else r

def recordedUsage (transport : Transport) (frames : List Frame) : UsageTuple :=
  (frames.foldl (observe transport) {}).usage

/-! ### The recorded usage -/

/-- What a transport takes for the usage of a frame. -/
def Transport.seenUsage (transport : Transport) (d : Doc) : Option Doc :=
  if transport = .codex then usageField d Keys.usage else Proxy.seenUsage d

variable {transport : Transport}

theorem foldl_observe_of_not_completes {frames : List Frame}
    (h : ∀ frame ∈ frames, completes transport frame = false) (r : Recorded) :
    frames.foldl (observe transport) r = r := by
  induction frames with
  | nil => rfl
  | cons frame frames ih =>
    obtain ⟨hframe, hframes⟩ := forall_mem_cons.mp h
    have hstep : observe transport r frame = r := by simp [observe, hframe]
    rw [foldl_cons, hstep, ih hframes]

theorem observe_start {frame : Frame} {u : Doc} (h : ResponsesFrame frame.2.doc u) :
    (observe transport {} frame).usage =
      if completes transport frame then
        ((transport.seenUsage frame.2.doc).map fun u => responsesUsageFields u.text).getD {}
      else {} := by
  unfold observe
  split
  · cases transport with
    | sse | ws => simp [responsesStreamUsage_data h, Transport.seenUsage]
    | codex => simp [responsesTopLevelUsage_data, Transport.seenUsage]
  · rfl

theorem Transport.seen {d u v : Doc} (h : ResponsesFrame d u)
    (hv : transport.seenUsage d = some v) : v = u := by
  unfold Transport.seenUsage at hv
  split at hv
  · exact h.top_eq hv
  · exact h.seen hv

/-- The usage object counts nothing. -/
def Uncounted (u : Doc) : Prop :=
  Idle u ∧ wholeCacheRead u Keys.inputTokensDetails = 0 ∧ wholeCreation u = 0

/-- A stream is recorded as a whole response is if and only if its last frame is taken for the end,
its usage is seen, and the native names say what all names say; a usage that is not seen is recorded
only if there is nothing to count. -/
theorem recordedUsage_iff (dec : Decoders) (hdec : dec.Standard) (transport : Transport)
    (frames : List Frame) (last : Frame) (u : Doc) (hu : UsageObject u)
    (hframes : ∀ frame ∈ frames, completes transport frame = false)
    (hlast : ResponsesFrame last.2.doc u) :
    (recordedUsage transport (frames ++ [last])).SameCounts
        (responsesUsageFromResponse dec (responseUsage dec u)) ↔
      if completes transport last ∧ (transport.seenUsage last.2.doc).isSome then
        NativeAgree .responses u
      else Uncounted u := by
  have hwhole : responsesUsageFromResponse dec (responseUsage dec u) = wholeCounts .responses u :=
    usageFromResponse_names hdec hu .responses
  have hnone : UsageTuple.SameCounts {} (wholeCounts .responses u) ↔ Uncounted u := by
    rw [sameCounts_partial_iff hu (.inr rfl) rfl]
    simp [Uncounted, Names.responses, eq_comm]
  rw [hwhole, recordedUsage, foldl_append, foldl_observe_of_not_completes hframes, foldl_cons,
    foldl_nil, observe_start hlast]
  by_cases hend : completes transport last
  · cases hseen : transport.seenUsage last.2.doc with
    | none => simpa using hnone
    | some v =>
      obtain rfl := Transport.seen hlast hseen
      have hagree : (responsesUsageFields v.text).SameCounts (wholeCounts .responses v) ↔
          NativeAgree .responses v := nativeAgree_iff .responses hu
      simpa [hend] using hagree
  · simpa [hend] using hnone

/-- 100 tokens in, 50 out. -/
def countedUsage : Doc :=
  object [("input_tokens", .num (.ofDigits 1 [0, 0])),
    ("output_tokens", .num (.ofDigits 5 [0])), ("total_tokens", .num (.ofDigits 1 [5, 0]))]

theorem countedUsage_object : UsageObject countedUsage := by
  refine .of_members rfl (by unfold Doc.UniqueKeys; decide +kernel) fun m hm => ?_
  simp only [countedUsage, object, Doc.members, map_cons, map_nil, mem_cons, not_mem_nil,
    or_false] at hm
  rcases hm with rfl | rfl | rfl <;> exact ⟨_, rfl, isCounter_of_decide (by decide)⟩

/-- The last frame of a stream, with the usage at its top. -/
def lastFrame (type : String) : Frame :=
  ([], (object [("usage", countedUsage), ("type", .str (plain type))]).data)

theorem recordedUsage_completed :
    (recordedUsage .sse [lastFrame "response.completed"]).SameCounts
      (responsesUsageFromResponse exactDecoders (responseUsage exactDecoders countedUsage)) := by
  have hresponse : (lastFrame "response.completed").2.doc.firstField Keys.response = none := by
    have hkeys : decode (plain "usage") ≠ Keys.response ∧
        decode (plain "type") ≠ Keys.response := by
      decide +kernel
    simp [lastFrame, Doc.data, object, Doc.firstField, Doc.members, hkeys]
  have hframe : ResponsesFrame (lastFrame "response.completed").2.doc countedUsage := by
    refine ⟨by unfold Doc.UniqueKeys; decide +kernel, fun r hr => absurd hr (by simp [hresponse]),
      .inr ⟨firstField_object _ _ (by decide +kernel), fun v hv => ?_⟩⟩
    exact absurd hv (by simp [hresponse])
  refine (recordedUsage_iff exactDecoders exactDecoders_standard .sse [] _ countedUsage
    countedUsage_object (fun frame h => absurd h not_mem_nil) hframe).mpr ?_
  rw [if_pos (by decide +kernel)]
  exact ⟨by decide +kernel, by decide +kernel, by decide +kernel, .inl (by decide +kernel),
    fun h => absurd h (by decide +kernel)⟩

/-- The usage of a response that was cut off is not recorded. -/
theorem recordedUsage_incomplete :
    recordedUsage .sse [lastFrame "response.incomplete"] = {} ∧
      recordedUsage .ws [lastFrame "response.incomplete"] = {} ∧
      recordedUsage .codex [lastFrame "response.incomplete"] = {} ∧
      (responsesUsageFromResponse exactDecoders (responseUsage exactDecoders countedUsage)).tt =
        150 :=
  ⟨by decide +kernel, by decide +kernel, by decide +kernel, by decide +kernel⟩

end C4Gateway.Proxy
