import C4Gateway.Protoconv.MessStream

/-! Responses that are cut off at the output limit.  The three protocols have a finish reason, a
stop reason and a status with a detail for it; a conversion should say it in the client's protocol
exactly if the upstream says it. -/

namespace C4Gateway.Protoconv

open Monitor
open RespMapper (createdEvent textDeltaEvent)
open Option
open Json (lastField asStr asObj firstField)

open List

/-- How a direction finds a field of an upstream object. -/
def Direction.field : Direction → Obj → String → Option Json
  | .chatToResp => firstField
  | _ => lastField

/-! ### Objects -/

section
variable (field : Obj → String → Option Json)

def statusOf (r : Obj) : Option String := (field r "status").bind asStr

def incompleteReason (r : Obj) : Option String :=
  ((field r "incomplete_details").bind asObj).bind fun d => (field d "reason").bind asStr

def respTruncated (r : Obj) : Prop :=
  statusOf field r = some "incomplete" ∧ incompleteReason field r = some "max_output_tokens"

def ObjectTruncated (r : Obj) : Protocol → Prop
  | .chat => str (headChoice r) "finish_reason" = some "length"
  | .mess => str r "stop_reason" = some "max_tokens"
  | .resp => respTruncated field r

end

/-! ### Streams -/

def isMessageDelta (e : SseEvent) : Bool :=
  MessEventName.ofString e.eventName = .messageDelta && e.data.object.isSome

def messStopReason (e : SseEvent) : Option String :=
  if isMessageDelta e then
    (e.data.object.bind (objField · "delta")).bind (str · "stop_reason")
  else none

def chatFinish (e : SseEvent) : Option String :=
  ((e.data.object.bind ChatMapper.firstChoice).bind (str · "finish_reason")).filter (· ≠ "")

/-- The response that an event brings. -/
def responseOf (field : Obj → String → Option Json) (e : SseEvent) : Option Obj :=
  e.data.object.bind fun ev => (field ev "response").bind asObj

/-- What an upstream stream reports: a Responses stream in its last event, and the others where the
last reason comes. -/
def UpstreamTruncated (field : Obj → String → Option Json) (events : List SseEvent) :
    Protocol → Prop
  | .chat => (events.filterMap chatFinish).getLast? = some "length"
  | .mess => (events.filterMap messStopReason).getLast? = some "max_tokens"
  | .resp => ∃ r, events.getLast?.bind (responseOf field) = some r ∧ respTruncated field r

/-- A Responses stream ends with its only terminal event, and a Chat stream of chunks with
`[DONE]`; the events of the others have names. -/
def WholeStream (events : List SseEvent) : Protocol → Prop
  | .chat => ∃ pre t, events = pre ++ [t] ∧ ChatMapper.isDone t.data ∧ ∀ e ∈ pre,
      ¬ChatMapper.isDone e.data ∧ ∀ ev ∈ e.data.object, objField ev "error" = none
  | .mess => ∀ e ∈ events, e.eventName ≠ ""
  | .resp => ∃ pre t, events = pre ++ [t] ∧ t.respName.isTerminal ∧ ∀ e ∈ pre,
      e.eventName ≠ "" ∧ ¬e.respName.isTerminal

def ChatFrame.finish : ChatFrame → Option String
  | .chunk c => c.finishReason
  | _ => none

def MessFrame.stop : MessFrame → Option String
  | .event (.messageDelta reason _) => some reason
  | _ => none

def ClientTruncated : ClientStream → Prop
  | .chat frames => ∃ f ∈ frames, f.finish = some "length"
  | .mess frames => ∃ f ∈ frames, f.stop = some "max_tokens"
  | .resp frames => ∃ r, .completed r ∈ frames ∧ respTruncated lastField r

/-! ### Where the report is right -/

/-- A status `incomplete` is for the output limit. -/
def LimitOnly (field : Obj → String → Option Json) (r : Obj) : Prop :=
  statusOf field r = some "incomplete" → incompleteReason field r = some "max_output_tokens"

def ObjectKept (dir : Direction) (r : Obj) : Prop :=
  match dir with
  | .chatToResp | .messToResp => LimitOnly dir.field r
  | .respToMess | .autoResponsesToChat => ¬ObjectTruncated dir.field r dir.upstream
  | .chatToMess | .autoMessagesToChat => True

/-- The last event is `response.completed` and has no other reason to be incomplete, or it does not
report truncation. -/
def LastKept (field : Obj → String → Option Json) (t : SseEvent) : Prop :=
  ∀ r ∈ responseOf field t,
    if t.respName = .completed then LimitOnly field r else ¬respTruncated field r

def StreamKept (dir : Direction) (events : List SseEvent) : Prop :=
  match dir with
  | .chatToResp | .messToResp => ∀ t ∈ events.getLast?, LastKept dir.field t
  | .respToMess | .autoResponsesToChat => ¬UpstreamTruncated dir.field events dir.upstream
  | .chatToMess => (events.find? isMessageDelta).bind messStopReason = some "max_tokens" ↔
      (events.filterMap messStopReason).getLast? = some "max_tokens"
  | .autoMessagesToChat => True

/-! ### The converters of objects -/

section
variable (codec : Codec) (r : Obj)

theorem getD_eq_iff {o : Option String} {s : String} (h : s ≠ "") : o.getD "" = s ↔ o = some s := by
  cases o with
  | none => simp [h.symm]
  | some t => simp

theorem respFinishReason_eq_length :
    respFinishReason r = "length" ↔ statusOf firstField r = some "incomplete" := by
  show _ ↔ getStr r "status" = some "incomplete"
  unfold respFinishReason
  split_ifs <;> simp_all

theorem respToMessStopReason_eq_max :
    RespMapper.respToMessStopReason r = "max_tokens" ↔
      statusOf lastField r = some "incomplete" := by
  show _ ↔ str r "status" = some "incomplete"
  unfold RespMapper.respToMessStopReason
  split_ifs <;> simp_all

theorem messToChatFinish_eq_length (s : String) :
    messToChatFinish s = "length" ↔ s = "max_tokens" := by
  unfold messToChatFinish
  split_ifs <;> simp_all

theorem chatFinishToMess_eq_max (s : String) :
    chatFinishToMess s = "max_tokens" ↔ s = "length" := by
  unfold chatFinishToMess
  split_ifs with h
  · rcases h with rfl | rfl <;> decide
  all_goals simp_all

theorem str_finish_respToChat :
    str (headChoice (respToChatResponse r)) "finish_reason" = some (respFinishReason r) := by
  cases h : getObj r "usage" <;> simp [headChoice, respToChatResponse, h, arr, str]

theorem str_finish_messToChat :
    str (headChoice (messToChatResponse codec r)) "finish_reason" =
      some (messToChatFinishReason r) := by
  cases h : messUsageToChat r <;> simp [headChoice, messToChatResponse, h, arr, str]

theorem str_stop_messResponse (id model stop : String) (content : List Json) (usage : Json) :
    str (messResponse id model content stop usage) "stop_reason" = some stop := by
  simp [messResponse, str]

theorem not_truncated_respResponse (id model : String) (output : List Json) (usage : Json) :
    ¬respTruncated lastField (respResponse id model output usage) := by
  simp [respTruncated, statusOf, respResponse]

theorem kept_of_limitOnly {P : Prop} {field : Obj → String → Option Json}
    (h : P ↔ statusOf field r = some "incomplete") :
    (P ↔ respTruncated field r) ↔ LimitOnly field r := by
  rw [respTruncated]
  tauto

theorem object_kept_iff (dir : Direction) :
    (ObjectTruncated lastField (responseConverter codec dir r) dir.client ↔
      ObjectTruncated dir.field r dir.upstream) ↔ ObjectKept dir r := by
  cases dir with
  | chatToResp =>
    refine kept_of_limitOnly r ?_
    show str (headChoice (respToChatResponse r)) "finish_reason" = some "length" ↔
      statusOf firstField r = some "incomplete"
    rw [str_finish_respToChat, some_inj, respFinishReason_eq_length]
  | messToResp =>
    refine kept_of_limitOnly r ?_
    show str (respToMessResponse codec r) "stop_reason" = some "max_tokens" ↔
      statusOf lastField r = some "incomplete"
    rw [respToMessResponse, str_stop_messResponse, some_inj, respToMessStopReason_eq_max]
  | respToMess =>
    simp [Direction.client, ObjectTruncated, responseConverter, messToRespResponse,
      not_truncated_respResponse, ObjectKept]
  | chatToMess =>
    refine iff_of_true ?_ trivial
    show str (headChoice (messToChatResponse codec r)) "finish_reason" = some "length" ↔
      str r "stop_reason" = some "max_tokens"
    rw [str_finish_messToChat, some_inj, messToChatFinishReason, messToChatFinish_eq_length,
      getD_eq_iff (by decide)]
  | autoResponsesToChat =>
    simp [Direction.client, ObjectTruncated, responseConverter, chatToRespResponse,
      messToRespResponse, not_truncated_respResponse, ObjectKept]
  | autoMessagesToChat =>
    refine iff_of_true ?_ trivial
    show str (chatToMessResponse codec r) "stop_reason" = some "max_tokens" ↔
      str (headChoice r) "finish_reason" = some "length"
    rw [chatToMessResponse, str_stop_messResponse, some_inj, chatFinishToMess_eq_max,
      getD_eq_iff (by decide)]

end

/-! ### The stream mappers -/

/-- The finish reasons and the stop reasons that a client gets, in order. -/
def finishes (frames : List ChatFrame) : List String := frames.filterMap ChatFrame.finish

def stops (frames : List MessFrame) : List String := frames.filterMap MessFrame.stop

theorem clientTruncated_chat (frames : List ChatFrame) :
    ClientTruncated (.chat frames) ↔ "length" ∈ finishes frames := mem_filterMap.symm

theorem clientTruncated_mess (frames : List MessFrame) :
    ClientTruncated (.mess frames) ↔ "max_tokens" ∈ stops frames := mem_filterMap.symm

variable {t : SseEvent} {field : Obj → String → Option Json}

theorem responseOf_of_not_obj (hobj : ¬∃ ev, t.data = .json (.obj ev))
    (hnil : field [] "response" = none) : responseOf field t = none := by
  unfold responseOf Payload.object
  split
  next j hj =>
    unfold decodeObj
    split
    · simp [hnil]
    · exact absurd ⟨_, hj⟩ hobj
    · rfl
  · rfl

/-- The report of a mapper that reads the status of `response.completed` only. -/
theorem kept_of_lastKept {P : Prop} {field : Obj → String → Option Json} {pre : List SseEvent}
    {t : SseEvent} (h : P ↔ t.respName = .completed ∧
      ∃ r ∈ responseOf field t, statusOf field r = some "incomplete") :
    (P ↔ UpstreamTruncated field (pre ++ [t]) .resp) ↔
      ∀ last ∈ (pre ++ [t]).getLast?, LastKept field last := by
  rw [h]
  simp only [UpstreamTruncated, LastKept, respTruncated, getLast?_concat, Option.some.injEq,
    bind_some, forall_eq', mem_def]
  cases responseOf field t with
  | none => simp
  | some r =>
    simp only [Option.some.injEq, exists_eq_left', forall_eq']
    split <;> tauto

def MessEvent.isBlock : MessEvent → Bool
  | .blockStart .. | .blockDelta .. | .blockStop _ => true
  | _ => false

open MessEvent (isBlock)

def MessEvent.isStart : MessEvent → Bool
  | .messageStart .. => true
  | _ => false

namespace RespMapper

variable {β : Type} {ev : Obj} {m : RespMapper} {pre : List SseEvent} {name : RespEventName}

/-- Before `response.completed` a Chat client gets chunks with a delta only. -/
theorem readings_mapRespToChat {reading : ChatFrame → Option β}
    (hchunk : ∀ (m : RespMapper) delta, reading (m.chatChunk delta) = none)
    (hdone : reading .done = none) (herror : ∀ message, reading (.error message) = none)
    (m : RespMapper) (hname : name ≠ .completed) (data : Payload) :
    (m.mapRespToChat name data).2.filterMap reading = [] := by
  unfold mapRespToChat
  split
  · cases name <;> first | exact absurd rfl hname | dsimp only [respToChatFrames]
    all_goals
      repeat' split
      all_goals simp [hchunk, hdone, herror]
  · rfl

theorem finishes_completed (hm : m.done = false) :
    finishes (m.mapRespToChat .completed (.json (.obj ev))).2 =
      [respFinishReason ((getObj ev "response").getD [])] := by
  simp [mapRespToChat, respToChatFrames, hm, finishes, ChatFrame.finish, respFinishReason]

/-- What a Messages client gets before `response.completed`. -/
theorem mem_mapRespToMess (m : RespMapper) {name : RespEventName} (hname : name ≠ .completed)
    (data : Payload) : ∀ e ∈ (m.mapRespToMess name data).2,
      e.isBlock ∨ (∃ id model, e = .messageStart id model 0 none) ∨
        ∃ type message, e = .error type message := by
  have hstart (m : RespMapper) (index : Int) (block : ContentBlock) :
      ∀ e ∈ (m.startBlock index block).2, e.isBlock := by
    unfold startBlock
    split <;> simp [isBlock]
  have hstop (m : RespMapper) (index : Int) : ∀ e ∈ (m.stopBlock index).2, e.isBlock := by
    unfold stopBlock
    split <;> simp [isBlock]
  have hwrite (m : RespMapper) (index : Int) (block : ContentBlock) (delta : BlockDelta) :
      ∀ e ∈ (m.writeBlock index block delta).2, e.isBlock := by
    intro e he
    rcases mem_append.mp he with he | he
    · exact hstart m index block e he
    · rw [mem_singleton.mp he]
      rfl
  unfold mapRespToMess
  split
  · cases name <;> first | exact absurd rfl hname | dsimp only [respToMessEvents]
    all_goals
      repeat' split
      all_goals first
        | exact fun e he => .inl (hwrite _ _ _ _ e he)
        | exact fun e he => .inl (hstart _ _ _ e he)
        | exact fun e he => .inl (hstop _ _ e he)
        | simp [isBlock]
  · simp

/-- A reading that `message_delta` alone answers. -/
theorem readings_mapRespToMess {β : Type} {reading : MessFrame → Option β}
    (hreading : ∀ e : MessEvent, (∀ reason n, e ≠ .messageDelta reason n) →
      reading (.event e) = none)
    (m : RespMapper) {name : RespEventName} (hname : name ≠ .completed) (data : Payload) :
    ((m.mapRespToMess name data).2.map .event).filterMap reading = [] := by
  refine filterMap_eq_nil_iff.mpr fun f hf => ?_
  obtain ⟨e, he, rfl⟩ := mem_map.mp hf
  refine hreading e fun reason n heq => ?_
  subst heq
  simpa [isBlock] using mem_mapRespToMess m hname data _ he

theorem stops_completed (hm : m.done = false) {data : Payload} (hev : data.object = some ev) :
    stops ((m.mapRespToMess .completed data).2.map .event) =
      [((objField ev "response").map respToMessStopReason).getD ""] := by
  simp [mapRespToMess, hev, respToMessEvents, hm, stops, MessFrame.stop]

/-- Only the last event of a response brings a reason, and it meets an open mapper. -/
theorem reasons_mapAll {F β : Type} {map : RespMapper → SseEvent → RespMapper × List F}
    {reason : F → Option β}
    (hdone : ∀ m (e : SseEvent), e.eventName ≠ "" → ¬e.respName.isTerminal →
      (map m e).1.done = m.done)
    (hnone : ∀ m (e : SseEvent), e.eventName ≠ "" → e.respName ≠ .completed →
      (map m e).2.filterMap reason = [])
    {pre : List SseEvent} (hpre : ∀ e ∈ pre, e.eventName ≠ "" ∧ ¬e.respName.isTerminal)
    (t : SseEvent) :
    ∃ m : RespMapper, m.done = false ∧
      (mapAll map {} (pre ++ [t])).filterMap reason = (map m t).2.filterMap reason := by
  have hstep : ∀ m (e : SseEvent), e.eventName ≠ "" → ¬e.respName.isTerminal →
      (map m e).1.done = m.done ∧ ∀ f ∈ (map m e).2, ¬(reason f).isSome := by
    intro m e hname hnot
    have hcompleted : e.respName ≠ .completed := by
      intro h
      rw [h] at hnot
      exact hnot rfl
    refine ⟨hdone m e hname hnot, fun f hf => ?_⟩
    simpa using filterMap_eq_nil_iff.mp (hnone m e hname hcompleted) f hf
  obtain ⟨m, init, hm, hframes, hinit⟩ := mapAll_concat hstep hpre t
  refine ⟨m, hm, ?_⟩
  have hnil : init.filterMap reason = [] :=
    filterMap_eq_nil_iff.mpr fun f hf => by simpa using hinit f hf
  rw [hframes, filterMap_append, hnil, nil_append]

/-- A Chat client learns of truncation exactly from `response.completed` with an incomplete
response. -/
theorem length_mem_finishes_iff (hpre : ∀ e ∈ pre, e.eventName ≠ "" ∧ ¬e.respName.isTerminal)
    (ht : t.respName.isTerminal) :
    "length" ∈ finishes (mapAll mapChat {} (pre ++ [t])) ↔ t.respName = .completed ∧
      ∃ r ∈ responseOf firstField t, statusOf firstField r = some "incomplete" := by
  have hnone : ∀ m (e : SseEvent), e.eventName ≠ "" → e.respName ≠ .completed →
      (mapChat m e).2.filterMap ChatFrame.finish = [] := by
    intro m e hname hne
    rw [mapChat_eq m hname]
    exact readings_mapRespToChat (fun _ _ => rfl) rfl (fun _ => rfl) m hne e.data
  obtain ⟨m, hm, hfinishes⟩ := reasons_mapAll
    (fun m e hname hnot => (mapChat_of_not_terminal m e hname hnot).1) hnone hpre t
  rw [finishes, hfinishes]
  by_cases hname : t.respName = .completed
  · rw [mapChat_eq m (eventName_ne_of_terminal ht), hname]
    by_cases hobj : ∃ ev, t.data = .json (.obj ev)
    · obtain ⟨ev, hev⟩ := hobj
      have hresp : responseOf firstField t = getObj ev "response" := by
        simp [responseOf, hev, Payload.object, decodeObj, getObj, getField]
      rw [hev, ← finishes, finishes_completed hm, mem_singleton, eq_comm,
        respFinishReason_eq_length, hresp]
      cases getObj ev "response" <;> simp [statusOf, firstField]
    · have hresp : responseOf firstField t = none := responseOf_of_not_obj hobj rfl
      unfold mapRespToChat
      split
      next ev hev =>
        exact absurd ⟨ev, hev⟩ hobj
      · simp [hresp]
  · simp [hnone m t (eventName_ne_of_terminal ht) hname, hname]

theorem max_mem_stops_iff (hpre : ∀ e ∈ pre, e.eventName ≠ "" ∧ ¬e.respName.isTerminal)
    (ht : t.respName.isTerminal) :
    "max_tokens" ∈ stops (mapAll mapMess {} (pre ++ [t])) ↔ t.respName = .completed ∧
      ∃ r ∈ responseOf lastField t, statusOf lastField r = some "incomplete" := by
  have hnone : ∀ m (e : SseEvent), e.eventName ≠ "" → e.respName ≠ .completed →
      (mapMess m e).2.filterMap MessFrame.stop = [] := by
    intro m e hname hne
    rw [mapMess_eq m hname]
    refine readings_mapRespToMess (fun e he => ?_) m hne e.data
    cases e <;> first | rfl | exact absurd rfl (he _ _)
  obtain ⟨m, hm, hstops⟩ := reasons_mapAll
    (fun m e hname hnot => (mapMess_of_not_terminal m e hname hnot).1) hnone hpre t
  rw [stops, hstops]
  by_cases hname : t.respName = .completed
  · rw [mapMess_eq m (eventName_ne_of_terminal ht), hname]
    cases hobj : t.data.object with
    | none => simp [mapRespToMess, hobj, responseOf]
    | some ev =>
      have hresp : responseOf lastField t = objField ev "response" := by
        simp [responseOf, hobj, objField]
      rw [← stops, stops_completed hm hobj, hresp]
      cases objField ev "response" with
      | none => simp
      | some r => simpa [eq_comm] using respToMessStopReason_eq_max r
  · simp [hnone m t (eventName_ne_of_terminal ht) hname, hname]

end RespMapper

namespace MessMapper

variable (m : MessMapper) (e : SseEvent) (events : List SseEvent)

@[simp] theorem done_noteStart (ev : Obj) : (m.noteStart ev).done = m.done := by
  unfold noteStart
  repeat' split
  all_goals rfl

/-- Only the first `message_delta` finishes the stream of a Chat client. -/
theorem finishes_mapChat :
    (m.mapChat e).1.done = (m.done || isMessageDelta e) ∧
      finishes (m.mapChat e).2 = if isMessageDelta e && !m.done then
        [messToChatFinish ((messStopReason e).getD "")] else [] := by
  unfold mapChat mapFrame
  split
  next hname =>
    have hnot : isMessageDelta e = false := by simp [isMessageDelta, hname, MessEventName.ofString]
    split <;> simp [hnot, finishes, ChatFrame.finish]
  · unfold mapMessToChat
    cases hobj : e.data.object with
    | none => simp [isMessageDelta, hobj, finishes]
    | some ev =>
      by_cases hname : MessEventName.ofString e.eventName = .messageDelta
      · cases hdone : m.done <;>
          simp [messToChatFrames, isMessageDelta, messStopReason, hname, hobj, hdone, finishes,
            ChatFrame.finish]
      · have hnot : isMessageDelta e = false := by simp [isMessageDelta, hname]
        simp only [hnot, Bool.false_and, Bool.false_eq_true, if_false]
        cases hname' : MessEventName.ofString e.eventName <;>
          first | exact absurd hname' hname | dsimp only [messToChatFrames]
        all_goals
          repeat' split
          all_goals simp [finishes, chatFrame, ChatFrame.finish]

theorem finishes_runMapper :
    finishes (runMapper mapChat m events) = if m.done then [] else
      (events.find? isMessageDelta).toList.map fun e =>
        messToChatFinish ((messStopReason e).getD "") := by
  induction events generalizing m with
  | nil => simp [runMapper, outputs, finishes]
  | cons e events ih =>
    obtain ⟨hdone, hfinishes⟩ := finishes_mapChat m e
    have hcons : runMapper mapChat m (e :: events) =
        (m.mapChat e).2 ++ runMapper mapChat (m.mapChat e).1 events := rfl
    rw [hcons, finishes, filterMap_append, ← finishes, ← finishes, hfinishes, ih, hdone]
    cases m.done <;> cases hdelta : isMessageDelta e <;> simp [hdelta]

theorem length_mem_finishes_iff :
    "length" ∈ finishes (runMapper mapChat {} events) ↔
      (events.find? isMessageDelta).bind messStopReason = some "max_tokens" := by
  rw [finishes_runMapper]
  cases events.find? isMessageDelta with
  | none => simp
  | some e =>
    simp only [Bool.false_eq_true, if_false, toList_some, map_cons, map_nil, mem_singleton,
      bind_some]
    rw [eq_comm, messToChatFinish_eq_length, getD_eq_iff (by decide)]

/-- A Responses client is told that every response is complete. -/
theorem not_truncated_mapResp :
    ∀ f ∈ (m.mapResp e).2, ∀ r, f = .completed r → ¬respTruncated lastField r := by
  unfold mapResp mapFrame
  split
  · split <;> simp
  · unfold mapMessToResp
    split
    · cases MessEventName.ofString e.eventName <;>
        dsimp only [messToRespFrames, openBlock, writeBlock]
      all_goals
        repeat' split
        all_goals simp [not_truncated_respResponse]
    · simp

end MessMapper

namespace ChatMapper

/-- The reason, the flag and the counters that the mapper has noted. -/
def meter (m : ChatMapper) : String × Bool × Int × Int × Int :=
  (m.reason, m.done, m.it, m.cached, m.ot)

/-- The mapper goes on to collect; the client is told of blocks, and of the message if it was not
before. -/
structure Quiet (m : ChatMapper) (r : ChatMapper × List MessEvent) : Prop where
  meter : r.1.meter = m.meter
  started : m.started → r.1.started
  events : ∀ e ∈ r.2, e.isBlock ∨ m.started = false ∧ e.isStart

theorem stops_append (es es' : List MessEvent) :
    Protoconv.stops ((es ++ es').map .event) =
      Protoconv.stops (es.map .event) ++ Protoconv.stops (es'.map .event) := by
  rw [map_append, Protoconv.stops, filterMap_append]
  rfl

namespace Quiet

variable {m m' : ChatMapper} {r r' : ChatMapper × List MessEvent}

theorem reason (h : Quiet m r) : r.1.reason = m.reason := congrArg Prod.fst h.meter

theorem done (h : Quiet m r) : r.1.done = m.done := congrArg (·.2.1) h.meter

theorem stops (h : Quiet m r) : stops (r.2.map .event) = [] := by
  refine filterMap_eq_nil_iff.mpr fun f hf => ?_
  obtain ⟨e, he, rfl⟩ := mem_map.mp hf
  rcases h.events e he with hblock | ⟨-, hstart⟩
  · cases e <;> first | rfl | exact absurd hblock Bool.false_ne_true
  · cases e <;> first | rfl | exact absurd hstart Bool.false_ne_true

theorem nil (m : ChatMapper) : Quiet m (m, []) := ⟨rfl, fun hm => hm, by simp⟩

theorem append (h : Quiet m r) (h' : Quiet r.1 r') : Quiet m (r'.1, r.2 ++ r'.2) where
  meter := h'.meter.trans h.meter
  started hm := h'.started (h.started hm)
  events e he := by
    rcases mem_append.mp he with he | he
    · exact h.events e he
    · refine (h'.events e he).imp_right fun ⟨hnot, hstart⟩ => ⟨?_, hstart⟩
      exact Bool.eq_false_iff.mpr fun hm => Bool.eq_false_iff.mp hnot (h.started hm)

/-- The blocks may change before. -/
theorem of_eq (h : Quiet m' r) (hsame : m'.meter = m.meter ∧ m'.started = m.started) :
    Quiet m r where
  meter := h.meter.trans hsame.1
  started hm := h.started (hsame.2.trans hm)
  events := hsame.2 ▸ h.events

end Quiet

variable {pre : List SseEvent} (m : ChatMapper) (index : Int) (indexes : List Int)

theorem quiet_write (block : ContentBlock) (delta : BlockDelta) :
    Quiet m (m.write index block delta) := by
  unfold write
  split <;> exact ⟨rfl, fun hm => hm, by simp [isBlock]⟩

theorem quiet_startChatToolBlock : Quiet m (m.startChatToolBlock index) := by
  unfold startChatToolBlock
  split
  · exact .nil m
  · refine ⟨rfl, fun hm => hm, ?_⟩
    by_cases harguments : m.argsByIndex index = "" <;> simp [isBlock]

theorem quiet_toolCall (call : Obj) : Quiet m (m.toolCall call) := by
  have hblock : (m.chatToolBlock (intOr0 call "index")).1.meter = m.meter ∧
      (m.chatToolBlock (intOr0 call "index")).1.started = m.started := by
    unfold chatToolBlock
    split <;> exact ⟨rfl, rfl⟩
  unfold toolCall
  dsimp only
  split
  · split <;> exact ⟨hblock.1, hblock.2.trans, by simp [isBlock]⟩
  · split
    · exact (quiet_startChatToolBlock _ _).of_eq hblock
    · exact ⟨hblock.1, hblock.2.trans, by simp⟩

theorem quiet_piece (p : ChatPiece) : Quiet m (m.piece p) := by
  cases p with
  | reasoning text =>
    refine (quiet_write m.chatReasoningBlock.1 _ _ _).of_eq ?_
    unfold chatReasoningBlock
    split <;> exact ⟨rfl, rfl⟩
  | content text =>
    refine (quiet_write m.chatTextBlock.1 _ _ _).of_eq ?_
    unfold chatTextBlock
    split <;> exact ⟨rfl, rfl⟩
  | toolCall call => exact quiet_toolCall m call

theorem quiet_pieces (pieces : List ChatPiece) :
    Quiet m (pieces.foldl nextPiece m, m.pieceEvents pieces) := by
  induction pieces generalizing m with
  | nil => exact .nil m
  | cons p pieces ih => exact (quiet_piece m p).append (ih (m.nextPiece p))

theorem quiet_startMessage (cacheRead : Option Int) : Quiet m (m.startMessage cacheRead) := by
  unfold startMessage
  split
  · exact .nil m
  next hstarted =>
    exact ⟨rfl, fun _ => rfl, by simp [MessEvent.isStart, hstarted]⟩

theorem quiet_startAll : Quiet m (m.startAll indexes) := by
  induction indexes generalizing m with
  | nil => exact .nil m
  | cons index indexes ih =>
    dsimp only [startAll]
    split
    · exact (quiet_startChatToolBlock m index).append (ih _)
    · exact (Quiet.nil m).append (ih _)

theorem quiet_stopAll : Quiet m (m.stopAll indexes) := by
  induction indexes generalizing m with
  | nil => exact .nil m
  | cons index indexes ih =>
    dsimp only [stopAll]
    split
    · have hstop : Quiet m ({ m with blockStopped := index :: m.blockStopped },
          [MessEvent.blockStop index]) := ⟨rfl, fun hm => hm, by simp [isBlock]⟩
      exact hstop.append (ih _)
    · exact ih m

theorem noteChunk_reason (event : Obj) :
    (m.noteChunk event).reason = m.reason ∧ (m.noteChunk event).done = m.done := by
  unfold noteChunk captureChatUsage
  split <;> exact ⟨rfl, rfl⟩

/-- A chunk with a finish reason is the one place where the mapper notes it. -/
theorem reason_chunk {event : Obj} (herror : objField event "error" = none) :
    (m.chunk event).1.reason =
        ((((firstChoice event).bind (str · "finish_reason")).filter (· ≠ "")).map
          chatFinishToMess).getD m.reason ∧
      (m.chunk event).1.done = m.done ∧ stops ((m.chunk event).2.map .event) = [] := by
  obtain ⟨hnote, hdone⟩ := noteChunk_reason m event
  have hstart := quiet_startMessage (m.noteChunk event) (some (m.noteChunk event).cached)
  unfold chunk
  simp only [herror]
  cases hchoice : firstChoice event with
  | none => simpa using ⟨hstart.reason.trans hnote, hstart.done.trans hdone, hstart.stops⟩
  | some choice =>
    have hreason : ∀ m' : ChatMapper, m'.reason = m.reason →
        (if (str choice "finish_reason").getD "" = "" then m'.reason
          else chatFinishToMess ((str choice "finish_reason").getD "")) =
        ((((some choice).bind (str · "finish_reason")).filter (· ≠ "")).map
          chatFinishToMess).getD m.reason := by
      intro m' hm'
      cases hfinish : str choice "finish_reason" with
      | none => simp [hfinish, hm']
      | some s => by_cases hs : s = "" <;> simp [hfinish, hs, hm', filter_some]
    cases hdelta : objField choice "delta" with
    | none =>
      simp only [hdelta, append_nil]
      exact ⟨hreason _ (hstart.reason.trans hnote), hstart.done.trans hdone, hstart.stops⟩
    | some delta =>
      have hpieces := hstart.append (quiet_pieces _ (chatPieces delta))
      simp only [hdelta]
      exact ⟨hreason _ (hpieces.reason.trans hnote), hpieces.done.trans hdone, hpieces.stops⟩

/-- The last finish reason of the chunks is what the mapper has noted. -/
theorem reason_chunks {pre : List SseEvent} (hpre : ∀ e ∈ pre,
      ¬isDone e.data ∧ ∀ ev ∈ e.data.object, objField ev "error" = none)
    {m : ChatMapper} (hm : m.done = false) :
    (pre.foldl (fun m e => (m.chatToMessEvents e.data).1) m).reason =
        (((pre.filterMap chatFinish).getLast?).map chatFinishToMess).getD m.reason ∧
      (pre.foldl (fun m e => (m.chatToMessEvents e.data).1) m).done = false ∧
      stops ((runMapper (fun m e => chatToMessEvents m e.data) m pre).map .event) = [] := by
  induction pre generalizing m with
  | nil => exact ⟨rfl, hm, rfl⟩
  | cons e pre ih =>
    obtain ⟨hdone, herror⟩ := hpre e (mem_cons_self ..)
    have hstep : (m.chatToMessEvents e.data).1.reason =
          ((chatFinish e).map chatFinishToMess).getD m.reason ∧
        (m.chatToMessEvents e.data).1.done = false ∧
        stops ((m.chatToMessEvents e.data).2.map .event) = [] := by
      unfold chatToMessEvents chatFinish
      cases hobj : e.data.object with
      | none => simp [hm, hdone, Protoconv.stops]
      | some ev =>
        obtain ⟨hreason, hdone', hstops⟩ := reason_chunk m (herror ev hobj)
        simp only [hm, hdone]
        exact ⟨hreason, hdone'.trans hm, hstops⟩
    obtain ⟨hreason, hdone', hstops⟩ :=
      ih (fun e he => hpre e (mem_cons_of_mem _ he)) hstep.2.1
    refine ⟨?_, hdone', ?_⟩
    · rw [foldl_cons, hreason, hstep.1]
      cases hfinish : chatFinish e with
      | none => simp [hfinish]
      | some s =>
        rw [filterMap_cons, hfinish, getLast?_cons]
        cases (pre.filterMap chatFinish).getLast? <;> rfl
    · show stops (((m.chatToMessEvents e.data).2 ++ _).map .event) = []
      rw [stops_append, hstep.2.2]
      exact hstops

/-- The end of the stream: the rest of the blocks, then what the mapper has noted. -/
theorem finishChatStream_eq :
    ∃ r, Quiet { m with done := true } r ∧ m.finishChatStream = (r.1, r.2 ++
      [.messageDelta (if m.reason = "" then "end_turn" else m.reason) m.ot, .messageStop]) := by
  have hstart := quiet_startMessage { m with done := true } none
  have hstarts := hstart.append
    (quiet_startAll _ ({ m with done := true }.startMessage none).1.blockOrder)
  have hquiet := hstarts.append (quiet_stopAll _ (({ m with done := true }.startMessage
    none).1.startAll ({ m with done := true }.startMessage none).1.blockOrder).1.blockOrder)
  have hmeter := hquiet.meter
  simp only [meter, Prod.mk.injEq] at hmeter
  obtain ⟨hreason, -, -, -, hot⟩ := hmeter
  refine ⟨_, hquiet, ?_⟩
  unfold finishChatStream
  dsimp only
  rw [hreason, hot]

/-- At the end the client is told the noted reason. -/
theorem stops_finishChatStream :
    stops (m.finishChatStream.2.map .event) = [if m.reason = "" then "end_turn" else m.reason] := by
  obtain ⟨r, hquiet, hfinish⟩ := m.finishChatStream_eq
  rw [hfinish, stops_append, hquiet.stops]
  rfl

theorem max_mem_stops_iff (ht : isDone t.data)
    (hpre : ∀ e ∈ pre, ¬isDone e.data ∧ ∀ ev ∈ e.data.object, objField ev "error" = none) :
    "max_tokens" ∈
        stops ((runMapper (fun m e => chatToMessEvents m e.data) {} (pre ++ [t])).map .event) ↔
      ((pre ++ [t]).filterMap chatFinish).getLast? = some "length" := by
  obtain ⟨hreason, hdone, hstops⟩ := reason_chunks hpre (m := {}) rfl
  have hlast : chatFinish t = none := by
    unfold chatFinish Payload.object
    unfold isDone at ht
    split at ht
    next h =>
      simp [h]
    · simp at ht
  have hsplit : runMapper (fun m e => chatToMessEvents m e.data) {} (pre ++ [t]) =
      runMapper (fun m e => chatToMessEvents m e.data) {} pre ++ (chatToMessEvents
        (pre.foldl (fun m e => (m.chatToMessEvents e.data).1) {}) t.data).2 := by
    simp [runMapper, outputs_append, outputs]
  rw [hsplit, stops_append, hstops, chatToMessEvents, hdone, ht]
  rw [filterMap_append, filterMap_cons, hlast, filterMap_nil, append_nil]
  simp only [Bool.false_eq_true, if_false, if_true]
  rw [stops_finishChatStream, hreason]
  cases (pre.filterMap chatFinish).getLast? with
  | none => simp
  | some s =>
    have hne : chatFinishToMess s ≠ "" := by
      unfold chatFinishToMess
      split_ifs <;> decide
    simpa [hne, eq_comm] using chatFinishToMess_eq_max s

end ChatMapper

theorem not_clientTruncated_resp {frames : List RespFrame}
    (h : ∀ f ∈ frames, ∀ r, f = .completed r → ¬respTruncated lastField r) :
    ¬ClientTruncated (.resp frames) := by
  rintro ⟨r, hr, htruncated⟩
  exact h _ hr r rfl htruncated

theorem not_truncated_mapChatToResp (m : ChatRespMapper) (data : Payload) :
    ∀ f ∈ (mapChatToResp m data).2, ∀ r, f = .completed r → ¬respTruncated lastField r := by
  unfold mapChatToResp
  dsimp only
  split
  · simp
  · exact forall_mem_outputs (fun inner e => inner.not_truncated_mapResp e.sse) _ _

theorem stream_kept_iff (dir : Direction) {events : List SseEvent}
    (hwhole : WholeStream events dir.upstream) :
    (ClientTruncated (convertStream dir events) ↔
      UpstreamTruncated dir.field events dir.upstream) ↔ StreamKept dir events := by
  cases dir with
  | chatToResp =>
    obtain ⟨pre, t, rfl, ht, hpre⟩ := hwhole
    refine kept_of_lastKept ?_
    exact (clientTruncated_chat _).trans (RespMapper.length_mem_finishes_iff hpre ht)
  | messToResp =>
    obtain ⟨pre, t, rfl, ht, hpre⟩ := hwhole
    refine kept_of_lastKept ?_
    exact (clientTruncated_mess _).trans (RespMapper.max_mem_stops_iff hpre ht)
  | respToMess =>
    have hnot : ¬ClientTruncated (convertStream .respToMess events) :=
      not_clientTruncated_resp (forall_mem_outputs MessMapper.not_truncated_mapResp _ _)
    simp [hnot, StreamKept]
  | chatToMess =>
    have hclient : ClientTruncated (convertStream .chatToMess events) ↔
        (events.find? isMessageDelta).bind messStopReason = some "max_tokens" :=
      (clientTruncated_chat _).trans (MessMapper.length_mem_finishes_iff events)
    rw [hclient]
    rfl
  | autoResponsesToChat =>
    have hnot : ¬ClientTruncated (convertStream .autoResponsesToChat events) :=
      not_clientTruncated_resp (forall_mem_outputs
        (fun m (e : SseEvent) => not_truncated_mapChatToResp m e.data) _ _)
    simp [hnot, StreamKept]
  | autoMessagesToChat =>
    obtain ⟨pre, t, rfl, ht, hpre⟩ := hwhole
    refine iff_of_true ?_ trivial
    exact (clientTruncated_mess _).trans (ChatMapper.max_mem_stops_iff ht hpre)

/-- A client is told of truncation exactly where the upstream reports it: to Chat and to Messages
if `incomplete` is for the output limit and a stream ends with `response.completed`, to Responses
only for a response that is not cut off. -/
theorem truncation_kept_iff (codec : Codec) (dir : Direction) :
    (∀ r, (ObjectTruncated lastField (responseConverter codec dir r) dir.client ↔
        ObjectTruncated dir.field r dir.upstream) ↔ ObjectKept dir r) ∧
      ∀ events, WholeStream events dir.upstream →
        ((ClientTruncated (convertStream dir events) ↔
          UpstreamTruncated dir.field events dir.upstream) ↔ StreamKept dir events) :=
  ⟨fun r => object_kept_iff codec r dir, fun _ hwhole => stream_kept_iff dir hwhole⟩

/-- `response.completed` with an incomplete response. -/
def cutEvent (reason : String) : SseEvent where
  name := "response.completed"
  data := .json (.obj [("response", .obj [("status", .str "incomplete"),
    ("incomplete_details", .obj [("reason", .str reason)])])])

theorem truncation_kept_cut :
    ClientTruncated (convertStream .chatToResp
      [createdEvent, textDeltaEvent "Hi", cutEvent "max_output_tokens"]) := by
  have hwhole : WholeStream [createdEvent, textDeltaEvent "Hi",
      cutEvent "max_output_tokens"] Direction.chatToResp.upstream :=
    ⟨[createdEvent, textDeltaEvent "Hi"], cutEvent "max_output_tokens", rfl, by decide, by decide⟩
  have hkept : StreamKept .chatToResp [createdEvent, textDeltaEvent "Hi",
      cutEvent "max_output_tokens"] := by
    intro t ht r hr
    obtain rfl := some_inj.mp ht
    obtain rfl := some_inj.mp hr
    exact fun _ => by decide
  have hiff := (truncation_kept_iff ⟨fun _ => none, fun _ => "", id, fun _ => none⟩ .chatToResp).2
  exact ((hiff _ hwhole).mpr hkept).mpr ⟨_, rfl, by decide, by decide⟩

def messageDeltaEvent (reason : String) : SseEvent where
  name := "message_delta"
  data := .json (.obj [("delta", .obj [("stop_reason", .str reason)])])

def messageStopEvent : SseEvent where
  name := "message_stop"
  data := .json (.obj [("type", .str "message_stop")])

/-- A message that is cut off comes to a Responses client as complete, as an object and as a stream;
a Chat client does not learn of `response.incomplete`, and is told of the limit where a filter
stopped the response. -/
theorem truncation_lost :
    (UpstreamTruncated lastField [messageDeltaEvent "max_tokens", messageStopEvent] .mess ∧
      ¬ClientTruncated
        (convertStream .respToMess [messageDeltaEvent "max_tokens", messageStopEvent])) ∧
    (∀ codec, ¬ObjectTruncated lastField (responseConverter codec .respToMess
      [("stop_reason", .str "max_tokens")]) .resp) ∧
    (UpstreamTruncated firstField [createdEvent, RespMapper.incompleteEvent] .resp ∧
      ¬ClientTruncated (convertStream .chatToResp [createdEvent, RespMapper.incompleteEvent])) ∧
    ¬UpstreamTruncated firstField [createdEvent, cutEvent "content_filter"] .resp ∧
      ClientTruncated (convertStream .chatToResp [createdEvent, cutEvent "content_filter"]) := by
  refine ⟨⟨rfl, ?_⟩, fun codec => ?_, ⟨⟨_, rfl, by decide, by decide⟩, ?_⟩, ?_, ?_⟩
  · exact not_clientTruncated_resp
      (forall_mem_outputs MessMapper.not_truncated_mapResp _ _)
  · exact not_truncated_respResponse _ _ _ _
  · exact fun h => absurd ((clientTruncated_chat _).mp h) (by decide)
  · rintro ⟨r, hr, -, hreason⟩
    obtain rfl := some_inj.mp hr
    exact absurd hreason (by decide)
  · exact (clientTruncated_chat _).mpr (by decide)

end C4Gateway.Protoconv
