import C4Gateway.Protoconv.Response

/-! The stream mappers with a Messages upstream, `mapMessToChat` and `mapMessToResp`, and the mapper
from a Chat upstream to a Responses client, which goes through Messages events. -/

namespace C4Gateway.Protoconv

open Function (update)

/-- The events of the Messages protocol that the mappers tell apart. -/
inductive MessEventName where
  | messageStart
  | blockStart
  | blockDelta
  | blockStop
  | messageDelta
  | messageStop
  | error
  | other
  deriving DecidableEq, Repr

def MessEventName.ofString (s : String) : MessEventName :=
  if s = "message_start" then .messageStart
  else if s = "content_block_start" then .blockStart
  else if s = "content_block_delta" then .blockDelta
  else if s = "content_block_stop" then .blockStop
  else if s = "message_delta" then .messageDelta
  else if s = "message_stop" then .messageStop
  else if s = "error" then .error
  else .other

/-- An output item as it is announced, still empty. -/
inductive RespItem where
  | reasoning (id : String)
  | message (id : String)
  | functionCall (id callID name : String)
  deriving DecidableEq, Repr

/-- An event of a responses stream as the converter writes it. -/
inductive RespFrame where
  | created (id model : String)
  | itemAdded (index : Int) (item : RespItem)
  | reasoningDelta (itemID : String) (index : Int) (delta : String)
  | reasoningDone (itemID : String) (index : Int) (text : String)
  | textDelta (itemID : String) (index : Int) (delta : String)
  | argumentsDelta (itemID : String) (index : Int) (delta : String)
  | completed (response : Obj)
  | error (code message : String)
  | raw (data : Payload)

/-- The state of the mappers for a Messages upstream. -/
structure MessMapper where
  started : Bool := false
  done : Bool := false
  id : String := ""
  model : String := ""
  it : Int := 0
  ot : Int := 0
  cached : Int := 0
  reason : String := ""
  blockStarted : List Int := []
  blockStopped : List Int := []
  blockOrder : List Int := []
  textByIndex : Int → String := fun _ => ""
  argsByIndex : Int → String := fun _ => ""
  fcNames : Int → Option String := fun _ => none
  fcIDs : Int → String := fun _ => ""
  reasoningByIndex : Int → Option String := fun _ => none

namespace MessMapper

def noteStart (m : MessMapper) (ev : Obj) : MessMapper :=
  match objField ev "message" with
  | none => { m with started := true }
  | some msg =>
    let m := { m with
      started := true
      id := (str msg "id").getD ""
      model := (str msg "model").getD "" }
    match objField msg "usage" with
    | none => m
    | some u =>
      { m with it := intOr0 u "input_tokens", cached := intOr0 u "cache_read_input_tokens" }

/-! ### To Chat -/

def chatFrame (m : MessMapper) (delta : ChatDelta) : ChatFrame :=
  .chunk { id := m.id, model := m.model, created := 0, delta }

/-- One Messages event for a Chat client. -/
def messToChatFrames (m : MessMapper) (name : MessEventName) (ev : Obj) :
    MessMapper × List ChatFrame :=
  match name with
  | .messageStart =>
    if m.started then (m, [])
    else
      let m := m.noteStart ev
      (m, [m.chatFrame .role])
  | .blockStart =>
    match objField ev "content_block" with
    | none => (m, [])
    | some block =>
      if str block "type" = some "thinking" then
        let text := (str block "thinking").getD ""
        (m, if text = "" then [] else [m.chatFrame (.reasoningContent text)])
      else if str block "type" = some "tool_use" then
        (m, [m.chatFrame (.toolCall (intOr0 ev "index") ((str block "id").getD "")
          ((str block "name").getD ""))])
      else (m, [])
  | .blockDelta =>
    match objField ev "delta" with
    | none => (m, [])
    | some delta =>
      if str delta "type" = some "thinking_delta" then
        (m, [m.chatFrame (.reasoningContent ((str delta "thinking").getD ""))])
      else if str delta "type" = some "text_delta" then
        (m, [m.chatFrame (.content ((str delta "text").getD ""))])
      else if str delta "type" = some "input_json_delta" then
        (m, [m.chatFrame (.toolArguments (intOr0 ev "index")
          ((str delta "partial_json").getD ""))])
      else (m, [])
  | .messageDelta =>
    if m.done then (m, [])
    else
      let reason := messToChatFinish
        (((objField ev "delta").bind (str · "stop_reason")).getD "")
      let ot := intOr0 ((objField ev "usage").getD []) "output_tokens"
      let m : MessMapper := { m with done := true, ot }
      let usage : ChatUsage :=
        { completionTokens := ot
          promptTokens := m.it
          cachedTokens := if 0 < m.cached then some m.cached else none
          totalTokens := sumTokens m.it ot }
      let chunk : ChatChunk :=
        { id := m.id
          model := m.model
          created := 0
          delta := .none
          finishReason := some reason
          usage := some usage }
      (m, [.chunk chunk, .done])
  | .error =>
    match objField ev "error" with
    | some e => (m, [.error ((str e "message").getD "")])
    | none => (m, [])
  | .blockStop | .messageStop | .other => (m, [])

def mapMessToChat (m : MessMapper) (name : MessEventName) (data : Payload) :
    MessMapper × List ChatFrame :=
  match data.object with
  | some ev => m.messToChatFrames name ev
  | none => (m, [])

/-! ### To Responses -/

def itemID (m : MessMapper) (index : Int) : String := "msg_" ++ m.id ++ "_" ++ toString index

/-- A block that has not been seen is noted; the rest of the event is then dealt with. -/
def openBlock (m : MessMapper) (index : Int) (block : Obj) : MessMapper × List RespFrame :=
  let m' := { m with
    blockStarted := index :: m.blockStarted
    blockOrder := m.blockOrder ++ [index] }
  if str block "type" = some "thinking" then
    let thinking := (str block "thinking").getD ""
    ({ m' with reasoningByIndex := update m.reasoningByIndex index (some thinking) },
      .itemAdded index (.reasoning (m.itemID index)) ::
        if thinking = "" then [] else [.reasoningDelta (m.itemID index) index thinking])
  else if str block "type" = some "text" then
    (m', [.itemAdded index (.message (m.itemID index))])
  else if str block "type" = some "tool_use" then
    let id := (str block "id").getD ""
    let name := (str block "name").getD ""
    ({ m' with
        fcIDs := update m.fcIDs index id
        fcNames := update m.fcNames index (some name) },
      [.itemAdded index (.functionCall ("fc_" ++ id) id name)])
  else (m, [])

def writeBlock (m : MessMapper) (index : Int) (delta : Obj) : MessMapper × List RespFrame :=
  if str delta "type" = some "thinking_delta" then
    let thinking := (str delta "thinking").getD ""
    let text := (m.reasoningByIndex index).getD "" ++ thinking
    ({ m with reasoningByIndex := update m.reasoningByIndex index (some text) },
      [.reasoningDelta (m.itemID index) index thinking])
  else if str delta "type" = some "text_delta" then
    let text := (str delta "text").getD ""
    ({ m with textByIndex := update m.textByIndex index (m.textByIndex index ++ text) },
      [.textDelta (m.itemID index) index text])
  else if str delta "type" = some "input_json_delta" then
    let partialJSON := (str delta "partial_json").getD ""
    ({ m with
        argsByIndex := update m.argsByIndex index (m.argsByIndex index ++ partialJSON) },
      [.argumentsDelta ("fc_" ++ m.fcIDs index) index partialJSON])
  else (m, [])

def messOutputItem (m : MessMapper) (index : Int) : Json :=
  match m.reasoningByIndex index with
  | some text => respReasoning (m.itemID index) text
  | none =>
    match m.fcNames index with
    | some name =>
      respFunctionCall ("fc_" ++ m.fcIDs index) (m.fcIDs index) name (m.argsByIndex index)
    | none => respOutputMessage (m.itemID index) [outputText (m.textByIndex index)]

def messOutputItems (m : MessMapper) : List Json := m.blockOrder.map m.messOutputItem

/-- One Messages event for a Responses client. -/
def messToRespFrames (m : MessMapper) (name : MessEventName) (ev : Obj) :
    MessMapper × List RespFrame :=
  match name with
  | .messageStart =>
    if m.started then (m, [])
    else
      let m := m.noteStart ev
      (m, [.created m.id m.model])
  | .blockStart =>
    match objField ev "content_block" with
    | none => (m, [])
    | some block =>
      let index := intOr0 ev "index"
      if index ∈ m.blockStarted then (m, []) else m.openBlock index block
  | .blockDelta =>
    match objField ev "delta" with
    | none => (m, [])
    | some delta => m.writeBlock (intOr0 ev "index") delta
  | .blockStop =>
    let index := intOr0 ev "index"
    match m.reasoningByIndex index with
    | some text =>
      if index ∈ m.blockStarted ∧ index ∉ m.blockStopped then
        ({ m with blockStopped := index :: m.blockStopped },
          [.reasoningDone (m.itemID index) index text])
      else (m, [])
    | none => (m, [])
  | .messageDelta =>
    ({ m with
        ot := ((objField ev "usage").map (intOr0 · "output_tokens")).getD m.ot
        reason :=
          ((objField ev "delta").map fun d => (str d "stop_reason").getD "").getD m.reason },
      [])
  | .messageStop =>
    if m.done then (m, [])
    else
      ({ m with done := true },
        [.completed (respResponse m.id m.model m.messOutputItems (respUsage m.it m.ot m.cached))])
  | .error =>
    match objField ev "error" with
    | some e => (m, [.error ((str e "type").getD "") ((str e "message").getD "")])
    | none => (m, [])
  | .other => (m, [])

def mapMessToResp (m : MessMapper) (name : MessEventName) (data : Payload) :
    MessMapper × List RespFrame :=
  match data.object with
  | some ev => m.messToRespFrames name ev
  | none => (m, [])

/-! ### Dispatch -/

/-- `Map`: a frame without a name passes as it is, an empty one is dropped. -/
def mapFrame {F : Type} (map : MessMapper → MessEventName → Payload → MessMapper × List F)
    (raw : Payload → F) (m : MessMapper) (e : SseEvent) : MessMapper × List F :=
  if e.eventName = "" then
    if e.data.isEmpty then (m, []) else (m, [raw e.data])
  else map m (.ofString e.eventName) e.data

def mapChat : MessMapper → SseEvent → MessMapper × List ChatFrame := mapFrame mapMessToChat .raw

def mapResp : MessMapper → SseEvent → MessMapper × List RespFrame := mapFrame mapMessToResp .raw

end MessMapper

/-! ### From Chat to Responses -/

def ContentBlock.json : ContentBlock → Json
  | .thinking => .obj [("type", .str "thinking"), ("thinking", .str "")]
  | .text => .obj [("type", .str "text"), ("text", .str "")]
  | .toolUse id name => .obj [("type", .str "tool_use"), ("id", .str id), ("name", .str name),
      ("input", .obj [])]

def BlockDelta.json : BlockDelta → Json
  | .thinking s => .obj [("type", .str "thinking_delta"), ("thinking", .str s)]
  | .text s => .obj [("type", .str "text_delta"), ("text", .str s)]
  | .inputJson s => .obj [("type", .str "input_json_delta"), ("partial_json", .str s)]

def MessEvent.name : MessEvent → String
  | .messageStart .. => "message_start"
  | .blockStart .. => "content_block_start"
  | .blockDelta .. => "content_block_delta"
  | .blockStop _ => "content_block_stop"
  | .messageDelta .. => "message_delta"
  | .messageStop => "message_stop"
  | .error .. => "error"

/-- The fields of the event's data besides its type. -/
def MessEvent.fields : MessEvent → Obj
  | .messageStart id model inputTokens cacheRead =>
    [("message", .obj [("id", .str id), ("type", .str "message"), ("role", .str "assistant"),
      ("model", .str model), ("content", .arr []), ("stop_reason", .null),
      ("stop_sequence", .null),
      ("usage", .obj ([("input_tokens", int inputTokens), ("output_tokens", int 0)] ++
        (cacheRead.toList.flatMap fun cached =>
          [("cache_creation_input_tokens", int 0), ("cache_read_input_tokens", int cached)])))])]
  | .blockStart index block => [("index", int index), ("content_block", block.json)]
  | .blockDelta index delta => [("index", int index), ("delta", delta.json)]
  | .blockStop index => [("index", int index)]
  | .messageDelta stopReason outputTokens =>
    [("delta", .obj [("stop_reason", .str stopReason), ("stop_sequence", .null)]),
      ("usage", .obj [("output_tokens", int outputTokens)])]
  | .messageStop => []
  | .error type message => [("error", .obj [("type", .str type), ("message", .str message)])]

def MessEvent.sse (e : MessEvent) : SseEvent :=
  { name := e.name, data := .json (.obj (("type", .str e.name) :: e.fields)) }

/-- The mapper for a Responses client of a Chat upstream. -/
structure ChatRespMapper where
  outer : ChatMapper := {}
  inner : MessMapper := {}

def ChatRespMapper.feed (inner : MessMapper) (e : MessEvent) : MessMapper := (inner.mapResp e.sse).1

def mapChatToResp (m : ChatRespMapper) (data : Payload) : ChatRespMapper × List RespFrame :=
  let (outer, events) := m.outer.chatToMessEvents data
  if events.isEmpty then ({ m with outer }, [])
  else
    let inner := { m.inner with it := outer.it, ot := outer.ot, cached := outer.cached }
    ({ outer, inner := events.foldl ChatRespMapper.feed inner },
      Monitor.outputs ChatRespMapper.feed (fun inner e => (inner.mapResp e.sse).2) inner events)

/-! ### Directions -/

/-- The frames that a mapper makes of a whole stream. -/
def runMapper {M E F : Type} (map : M → E → M × List F) : M → List E → List F :=
  Monitor.outputs (fun m e => (map m e).1) (fun m e => (map m e).2)

/-- What a client gets of a stream, in its protocol. -/
inductive ClientStream where
  | chat (frames : List ChatFrame)
  | mess (frames : List MessFrame)
  | resp (frames : List RespFrame)

/-- A Chat upstream sends data without event names. -/
def convertStream (dir : Direction) (events : List SseEvent) : ClientStream :=
  match dir with
  | .chatToResp => .chat (runMapper RespMapper.mapChat {} events)
  | .messToResp => .mess (runMapper RespMapper.mapMess {} events)
  | .respToMess => .resp (runMapper MessMapper.mapResp {} events)
  | .chatToMess => .chat (runMapper MessMapper.mapChat {} events)
  | .autoResponsesToChat => .resp (runMapper (fun m e => mapChatToResp m e.data) {} events)
  | .autoMessagesToChat =>
    .mess ((runMapper (fun m e => ChatMapper.chatToMessEvents m e.data) {} events).map .event)

end C4Gateway.Protoconv
