import C4Gateway.Protoconv.Stream

/-! The stream mappers with a Responses upstream, `mapRespToChat` and `mapRespToMess`. -/

namespace C4Gateway.Protoconv

/-- What a mapper with a Responses upstream keeps.  The sets of block indexes are in the order in
which they grew. -/
structure RespMapper where
  started : Bool := false
  done : Bool := false
  id : String := ""
  model : String := ""
  created : Int := 0
  blockStarted : List Int := []
  blockStopped : List Int := []
  occupiedBlocks : List Int := []
  reasoningIndexes : List (Int × Int) := []
  textBlock : Option Int := none

namespace RespMapper

/-! ### To Chat -/

def isFunctionCall (item : Json) : Bool :=
  (item.asObj.bind (getStr · "type")) = some "function_call"

def hasRespFunctionCall (output : Option Json) : Bool :=
  (output.bind Json.asArr).any (·.any isFunctionCall)

def chatUsage (u : Obj) : ChatUsage where
  completionTokens := gjsonNumInt (getField u "output_tokens")
  promptTokens := gjsonNumInt (getField u "input_tokens")
  cachedTokens := ((getObj u "input_tokens_details").map
    fun d => gjsonNumInt (getField d "cached_tokens")).filter (0 < ·)
  totalTokens := gjsonNumInt (getField u "total_tokens")

def chatChunk (m : RespMapper) (delta : ChatDelta) : ChatFrame :=
  .chunk { id := m.id, model := m.model, created := m.created, delta }

/-- `call_id` if it is a string and not empty, else `id`. -/
def fcID (item : Obj) : String :=
  match (getStr item "call_id").filter (· ≠ "") with
  | some id => id
  | none => (getStr item "id").getD ""

/-- The first text of a reasoning summary. -/
def summaryText (item : Obj) : Option String :=
  ((getField item "summary").bind Json.asArr).bind fun parts =>
    parts.findSome? fun part => (part.asObj.bind (getStr · "text")).filter (· ≠ "")

/-- One Responses event for a Chat client. -/
def respToChatFrames (m : RespMapper) (name : RespEventName) (ev : Obj) :
    RespMapper × List ChatFrame :=
  match name with
  | .created =>
    if m.started then (m, [])
    else
      let m := { m with started := true }
      let m :=
        match getObj ev "response" with
        | some resp =>
          { m with
            id := (getStr resp "id").getD m.id
            model := (getStr resp "model").getD m.model
            created := gjsonNumInt (getField resp "created_at") }
        | none => m
      (m, [m.chatChunk .role])
  | .textDelta => (m, [m.chatChunk (.content ((getStr ev "delta").getD ""))])
  | .reasoningDelta =>
    match getStr ev "delta" with
    | some delta => (m, [m.chatChunk (.reasoningContent delta)])
    | none => (m, [])
  | .itemAdded =>
    match getObj ev "item" with
    | none => (m, [])
    | some item =>
      if getStr item "type" = some "reasoning" then
        match summaryText item with
        | some text => (m, [m.chatChunk (.reasoningContent text)])
        | none => (m, [])
      else if getStr item "type" = some "function_call" then
        (m, [m.chatChunk (.toolCall (gjsonNumInt (getField ev "output_index")) (fcID item)
          ((getStr item "name").getD ""))])
      else (m, [])
  | .argumentsDelta =>
    (m, [m.chatChunk (.toolArguments (gjsonNumInt (getField ev "output_index"))
      ((getStr ev "delta").getD ""))])
  | .completed =>
    if m.done then (m, [])
    else
      let resp := (getObj ev "response").getD []
      let finish :=
        if getStr resp "status" = some "incomplete" then "length"
        else if hasRespFunctionCall (getField resp "output") then "tool_calls"
        else "stop"
      let chunk : ChatChunk :=
        { id := m.id
          model := m.model
          created := m.created
          delta := .none
          finishReason := some finish
          usage := (getObj resp "usage").map chatUsage }
      ({ m with done := true }, [.chunk chunk, .done])
  | .failed =>
    if m.done then (m, [])
    else
      match (getObj ev "response").bind (getObj · "error") with
      | some e => ({ m with done := true }, [.error ((getStr e "message").getD "")])
      | none => ({ m with done := true }, [.done])
  | .reasoningDone | .textDone | .argumentsDone | .incomplete | .other => (m, [])

def mapRespToChat (m : RespMapper) (name : RespEventName) : Payload → RespMapper × List ChatFrame
  | .json (.obj ev) => m.respToChatFrames name ev
  | _ => (m, [])

/-! ### To Messages -/

/-- The least index that is not taken. -/
def firstFree (occupied : List Int) : Int :=
  let free := (List.range (occupied.length + 1)).find? fun k : Nat => (k : Int) ∉ occupied
  (free.getD 0 : Nat)

def respBlockIndex (m : RespMapper) (preferred : Int) : RespMapper × Int :=
  let index := if preferred ∈ m.occupiedBlocks then firstFree m.occupiedBlocks else preferred
  ({ m with occupiedBlocks := index :: m.occupiedBlocks }, index)

/-- The block under a key, which is a summary index, or a negative number for a tool call. -/
def keyedBlock (m : RespMapper) (key preferred : Int) : RespMapper × Int :=
  match m.reasoningIndexes.lookup key with
  | some index => (m, index)
  | none =>
    let (m, index) := m.respBlockIndex preferred
    ({ m with reasoningIndexes := (key, index) :: m.reasoningIndexes }, index)

def respReasoningBlock (m : RespMapper) (summary : Int) : RespMapper × Int :=
  m.keyedBlock summary 0

def respToolBlock (m : RespMapper) (output : Int) : RespMapper × Int :=
  m.keyedBlock (-output - 1) output

def respTextBlock (m : RespMapper) : RespMapper × Int :=
  match m.textBlock with
  | some index => (m, index)
  | none =>
    let (m, index) := m.respBlockIndex 0
    ({ m with textBlock := some index }, index)

/-- A block that is not yet started is. -/
def startBlock (m : RespMapper) (index : Int) (block : ContentBlock) :
    RespMapper × List MessEvent :=
  if index ∈ m.blockStarted then (m, [])
  else ({ m with blockStarted := index :: m.blockStarted }, [.blockStart index block])

def writeBlock (m : RespMapper) (index : Int) (block : ContentBlock) (delta : BlockDelta) :
    RespMapper × List MessEvent :=
  let (m, events) := m.startBlock index block
  (m, events ++ [.blockDelta index delta])

def stopBlock (m : RespMapper) (index : Int) : RespMapper × List MessEvent :=
  if index ∈ m.blockStarted ∧ index ∉ m.blockStopped then
    ({ m with blockStopped := index :: m.blockStopped }, [.blockStop index])
  else (m, [])

def respToMessStopReason (r : Obj) : String :=
  if str r "status" = some "incomplete" then "max_tokens"
  else if (arr r "output").any
      (·.any fun item => (item.asObj.bind (str · "type")) = some "function_call") then "tool_use"
  else "end_turn"

/-- One Responses event for a Messages client. -/
def respToMessEvents (m : RespMapper) (name : RespEventName) (ev : Obj) :
    RespMapper × List MessEvent :=
  match name with
  | .created =>
    if m.started then (m, [])
    else
      let resp := (objField ev "response").getD []
      ({ m with started := true },
        [.messageStart ((str resp "id").getD "") ((str resp "model").getD "") 0 none])
  | .reasoningDelta =>
    let delta := (str ev "delta").getD ""
    if delta = "" then (m, [])
    else
      let (m, index) := m.respReasoningBlock (intOr0 ev "summary_index")
      m.writeBlock index .thinking (.thinking delta)
  | .reasoningDone =>
    let (m, index) := m.respReasoningBlock (intOr0 ev "summary_index")
    m.stopBlock index
  | .textDelta =>
    let (m, index) := m.respTextBlock
    m.writeBlock index .text (.text ((str ev "delta").getD ""))
  | .textDone =>
    let (m, index) := m.respTextBlock
    m.stopBlock index
  | .itemAdded =>
    match objField ev "item" with
    | none => (m, [])
    | some item =>
      if str item "type" = some "reasoning" then
        let (m, index) := m.respReasoningBlock (intOr0 ev "summary_index")
        m.startBlock index .thinking
      else if str item "type" = some "function_call" then
        let (m, index) := m.respToolBlock (intOr0 ev "output_index")
        m.startBlock index (.toolUse (toolCallID item) ((str item "name").getD ""))
      else (m, [])
  | .argumentsDelta =>
    let (m, index) := m.respToolBlock (intOr0 ev "output_index")
    (m, [.blockDelta index (.inputJson ((str ev "delta").getD ""))])
  | .argumentsDone =>
    let (m, index) := m.respToolBlock (intOr0 ev "output_index")
    m.stopBlock index
  | .completed =>
    if m.done then (m, [])
    else
      let reason := ((objField ev "response").map respToMessStopReason).getD ""
      let ot := (((objField ev "response").bind (objField · "usage")).map
        (intOr0 · "output_tokens")).getD 0
      ({ m with done := true }, [.messageDelta reason ot, .messageStop])
  | .failed =>
    if m.done then (m, [])
    else
      match (objField ev "response").bind (objField · "error") with
      | some e => ({ m with done := true }, [.error "api_error" ((str e "message").getD "")])
      | none => ({ m with done := true }, [])
  | .incomplete | .other => (m, [])

def mapRespToMess (m : RespMapper) (name : RespEventName) (data : Payload) :
    RespMapper × List MessEvent :=
  match data.object with
  | some ev => m.respToMessEvents name ev
  | none => (m, [])

/-- The flags and the blocks of the two are the same; only indexes may have been given out. -/
structure SameBlocks (m m' : RespMapper) : Prop where
  started : m'.started = m.started
  done : m'.done = m.done
  blockStarted : m'.blockStarted = m.blockStarted
  blockStopped : m'.blockStopped = m.blockStopped

variable (m : RespMapper) (index : Int)

theorem sameBlocks_keyedBlock (key preferred : Int) :
    SameBlocks m (m.keyedBlock key preferred).1 := by
  unfold keyedBlock
  split <;> exact ⟨rfl, rfl, rfl, rfl⟩

theorem sameBlocks_respTextBlock : SameBlocks m m.respTextBlock.1 := by
  unfold respTextBlock
  split <;> exact ⟨rfl, rfl, rfl, rfl⟩

@[simp] theorem done_startBlock (block : ContentBlock) :
    (m.startBlock index block).1.done = m.done := by
  unfold startBlock
  split <;> rfl

@[simp] theorem done_stopBlock : (m.stopBlock index).1.done = m.done := by
  unfold stopBlock
  split <;> rfl

/-! ### Dispatch -/

/-- `Map`: a frame without a name passes as it is, an empty one is dropped. -/
def mapFrame {F : Type} (map : RespMapper → RespEventName → Payload → RespMapper × List F)
    (raw : Payload → F) (m : RespMapper) (e : SseEvent) : RespMapper × List F :=
  if e.eventName = "" then
    if e.data.isEmpty then (m, []) else (m, [raw e.data])
  else map m (.ofString e.eventName) e.data

def mapChat : RespMapper → SseEvent → RespMapper × List ChatFrame := mapFrame mapRespToChat .raw

def mapMess : RespMapper → SseEvent → RespMapper × List MessFrame :=
  mapFrame (fun m name data => ((mapRespToMess m name data).1,
    (mapRespToMess m name data).2.map .event)) .raw

end RespMapper
end C4Gateway.Protoconv
