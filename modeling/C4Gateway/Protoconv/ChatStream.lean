import C4Gateway.Lib.Text
import C4Gateway.Protoconv.RespBlocks

/-! The stream mapper from a Chat upstream to a Messages client.  Blocks get their indexes when they
are first seen, and the header of a tool block waits until its id, its name and its first arguments
are there. -/

namespace C4Gateway.Protoconv

open Function (update)

/-- The state of the mapper for a Chat upstream. -/
structure ChatMapper where
  started : Bool := false
  done : Bool := false
  id : String := ""
  model : String := ""
  it : Int := 0
  ot : Int := 0
  cached : Int := 0
  reason : String := ""
  blockStarted : List Int := []
  blockStopped : List Int := []
  blockOrder : List Int := []
  argsByIndex : Int → String := fun _ => ""
  fcNames : Int → String := fun _ => ""
  fcIDs : Int → String := fun _ => ""
  chatText : Option Int := none
  chatReasoning : Option Int := none
  chatToolIndexes : List (Int × Int) := []
  nextChatBlock : Int := 0

/-- What one delta of a chunk brings, in the order in which it is dealt with. -/
inductive ChatPiece where
  | reasoning (text : String)
  | content (text : String)
  | toolCall (call : Obj)

def firstChatReasoning (delta : Obj) : Option String :=
  ["reasoning_content", "reasoning", "reasoning_text"].findSome? fun key =>
    (str delta key).filter (· ≠ "")

/-- The pieces of a delta; empty texts and calls that are not objects are none. -/
def chatPieces (delta : Obj) : List ChatPiece :=
  ((firstChatReasoning delta).map ChatPiece.reasoning).toList ++
    (((str delta "content").filter (· ≠ "")).map ChatPiece.content).toList ++
    ((arr delta "tool_calls").getD []).filterMap fun call => call.asObj.map ChatPiece.toolCall

/-- Fragments are put together, and a value that is repeated or grows is taken as it is. -/
def mergeChatFragment (current fragment : String) : String :=
  if fragment = "" then current
  else if current = "" ∨ current = fragment then fragment
  else if current.toList.isPrefixOf fragment.toList then fragment
  else if fragment.toList.isPrefixOf current.toList then current
  else current ++ fragment

def chatFinishToMess (reason : String) : String :=
  if reason = "tool_calls" ∨ reason = "function_call" then "tool_use"
  else if reason = "length" then "max_tokens"
  else "end_turn"

namespace ChatMapper

/-! ### Blocks -/

/-- The next index goes to a new block. -/
def allocate (m : ChatMapper) : ChatMapper × Int :=
  ({ m with
      nextChatBlock := m.nextChatBlock + 1
      blockOrder := m.blockOrder ++ [m.nextChatBlock] }, m.nextChatBlock)

def chatTextBlock (m : ChatMapper) : ChatMapper × Int :=
  match m.chatText with
  | some index => (m, index)
  | none =>
    let (m, index) := m.allocate
    ({ m with chatText := some index }, index)

def chatReasoningBlock (m : ChatMapper) : ChatMapper × Int :=
  match m.chatReasoning with
  | some index => (m, index)
  | none =>
    let (m, index) := m.allocate
    ({ m with chatReasoning := some index }, index)

def chatToolBlock (m : ChatMapper) (chatIndex : Int) : ChatMapper × Int :=
  match m.chatToolIndexes.lookup chatIndex with
  | some index => (m, index)
  | none =>
    let (m, index) := m.allocate
    ({ m with chatToolIndexes := (chatIndex, index) :: m.chatToolIndexes }, index)

/-- The block is started if it is not, and written to. -/
def write (m : ChatMapper) (index : Int) (block : ContentBlock) (delta : BlockDelta) :
    ChatMapper × List MessEvent :=
  if index ∈ m.blockStarted then (m, [.blockDelta index delta])
  else
    ({ m with blockStarted := index :: m.blockStarted },
      [.blockStart index block, .blockDelta index delta])

def startChatToolBlock (m : ChatMapper) (index : Int) : ChatMapper × List MessEvent :=
  if index ∈ m.blockStarted then (m, [])
  else
    let id := if m.fcIDs index = "" then "call_" ++ m.id ++ "_" ++ toString index else m.fcIDs index
    let arguments := m.argsByIndex index
    ({ m with
        blockStarted := index :: m.blockStarted
        fcIDs := update m.fcIDs index id
        argsByIndex := update m.argsByIndex index "" },
      .blockStart index (.toolUse id (m.fcNames index)) ::
        if arguments = "" then [] else [.blockDelta index (.inputJson arguments)])

/-- The id, the name and the arguments that a call brings. -/
def callID (call : Obj) : String := (str call "id").getD ""

def callName (call : Obj) : String := ((objField call "function").bind (str · "name")).getD ""

def callArguments (call : Obj) : String :=
  ((objField call "function").bind (str · "arguments")).getD ""

def noteCall (m : ChatMapper) (index : Int) (call : Obj) : ChatMapper :=
  { m with
    fcIDs := update m.fcIDs index (mergeChatFragment (m.fcIDs index) (callID call))
    fcNames := update m.fcNames index
      (mergeChatFragment (m.fcNames index) (callName call)) }

/-- The arguments wait until the header of their block can be written. -/
def toolCall (m : ChatMapper) (call : Obj) : ChatMapper × List MessEvent :=
  let (m, index) := m.chatToolBlock (intOr0 call "index")
  let m := m.noteCall index call
  let arguments := callArguments call
  if index ∈ m.blockStarted then
    (m, if arguments = "" then [] else [.blockDelta index (.inputJson arguments)])
  else
    let m :=
      { m with
        argsByIndex := update m.argsByIndex index (m.argsByIndex index ++ arguments) }
    if m.fcIDs index ≠ "" ∧ m.fcNames index ≠ "" ∧ arguments ≠ "" then m.startChatToolBlock index
    else (m, [])

def piece (m : ChatMapper) : ChatPiece → ChatMapper × List MessEvent
  | .reasoning text =>
    let (m, index) := m.chatReasoningBlock
    m.write index .thinking (.thinking text)
  | .content text =>
    let (m, index) := m.chatTextBlock
    m.write index .text (.text text)
  | .toolCall call => m.toolCall call

def nextPiece (m : ChatMapper) (p : ChatPiece) : ChatMapper := (m.piece p).1

def pieceEvents : ChatMapper → List ChatPiece → List MessEvent :=
  Monitor.outputs nextPiece fun m p => (m.piece p).2

def chatDeltaToMessEvents (m : ChatMapper) (delta : Obj) : ChatMapper × List MessEvent :=
  ((chatPieces delta).foldl nextPiece m, m.pieceEvents (chatPieces delta))

/-! ### Chunks -/

def captureChatUsage (m : ChatMapper) (event : Obj) : ChatMapper :=
  match objField event "usage" with
  | none => m
  | some usage =>
    let orElse := fun key key' =>
      if intOr0 usage key = 0 then intOr0 usage key' else intOr0 usage key
    { m with
      it := orElse "prompt_tokens" "input_tokens"
      ot := orElse "completion_tokens" "output_tokens"
      cached :=
        match objField usage "prompt_tokens_details" with
        | some details => intOr0 details "cached_tokens"
        | none => m.cached }

/-- The choice that is read: the first one that is an object and not of another index. -/
def firstChoice (event : Obj) : Option Obj :=
  ((arr event "choices").getD []).findSome? fun choice =>
    choice.asObj.filter fun choice => (num choice "index").all (· = 0)

def noteChunk (m : ChatMapper) (event : Obj) : ChatMapper :=
  captureChatUsage
    { m with
      id := ((str event "id").filter (· ≠ "")).getD m.id
      model := ((str event "model").filter (· ≠ "")).getD m.model } event

def startMessage (m : ChatMapper) (cacheRead : Option Int) : ChatMapper × List MessEvent :=
  if m.started then (m, [])
  else ({ m with started := true }, [.messageStart m.id m.model m.it cacheRead])

def chunk (m : ChatMapper) (event : Obj) : ChatMapper × List MessEvent :=
  match objField event "error" with
  | some e =>
    let type := (str e "type").getD ""
    ({ m with done := true },
      [.error (if type = "" then "api_error" else type) ((str e "message").getD "")])
  | none =>
    let m := m.noteChunk event
    let (m, start) := m.startMessage (some m.cached)
    match firstChoice event with
    | none => (m, start)
    | some choice =>
      let (m, events) :=
        match objField choice "delta" with
        | some delta => m.chatDeltaToMessEvents delta
        | none => (m, [])
      let reason := (str choice "finish_reason").getD ""
      ({ m with reason := if reason = "" then m.reason else chatFinishToMess reason },
        start ++ events)

/-! ### The end of the stream -/

/-- The headers that are still waiting. -/
def startAll (m : ChatMapper) : List Int → ChatMapper × List MessEvent
  | [] => (m, [])
  | index :: indexes =>
    let (m, events) :=
      if index ∉ m.blockStarted ∧ m.chatText ≠ some index then m.startChatToolBlock index
      else (m, [])
    let (m, rest) := startAll m indexes
    (m, events ++ rest)

def stopAll (m : ChatMapper) : List Int → ChatMapper × List MessEvent
  | [] => (m, [])
  | index :: indexes =>
    let (m, events) :=
      if index ∈ m.blockStarted ∧ index ∉ m.blockStopped then
        ({ m with blockStopped := index :: m.blockStopped }, [MessEvent.blockStop index])
      else (m, [])
    let (m, rest) := stopAll m indexes
    (m, events ++ rest)

def finishChatStream (m : ChatMapper) : ChatMapper × List MessEvent :=
  let (m, start) := { m with done := true }.startMessage none
  let (m, starts) := m.startAll m.blockOrder
  let (m, stops) := m.stopAll m.blockOrder
  (m, start ++ starts ++ stops ++
    [.messageDelta (if m.reason = "" then "end_turn" else m.reason) m.ot, .messageStop])

def isDone : Payload → Bool
  | .text s => Text.trimSpace s.toList = "[DONE]".toList
  | .json _ => false

def chatToMessEvents (m : ChatMapper) (data : Payload) : ChatMapper × List MessEvent :=
  if m.done then (m, [])
  else if isDone data then m.finishChatStream
  else
    match data.object with
    | none => (m, [])
    | some event => m.chunk event

end ChatMapper
end C4Gateway.Protoconv
