import C4Gateway.Protoconv.Request

/-! The converters behind `ConvertResponse`, which take the whole response object of the upstream
protocol to one of the client's protocol. -/

namespace C4Gateway.Protoconv

def concat (texts : List String) : String := texts.foldr (· ++ ·) ""

def int (n : Int) : Json := .num n

/-- Sums of token counts stay in the range of an `int64`. -/
def sumTokens (a b : Int) : Int :=
  let a := max a 0
  let b := max b 0
  if a > 2 ^ 63 - 1 - b then 2 ^ 63 - 1 else a + b

/-! ### Responses to Chat -/

section

/-- The values that a byte-level loop goes through. -/
def gjsonEach : Option Json → List Json
  | some (.arr items) => items
  | some (.obj fields) => fields.map (·.2)
  | _ => []

def messageTexts (item : Obj) : List String :=
  match getField item "content" with
  | some (.arr parts) => (objects parts).filterMap (getStr · "text")
  | _ => []

/-- The text of the message and its tool calls. -/
def appendChatMessageBody (output : Option Json) : String × List Json :=
  let items := objects (gjsonEach output)
  (concat (items.flatMap fun item =>
      if getStr item "type" = some "message" then messageTexts item else []),
    items.filterMap fun item =>
      if getStr item "type" = some "function_call" then
        some (chatToolCall (RespMapper.fcID item) ((getStr item "name").getD "")
          ((getStr item "arguments").getD ""))
      else none)

def respFinishReason (r : Obj) : String :=
  if getStr r "status" = some "incomplete" then "length"
  else if RespMapper.hasRespFunctionCall (getField r "output") then "tool_calls"
  else "stop"

def ChatUsage.json (u : ChatUsage) : Json :=
  .obj ([("completion_tokens", int u.completionTokens), ("prompt_tokens", int u.promptTokens)] ++
    (u.cachedTokens.map fun c =>
      ("prompt_tokens_details", Json.obj [("cached_tokens", int c)])).toList ++
    [("total_tokens", int u.totalTokens)])

/-- A response that is not an object has been refused, except for `null`. -/
def respToChatResponse (r : Obj) : Obj :=
  let (content, toolCalls) := appendChatMessageBody (getField r "output")
  let message := [("content", Json.str content), ("role", .str "assistant")] ++
    if toolCalls.isEmpty then [] else [("tool_calls", .arr toolCalls)]
  [("choices", .arr [.obj [("finish_reason", .str (respFinishReason r)), ("index", int 0),
      ("message", .obj message)]]),
    ("created", int (gjsonNumInt (getField r "created_at"))),
    ("id", .str ((getStr r "id").getD "")),
    ("model", .str ((getStr r "model").getD "")),
    ("object", .str "chat.completion")] ++
    ((getObj r "usage").map fun u => ("usage", (RespMapper.chatUsage u).json)).toList

end

variable (codec : Codec)

/-! ### Responses to Messages -/

def respItemBlocks (im : Obj) : List Json :=
  if str im "type" = some "reasoning" then
    ((objects ((arr im "summary").getD [])).filterMap (str · "text")).map thinkingBlock
  else if str im "type" = some "message" then
    ((objects ((arr im "content").getD [])).filterMap (str · "text")).map textBlock
  else if str im "type" = some "function_call" then
    [toolUse (toolCallID im) ((str im "name").getD "")
      (parseJSON codec (Json.lastField im "arguments"))]
  else []

def respOutputToMessBlocks (r : Obj) : List Json :=
  (objects ((arr r "output").getD [])).flatMap (respItemBlocks codec)

def messUsage (input output cacheRead : Int) : Json :=
  .obj [("input_tokens", int input), ("output_tokens", int output),
    ("cache_creation_input_tokens", int 0), ("cache_read_input_tokens", int cacheRead)]

def respUsageToMess (r : Obj) : Json :=
  let u := (objField r "usage").getD []
  messUsage (intOr0 u "input_tokens") (intOr0 u "output_tokens")
    (intOr0 ((objField u "input_tokens_details").getD []) "cached_tokens")

def messResponse (id model : String) (content : List Json) (stopReason : String) (usage : Json) :
    Obj :=
  [("id", .str id), ("type", .str "message"), ("role", .str "assistant"), ("model", .str model),
    ("content", .arr content), ("stop_reason", .str stopReason), ("stop_sequence", .null),
    ("usage", usage)]

def respToMessResponse (r : Obj) : Obj :=
  messResponse ((str r "id").getD "") ((str r "model").getD "") (respOutputToMessBlocks codec r)
    (RespMapper.respToMessStopReason r) (respUsageToMess r)

/-! ### Messages to Responses -/

def respReasoning (id text : String) : Json :=
  .obj [("id", .str id), ("type", .str "reasoning"), ("status", .str "completed"),
    ("summary", .arr [.obj [("type", .str "summary_text"), ("text", .str text)]])]

def outputText (text : String) : Json :=
  .obj [("type", .str "output_text"), ("text", .str text), ("annotations", .arr [])]

def respOutputMessage (id : String) (parts : List Json) : Json :=
  .obj [("id", .str id), ("type", .str "message"), ("status", .str "completed"),
    ("role", .str "assistant"), ("content", .arr parts)]

def respFunctionCall (id callID name arguments : String) : Json :=
  .obj [("type", .str "function_call"), ("id", .str id), ("call_id", .str callID),
    ("name", .str name), ("arguments", .str arguments), ("status", .str "completed")]

/-- Reasoning items stand first, then one message with all texts, then the calls. -/
def messContentToRespOutput (msg : Obj) : List Json :=
  let msgID := (str msg "id").getD ""
  let content := (arr msg "content").getD []
  let thinking := blocksOf "thinking" (str · "thinking") content
  let texts := blocksOf "text" (str · "text") content
  let calls := blocksOf "tool_use" (fun bm =>
    let id := (str bm "id").getD ""
    some (respFunctionCall id id ((str bm "name").getD "")
      (marshalAny codec (Json.lastField bm "input")))) content
  thinking.zipIdx.map (fun t => respReasoning ("rs_" ++ msgID ++ "_" ++ toString t.2) t.1) ++
    (if texts.isEmpty then [] else [respOutputMessage msgID (texts.map outputText)]) ++ calls

def respUsage (input output cached : Int) : Json :=
  .obj [("input_tokens", int input), ("output_tokens", int output),
    ("total_tokens", int (sumTokens input output)),
    ("input_tokens_details", .obj [("cached_tokens", int cached)])]

def respResponse (id model : String) (output : List Json) (usage : Json) : Obj :=
  [("id", .str id), ("object", .str "response"), ("created_at", int 0),
    ("status", .str "completed"), ("model", .str model), ("output", .arr output),
    ("parallel_tool_calls", .bool true), ("usage", usage)]

/-- The status is `completed` whatever the stop reason is. -/
def messToRespResponse (msg : Obj) : Obj :=
  let u := (objField msg "usage").getD []
  respResponse ((str msg "id").getD "") ((str msg "model").getD "")
    (messContentToRespOutput codec msg)
    (respUsage (intOr0 u "input_tokens") (intOr0 u "output_tokens")
      (intOr0 u "cache_read_input_tokens"))

/-! ### Messages to Chat -/

def messToChatFinish (stopReason : String) : String :=
  if stopReason = "tool_use" then "tool_calls"
  else if stopReason = "max_tokens" then "length"
  else "stop"

def messToChatFinishReason (msg : Obj) : String :=
  messToChatFinish ((str msg "stop_reason").getD "")

def messToChatMessage (msg : Obj) : Obj :=
  let content := (arr msg "content").getD []
  let texts := blocksOf "text" (str · "text") content
  let calls := blocksOf "tool_use" (fun bm =>
    some (chatToolCall ((str bm "id").getD "") ((str bm "name").getD "")
      (marshalAny codec (Json.lastField bm "input")))) content
  [("role", .str "assistant"), ("content", .str (joinStrings texts ""))] ++
    if calls.isEmpty then [] else [("tool_calls", .arr calls)]

def messUsageToChat (msg : Obj) : Option ChatUsage :=
  (objField msg "usage").map fun u =>
    let it := intOr0 u "input_tokens"
    let ot := intOr0 u "output_tokens"
    let cached := intOr0 u "cache_read_input_tokens"
    { completionTokens := ot
      promptTokens := it
      cachedTokens := if cached > 0 then some cached else none
      totalTokens := sumTokens it ot }

def messToChatResponse (msg : Obj) : Obj :=
  [("id", .str ((str msg "id").getD "")), ("object", .str "chat.completion"), ("created", int 0),
    ("model", .str ((str msg "model").getD "")),
    ("choices", .arr [.obj [("index", int 0), ("message", .obj (messToChatMessage codec msg)),
      ("finish_reason", .str (messToChatFinishReason msg))]])] ++
    ((messUsageToChat msg).map fun u => ("usage", u.json)).toList

/-! ### Chat to Messages and Responses -/

def contentBlocks (content : Option Json) : List Json :=
  match content with
  | some (.str s) => if s ≠ "" then [textBlock s] else []
  | some (.arr parts) =>
    ((objects parts).filterMap fun part =>
      if str part "type" = some "text" then str part "text" else none).map textBlock
  | _ => []

def chatMessageToMessBlocks (message : Obj) : List Json :=
  (firstChatReasoning message).toList.map thinkingBlock ++
    contentBlocks (Json.lastField message "content") ++
    ((arr message "tool_calls").getD []).filterMap (chatToolUse codec)

def chatUsageToMess (response : Obj) : Json :=
  let usage := (objField response "usage").getD []
  let orElse := fun key key' =>
    if intOr0 usage key = 0 then intOr0 usage key' else intOr0 usage key
  messUsage (orElse "prompt_tokens" "input_tokens") (orElse "completion_tokens" "output_tokens")
    (intOr0 ((objField usage "prompt_tokens_details").getD []) "cached_tokens")

/-- The first choice, if it is an object. -/
def headChoice (response : Obj) : Obj := (((arr response "choices").getD []).head?.bind
  Json.asObj).getD []

def chatToMessResponse (response : Obj) : Obj :=
  let choice := headChoice response
  messResponse ((str response "id").getD "") ((str response "model").getD "")
    (chatMessageToMessBlocks codec ((objField choice "message").getD []))
    (chatFinishToMess ((str choice "finish_reason").getD "")) (chatUsageToMess response)

def chatToRespResponse (response : Obj) : Obj :=
  messToRespResponse codec (chatToMessResponse codec response)

/-! ### Directions -/

def responseConverter (dir : Direction) : Obj → Obj :=
  match dir with
  | .chatToResp => respToChatResponse
  | .messToResp => respToMessResponse codec
  | .respToMess => messToRespResponse codec
  | .chatToMess => messToChatResponse codec
  | .autoResponsesToChat => chatToRespResponse codec
  | .autoMessagesToChat => chatToMessResponse codec

end C4Gateway.Protoconv
