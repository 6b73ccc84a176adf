import C4Gateway.Protoconv.ChatStream

/-! `ConvertRequest` in its six directions, for the conversation of a request: its instructions, its
turns, and their tool calls and tool results. -/

namespace C4Gateway.Protoconv

open Json (lastField asStr asArr)

/-- What the converters use of other packages: JSON text, the numbers that a `float64` holds, and
the source of an image, which an unusable URL does not have. -/
structure Codec where
  parse : String → Option Json
  print : Json → String
  round : Json → Json
  imageSource : Option Json → Option Json

def joinStrings : List String → String → String
  | [], _ => ""
  | first :: rest, sep => rest.foldl (fun out p => out ++ (sep ++ p)) first

/-- A list that is nil without items, and nil is written as `null`. -/
def nilArr (items : List Json) : Json := if items.isEmpty then .null else .arr items

def objects (items : List Json) : List Obj := items.filterMap Json.asObj

/-- The text of a part of one of the types. -/
def partText (field : Obj → String → Option Json) (types : List String) (p : Obj) :
    Option String :=
  if ((field p "type").bind asStr).any (types.contains ·) then
    (field p "text").bind asStr
  else none

def partTexts (field : Obj → String → Option Json) (types : List String) (parts : List Json) :
    List String :=
  (objects parts).filterMap (partText field types)

/-- The text of a content, which is a string or an array with text parts. -/
def joinedText : Option Json → Option String
  | some (.str s) => some s
  | some (.arr parts) =>
    let texts := partTexts lastField ["text"] parts
    if texts.isEmpty then none else some (joinStrings texts "\n")
  | _ => none

def contentText : Option Json → Option String := joinedText

def blockText : Option Json → Option String := joinedText

/-- The roles of messages and items, in all protocols. -/
inductive Role where
  | system
  | developer
  | user
  | assistant
  | tool
  | function
  | other
  deriving DecidableEq, Repr

def Role.ofString : Option String → Role
  | none => .other
  | some s =>
    if s = "system" then .system
    else if s = "developer" then .developer
    else if s = "user" then .user
    else if s = "assistant" then .assistant
    else if s = "tool" then .tool
    else if s = "function" then .function
    else .other

/-- The types of the input items of a Responses request; the type may be missing. -/
inductive ItemType where
  | message
  | functionCall
  | reasoning
  | functionCallOutput
  | missing
  | other
  deriving DecidableEq, Repr

def ItemType.ofJson : Option Json → ItemType
  | none | some .null => .missing
  | some (.str s) =>
    if s = "message" then .message
    else if s = "function_call" then .functionCall
    else if s = "reasoning" then .reasoning
    else if s = "function_call_output" then .functionCallOutput
    else .other
  | _ => .other

def textBlock (text : String) : Json := .obj [("type", .str "text"), ("text", .str text)]

def thinkingBlock (text : String) : Json :=
  .obj [("type", .str "thinking"), ("thinking", .str text)]

/-! ### Chat to Responses -/

section

def textPart (textType text : String) : Json :=
  .obj [("text", .str text), ("type", .str textType)]

def imageURLRaw (p : Obj) : Option String :=
  match getField p "image_url" with
  | some (.str url) => some url
  | some (.obj u) => getStr u "url"
  | _ => none

def appendContentParts (content : Option Json) (textType : String) : List Json :=
  match content with
  | some (.str s) => [textPart textType s]
  | some (.arr parts) =>
    (objects parts).filterMap fun p =>
      if getStr p "type" = some "text" then (getStr p "text").map (textPart textType)
      else if getStr p "type" = some "image_url" then
        (imageURLRaw p).map fun url =>
          .obj [("image_url", .str url), ("type", .str "input_image")]
      else none
  | _ => []

/-- The text, and whether some text of it is not empty. -/
def contentTextRaw (content : Option Json) : Option (String × Bool) :=
  match content with
  | some (.str s) => some (s, s ≠ "")
  | some (.arr parts) =>
    let texts := partTexts getField ["text"] parts
    if texts.isEmpty then none else some (joinStrings texts "\n", texts.any (· ≠ ""))
  | _ => none

def chatToolCallItem (tc : Json) : Option Json :=
  tc.asObj.bind fun tc => (getObj tc "function").map fun fn =>
    let id := (getStr tc "id").getD ""
    .obj [("arguments", .str ((getStr fn "arguments").getD "")), ("call_id", .str id),
      ("id", .str id), ("name", .str ((getStr fn "name").getD "")), ("type", .str "function_call")]

def chatMessageItems (role textType : String) (content : Option Json) : List Json :=
  let parts := appendContentParts content textType
  if parts.isEmpty then []
  else [.obj [("content", .arr parts), ("role", .str role), ("type", .str "message")]]

def chatSystemItems (content : Option Json) : List Json :=
  ((contentTextRaw content).filter (·.2)).toList.map fun t =>
    .obj [("content", .arr [textPart "input_text" t.1]), ("role", .str "developer"),
      ("type", .str "message")]

def chatOutputItems (callID : Option String) (content : Option Json) : List Json :=
  (contentTextRaw content).toList.map fun t =>
    .obj [("call_id", .str (callID.getD "")), ("output", .str t.1),
      ("type", .str "function_call_output")]

/-- The items of one message. -/
def chatInputItems (m : Obj) : List Json :=
  let content := getField m "content"
  match Role.ofString (getStr m "role") with
  | .system => chatSystemItems content
  | .user => chatMessageItems "user" "input_text" content
  | .assistant => chatMessageItems "assistant" "output_text" content ++
      (((getField m "tool_calls").bind asArr).getD []).filterMap chatToolCallItem
  | .tool => chatOutputItems (getStr m "tool_call_id") content
  | .function => chatOutputItems (getStr m "name") content
  | .developer | .other => []

def appendChatInputItems (msgs : List Json) : List Json := (objects msgs).flatMap chatInputItems

/-- The top-level fields are read in one pass, in which a later key wins. -/
def chatToRespRequest (req : Obj) : Obj :=
  match arr req "messages" with
  | some msgs => [("input", .arr (appendChatInputItems msgs))]
  | none => []

end

variable (codec : Codec)

/-- The arguments of a call as a value; what is not JSON text becomes an empty object. -/
def parseJSON (v : Option Json) : Json :=
  match v with
  | some (.str s) => if s = "" then .obj [] else ((codec.parse s).map codec.round).getD (.obj [])
  | _ => .obj []

/-- A value of the request as JSON text; a missing one is `null`. -/
def marshalAny (v : Option Json) : String := codec.print (codec.round (v.getD .null))

/-! ### Chat to Messages -/

def chatSystem (req : Obj) : Option String :=
  (arr req "messages").bind fun msgs =>
    let parts := (objects msgs).filterMap fun m =>
      if Role.ofString (str m "role") = .system then contentText (lastField m "content")
      else none
    if parts.isEmpty then none else some (joinStrings parts "\n")

def chatImageURLToMessBlock (value : Option Json) : Option Json :=
  (codec.imageSource value).map fun source => .obj [("type", .str "image"), ("source", source)]

/-- The blocks of a part, at most one; `none` for an image that cannot be converted. -/
def chatPartBlocks (p : Obj) : Option (List Json) :=
  let type := str p "type"
  if type = some "text" then some ((str p "text").toList.map textBlock)
  else if type = some "reasoning_content" ∨ type = some "reasoning" then
    some ((str p "text").toList.map thinkingBlock)
  else if type = some "image_url" then
    (chatImageURLToMessBlock codec (lastField p "image_url")).map ([·])
  else some []

def chatPartsToMessBlocks (content : Option Json) : Option (List Json) :=
  match content with
  | some (.arr parts) => ((objects parts).mapM (chatPartBlocks codec)).map List.flatten
  | _ => some []

def toolUse (id name : String) (input : Json) : Json :=
  .obj [("type", .str "tool_use"), ("id", .str id), ("name", .str name), ("input", input)]

def toolResult (id content : String) : Json :=
  .obj [("type", .str "tool_result"), ("tool_use_id", .str id), ("content", .str content)]

def message (role : String) (content : Json) : Json :=
  .obj [("role", .str role), ("content", content)]

def chatToolUse (tc : Json) : Option Json :=
  tc.asObj.bind fun tc => (objField tc "function").map fun fn =>
    toolUse ((str tc "id").getD "") ((str fn "name").getD "")
      (parseJSON codec (lastField fn "arguments"))

def chatUserMessage (content : Option Json) : Option (List Json) :=
  match content with
  | some (.str s) => some [message "user" (.str s)]
  | _ => (chatPartsToMessBlocks codec content).map fun blocks =>
      if blocks.isEmpty then [] else [message "user" (.arr blocks)]

def chatAssistantMessage (m : Obj) : Option (List Json) :=
  let content := lastField m "content"
  (chatPartsToMessBlocks codec content).map fun parts =>
    let blocks := (firstChatReasoning m).toList.map thinkingBlock ++ parts ++
      ((content.bind asStr).filter (· ≠ "")).toList.map textBlock ++
      ((arr m "tool_calls").getD []).filterMap (chatToolUse codec)
    if blocks.isEmpty then [] else [message "assistant" (.arr blocks)]

def chatResultMessage (id : Option String) (content : Option Json) : List Json :=
  (contentText content).toList.map fun t => message "user" (.arr [toolResult (id.getD "") t])

/-- The messages of one message. -/
def chatMessage (m : Obj) : Option (List Json) :=
  let content := lastField m "content"
  match Role.ofString (str m "role") with
  | .user => chatUserMessage codec content
  | .assistant => chatAssistantMessage codec m
  | .tool => some (chatResultMessage (str m "tool_call_id") content)
  | .function => some (chatResultMessage (str m "name") content)
  | .system | .developer | .other => some []

def chatMessagesToMess (msgs : List Json) : Option (List Json) :=
  ((objects msgs).mapM (chatMessage codec)).map List.flatten

def chatToMessRequest (req : Obj) : Option Obj :=
  let system := (chatSystem req).toList.map fun s => ("system", Json.str s)
  match arr req "messages" with
  | some msgs => (chatMessagesToMess codec msgs).map fun out => system ++ [("messages", nilArr out)]
  | none => some system

/-! ### Messages to Responses -/

def systemPartText : Json → Option String
  | .str s => some s
  | .obj p => str p "text"
  | _ => none

def anthropicSystem (req : Obj) : Option String :=
  match lastField req "system" with
  | some (.str s) => some s
  | some (.arr parts) =>
    let texts := parts.filterMap systemPartText
    if texts.isEmpty then none else some (joinStrings texts "\n")
  | _ => none

def respMessage (role : String) (parts : List Json) : Json :=
  .obj [("type", .str "message"), ("role", .str role), ("content", .arr parts)]

def respTextPart (textType text : String) : Json :=
  .obj [("type", .str textType), ("text", .str text)]

def functionCall (id name arguments : String) : Json :=
  .obj [("type", .str "function_call"), ("id", .str id), ("call_id", .str id), ("name", .str name),
    ("arguments", .str arguments)]

def functionCallOutput (id output : String) : Json :=
  .obj [("type", .str "function_call_output"), ("call_id", .str id), ("output", .str output)]

/-- What is made of the blocks of one type, in their order. -/
def blocksOf {α : Type} (type : String) (f : Obj → Option α) (blocks : List Json) : List α :=
  (objects blocks).filterMap fun b => if str b "type" = some type then f b else none

def toolResults (make : String → String → Json) (blocks : List Json) : List Json :=
  blocksOf "tool_result" (fun b => some (make ((str b "tool_use_id").getD "")
    ((blockText (lastField b "content")).getD ""))) blocks

def respMessageItems (role : String) (parts : List Json) : List Json :=
  if parts.isEmpty then [] else [respMessage role parts]

def messTextParts (textType : String) (blocks : List Json) : List Json :=
  blocksOf "text" (fun b => (str b "text").map (respTextPart textType)) blocks

def messUserItems (content : Option Json) : List Json :=
  match content with
  | some (.str s) => respMessageItems "user" [respTextPart "input_text" s]
  | some (.arr blocks) =>
    respMessageItems "user" (messTextParts "input_text" blocks) ++
      toolResults functionCallOutput blocks
  | _ => []

def messReasoning (blocks : List Json) : List Json :=
  blocksOf "thinking" (fun b => (str b "thinking").map fun t =>
    .obj [("type", .str "reasoning"),
      ("summary", .arr [.obj [("type", .str "summary_text"), ("text", .str t)]])]) blocks

def toolUses (make : String → String → String → Json) (blocks : List Json) : List Json :=
  blocksOf "tool_use" (fun b => some (make ((str b "id").getD "") ((str b "name").getD "")
    (marshalAny codec (lastField b "input")))) blocks

/-- Only an array of blocks is looked at. -/
def messAssistantItems (content : Option Json) : List Json :=
  let blocks := (content.bind asArr).getD []
  respMessageItems "assistant" (messTextParts "output_text" blocks) ++ messReasoning blocks ++
    toolUses codec functionCall blocks

def messItems (m : Obj) : List Json :=
  let content := lastField m "content"
  match Role.ofString (str m "role") with
  | .user => messUserItems content
  | .assistant => messAssistantItems codec content
  | _ => []

def messMessagesToInput (msgs : List Json) : List Json := (objects msgs).flatMap (messItems codec)

def messToRespRequest (req : Obj) : Obj :=
  ((anthropicSystem req).toList.map fun s => ("instructions", Json.str s)) ++
    (arr req "messages").toList.map fun msgs => ("input", nilArr (messMessagesToInput codec msgs))

/-! ### Responses to Messages -/

/-- The text of an instruction item: a string, or any parts with a text. -/
def inputItemText (im : Obj) : Option String :=
  match lastField im "content" with
  | some (.str s) => some s
  | some (.arr parts) =>
    let texts := (objects parts).filterMap (str · "text")
    if texts.isEmpty then none else some (joinStrings texts "\n")
  | _ => none

def isInstruction (im : Obj) : Bool :=
  let role := Role.ofString (str im "role")
  role = .system ∨ role = .developer

def respInstructions (req : Obj) : Option String :=
  let items := (objects ((arr req "input").getD [])).filterMap fun im =>
    if isInstruction im then inputItemText im else none
  let parts := ((str req "instructions").filter (· ≠ "")).toList ++ items
  if parts.isEmpty then none else some (joinStrings parts "\n")

def respPartBlock (p : Obj) : Option Json :=
  let type := str p "type"
  if type = some "input_text" ∨ type = some "output_text" then (str p "text").map textBlock
  else if type = some "reasoning" then (str p "text").map thinkingBlock
  else none

def respMessageBlocks (content : Option Json) : List Json :=
  match content with
  | some (.str s) => [textBlock s]
  | some (.arr parts) => (objects parts).filterMap respPartBlock
  | _ => []

/-- The messages so far, each of the user or of the assistant, and whether blocks can still go to
the last one, which is then of the assistant. -/
structure MessLog where
  msgs : List (String × List Json) := []
  lastAssistant : Bool := false

namespace MessLog

def pushUser (log : MessLog) (blocks : List Json) : MessLog :=
  { msgs := log.msgs ++ [("user", blocks)], lastAssistant := false }

def pushAssistant (log : MessLog) (blocks : List Json) : MessLog :=
  { msgs := log.msgs ++ [("assistant", blocks)], lastAssistant := true }

/-- Blocks go to the assistant message that is last, or to a new one. -/
def attach (log : MessLog) (blocks : List Json) : MessLog :=
  let log := if log.lastAssistant then log else log.pushAssistant []
  { log with msgs := log.msgs.modify (log.msgs.length - 1) fun m => (m.1, m.2 ++ blocks) }

def messageItem (log : MessLog) (im : Obj) : MessLog :=
  let blocks := respMessageBlocks (lastField im "content")
  if blocks.isEmpty then log
  else
    match Role.ofString (str im "role") with
    | .user => log.pushUser blocks
    | .assistant => log.pushAssistant blocks
    | _ => log

/-- One input item; items of other types are dropped. -/
def item (log : MessLog) (im : Obj) : MessLog :=
  match ItemType.ofJson (lastField im "type") with
  | .message => log.messageItem im
  | .functionCall =>
    log.attach [toolUse (toolCallID im) ((str im "name").getD "")
      (parseJSON codec (lastField im "arguments"))]
  | .reasoning =>
    log.attach ((objects ((arr im "summary").getD [])).filterMap fun sm =>
      (str sm "text").map thinkingBlock)
  | .functionCallOutput =>
    log.pushUser [toolResult ((str im "call_id").getD "")
      ((blockText (lastField im "output")).getD "")]
  | .missing | .other => log

end MessLog

def respInputToMessMessages (input : List Json) : List Json :=
  ((objects input).foldl (MessLog.item codec) {}).msgs.map fun m => message m.1 (.arr m.2)

def respToMessRequest (req : Obj) : Obj :=
  ((respInstructions req).toList.map fun s => ("system", Json.str s)) ++
    match arr req "input", str req "input" with
    | some input, _ => [("messages", nilArr (respInputToMessMessages codec input))]
    | none, some s => [("messages", .arr [message "user" (.str s)])]
    | none, none => []

/-! ### Messages to Chat -/

def chatToolResult (id content : String) : Json :=
  .obj [("role", .str "tool"), ("tool_call_id", .str id), ("content", .str content)]

def chatToolCall (id name arguments : String) : Json :=
  .obj [("id", .str id), ("type", .str "function"),
    ("function", .obj [("name", .str name), ("arguments", .str arguments)])]

def messUserContentToChat (content : Option Json) : String × List Json :=
  match content with
  | some (.str s) => (s, [])
  | some (.arr blocks) =>
    (joinStrings (blocksOf "text" (str · "text") blocks) "\n", toolResults chatToolResult blocks)
  | _ => ("", [])

def messAssistantContentToChat (content : Option Json) : String × List Json × String :=
  match content with
  | some (.str s) => (s, [], "")
  | some (.arr blocks) =>
    (joinStrings (blocksOf "text" (str · "text") blocks) "", toolUses codec chatToolCall blocks,
      joinStrings (blocksOf "thinking" (str · "thinking") blocks) "")
  | _ => ("", [], "")

def chatAssistant (text : String) (calls : List Json) (reasoning : String) : List Json :=
  if text = "" ∧ calls.isEmpty ∧ reasoning = "" then []
  else
    [.obj ([("role", .str "assistant"), ("content", .str text)] ++
      (if calls.isEmpty then [] else [("tool_calls", .arr calls)]) ++
      if reasoning = "" then [] else [("reasoning_content", .str reasoning)])]

def messChatMessages (m : Obj) : List Json :=
  let content := lastField m "content"
  match Role.ofString (str m "role") with
  | .user =>
    let (text, results) := messUserContentToChat content
    results ++ if text = "" then [] else [message "user" (.str text)]
  | .assistant =>
    let (text, calls, reasoning) := messAssistantContentToChat codec content
    chatAssistant text calls reasoning
  | _ => []

def messMessagesToChat (msgs : List Json) : List Json :=
  (objects msgs).flatMap (messChatMessages codec)

def messToChatRequest (req : Obj) : Obj :=
  let messages := ((anthropicSystem req).toList.map fun s => message "system" (.str s)) ++
    messMessagesToChat codec ((arr req "messages").getD [])
  if messages.isEmpty then [] else [("messages", .arr messages)]

def respToChatRequest (req : Obj) : Obj := messToChatRequest codec (respToMessRequest codec req)

/-! ### Directions -/

/-- The conversions, from the client's protocol to the upstream's. -/
inductive Direction where
  | chatToResp
  | messToResp
  | respToMess
  | chatToMess
  | autoResponsesToChat
  | autoMessagesToChat
  deriving DecidableEq, Repr

def convertRequest (dir : Direction) (req : Obj) : Option Obj :=
  match dir with
  | .chatToResp => some (chatToRespRequest req)
  | .messToResp => some (messToRespRequest codec req)
  | .respToMess => some (respToMessRequest codec req)
  | .chatToMess => chatToMessRequest codec req
  | .autoResponsesToChat => some (respToChatRequest codec req)
  | .autoMessagesToChat => some (messToChatRequest codec req)

inductive Protocol where
  | chat
  | mess
  | resp
  deriving DecidableEq, Repr

def Direction.upstream : Direction → Protocol
  | .chatToResp | .messToResp => .resp
  | .respToMess | .chatToMess => .mess
  | .autoResponsesToChat | .autoMessagesToChat => .chat

def Direction.client : Direction → Protocol
  | .chatToResp | .chatToMess => .chat
  | .messToResp | .autoMessagesToChat => .mess
  | .respToMess | .autoResponsesToChat => .resp

end C4Gateway.Protoconv
