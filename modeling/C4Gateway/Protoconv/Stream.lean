import C4Gateway.Lib.Json
import C4Gateway.Lib.Monitor

/-! The streams of the protocol converters: upstream events with their data, the frames that a
client of the Chat or of the Messages protocol gets, and the order of events that the Messages
protocol prescribes. -/

namespace C4Gateway.Protoconv

abbrev Obj := List (String × Json)

/-! ### Fields -/

/-- A string field of a decoded object. -/
def str (m : Obj) (key : String) : Option String := (Json.lastField m key).bind Json.asStr

def arr (m : Obj) (key : String) : Option (List Json) := (Json.lastField m key).bind Json.asArr

def objField (m : Obj) (key : String) : Option Obj := (Json.lastField m key).bind Json.asObj

def num (m : Obj) (key : String) : Option Rat := (Json.lastField m key).bind Json.asNum

/-- The number of a value that is read here is the `float64` that decoding made of it. -/
def intOr0 (m : Obj) (key : String) : Int :=
  match num m key with
  | some f => if f < 0 ∨ f ≥ 2 ^ 63 then 0 else f.floor
  | none => 0

/-- `call_id`, or `id` where it is missing or empty. -/
def toolCallID (im : Obj) : String :=
  match str im "call_id" with
  | some id => if id ≠ "" then id else (str im "id").getD ""
  | none => (str im "id").getD ""

/-- `null` decodes into a map without fields. -/
def decodeObj : Json → Option Obj
  | .null => some []
  | .obj m => some m
  | _ => none

/-- The fields as the byte-level paths find them. -/
def getField (m : Obj) (key : String) : Option Json := Json.firstField m key

def getStr (m : Obj) (key : String) : Option String := (getField m key).bind Json.asStr

def getObj (m : Obj) (key : String) : Option Obj := (getField m key).bind Json.asObj

def gjsonNumInt (v : Option Json) : Int :=
  match v.bind Json.asNum with
  | some f => if f > 2 ^ 63 ∨ f < -2 ^ 63 then 0 else if f < 0 then f.ceil else f.floor
  | none => 0

/-! ### Upstream events -/

/-- The data of a frame: JSON, or any other text. -/
inductive Payload where
  | json (j : Json)
  | text (s : String)

def Payload.isEmpty : Payload → Bool
  | .text s => s = ""
  | .json _ => false

/-- The data as `decodeObj` reads it. -/
def Payload.object : Payload → Option Obj
  | .json j => decodeObj j
  | .text _ => none

structure SseEvent where
  name : String := ""
  data : Payload

/-- The `type` of an object stands in for a missing event name. -/
def inferEventName : Payload → String
  | .json (.obj m) => (str m "type").getD ""
  | _ => ""

def SseEvent.eventName (e : SseEvent) : String :=
  if e.name ≠ "" then e.name else inferEventName e.data

/-- The events of the Responses protocol that the mappers tell apart. -/
inductive RespEventName where
  | created
  | reasoningDelta
  | reasoningDone
  | textDelta
  | textDone
  | itemAdded
  | argumentsDelta
  | argumentsDone
  | completed
  | incomplete
  | failed
  | other
  deriving DecidableEq, Repr

def RespEventName.ofString (s : String) : RespEventName :=
  if s = "response.created" then .created
  else if s = "response.reasoning_summary_text.delta" ∨ s = "response.reasoning_text.delta" then
    .reasoningDelta
  else if s = "response.reasoning_summary_text.done" ∨ s = "response.reasoning_text.done" then
    .reasoningDone
  else if s = "response.output_text.delta" then .textDelta
  else if s = "response.output_text.done" then .textDone
  else if s = "response.output_item.added" then .itemAdded
  else if s = "response.function_call_arguments.delta" then .argumentsDelta
  else if s = "response.function_call_arguments.done" then .argumentsDone
  else if s = "response.completed" then .completed
  else if s = "response.incomplete" then .incomplete
  else if s = "response.failed" then .failed
  else .other

/-- The events that end a response. -/
def RespEventName.isTerminal : RespEventName → Bool
  | .completed | .incomplete | .failed => true
  | _ => false

/-! ### Client frames -/

/-- What a chunk adds to the answer. -/
inductive ChatDelta where
  | role
  | content (text : String)
  | reasoningContent (text : String)
  | toolCall (index : Int) (id name : String)
  | toolArguments (index : Int) (arguments : String)
  | none
  deriving DecidableEq, Repr

structure ChatUsage where
  completionTokens : Int
  promptTokens : Int
  cachedTokens : Option Int
  totalTokens : Int
  deriving DecidableEq, Repr

/-- A chunk with one choice, as the converter writes it. -/
structure ChatChunk where
  id : String
  model : String
  created : Int
  delta : ChatDelta
  finishReason : Option String := none
  usage : Option ChatUsage := none
  deriving DecidableEq, Repr

/-- What the converter writes to a chat stream. -/
inductive ChatFrame where
  | chunk (c : ChatChunk)
  | done
  | error (message : String)
  | raw (data : Payload)

/-- How a block of a message starts. -/
inductive ContentBlock where
  | thinking
  | text
  | toolUse (id name : String)
  deriving DecidableEq, Repr

inductive BlockDelta where
  | thinking (s : String)
  | text (s : String)
  | inputJson (s : String)
  deriving DecidableEq, Repr

inductive MessEvent where
  | messageStart (id model : String) (inputTokens : Int) (cacheRead : Option Int)
  | blockStart (index : Int) (block : ContentBlock)
  | blockDelta (index : Int) (delta : BlockDelta)
  | blockStop (index : Int)
  | messageDelta (stopReason : String) (outputTokens : Int)
  | messageStop
  | error (type message : String)
  deriving DecidableEq, Repr

/-- What the converter writes to a message stream; `raw` is passed on as it came. -/
inductive MessFrame where
  | event (e : MessEvent)
  | raw (data : Payload)

/-! ### The Messages protocol -/

/-- Before the stream; `started` blocks, of which some are stopped; after `message_delta`; after
`message_stop`. -/
inductive MessPhase where
  | fresh
  | streaming (started : Nat) (stopped : List Int)
  | closing
  | ended
  deriving DecidableEq, Repr

/-- The block has been started and not yet stopped. -/
def isOpen (started : Nat) (stopped : List Int) (index : Int) : Bool :=
  0 ≤ index ∧ index < started ∧ index ∉ stopped

def MessPhase.next : MessPhase → MessEvent → Option MessPhase
  | .fresh, .messageStart .. => some (.streaming 0 [])
  | .streaming n stopped, .blockStart index _ =>
    if index = n then some (.streaming (n + 1) stopped) else none
  | .streaming n stopped, .blockDelta index _ =>
    if isOpen n stopped index then some (.streaming n stopped) else none
  | .streaming n stopped, .blockStop index =>
    if isOpen n stopped index then some (.streaming n (index :: stopped)) else none
  | .streaming n stopped, .messageDelta .. =>
    if ∀ i < n, (i : Int) ∈ stopped then some .closing else none
  | .closing, .messageStop => some .ended
  | _, _ => none

/-- `message_start` first; blocks started as 0, 1, 2, …; deltas only for open blocks; every block
stopped once before `message_delta`; `message_stop` last. -/
def WellFormed (events : List MessEvent) : Prop :=
  Monitor.run MessPhase.next .fresh events = some .ended

instance (events : List MessEvent) : Decidable (WellFormed events) :=
  inferInstanceAs (Decidable (_ = _))

end C4Gateway.Protoconv
