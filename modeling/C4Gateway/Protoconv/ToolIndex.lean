import C4Gateway.Protoconv.MessStream

/-! The indexes of tool calls in a Chat stream.  A Chat client keeps the calls in an array, and each
delta says by its index which of them it goes on with.  Responses and Messages streams number all
output items or content blocks together. -/

namespace C4Gateway.Protoconv

/-- A delta of a tool call: the first one, with its id and name, or some of its arguments. -/
inductive ToolPart where
  | call (index : Int) (id name : String)
  | arguments (index : Int)
  deriving DecidableEq, Repr

namespace ToolPart

def called : ToolPart → List (String × String)
  | .call _ id name => [(id, name)]
  | .arguments _ => []

/-- The part is about the next call, or goes on with one of `n` calls. -/
def Fits (n : Nat) : ToolPart → Prop
  | .call index _ _ => index = n
  | .arguments index => 0 ≤ index ∧ index < n

/-- The array of a Chat client. -/
def accumulate (calls : List (String × String)) : ToolPart → Option (List (String × String))
  | .call index id name => if index = calls.length then some (calls ++ [(id, name)]) else none
  | .arguments index => if 0 ≤ index ∧ index < calls.length then some calls else none

variable {p : ToolPart} {calls : List (String × String)}

theorem accumulate_of_fits (h : p.Fits calls.length) :
    accumulate calls p = some (calls ++ p.called) := by
  cases p with
  | call => exact if_pos h
  | arguments => exact (if_pos h).trans (congrArg some (List.append_nil _).symm)

theorem accumulate_of_not_fits (h : ¬p.Fits calls.length) : accumulate calls p = none := by
  cases p <;> exact if_neg h

end ToolPart

def ChatFrame.toolPart : ChatFrame → Option ToolPart
  | .chunk { delta := .toolCall index id name, .. } => some (.call index id name)
  | .chunk { delta := .toolArguments index _, .. } => some (.arguments index)
  | _ => none

open ChatFrame (toolPart)

/-- A client ends with these calls in its array, each with the id and name of its first delta. -/
def Assembles (frames : List ChatFrame) (calls : List (String × String)) : Prop :=
  Monitor.run ToolPart.accumulate [] (frames.filterMap toolPart) = some calls

/-! ### The tool calls of an upstream -/

section
variable (part : SseEvent → Option ToolPart)

def addCalled (calls : List (String × String)) (e : SseEvent) : List (String × String) :=
  calls ++ (part e).toList.flatMap ToolPart.called

/-- The upstream itself numbers its tool calls by their places among the tool calls. -/
def NumbersTools (events : List SseEvent) : Prop :=
  Run.Each (addCalled part) (fun calls e => ∀ p ∈ part e, p.Fits calls.length) [] events

variable {part}

theorem run_accumulate_iff (events : List SseEvent) (calls : List (String × String)) :
    Monitor.run ToolPart.accumulate calls (events.filterMap part) =
        some (events.foldl (addCalled part) calls) ↔
      Run.Each (addCalled part) (fun calls e => ∀ p ∈ part e, p.Fits calls.length) calls
        events := by
  induction events generalizing calls with
  | nil => exact iff_of_true rfl trivial
  | cons e events ih =>
    rw [Run.Each, ← ih (addCalled part calls e)]
    cases hp : part e with
    | none => simp [hp, addCalled]
    | some p =>
      rw [List.filterMap_cons_some hp]
      by_cases hfits : p.Fits calls.length
      · simp [ToolPart.accumulate_of_fits hfits, hfits, addCalled, hp]
      · simp [ToolPart.accumulate_of_not_fits hfits, hfits]

/-- A mapper that passes on the index of every part leaves the numbering to the upstream. -/
theorem assembles_iff {M : Type} {map : M → SseEvent → M × List ChatFrame}
    (h : ∀ m e, (map m e).2.filterMap toolPart = (part e).toList) (m : M)
    (events : List SseEvent) :
    Assembles (runMapper map m events) (events.foldl (addCalled part) []) ↔
      NumbersTools part events := by
  have hparts : ∀ m, (runMapper map m events).filterMap toolPart = events.filterMap part := by
    induction events with
    | nil => exact fun _ => rfl
    | cons e events ih =>
      intro m
      have hcons : runMapper map m (e :: events) =
          (map m e).2 ++ runMapper map (map m e).1 events := rfl
      rw [hcons, List.filterMap_append, h, ih, List.filterMap_cons]
      cases part e <;> rfl
  rw [Assembles, hparts]
  exact run_accumulate_iff events []

end

def respPart (name : RespEventName) (ev : Obj) : Option ToolPart :=
  match name with
  | .itemAdded => (getObj ev "item").bind fun item =>
      if getStr item "type" = some "function_call" then
        some (.call (gjsonNumInt (getField ev "output_index")) (RespMapper.fcID item)
          ((getStr item "name").getD ""))
      else none
  | .argumentsDelta => some (.arguments (gjsonNumInt (getField ev "output_index")))
  | _ => none

def respToolPart (e : SseEvent) : Option ToolPart :=
  match e.data with
  | .json (.obj ev) => respPart (.ofString e.eventName) ev
  | _ => none

def messPart (name : MessEventName) (ev : Obj) : Option ToolPart :=
  match name with
  | .blockStart => (objField ev "content_block").bind fun block =>
      if str block "type" = some "tool_use" then
        some (.call (intOr0 ev "index") ((str block "id").getD "") ((str block "name").getD ""))
      else none
  | .blockDelta => (objField ev "delta").bind fun delta =>
      if str delta "type" = some "input_json_delta" then some (.arguments (intOr0 ev "index"))
      else none
  | _ => none

def messToolPart (e : SseEvent) : Option ToolPart :=
  e.data.object.bind (messPart (.ofString e.eventName))

theorem RespMapper.toolPart_frames (m : RespMapper) (name : RespEventName) (ev : Obj) :
    (m.respToChatFrames name ev).2.filterMap toolPart = (respPart name ev).toList := by
  cases name with
  | itemAdded =>
    simp only [respToChatFrames, respPart]
    cases getObj ev "item" with
    | none => rfl
    | some item =>
      by_cases hr : getStr item "type" = some "reasoning"
      · have hf : getStr item "type" ≠ some "function_call" := by simp [hr]
        simp only [Option.bind_some, if_pos hr, if_neg hf]
        split <;> rfl
      · by_cases hf : getStr item "type" = some "function_call"
        · simp [hf, chatChunk, toolPart]
        · simp [hr, hf]
  | _ =>
    simp only [respToChatFrames]
    repeat' split
    all_goals rfl

theorem RespMapper.toolPart_mapChat (m : RespMapper) (e : SseEvent) :
    (m.mapChat e).2.filterMap toolPart = (respToolPart e).toList := by
  unfold mapChat mapFrame
  split
  next hname =>
    have hnone : respToolPart e = none := by
      unfold respToolPart
      rw [hname]
      split <;> rfl
    rw [hnone]
    split <;> rfl
  · unfold mapRespToChat respToolPart
    cases e.data with
    | text s => rfl
    | json j =>
      cases j with
      | obj ev => exact toolPart_frames ..
      | _ => rfl

theorem MessMapper.toolPart_frames (m : MessMapper) (name : MessEventName) (ev : Obj) :
    (m.messToChatFrames name ev).2.filterMap toolPart = (messPart name ev).toList := by
  cases name with
  | blockStart =>
    simp only [messToChatFrames, messPart]
    cases objField ev "content_block" with
    | none => rfl
    | some block =>
      by_cases ht : str block "type" = some "thinking"
      · by_cases htext : (str block "thinking").getD "" = "" <;> simp [ht, chatFrame, toolPart]
      · by_cases hu : str block "type" = some "tool_use"
        · simp [hu, chatFrame, toolPart]
        · simp [ht, hu]
  | blockDelta =>
    simp only [messToChatFrames, messPart]
    cases objField ev "delta" with
    | none => rfl
    | some delta =>
      by_cases ht : str delta "type" = some "thinking_delta"
      · simp [ht, chatFrame, toolPart]
      · by_cases hx : str delta "type" = some "text_delta"
        · simp [hx, chatFrame, toolPart]
        · by_cases hj : str delta "type" = some "input_json_delta" <;>
            simp [ht, hx, hj, chatFrame, toolPart]
  | _ =>
    simp only [messToChatFrames]
    repeat' split
    all_goals rfl

theorem MessMapper.toolPart_mapChat (m : MessMapper) (e : SseEvent) :
    (m.mapChat e).2.filterMap toolPart = (messToolPart e).toList := by
  unfold mapChat mapFrame
  split
  next hname =>
    have hnone : messToolPart e = none := by
      unfold messToolPart
      rw [hname]
      cases e.data.object <;> rfl
    rw [hnone]
    split <;> rfl
  · unfold mapMessToChat messToolPart
    cases e.data.object with
    | none => rfl
    | some ev => exact toolPart_frames ..

/-- A Chat client of either upstream gets the tool calls in their order, each with its id and name
in the first delta of its index, exactly if the upstream numbers its tool calls by themselves. -/
theorem chat_tools_indexed_iff (events : List SseEvent) :
    (Assembles (runMapper RespMapper.mapChat {} events)
        (events.foldl (addCalled respToolPart) []) ↔ NumbersTools respToolPart events) ∧
      (Assembles (runMapper MessMapper.mapChat {} events)
        (events.foldl (addCalled messToolPart) []) ↔ NumbersTools messToolPart events) :=
  ⟨assembles_iff RespMapper.toolPart_mapChat {} events,
    assembles_iff MessMapper.toolPart_mapChat {} events⟩

/-- A call after a reasoning item. -/
def reasonedCall : List SseEvent :=
  [{ name := "response.output_item.added", data := .json (.obj [("output_index", int 0),
      ("item", .obj [("type", .str "reasoning")])]) },
    { name := "response.output_item.added", data := .json (.obj [("output_index", int 1),
      ("item", .obj [("type", .str "function_call"), ("call_id", .str "c1"),
        ("name", .str "now")])]) }]

/-- A call after a thinking block. -/
def thoughtCall : List SseEvent :=
  [{ name := "content_block_start", data := .json (.obj [("index", int 0),
      ("content_block", .obj [("type", .str "thinking")])]) },
    { name := "content_block_start", data := .json (.obj [("index", int 1),
      ("content_block", .obj [("type", .str "tool_use"), ("id", .str "c1"),
        ("name", .str "now")])]) }]

theorem chat_tools_misindexed :
    (runMapper RespMapper.mapChat {} reasonedCall).filterMap toolPart = [.call 1 "c1" "now"] ∧
      (runMapper MessMapper.mapChat {} thoughtCall).filterMap toolPart = [.call 1 "c1" "now"] ∧
      ¬Assembles (runMapper RespMapper.mapChat {} reasonedCall) [("c1", "now")] ∧
      ¬Assembles (runMapper MessMapper.mapChat {} thoughtCall) [("c1", "now")] := by
  have hresp : (runMapper RespMapper.mapChat {} reasonedCall).filterMap toolPart =
      [.call 1 "c1" "now"] := by decide +kernel
  have hmess : (runMapper MessMapper.mapChat {} thoughtCall).filterMap toolPart =
      [.call 1 "c1" "now"] := by decide +kernel
  refine ⟨hresp, hmess, ?_, ?_⟩
  · rw [Assembles]
    decide
  · rw [Assembles]
    decide

end C4Gateway.Protoconv
