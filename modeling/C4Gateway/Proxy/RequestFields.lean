import C4Gateway.Proxy.Body

/-! The types of the known fields of a request.  A field is looked up by its key as it is written, a
missing one and `null` pass, and the message names the field. -/

namespace C4Gateway.Proxy

open JsonText

inductive RequestJSONKind where
  | null
  | string
  | bool
  | number
  | integer
  | object
  | array
  deriving DecidableEq, Repr

/-- A field with the kinds of value that it may have. -/
structure RequestFieldSpec where
  key : String
  label : String
  kinds : List RequestJSONKind

def requestField (key label : String) (kinds : List RequestJSONKind) : RequestFieldSpec :=
  ⟨key, label, .null :: kinds⟩

def stringField (key : String) : RequestFieldSpec := requestField key "a string" [.string]

def boolField (key : String) : RequestFieldSpec := requestField key "a boolean" [.bool]

def numberField (key : String) : RequestFieldSpec := requestField key "a number" [.number]

def integerField (key : String) : RequestFieldSpec := requestField key "an integer" [.integer]

def objectField (key : String) : RequestFieldSpec := requestField key "an object" [.object]

def arrayField (key : String) : RequestFieldSpec := requestField key "an array" [.array]

def chatRequestFields : List RequestFieldSpec :=
  [arrayField "messages", stringField "model", numberField "frequency_penalty",
    boolField "logprobs", integerField "max_completion_tokens", integerField "max_tokens",
    integerField "n", numberField "presence_penalty", integerField "seed", boolField "store",
    numberField "temperature", integerField "top_logprobs", numberField "top_p",
    boolField "parallel_tool_calls", stringField "prompt_cache_key",
    stringField "safety_identifier", stringField "user", objectField "audio",
    objectField "logit_bias", objectField "metadata", arrayField "modalities",
    stringField "reasoning_effort", stringField "service_tier",
    requestField "stop" "a string or array" [.string, .array], boolField "stream",
    objectField "stream_options",
    requestField "function_call" "a string or object" [.string, .object], arrayField "functions",
    objectField "prediction", objectField "response_format",
    requestField "tool_choice" "a string or object" [.string, .object], arrayField "tools",
    objectField "web_search_options"]

def responsesRequestFields : List RequestFieldSpec :=
  [boolField "background", stringField "instructions", integerField "max_output_tokens",
    integerField "max_tool_calls", boolField "parallel_tool_calls",
    stringField "previous_response_id", boolField "store", numberField "temperature",
    integerField "top_logprobs", numberField "top_p", stringField "prompt_cache_key",
    stringField "safety_identifier", arrayField "include", objectField "metadata",
    objectField "prompt", stringField "service_tier", stringField "truncation",
    requestField "input" "a string or array" [.string, .array], stringField "model",
    objectField "reasoning", objectField "text",
    requestField "tool_choice" "a string or object" [.string, .object], arrayField "tools",
    boolField "stream"]

def anthropicRequestFields : List RequestFieldSpec :=
  [integerField "max_tokens", arrayField "messages", stringField "model", stringField "container",
    stringField "inference_geo", numberField "temperature", integerField "top_k",
    numberField "top_p", objectField "cache_control", objectField "metadata",
    objectField "output_config", stringField "service_tier", arrayField "stop_sequences",
    requestField "system" "a string or array" [.string, .array], objectField "thinking",
    objectField "tool_choice", arrayField "tools", boolField "stream"]

def requestFieldsFor : RequestFormat → List RequestFieldSpec
  | .openaiChat => chatRequestFields
  | .openaiResponses => responsesRequestFields
  | .anthropic => anthropicRequestFields
  | _ => []

def requestJSONValueKind (raw : List Char) : Option RequestJSONKind :=
  (Text.trimSpace raw).head?.map fun c =>
    if c = 'n' then .null
    else if c = '"' then .string
    else if c = 't' ∨ c = 'f' then .bool
    else if c = '{' then .object
    else if c = '[' then .array
    else .number

def isJSONInteger (raw : List Char) : Bool :=
  let raw := Text.trimSpace raw
  raw ≠ [] && !raw.any (fun c => c = '.' || c = 'e' || c = 'E') && (Text.parseInt64 raw).isSome

def requestJSONKindMatches (kind : Option RequestJSONKind) (allowed : List RequestJSONKind)
    (raw : List Char) : Bool :=
  match kind with
  | some .number => allowed.contains .integer && isJSONInteger raw || allowed.contains .number
  | some kind => allowed.contains kind
  | none => false

def RequestFieldSpec.accepts (spec : RequestFieldSpec) (raw : Option (List Char)) : Bool :=
  match raw with
  | none | some [] => true
  | some raw => requestJSONKindMatches (requestJSONValueKind raw) spec.kinds raw

/-- The text of the error, if there is one. -/
def validateRequestParameterTypes (format : RequestFormat) (body : List Char) : Option String :=
  let specs := requestFieldsFor format
  if specs.isEmpty then none
  else if isJSONObjectRoot body then
    let values := (scanKeys body (specs.map fun spec => spec.key.toList)).2
    ((specs.zip values).find? fun checked => !checked.1.accepts checked.2).map fun checked =>
      checked.1.key ++ " must be " ++ checked.1.label
  else some "body must be a JSON object"

/-- A body passes if and only if it is an object whose fields have the types that are listed. -/
theorem validateRequestParameterTypes_eq_none_iff (format : RequestFormat) (data : Data)
    (h : requestFieldsFor format ≠ []) :
    validateRequestParameterTypes format data.text = none ↔
      data.doc.isObj ∧ ∀ spec ∈ requestFieldsFor format,
        spec.accepts ((data.doc.rawField spec.key.toList).map Doc.text) = true := by
  have hempty : (requestFieldsFor format).isEmpty = false := List.isEmpty_eq_false_iff.mpr h
  simp only [validateRequestParameterTypes, hempty, isJSONObjectRoot_data, scanKeys_data]
  by_cases hobj : data.doc.isObj
  · simp [hobj, ← List.map_prod_left_eq_zip]
  · simp [hobj]

end C4Gateway.Proxy
