import C4Gateway.Proxy.Scan
import C4Gateway.Proxy.UsageLog

/-! The usage of a response, out of the frames of a stream by the byte scanner and out of a whole
response by the SDK and gjson.  The two have key lists and fallbacks of their own. -/

namespace C4Gateway.Proxy

open JsonText

namespace Keys

def type := "type".toList
def response := "response".toList
def usage := "usage".toList
def message := "message".toList
def promptTokens := "prompt_tokens".toList
def completionTokens := "completion_tokens".toList
def totalTokens := "total_tokens".toList
def promptTokensDetails := "prompt_tokens_details".toList
def cachedTokens := "cached_tokens".toList
def cacheCreation := "cache_creation".toList
def ephemeral5m := "ephemeral_5m_input_tokens".toList
def ephemeral1h := "ephemeral_1h_input_tokens".toList
def inputTokens := "input_tokens".toList
def outputTokens := "output_tokens".toList
def inputTokensDetails := "input_tokens_details".toList
def cacheReadInputTokens := "cache_read_input_tokens".toList
def cacheReadTokens := "cache_read_tokens".toList
def cacheCreationInputTokens := "cache_creation_input_tokens".toList
def cacheWriteInputTokens := "cache_write_input_tokens".toList
def cacheCreationTokens := "cache_creation_tokens".toList
def tokens := "tokens".toList

attribute [irreducible] type response usage message promptTokens completionTokens totalTokens
  promptTokensDetails cachedTokens cacheCreation ephemeral5m ephemeral1h inputTokens outputTokens
  inputTokensDetails cacheReadInputTokens cacheReadTokens cacheCreationInputTokens
  cacheWriteInputTokens cacheCreationTokens tokens

end Keys

open Keys

/-- The loops that return at the first positive counter. -/
def firstPositive (counters : List Int) : Int := (counters.find? (0 < ·)).getD 0

/-- A counter that is read again under another name if it is not positive. -/
def fallback (n other : Int) : Int := if n ≤ 0 then other else n

def deductCacheRead (it cr : Int) : Int :=
  if cr ≤ 0 then it else if cr ≥ it then 0 else it - cr

/-! ### Frames of a stream -/

def scanIntValue (raw : List Char) : Int :=
  match raw with
  | [] => 0
  | c :: _ =>
    if c = '"' then
      match parseJSONString raw with
      | none => 0
      | some (val, _) => (Text.parseInt64 val).getD 0
    else (Text.parseInt64 raw).getD 0

def scanFieldInt64 (raw key : List Char) : Int :=
  match scanKeyValue raw key with
  | none => 0
  | some value => scanIntValue value

/-- A field of an object inside the object. -/
def scanNestedInt64 (raw outer key : List Char) : Int :=
  ((scanKeyValue raw outer).map fun inner => scanFieldInt64 inner key).getD 0

/-- The text is that of an object or an array. -/
def isStructured (raw : List Char) : Bool := raw.head? = some '{' || raw.head? = some '['

def usageInterval (data usageKey : List Char) : Option (List Char) :=
  (scanKeyValue data usageKey).filter isStructured

/-- The first counter that is positive, of all the names that upstreams use. -/
def cacheCreationTokensFromInterval (raw : List Char) : Int :=
  let nested : List Int :=
    match scanKeyValue raw cacheCreation with
    | none => []
    | some cache =>
      [addUsageTokens (scanFieldInt64 cache ephemeral5m) (scanFieldInt64 cache ephemeral1h),
        scanFieldInt64 cache cacheCreationInputTokens, scanFieldInt64 cache cacheWriteInputTokens,
        scanFieldInt64 cache inputTokens, scanFieldInt64 cache cacheCreationTokens,
        if isStructured cache then 0 else scanIntValue cache]
  firstPositive (nested ++ [scanFieldInt64 raw cacheCreationInputTokens,
    scanFieldInt64 raw cacheWriteInputTokens, scanFieldInt64 raw cacheCreationTokens])

def usageFieldsFromInterval (raw itKey otKey crKey : List Char) : UsageTuple :=
  let it := scanFieldInt64 raw itKey
  let ot := scanFieldInt64 raw otKey
  let details := scanNestedInt64 raw crKey cachedTokens
  let flat := firstPositive [scanFieldInt64 raw cacheReadInputTokens,
    scanFieldInt64 raw cacheReadTokens]
  let cr := if details ≤ 0 ∧ 0 < flat then flat else details
  { it := deductCacheRead it cr, ot
    tt := fallback (scanFieldInt64 raw totalTokens) (addUsageTokens it ot)
    cr, cc := cacheCreationTokensFromInterval raw }

def chatStreamUsage (data : List Char) : Option UsageTuple :=
  (usageInterval data Keys.usage).map fun raw =>
    usageFieldsFromInterval raw promptTokens completionTokens promptTokensDetails

/-- The keys that make a usage object one of Anthropic's. -/
def summaryKeys : List (List Char) :=
  [inputTokens, outputTokens, cacheReadInputTokens, cacheReadTokens,
    cacheCreationInputTokens, cacheWriteInputTokens]

def summaryUsage (raw : List Char) : UsageTuple :=
  let it := fallback (scanFieldInt64 raw inputTokens) (scanFieldInt64 raw promptTokens)
  let ot :=
    fallback (scanFieldInt64 raw outputTokens) (scanFieldInt64 raw completionTokens)
  { it, ot
    cr := fallback (scanFieldInt64 raw cacheReadInputTokens)
      (scanFieldInt64 raw cacheReadTokens)
    cc := fallback (scanFieldInt64 raw cacheCreationInputTokens)
      (scanFieldInt64 raw cacheWriteInputTokens)
    tt := fallback (scanFieldInt64 raw totalTokens) (addUsageTokens it ot) }

def anthropicSummaryUsageCompat (data : List Char) : Option UsageTuple :=
  (usageInterval data Keys.usage).bind fun raw =>
    if summaryKeys.any fun key => (scanKeyValue raw key).isSome then some (summaryUsage raw)
    else none

/-- The top-level type of a frame, as it is written. -/
def typeValue (data : List Char) : Option (List Char) :=
  (scanKeyValue data Keys.type).bind fun value =>
    if value.length ≤ 1 ∨ value.head? ≠ some '"' ∨ value.getLast? ≠ some '"' then none
    else some value.tail.dropLast

def usageStreamEventName (eventName data : List Char) : List Char :=
  if Text.trimSpace eventName ≠ [] then Text.trimSpace eventName else (typeValue data).getD []

/-- The usage object inside an object of a frame. -/
def innerUsageInterval (data key : List Char) : Option (List Char) :=
  (scanKeyValue data key).bind fun inner => usageInterval inner Keys.usage

def anthropicStartUsage (data : List Char) : Option UsageTuple :=
  (innerUsageInterval data Keys.message).map fun raw =>
    { it := scanFieldInt64 raw inputTokens
      cr := scanFieldInt64 raw cacheReadInputTokens
      cc := scanFieldInt64 raw cacheCreationInputTokens }

def anthropicStartUsageCompat (data : List Char) : Option UsageTuple :=
  (anthropicStartUsage data).or ((usageInterval data Keys.usage).map fun raw =>
    { it := fallback (scanFieldInt64 raw inputTokens) (scanFieldInt64 raw promptTokens)
      cr := fallback (scanFieldInt64 raw cacheReadInputTokens)
        (scanFieldInt64 raw cachedTokens)
      cc := fallback (scanFieldInt64 raw cacheCreationInputTokens)
        (scanFieldInt64 raw cacheCreationInputTokens) })

def deltaCounter (key data : List Char) : Option Int :=
  (usageInterval data Keys.usage).bind fun raw =>
    (scanKeyValue raw key).map fun _ => scanFieldInt64 raw key

def anthropicDeltaUsage (data : List Char) : Option Int := deltaCounter outputTokens data

def anthropicDeltaUsageCompat (data : List Char) : Option Int :=
  (anthropicDeltaUsage data).or (deltaCounter completionTokens data)

def messageStart := "message_start".toList
def messageDelta := "message_delta".toList

def chatStreamUsageEvent (eventName data : List Char) : Option UsageTuple :=
  let eventName := usageStreamEventName eventName data
  let named : Option UsageTuple :=
    if eventName = messageStart then
      (anthropicStartUsageCompat data).map fun t => { t with cacheReadExcludedFromTotal := true }
    else if eventName = messageDelta then
      (anthropicDeltaUsageCompat data).map fun ot =>
        { ot, cacheReadExcludedFromTotal := true }
    else none
  named.or <|
    ((anthropicSummaryUsageCompat data).map fun t =>
      { t with cacheReadExcludedFromTotal := true }).or (chatStreamUsage data)

/-- A later event replaces the counters that it has. -/
def mergeStreamUsage (dst next : UsageTuple) : UsageTuple :=
  if next.it = 0 ∧ next.ot = 0 ∧ next.tt = 0 ∧ next.cr = 0 ∧ next.cc = 0 then dst
  else
    { dst with
      it := if next.it > 0 then next.it else dst.it
      ot := if next.ot > 0 then next.ot else dst.ot
      tt := if next.tt > 0 then next.tt else dst.tt
      cr := if next.cr > 0 then next.cr else dst.cr
      cc := if next.cc > 0 then next.cc else dst.cc
      cacheReadExcludedFromTotal :=
        next.cacheReadExcludedFromTotal || dst.cacheReadExcludedFromTotal
      cacheReadIncludedInTotal := next.cacheReadIncludedInTotal || dst.cacheReadIncludedInTotal }

/-! ### Frames of a Responses stream -/

def responsesUsageFields (raw : List Char) : UsageTuple :=
  usageFieldsFromInterval raw inputTokens outputTokens inputTokensDetails

def responsesCompletedUsage (data : List Char) : Option UsageTuple :=
  (innerUsageInterval data Keys.response).map responsesUsageFields

def responsesTopLevelUsage (data : List Char) : Option UsageTuple :=
  (usageInterval data Keys.usage).map responsesUsageFields

def hasTotal (raw : List Char) : Bool := (scanKeyValue raw totalTokens).isSome

def responseUsageHasExplicitTotal (data : List Char) : Bool :=
  (innerUsageInterval data Keys.response).any hasTotal

def topLevelUsageHasExplicitTotal (data : List Char) : Bool :=
  (usageInterval data Keys.usage).any hasTotal

/-- The usage of the response, filled up from the one at the top level. -/
def responsesStreamUsage (data : List Char) : Option UsageTuple :=
  match responsesCompletedUsage data, responsesTopLevelUsage data with
  | none, top => top
  | some nested, none => some nested
  | some nested, some top =>
    let it := fallback nested.it top.it
    let ot := fallback nested.ot top.ot
    some { nested with
      it, ot
      tt :=
        if responseUsageHasExplicitTotal data then nested.tt
        else if topLevelUsageHasExplicitTotal data then top.tt
        else addUsageTokens it ot
      cr := fallback nested.cr top.cr
      cc := fallback nested.cc top.cc }

def responseCompleted := "response.completed".toList

def isResponsesCompletedType (data : List Char) : Bool := typeValue data = some responseCompleted

def isResponsesCompletedEvent (eventName data : List Char) : Bool :=
  eventName = responseCompleted || isResponsesCompletedType data

/-! ### Whole responses -/

/-- How the SDK reads an `int64` field that may be missing, and how gjson reads an integer. -/
structure Decoders where
  sdkInt : Option Doc → Int
  gjsonInt : Doc → Int

section
variable (dec : Decoders)

/-- The value at a path, which goes through objects. -/
def gjsonGet (u : Doc) (path : List (List Char)) : Option Doc :=
  path.foldl (fun d key => d.bind fun d => d.firstField key) (some u)

def gjsonCount (u : Doc) (path : List (List Char)) : Int :=
  ((gjsonGet u path).map dec.gjsonInt).getD 0

def cacheCreationFromRaw (u : Doc) : Int :=
  let cc := addUsageTokens (gjsonCount dec u [cacheCreation, ephemeral5m])
    (gjsonCount dec u [cacheCreation, ephemeral1h])
  if cc > 0 then cc
  else
    firstPositive ([[cacheCreationInputTokens], [cacheWriteInputTokens],
      [cacheCreation, inputTokens], [cacheCreation, Keys.tokens],
      [cacheCreationTokens]].map (gjsonCount dec u))

/-- A value that is there and not `null`. -/
def presentInt : Option Doc → Int
  | none | some .null => 0
  | some value => dec.gjsonInt value

def rawUsageNumber (u : Doc) (paths : List (List (List Char))) : Int :=
  firstPositive (paths.map fun path => presentInt dec (gjsonGet u path))

/-- What the SDK has decoded: the native fields, and the object that they come from. -/
structure SdkUsage where
  input : Int
  output : Int
  total : Int
  cached : Int
  rawJSON : Doc

def decodeUsage (itKey otKey crKey : List Char) (u : Doc) : SdkUsage where
  input := dec.sdkInt (u.lastField itKey)
  output := dec.sdkInt (u.lastField otKey)
  total := dec.sdkInt (u.lastField totalTokens)
  cached := dec.sdkInt ((u.lastField crKey).bind fun details => details.lastField cachedTokens)
  rawJSON := u

/-- What the two whole-response readings have in common. -/
def usageFromResponse (itKeys otKeys : List (List Char)) (crKey : List Char) (u : SdkUsage) :
    UsageTuple :=
  let raw := u.rawJSON
  let it := fallback u.input (rawUsageNumber dec raw (itKeys.map ([·])))
  let ot := fallback u.output (rawUsageNumber dec raw (otKeys.map ([·])))
  let tt := fallback u.total (rawUsageNumber dec raw [[totalTokens]])
  let cr := fallback u.cached (rawUsageNumber dec raw [[crKey, cachedTokens],
    [cacheReadInputTokens], [cacheReadTokens], [cachedTokens]])
  let cc := fallback (cacheCreationFromRaw dec raw) (rawUsageNumber dec raw
    [[cacheCreationInputTokens], [cacheWriteInputTokens], [cacheCreation, inputTokens]])
  { it := deductCacheRead it cr, ot, tt := fallback tt (addUsageTokens it ot), cr, cc }

def completionUsage (u : Doc) : SdkUsage :=
  decodeUsage dec promptTokens completionTokens promptTokensDetails u

def responseUsage (u : Doc) : SdkUsage :=
  decodeUsage dec inputTokens outputTokens inputTokensDetails u

def chatUsageFromResponse (u : SdkUsage) : UsageTuple :=
  usageFromResponse dec [promptTokens, inputTokens]
    [completionTokens, outputTokens] promptTokensDetails u

def responsesUsageFromResponse (u : SdkUsage) : UsageTuple :=
  usageFromResponse dec [inputTokens, promptTokens]
    [outputTokens, completionTokens] inputTokensDetails u

end
end C4Gateway.Proxy
