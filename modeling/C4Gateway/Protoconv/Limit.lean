import C4Gateway.Protoconv.Request

/-! The limit on the output of a request, which the converters write under the name that the target
protocol has for it.  The byte-level converter copies a value as it is written; the others decode
it, and write what the decoder kept of it. -/

namespace C4Gateway.Protoconv

open Option
open Json (lastField)

open List

def Protocol.limitNames : Protocol → List String
  | .chat => ["max_completion_tokens", "max_tokens"]
  | .mess => ["max_tokens"]
  | .resp => ["max_output_tokens"]

/-- The name that a converter writes. -/
def Protocol.limitName : Protocol → String
  | .chat | .mess => "max_tokens"
  | .resp => "max_output_tokens"

/-- A field, unless it is `null`. -/
def setField (req : Obj) (key : String) : Option Json :=
  (lastField req key).filter (!·.isNull)

/-- The limit that a request sets. -/
def Protocol.limit (p : Protocol) (req : Obj) : Option Json :=
  p.limitNames.findSome? (setField req)

open Protocol (limit limitNames)

/-! ### The converters -/

/-- The field that a Chat converter takes: `max_completion_tokens` if it is there. -/
def chatLimit (req : Obj) : Option Json :=
  (lastField req "max_completion_tokens").or (lastField req "max_tokens")

def limitField (name : String) (v : Option Json) : Obj := (v.map fun v => (name, v)).toList

def chatToRespBody (req : Obj) : Obj :=
  chatToRespRequest req ++ limitField "max_output_tokens" (chatLimit req)

section
variable (codec : Codec)

def chatToMessBody (req : Obj) : Option Obj :=
  (chatToMessRequest codec req).map
    (· ++ limitField "max_tokens" ((chatLimit req).map codec.round))

def messToRespBody (req : Obj) : Obj :=
  messToRespRequest codec req ++
    limitField "max_output_tokens" ((lastField req "max_tokens").map codec.round)

def respToMessBody (req : Obj) : Obj :=
  respToMessRequest codec req ++
    limitField "max_tokens" ((lastField req "max_output_tokens").map codec.round)

def messToChatBody (req : Obj) : Obj :=
  messToChatRequest codec req ++
    limitField "max_tokens" ((setField req "max_tokens").map codec.round)

def respToChatBody (req : Obj) : Obj := messToChatBody codec (respToMessBody codec req)

/-- `ConvertRequest`, for the conversation and the limit of a request. -/
def convertBody (dir : Direction) (req : Obj) : Option Obj :=
  match dir with
  | .chatToResp => some (chatToRespBody req)
  | .messToResp => some (messToRespBody codec req)
  | .respToMess => some (respToMessBody codec req)
  | .chatToMess => chatToMessBody codec req
  | .autoResponsesToChat => some (respToChatBody codec req)
  | .autoMessagesToChat => some (messToChatBody codec req)

end

/-- The converted request has the source's limit under one name, and no limit where the source sets
none. -/
def LimitKept (dir : Direction) (req out : Obj) : Prop :=
  out.filter (·.1 ∈ dir.upstream.limitNames) =
    limitField dir.upstream.limitName (dir.client.limit req)

/-- The field that a Chat converter takes is not `null`. -/
def ChatLimitSet (req : Obj) : Prop := ∀ v ∈ chatLimit req, ¬v.isNull

def LimitExact (codec : Codec) (dir : Direction) (req : Obj) : Prop :=
  let exact := ∀ v ∈ dir.client.limit req, codec.round v = v
  match dir with
  | .chatToResp => ChatLimitSet req
  | .chatToMess => ChatLimitSet req ∧ exact
  | .messToResp => (∀ v ∈ lastField req "max_tokens", ¬v.isNull) ∧ exact
  | .respToMess => (∀ v ∈ lastField req "max_output_tokens", ¬v.isNull) ∧ exact
  | .autoResponsesToChat => ∀ v ∈ dir.client.limit req, codec.round (codec.round v) = v
  | .autoMessagesToChat => exact

/-! ### What a converted request has -/

variable {conv : Obj} {name : String} (f : Json → Json) (o : Option Json) (codec : Codec)
  (req : Obj)

theorem filter_limitField {p : Protocol} (hconv : ∀ f ∈ conv, f.1 ∉ p.limitNames)
    (hname : name ∈ p.limitNames) (v : Option Json) :
    (conv ++ limitField name v).filter (·.1 ∈ p.limitNames) = limitField name v := by
  have hnone : conv.filter (·.1 ∈ p.limitNames) = [] := by
    rw [filter_eq_nil_iff]
    intro f hf
    simpa using hconv f hf
  rw [filter_append, hnone]
  cases v <;> simp [limitField, hname]

theorem limitField_inj {v w : Option Json} : limitField name v = limitField name w ↔ v = w := by
  cases v <;> cases w <;> simp [limitField]

/-- The converted request keeps the limit exactly if what is written is the limit. -/
theorem limitKept_iff {dir : Direction} {req : Obj} {v : Option Json}
    (hconv : ∀ f ∈ conv, f.1 ∉ dir.upstream.limitNames) (hname : name = dir.upstream.limitName)
    (hmem : name ∈ dir.upstream.limitNames) :
    LimitKept dir req (conv ++ limitField name v) ↔ v = dir.client.limit req := by
  rw [LimitKept, filter_limitField hconv hmem, ← hname, limitField_inj]

theorem findSome_single (f : String → Option Json) (key : String) :
    [key].findSome? f = f key := by
  rw [findSome?_cons]
  cases f key <;> rfl

/-- A field that is written whatever it is, is the limit if it is not `null`. -/
theorem eq_filter_iff :
    o.map f = o.filter (!·.isNull) ↔
      (∀ v ∈ o, ¬v.isNull) ∧ ∀ v ∈ o.filter (!·.isNull), f v = v := by
  cases o with
  | none => simp
  | some v => by_cases hnull : v.isNull <;> simp [filter_some, hnull]

theorem map_eq_self_iff : o.map f = o ↔ ∀ v ∈ o, f v = v := by
  cases o <;> simp

/-- A Chat converter that takes the first field, and the first field that is not `null`. -/
theorem chatLimit_eq_iff {f : Json → Json} (hf : ∀ v, (f v).isNull = v.isNull) (req : Obj) :
    (chatLimit req).map f = Protocol.chat.limit req ↔
      ChatLimitSet req ∧ ∀ v ∈ Protocol.chat.limit req, f v = v := by
  unfold ChatLimitSet chatLimit limit limitNames setField
  rw [findSome?_cons]
  cases lastField req "max_completion_tokens" with
  | none =>
    rw [filter_none, findSome_single, none_or]
    exact eq_filter_iff f _
  | some v =>
    by_cases hnull : v.isNull
    · have hlost : ¬∀ w ∈ some v, ¬w.isNull := fun h => h v rfl hnull
      simp only [some_or, hlost, false_and, iff_false]
      intro heq
      simp only [filter_some, hnull, Bool.not_true, findSome_single,
        map_some] at heq
      have hset := (filter_eq_some_iff.mp heq.symm).2
      rw [hf, hnull] at hset
      exact absurd hset (by decide)
    · simp [filter_some, hnull]

theorem keys_chatToRespRequest : ∀ f ∈ chatToRespRequest req, f.1 = "input" := by
  unfold chatToRespRequest
  split <;> simp

theorem keys_chatToMessRequest {req : Obj} (h : chatToMessRequest codec req = some conv) :
    ∀ f ∈ conv, f.1 = "system" ∨ f.1 = "messages" := by
  have hsystem : ∀ f ∈ (chatSystem req).toList.map fun s => ("system", Json.str s),
      f.1 = "system" := by simp
  unfold chatToMessRequest at h
  split at h
  · obtain ⟨msgs, -, rfl⟩ := map_eq_some_iff.mp h
    intro f hf
    rcases mem_append.mp hf with hf | hf
    · exact .inl (hsystem f hf)
    · rw [mem_singleton.mp hf]
      exact .inr rfl
  · obtain rfl := some_inj.mp h
    exact fun f hf => .inl (hsystem f hf)

theorem keys_messToRespRequest :
    ∀ f ∈ messToRespRequest codec req, f.1 = "instructions" ∨ f.1 = "input" := by
  intro f hf
  rcases mem_append.mp hf with hf | hf
  · obtain ⟨_, -, rfl⟩ := mem_map.mp hf
    exact .inl rfl
  · obtain ⟨_, -, rfl⟩ := mem_map.mp hf
    exact .inr rfl

theorem keys_respToMessRequest :
    ∀ f ∈ respToMessRequest codec req, f.1 = "system" ∨ f.1 = "messages" := by
  intro f hf
  rcases mem_append.mp hf with hf | hf
  · obtain ⟨_, -, rfl⟩ := mem_map.mp hf
    exact .inl rfl
  · right
    split at hf
    · rw [mem_singleton.mp hf]
    · rw [mem_singleton.mp hf]
    · simp at hf

theorem keys_messToChatRequest : ∀ f ∈ messToChatRequest codec req, f.1 = "messages" := by
  unfold messToChatRequest
  dsimp only
  split <;> simp

/-- A field that is not one of the conversation is the limit of the Messages request. -/
theorem limit_respToMessBody (hnull : ∀ v, (codec.round v).isNull = v.isNull) (req : Obj) :
    setField (respToMessBody codec req) "max_tokens" =
      (setField req "max_output_tokens").map codec.round := by
  have hnone : lastField (respToMessRequest codec req) "max_tokens" = none := by
    refine Json.lastField_eq_none fun hmem => ?_
    obtain ⟨f, hf, hkey⟩ := mem_map.mp hmem
    rcases keys_respToMessRequest codec req f hf with h | h <;>
      exact absurd (h.symm.trans hkey) (by decide)
  have hlast : lastField (respToMessBody codec req) "max_tokens" =
      (lastField req "max_output_tokens").map codec.round := by
    rw [respToMessBody, Json.lastField_append, hnone]
    cases lastField req "max_output_tokens" <;> simp [limitField]
  rw [setField, hlast, setField]
  cases lastField req "max_output_tokens" with
  | none => rfl
  | some v =>
    simp only [map_some, filter_some, hnull]
    split <;> rfl

/-- Conversion keeps the limit of a request, except that a `null` in the field that is looked at
first hides a limit or is written itself, and that a decoder rounds. -/
theorem limit_kept_iff (codec : Codec) (hnull : ∀ v, (codec.round v).isNull = v.isNull)
    (dir : Direction) (req out : Obj) (hout : convertBody codec dir req = some out) :
    LimitKept dir req out ↔ LimitExact codec dir req := by
  cases dir with
  | chatToResp =>
    obtain rfl := some_inj.mp hout
    refine (limitKept_iff ?_ rfl (by decide)).trans ?_
    · intro f hf
      rw [keys_chatToRespRequest req f hf]
      decide
    · simpa [LimitExact, Direction.client] using chatLimit_eq_iff (f := id) (fun _ => rfl) req
  | messToResp =>
    obtain rfl := some_inj.mp hout
    refine (limitKept_iff ?_ rfl (by decide)).trans ?_
    · intro f hf
      rcases keys_messToRespRequest codec req f hf with h | h <;> rw [h] <;> decide
    · rw [LimitExact, Direction.client, limit, limitNames, findSome_single]
      exact eq_filter_iff codec.round _
  | respToMess =>
    obtain rfl := some_inj.mp hout
    refine (limitKept_iff ?_ rfl (by decide)).trans ?_
    · intro f hf
      rcases keys_respToMessRequest codec req f hf with h | h <;> rw [h] <;> decide
    · rw [LimitExact, Direction.client, limit, limitNames, findSome_single]
      exact eq_filter_iff codec.round _
  | chatToMess =>
    obtain ⟨conv, hconv, rfl⟩ := map_eq_some_iff.mp hout
    refine (limitKept_iff ?_ rfl (by decide)).trans ?_
    · intro f hf
      rcases keys_chatToMessRequest codec hconv f hf with h | h <;> rw [h] <;> decide
    · exact chatLimit_eq_iff hnull req
  | autoResponsesToChat =>
    obtain rfl := some_inj.mp hout
    refine (limitKept_iff ?_ rfl (by decide)).trans ?_
    · intro f hf
      rw [keys_messToChatRequest codec _ f hf]
      decide
    · rw [limit_respToMessBody codec hnull, Option.map_map, LimitExact, Direction.client,
        limit, limitNames, findSome_single]
      exact map_eq_self_iff _ _
  | autoMessagesToChat =>
    obtain rfl := some_inj.mp hout
    refine (limitKept_iff ?_ rfl (by decide)).trans ?_
    · intro f hf
      rw [keys_messToChatRequest codec _ f hf]
      decide
    · rw [LimitExact, Direction.client, limit, limitNames, findSome_single]
      exact map_eq_self_iff _ _

/-- A request with both limits of the Chat protocol. -/
def limitedRequest (first : Json) : Obj :=
  [("max_tokens", .num 100), ("max_completion_tokens", first)]

theorem limit_kept_first : ∃ out,
    convertBody ⟨fun _ => none, fun _ => "", id, fun _ => none⟩ .chatToMess
      (limitedRequest (.num 50)) = some out ∧
        LimitKept .chatToMess (limitedRequest (.num 50)) out := by
  refine ⟨_, rfl, (limit_kept_iff ⟨fun _ => none, fun _ => "", id, fun _ => none⟩ (fun _ => rfl)
    .chatToMess (limitedRequest (.num 50)) _ rfl).mpr ⟨?_, fun _ _ => rfl⟩⟩
  intro v hv
  obtain rfl := some_inj.mp hv
  decide

/-- A `null` hides the limit of 100 tokens, and stands in the converted request. -/
theorem limit_hidden_by_null : ∃ out,
    convertBody ⟨fun _ => none, fun _ => "", id, fun _ => none⟩ .chatToResp (limitedRequest .null) =
        some out ∧
      ¬LimitKept .chatToResp (limitedRequest .null) out ∧
      Protocol.chat.limit (limitedRequest .null) = some (.num 100) := by
  refine ⟨[("max_output_tokens", .null)], rfl, fun h => ?_, rfl⟩
  have hsame : [("max_output_tokens", Json.null)] = [("max_output_tokens", .num 100)] := h
  simp at hsame

end C4Gateway.Protoconv
